import EnvoyProxy.Dubbo.JsonToHessian
import EnvoyProxy.Dubbo.Expansion
/-!
# JSON through Hessian and back

A JSON value that is not too deep and has no member twice comes back when it
is converted to Hessian and rendered: the same value up to the order of
members, without the null members if these are ignored. Nothing is known
about the order in which the maps in between are iterated.
-/

namespace EnvoyProxy.Dubbo
open Json

/-! ## The values compared -/

section Values

mutual
/-- The depth of the deepest node, the root being at depth 0. -/
def height : Value → Nat
  | .array vs => heights vs
  | .object ms => memberHeights ms
  | _ => 0
def heights : List Value → Nat
  | [] => 0
  | v :: vs => max (height v + 1) (heights vs)
def memberHeights : List (Bytes × Value) → Nat
  | [] => 0
  | (_, v) :: ms => max (height v + 1) (memberHeights ms)
end

mutual
/-- No object has two members of one name. -/
def DistinctNames : Value → Prop
  | .array vs => DistinctNamesAll vs
  | .object ms => (ms.map (·.1)).Nodup ∧ DistinctNamesMembers ms
  | _ => True
def DistinctNamesAll : List Value → Prop
  | [] => True
  | v :: vs => DistinctNames v ∧ DistinctNamesAll vs
def DistinctNamesMembers : List (Bytes × Value) → Prop
  | [] => True
  | (_, v) :: ms => DistinctNames v ∧ DistinctNamesMembers ms
end

mutual
/-- The value without the null members of objects, at every level. -/
def dropNulls : Value → Value
  | .array vs => .array (dropNullsAll vs)
  | .object ms => .object (dropNullMembers ms)
  | v => v
def dropNullsAll : List Value → List Value
  | [] => []
  | v :: vs => dropNulls v :: dropNullsAll vs
def dropNullMembers : List (Bytes × Value) → List (Bytes × Value)
  | [] => []
  | (k, v) :: ms => if isNull v then dropNullMembers ms else (k, dropNulls v) :: dropNullMembers ms
end

mutual
/-- Equal up to the order of members. -/
inductive Same : Value → Value → Prop
  | null : Same .null .null
  | bool {b : Bool} : Same (.bool b) (.bool b)
  | int {i : Int64} : Same (.int i) (.int i)
  /-- An integer from 2^63 on comes back as the double nearest to it. -/
  | unsigned {n : UInt64} {large : 2 ^ 63 ≤ n.toNat} : Same (.unsigned n large) (.double (.ofUnsigned n large))
  | double {d : Double} : Same (.double d) (.double d)
  | string {s : Bytes} : Same (.string s) (.string s)
  | array {vs ws : List Value} : SameElements vs ws → Same (.array vs) (.array ws)
  | object {ms ns ns' : List (Bytes × Value)} : SameMembers ms ns → ns.Perm ns' → Same (.object ms) (.object ns')
inductive SameElements : List Value → List Value → Prop
  | nil : SameElements [] []
  | cons {v w : Value} {vs ws : List Value} : Same v w → SameElements vs ws → SameElements (v :: vs) (w :: ws)
inductive SameMembers : List (Bytes × Value) → List (Bytes × Value) → Prop
  | nil : SameMembers [] []
  | cons {k : Bytes} {v w : Value} {ms ns : List (Bytes × Value)} :
      Same v w → SameMembers ms ns → SameMembers ((k, v) :: ms) ((k, w) :: ns)
end

/-- What the conversion keeps of a value. -/
def kept (ignoreNullMapPair : Bool) (v : Value) : Value := if ignoreNullMapPair then dropNulls v else v

def keptAll (ignoreNullMapPair : Bool) (vs : List Value) : List Value :=
  if ignoreNullMapPair then dropNullsAll vs else vs

def keptMembers (ignoreNullMapPair : Bool) (ms : List (Bytes × Value)) : List (Bytes × Value) :=
  if ignoreNullMapPair then dropNullMembers ms else ms

end Values

/-! ## Maps -/

/-- Distinct keys are all emplaced, one behind the other. -/
theorem foldl_emplace {ps : List (Bytes × HessianValue)} (h : (ps.map (·.1)).Nodup) :
    ps.foldl emplace [] = ps.map fun p => (HessianValue.string p.1, p.2) := by
  have haux : ∀ (ps : List (Bytes × HessianValue)) (es : List (HessianValue × HessianValue)), (ps.map (·.1)).Nodup →
      (∀ p ∈ ps, ∀ e ∈ es, e.1.node.toString ≠ some p.1) →
      ps.foldl emplace es = es ++ ps.map fun p => (HessianValue.string p.1, p.2) := by
    intro ps
    induction ps with
    | nil => intro es _ _; simp
    | cons p ps ih =>
      intro es hnodup hnew
      simp only [List.map_cons, List.nodup_cons] at hnodup
      have habsent : es.any (fun e => decide (e.1.node.toString = some p.1)) = false := by
        simpa using hnew p List.mem_cons_self
      have hstep : emplace es p = es ++ [(.string p.1, p.2)] := by simp [emplace, habsent]
      rw [List.foldl_cons, hstep, ih _ hnodup.2]
      · simp
      · intro q hq e he
        rcases List.mem_append.1 he with he | he
        · exact hnew q (List.mem_cons_of_mem _ hq) e he
        · rw [List.mem_singleton.1 he]
          simp only [HessianValue.node, Node.toString, ne_eq, Option.some.injEq]
          intro heq
          exact hnodup.1 (List.mem_map.2 ⟨q, hq, heq.symm⟩)
  simpa using haux ps [] h (by simp)

/-- The names of the emplaced pairs are names of members. -/
theorem dictData_names (order : HashOrder) (ign : Bool) (ms : List (Bytes × Value)) (depth : Nat)
    (place : List Nat) (i : Nat) :
    ((dictData order ign ms depth place i).map (·.1)).Sublist (ms.map (·.1)) := by
  induction ms generalizing i with
  | nil => simp [dictData]
  | cons m ms ih =>
    rw [dictData]
    split_ifs
    · exact (ih _).cons _
    · exact (ih _).cons_cons _

/-- An entry of a map and the member it is rendered as. -/
def RendersAs (dtoa : UInt64 → Bytes) (e : HessianValue × HessianValue) (m : Bytes × Value) : Prop :=
  e.1 = .string m.1 ∧ treeText dtoa e.2 = .ok (m.2.text dtoa)

theorem treeText_untypedMap {dtoa : UInt64 → Bytes} {es : List (HessianValue × HessianValue)}
    {ms : List (Bytes × Value)}
    (h : List.Forall₂ (RendersAs dtoa) es ms) :
    treeText dtoa (.untypedMap es) = .ok ((Value.object ms).text dtoa) := by
  have hmap : (es.mapM fun e => do return (← keyOf HessianValue.node (treeText dtoa) e.1, ← treeText dtoa e.2)) =
      .ok (Value.memberTexts dtoa ms) := by
    induction h with
    | nil => rfl
    | @cons e m es ms he _ ih =>
      obtain ⟨k, v⟩ := m
      obtain ⟨hkey, hvalue⟩ := he
      rw [List.mapM_cons, ih, hvalue]
      dsimp only at hkey
      rw [hkey]
      rfl
  rw [treeText_eq]
  simp only [HessianValue.node, nodeText]
  rw [hmap]
  rfl

theorem treeText_untypedList {dtoa : UInt64 → Bytes} {hs : List HessianValue} {vs : List Value}
    (h : List.Forall₂ (fun x v => treeText dtoa x = .ok (v.text dtoa)) hs vs) :
    treeText dtoa (.untypedList hs) = .ok ((Value.array vs).text dtoa) := by
  have hmap : hs.mapM (treeText dtoa) = .ok (Value.texts dtoa vs) := by
    induction h with
    | nil => rfl
    | cons hx _ ih =>
      rw [List.mapM_cons, ih, hx]
      rfl
  rw [treeText_eq]
  simp only [HessianValue.node, nodeText, hmap, ok_bind, pure_ok]
  rfl

/-! ## Conversion and rendering -/

section Conversion
variable {dtoa : UInt64 → Bytes} {order : HashOrder}

/-- An integer of 32 bits is not changed by the cast. -/
theorem toInt_toInt32 {i : Int64} (h : isInt (.int i) = true) : i.toInt32.toInt = i.toInt := by
  simp only [isInt, Bool.and_eq_true, decide_eq_true_eq] at h
  have hmin : Int32.minValue.toInt = -2 ^ 31 := rfl
  have hmax : Int32.maxValue.toInt = 2 ^ 31 - 1 := rfl
  rw [Int64.toInt_toInt32]
  apply Int.bmod_eq_of_le <;> omega

theorem kept_array (ign : Bool) (vs : List Value) : kept ign (.array vs) = .array (keptAll ign vs) := by
  cases ign <;> simp [kept, keptAll, dropNulls]

theorem kept_object (ign : Bool) (ms : List (Bytes × Value)) :
    kept ign (.object ms) = .object (keptMembers ign ms) := by
  cases ign <;> simp [kept, keptMembers, dropNulls]

theorem keptAll_cons (ign : Bool) (v : Value) (vs : List Value) :
    keptAll ign (v :: vs) = kept ign v :: keptAll ign vs := by
  cases ign <;> simp [kept, keptAll, dropNullsAll]

theorem keptMembers_cons (ign : Bool) (k : Bytes) (v : Value) (ms : List (Bytes × Value)) :
    keptMembers ign ((k, v) :: ms) =
      if ign && isNull v then keptMembers ign ms else (k, kept ign v) :: keptMembers ign ms := by
  cases ign <;> simp [kept, keptMembers, dropNullMembers]

mutual
/-- What a converted value is rendered as. -/
theorem internal_text (horder : ∀ place es, (order place es).Perm es) (ign : Bool) :
    (v : Value) → ∀ (depth : Nat) (place : List Nat), depth + height v < 50 → DistinctNames v →
      ∃ v', treeText dtoa (jsonValueToHessianValueInternal order ign v depth place) = .ok (v'.text dtoa) ∧
        Same (kept ign v) v'
  | .null, depth, place, hdepth, _ => by
    simp only [height] at hdepth
    rw [jsonValueToHessianValueInternal, if_neg (by omega), treeText_eq]
    cases ign <;> exact ⟨.null, rfl, .null⟩
  | .bool b, depth, place, hdepth, _ => by
    simp only [height] at hdepth
    rw [jsonValueToHessianValueInternal, if_neg (by omega), treeText_eq]
    cases ign <;> exact ⟨.bool b, rfl, .bool⟩
  | .int i, depth, place, hdepth, _ => by
    simp only [height] at hdepth
    rw [jsonValueToHessianValueInternal, if_neg (by omega), treeText_eq]
    refine ⟨.int i, ?_, by cases ign <;> exact .int⟩
    split_ifs with hint
    · simp only [HessianValue.node, nodeText, toInt_toInt32 hint]
      rfl
    · rfl
  | .unsigned n large, depth, place, hdepth, _ => by
    simp only [height] at hdepth
    rw [jsonValueToHessianValueInternal, if_neg (by omega), treeText_eq]
    refine ⟨.double (.ofUnsigned n large), ?_, by cases ign <;> exact .unsigned⟩
    simp only [HessianValue.node, nodeText, (Double.ofUnsigned n large).finite, if_true]
    rfl
  | .double d, depth, place, hdepth, _ => by
    simp only [height] at hdepth
    rw [jsonValueToHessianValueInternal, if_neg (by omega), treeText_eq]
    refine ⟨.double d, ?_, by cases ign <;> exact .double⟩
    simp only [HessianValue.node, nodeText, d.finite, if_true]
    rfl
  | .string s, depth, place, hdepth, _ => by
    simp only [height] at hdepth
    rw [jsonValueToHessianValueInternal, if_neg (by omega), treeText_eq]
    cases ign <;> exact ⟨.string s, rfl, .string⟩
  | .array vs, depth, place, hdepth, hnames => by
    simp only [height, DistinctNames] at hdepth hnames
    obtain ⟨vs', hvs', hsame⟩ := listData_text horder ign vs (depth + 1) place 0 (by omega) hnames
    rw [jsonValueToHessianValueInternal, if_neg (by omega), kept_array]
    exact ⟨.array vs', treeText_untypedList hvs', .array hsame⟩
  | .object ms, depth, place, hdepth, hnames => by
    simp only [height, DistinctNames] at hdepth hnames
    obtain ⟨ms', hms', hsame⟩ := dictData_text horder ign ms (depth + 1) place 0 (by omega) hnames.2
    rw [jsonValueToHessianValueInternal, if_neg (by omega), kept_object]
    have hnodup := (dictData_names order ign ms (depth + 1) place 0).nodup hnames.1
    -- whatever order the map is iterated in, the members come out in that order
    obtain ⟨ns, hns, hperm⟩ := List.perm_comp_forall₂ (horder place _) (foldl_emplace hnodup ▸ hms')
    exact ⟨.object ns, treeText_untypedMap hns, .object hsame hperm.symm⟩
theorem listData_text (horder : ∀ place es, (order place es).Perm es) (ign : Bool) :
    (vs : List Value) → ∀ (depth : Nat) (place : List Nat) (i : Nat), depth + heights vs ≤ 50 → DistinctNamesAll vs →
      ∃ vs', List.Forall₂ (fun x v => treeText dtoa x = .ok (v.text dtoa))
      (listData order ign vs depth place i) vs' ∧
        SameElements (keptAll ign vs) vs'
  | [], depth, place, i, _, _ => by
    refine ⟨[], .nil, ?_⟩
    cases ign <;> exact .nil
  | v :: vs, depth, place, i, hdepth, hnames => by
    simp only [heights, DistinctNamesAll] at hdepth hnames
    obtain ⟨v', hv', hsame⟩ := internal_text horder ign v depth (i :: place) (by omega) hnames.1
    obtain ⟨vs', hvs', hrest⟩ := listData_text horder ign vs depth place (i + 1) (by omega) hnames.2
    rw [listData, keptAll_cons]
    exact ⟨v' :: vs', .cons hv' hvs', .cons hsame hrest⟩
theorem dictData_text (horder : ∀ place es, (order place es).Perm es) (ign : Bool) :
    (ms : List (Bytes × Value)) → ∀ (depth : Nat) (place : List Nat) (i : Nat), depth + memberHeights ms ≤ 50 →
      DistinctNamesMembers ms →
      ∃ ms', List.Forall₂ (RendersAs dtoa)
          ((dictData order ign ms depth place i).map fun p => (HessianValue.string p.1, p.2)) ms' ∧
        SameMembers (keptMembers ign ms) ms'
  | [], depth, place, i, _, _ => by
    refine ⟨[], .nil, ?_⟩
    cases ign <;> exact .nil
  | (k, v) :: ms, depth, place, i, hdepth, hnames => by
    simp only [memberHeights, DistinctNamesMembers] at hdepth hnames
    obtain ⟨v', hv', hsame⟩ := internal_text horder ign v depth (i :: place) (by omega) hnames.1
    obtain ⟨ms', hms', hrest⟩ := dictData_text horder ign ms depth place (i + 1) (by omega) hnames.2
    rw [dictData, keptMembers_cons]
    split_ifs
    · exact ⟨ms', hms', hrest⟩
    · exact ⟨(k, v') :: ms', .cons ⟨rfl, hv'⟩ hms', .cons hsame hrest⟩
end

end Conversion

open Classical in
/-- A type without a converter: rendering the converted value and reading the
text gives the value back, up to the order of members; with
`ignore_null_map_pair`, without its null members. -/
theorem json_round_trip {json : Rapidjson} {order : HashOrder}
    (horder : ∀ place es, (order place es).Perm es) (v : Value) (hdepth : height v < 50) (hnames : DistinctNames v)
    {type : Bytes} (htype : type ∉ (typedJsonConverters json order).map (·.1)) :
    (∃ h t v', jsonValueToHessianValue json order v type false = .ok h ∧
      EndsWith (fun fuel => hessianValueToJsonString json.dtoa HessianValue.node fuel (some h)) (.ok t) ∧
      Json.read json.strtod t = some v' ∧ Same v v') ∧
    ∃ h t v', jsonValueToHessianValue json order v type true = .ok h ∧
      EndsWith (fun fuel => hessianValueToJsonString json.dtoa HessianValue.node fuel (some h)) (.ok t) ∧
      Json.read json.strtod t = some v' ∧ Same (dropNulls v) v' := by
  have hlookup : (typedJsonConverters json order).lookup type = none := by
    rw [List.lookup_eq_none_iff]
    intro p hp
    simp only [bne_iff_ne]
    rintro rfl
    exact htype (List.mem_map_of_mem hp)
  have hround : ∀ ign, ∃ h t v', jsonValueToHessianValue json order v type ign = .ok h ∧
      EndsWith (fun fuel => hessianValueToJsonString json.dtoa HessianValue.node fuel (some h)) (.ok t) ∧
      Json.read json.strtod t = some v' ∧ Same (kept ign v) v' := by
    intro ign
    obtain ⟨v', hv', hsame⟩ : ∃ v', treeText json.dtoa (jsonValueToHessianValueInternal order ign v 0 []) =
        .ok (v'.text json.dtoa) ∧ Same (kept ign v) v' := internal_text horder ign v 0 [] (by omega) hnames
    have hends := hessianValueToJsonString_ends json.dtoa HessianValue.node HessianValue.holds_wf
      (jsonValueToHessianValueInternal order ign v 0 [])
    have htext : text json.dtoa HessianValue.node HessianValue.holds_wf
        (jsonValueToHessianValueInternal order ign v 0 []) = .ok (v'.text json.dtoa) := hv'
    rw [htext] at hends
    refine ⟨_, _, v', ?_, hends, read_text json.printable v', hsame⟩
    simp only [jsonValueToHessianValue, hlookup]
  exact ⟨hround false, hround true⟩

open Classical in
/-- A value with a null member, iterated backwards. -/
theorem round_trip_reversed :
    ∃ h t v', jsonValueToHessianValue bitsJson (fun _ es => es.reverse)
        (.object [(ascii "a", .null), (ascii "b", .array [.int 1, .null, .double ⟨0x3ff8000000000000, rfl⟩])])
        (ascii "com.example.Order") true = .ok h ∧
      EndsWith (fun fuel => hessianValueToJsonString bitsJson.dtoa HessianValue.node fuel (some h)) (.ok t) ∧
      Json.read bitsJson.strtod t = some v' ∧
      Same (.object [(ascii "b", .array [.int 1, .null, .double ⟨0x3ff8000000000000, rfl⟩])]) v' := by
  have htype : ascii "com.example.Order" ∉ (typedJsonConverters bitsJson (fun _ es => es.reverse)).map (·.1) := by
    simp only [typedJsonConverters, List.map_cons, List.map_nil]
    decide
  obtain ⟨-, h, t, v', hh, hends, hread, hsame⟩ := json_round_trip (fun _ es => es.reverse_perm)
    (.object [(ascii "a", .null), (ascii "b", .array [.int 1, .null, .double ⟨0x3ff8000000000000, rfl⟩])])
    (by decide) (by simp [DistinctNames, DistinctNamesMembers, DistinctNamesAll, ascii]) htype
  exact ⟨h, t, v', hh, hends, hread, hsame⟩

end EnvoyProxy.Dubbo
