import EnvoyProxy.Dubbo.Request
import EnvoyProxy.Dubbo.Converted
/-!
# Generic types

What `populateGenericTypes` does to a tree, said without the walk: an untyped
map at an address that a path selects gets a class, unless it has one, and
nothing else changes. `annotate` is that; the walk for one path is an
annotation, and two annotations one after the other are one in which the first
goes before the second.
-/

namespace EnvoyProxy.Dubbo
open Json

/-! ## Addresses -/

/-- A step from a list to an element, or from a map to the value under a key. -/
inductive Step
  | element (i : Nat)
  | value (key : HessianValue)

/-- The steps from the root of a tree to a node. -/
abbrev Address := List Step

/-- `*` steps to every element and every value, any other frame to the value
under that string. -/
def selects (frame : Bytes) : Step → Bool
  | .element _ => frame = ascii "*"
  | .value key => frame = ascii "*" || isKey frame key

/-- A path selects an address, frame by frame. -/
def matchesAddress : List Bytes → Address → Bool
  | [], [] => true
  | frame :: path, step :: address => selects frame step && matchesAddress path address
  | _, _ => false

/-- The type of the first pair whose path selects the address. -/
def firstType (genericTypes : List GenericType) (address : Address) : Option Bytes :=
  (genericTypes.find? fun g => matchesAddress g.splitedPath address).map (·.type)

/-! ## Annotating a tree -/

/-- An entry for the class of a map that has none. -/
def withClass (type : Option Bytes) (entries : List (HessianValue × HessianValue)) : List (HessianValue × HessianValue) :=
  match type with
  | some type =>
    if entries.any fun e => isKey (ascii "class") e.1 then entries
    else entries ++ [(.string (ascii "class"), .string type)]
  | none => entries

mutual
/-- The tree in which each untyped map has the class that `typeAt` has for its
address, if it has none. -/
def annotate (typeAt : Address → Option Bytes) : HessianValue → HessianValue
  | .untypedList vs => .untypedList (annotateElements typeAt 0 vs)
  | .untypedMap es => .untypedMap (withClass (typeAt []) (annotateEntries typeAt es))
  | v => v
def annotateElements (typeAt : Address → Option Bytes) (i : Nat) : List HessianValue → List HessianValue
  | [] => []
  | v :: vs => annotate (fun a => typeAt (.element i :: a)) v :: annotateElements typeAt (i + 1) vs
def annotateEntries (typeAt : Address → Option Bytes) : List (HessianValue × HessianValue) → List (HessianValue × HessianValue)
  | [] => []
  | (k, v) :: es => (k, annotate (fun a => typeAt (.value k :: a)) v) :: annotateEntries typeAt es
end

mutual
/-- No map has two entries of one key. -/
def DistinctKeys : HessianValue → Prop
  | .untypedList vs => DistinctKeysAll vs
  | .untypedMap es => (es.map (·.1)).Nodup ∧ DistinctKeysEntries es
  | _ => True
def DistinctKeysAll : List HessianValue → Prop
  | [] => True
  | v :: vs => DistinctKeys v ∧ DistinctKeysAll vs
def DistinctKeysEntries : List (HessianValue × HessianValue) → Prop
  | [] => True
  | (_, v) :: es => DistinctKeys v ∧ DistinctKeysEntries es
end

section Annotate
variable {typeAt : Address → Option Bytes}

theorem annotateEntries_keys (typeAt : Address → Option Bytes) (es : List (HessianValue × HessianValue)) :
    (annotateEntries typeAt es).map (·.1) = es.map (·.1) := by
  induction es with
  | nil => rfl
  | cons e es ih =>
    obtain ⟨k, v⟩ := e
    rw [annotateEntries, List.map_cons, List.map_cons, ih]

theorem hasClass_congr {es es' : List (HessianValue × HessianValue)} (h : es.map (·.1) = es'.map (·.1)) (s : Bytes) :
    es.any (fun e => isKey s e.1) = es'.any fun e => isKey s e.1 := by
  have hany (l : List (HessianValue × HessianValue)) : l.any (fun e => isKey s e.1) = (l.map (·.1)).any (isKey s) := by
    rw [List.any_map]
    rfl
  rw [hany, hany, h]

mutual
theorem annotate_none : ∀ v, annotate (fun _ => none) v = v
  | .untypedList vs => by rw [annotate, annotateElements_none]
  | .untypedMap es => by rw [annotate, annotateEntries_none, withClass]
  | .null | .boolean _ | .integer _ | .long _ | .double _ | .date _ | .string _ | .binary _ | .typedList _ _ | .typedMap _ _
  | .classInstance _ _ => by rw [annotate]; all_goals simp
theorem annotateElements_none : ∀ (i : Nat) (vs : List HessianValue), annotateElements (fun _ => none) i vs = vs
  | _, [] => rfl
  | i, v :: vs => by rw [annotateElements, annotate_none v, annotateElements_none (i + 1) vs]
theorem annotateEntries_none : ∀ es : List (HessianValue × HessianValue), annotateEntries (fun _ => none) es = es
  | [] => rfl
  | (k, v) :: es => by rw [annotateEntries, annotate_none v, annotateEntries_none es]
end

/-! ## One annotation after another -/

theorem annotateEntries_append (typeAt : Address → Option Bytes) (es es' : List (HessianValue × HessianValue)) :
    annotateEntries typeAt (es ++ es') = annotateEntries typeAt es ++ annotateEntries typeAt es' := by
  induction es with
  | nil => rfl
  | cons e es ih =>
    obtain ⟨k, v⟩ := e
    rw [List.cons_append, annotateEntries, annotateEntries, ih, List.cons_append]

/-- The entry that is added is not changed later. -/
theorem annotateEntries_withClass (typeAt : Address → Option Bytes) (type : Option Bytes)
    (es : List (HessianValue × HessianValue)) :
    annotateEntries typeAt (withClass type es) = withClass type (annotateEntries typeAt es) := by
  unfold withClass
  cases type with
  | none => rfl
  | some type =>
    dsimp only
    rw [hasClass_congr (annotateEntries_keys typeAt es)]
    split_ifs
    · rfl
    · rw [annotateEntries_append]
      rfl

theorem withClass_withClass (s t : Option Bytes) (es : List (HessianValue × HessianValue)) :
    withClass t (withClass s es) = withClass (s.or t) es := by
  cases s with
  | none => rfl
  | some s =>
    rw [Option.some_or]
    by_cases hclass : (es.any fun e => isKey (ascii "class") e.1) = true
    · have hsome (type : Bytes) : withClass (some type) es = es := if_pos hclass
      rw [hsome]
      cases t with
      | none => rfl
      | some t => exact hsome t
    · have hadded : withClass (some s) es = es ++ [(.string (ascii "class"), .string s)] := if_neg hclass
      rw [hadded]
      cases t with
      | none => rfl
      | some t => exact if_pos (by simp [isKey])

mutual
theorem annotate_annotate : ∀ (s t : Address → Option Bytes) (v : HessianValue),
    annotate t (annotate s v) = annotate (fun a => (s a).or (t a)) v
  | s, t, .untypedList vs => by rw [annotate, annotate, annotate, annotateElements_annotateElements]
  | s, t, .untypedMap es => by
    rw [annotate, annotate, annotate, annotateEntries_withClass, withClass_withClass,
    annotateEntries_annotateEntries]
  | _, _, .null | _, _, .boolean _ | _, _, .integer _ | _, _, .long _ | _, _, .double _ | _, _,
  .date _ | _, _, .string _
  | _, _, .binary _ | _, _, .typedList _ _ | _, _, .typedMap _ _ | _, _, .classInstance _ _ =>
    by simp only [annotate]
theorem annotateElements_annotateElements : ∀ (s t : Address → Option Bytes) (i : Nat) (vs : List HessianValue),
    annotateElements t i (annotateElements s i vs) = annotateElements (fun a => (s a).or (t a)) i vs
  | _, _, _, [] => rfl
  | s, t, i, v :: vs => by
    rw [annotateElements, annotateElements, annotateElements, annotate_annotate _ _ v,
    annotateElements_annotateElements s t (i + 1) vs]
theorem annotateEntries_annotateEntries : ∀ (s t : Address → Option Bytes) (es : List (HessianValue × HessianValue)),
    annotateEntries t (annotateEntries s es) = annotateEntries (fun a => (s a).or (t a)) es
  | _, _, [] => rfl
  | s, t, (k, v) :: es => by
    rw [annotateEntries, annotateEntries, annotateEntries, annotate_annotate _ _ v,
    annotateEntries_annotateEntries s t es]
end

/-! ## Keys -/

theorem distinctKeysEntries_append {es es' : List (HessianValue × HessianValue)} :
    DistinctKeysEntries (es ++ es') ↔ DistinctKeysEntries es ∧ DistinctKeysEntries es' := by
  induction es with
  | nil => simp [DistinctKeysEntries]
  | cons e es ih =>
    obtain ⟨k, v⟩ := e
    rw [List.cons_append, DistinctKeysEntries, DistinctKeysEntries, ih, and_assoc]

theorem eq_of_isKey {s : Bytes} {k : HessianValue} (h : isKey s k = true) : k = .string s := by
  cases k with
  | string t =>
    rw [of_decide_eq_true h]
  | _ => cases h

theorem withClass_distinct {type : Option Bytes} {es : List (HessianValue × HessianValue)}
    (hkeys : (es.map (·.1)).Nodup) (hvalues : DistinctKeysEntries es) :
    ((withClass type es).map (·.1)).Nodup ∧ DistinctKeysEntries (withClass type es) := by
  unfold withClass
  cases type with
  | none => exact ⟨hkeys, hvalues⟩
  | some type =>
    dsimp only
    split_ifs with hclass
    · exact ⟨hkeys, hvalues⟩
    · constructor
      · rw [List.map_append, List.nodup_append]
        refine ⟨hkeys, by simp, ?_⟩
        intro k hk k' hk' heq
        obtain ⟨e, he, rfl⟩ := List.mem_map.1 hk
        obtain rfl : k' = .string (ascii "class") := by simpa using hk'
        exact hclass (List.any_eq_true.2 ⟨e, he, by rw [heq]; simp [isKey]⟩)
      · exact distinctKeysEntries_append.2 ⟨hvalues, trivial, trivial⟩

mutual
theorem annotate_distinct : ∀ (typeAt : Address → Option Bytes) (v : HessianValue), DistinctKeys v →
    DistinctKeys (annotate typeAt v)
  | typeAt, .untypedList vs, h => by
    rw [annotate, DistinctKeys]
    exact annotateElements_distinct typeAt 0 vs h
  | typeAt, .untypedMap es, h => by
    rw [annotate, DistinctKeys]
    exact withClass_distinct ((annotateEntries_keys typeAt es).symm ▸ h.1) (annotateEntries_distinct typeAt es h.2)
  | _, .null, _ | _, .boolean _, _ | _, .integer _, _ | _, .long _, _ | _, .double _, _ | _,
  .date _, _ | _, .string _, _
  | _, .binary _, _ | _, .typedList _ _, _ | _, .typedMap _ _, _ | _, .classInstance _ _, _ =>
    by simp only [annotate, DistinctKeys]
theorem annotateElements_distinct : ∀ (typeAt : Address → Option Bytes) (i : Nat) (vs : List HessianValue),
    DistinctKeysAll vs → DistinctKeysAll (annotateElements typeAt i vs)
  | _, _, [], _ => trivial
  | typeAt, i, v :: vs, h => ⟨annotate_distinct _ v h.1, annotateElements_distinct typeAt (i + 1) vs h.2⟩
theorem annotateEntries_distinct : ∀ (typeAt : Address → Option Bytes) (es : List (HessianValue × HessianValue)),
    DistinctKeysEntries es → DistinctKeysEntries (annotateEntries typeAt es)
  | _, [], _ => trivial
  | typeAt, (_, v) :: es, h => ⟨annotate_distinct _ v h.1, annotateEntries_distinct typeAt es h.2⟩
end

theorem distinctKeys_of_mem {vs : List HessianValue} (h : DistinctKeysAll vs) : ∀ v ∈ vs, DistinctKeys v := by
  induction vs with
  | nil => simp
  | cons w vs ih =>
    intro v hv
    rcases List.mem_cons.1 hv with rfl | hv
    · exact h.1
    · exact ih h.2 v hv

theorem distinctKeys_of_mem_entries {es : List (HessianValue × HessianValue)} (h : DistinctKeysEntries es) :
    ∀ e ∈ es, DistinctKeys e.2 := by
  induction es with
  | nil => simp
  | cons e' es ih =>
    intro e he
    rcases List.mem_cons.1 he with rfl | he
    · exact h.1
    · exact ih h.2 e he

/-! ## The walk along one path -/

/-- The type at the addresses that the path selects. -/
def typeOn (path : List Bytes) (type : Bytes) (address : Address) : Option Bytes :=
  if matchesAddress path address then some type else none

/-- The addresses behind a step that the first frame selects. -/
theorem typeOn_step {frame : Bytes} {step : Step} (path : List Bytes) (type : Bytes)
    (h : selects frame step = true) :
    (fun a => typeOn (frame :: path) type (step :: a)) = typeOn path type := by
  funext a
  simp only [typeOn, matchesAddress, h, Bool.true_and]

theorem typeOn_other {frame : Bytes} {step : Step} (path : List Bytes) (type : Bytes)
    (h : selects frame step = false) :
    (fun a => typeOn (frame :: path) type (step :: a)) = fun _ => none := by
  funext a
  simp [typeOn, matchesAddress, h]

theorem typeOn_end (type : Bytes) (step : Step) : (fun a => typeOn [] type (step :: a)) = fun _ => none := by
  funext a
  simp [typeOn, matchesAddress]

theorem annotateElements_map {u : Address → Option Bytes} {vs : List HessianValue}
    (h : ∀ i, (fun a => typeAt (.element i :: a)) = u) (i : Nat) :
    annotateElements typeAt i vs = vs.map (annotate u) := by
  induction vs generalizing i with
  | nil => rfl
  | cons v vs ih => rw [annotateElements, h i, ih, List.map_cons]

theorem annotateEntries_map {u : Address → Option Bytes} {es : List (HessianValue × HessianValue)}
    (h : ∀ e ∈ es, (fun a => typeAt (.value e.1 :: a)) = u) :
    annotateEntries typeAt es = es.map fun e => (e.1, annotate u e.2) := by
  induction es with
  | nil => rfl
  | cons e es ih =>
    obtain ⟨k, v⟩ := e
    rw [annotateEntries, h (k, v) List.mem_cons_self, ih fun e he => h e (List.mem_cons_of_mem _ he), List.map_cons]

theorem annotateElements_self {vs : List HessianValue}
    (h : ∀ i, (fun a => typeAt (.element i :: a)) = fun _ => none) (i : Nat) :
    annotateElements typeAt i vs = vs := by
  rw [annotateElements_map h, List.map_congr_left fun v _ => annotate_none v, List.map_id']

theorem annotateEntries_self {es : List (HessianValue × HessianValue)}
    (h : ∀ e ∈ es, (fun a => typeAt (.value e.1 :: a)) = fun _ => none) : annotateEntries typeAt es = es := by
  rw [annotateEntries_map h]
  simp only [annotate_none, List.map_id']

/-- A frame that is a key selects one entry at most. -/
theorem annotateEntries_key {frame : Bytes} (hframe : frame ≠ ascii "*") (path : List Bytes) (type : Bytes)
    {es : List (HessianValue × HessianValue)} (hkeys : (es.map (·.1)).Nodup) :
    annotateEntries (typeOn (frame :: path) type) es = updateKey frame (annotate (typeOn path type)) es := by
  have hselects (k : HessianValue) : selects frame (.value k) = isKey frame k := by simp [selects, hframe]
  induction es with
  | nil => rfl
  | cons e es ih =>
    obtain ⟨k, v⟩ := e
    obtain ⟨hnew, hkeys⟩ := List.nodup_cons.1 hkeys
    rw [annotateEntries, updateKey]
    split_ifs with hkey
    · have hrest : ∀ e ∈ es, (fun a => typeOn (frame :: path) type (.value e.1 :: a)) = fun _ => none := by
        intro e he
        apply typeOn_other
        rw [hselects, Bool.eq_false_iff]
        intro hother
        have hsame : e.1 = k := (eq_of_isKey hother).trans (eq_of_isKey hkey).symm
        exact hnew (List.mem_map.2 ⟨e, he, hsame⟩)
      rw [typeOn_step path type ((hselects k).trans hkey), annotateEntries_self hrest]
    · rw [typeOn_other path type ((hselects k).trans (Bool.eq_false_iff.2 hkey)), annotate_none, ih hkeys]

theorem updateKey_congr {frame : Bytes} {f g : HessianValue → HessianValue} {es : List (HessianValue × HessianValue)}
    (h : ∀ e ∈ es, f e.2 = g e.2) : updateKey frame f es = updateKey frame g es := by
  induction es with
  | nil => rfl
  | cons e es ih =>
    rw [updateKey, updateKey, h e List.mem_cons_self, ih fun e he => h e (List.mem_cons_of_mem _ he)]

/-- The walk annotates the maps at the addresses that the path selects. -/
theorem populateSingleGenericType_eq (path : List Bytes) (type : Bytes) {v : HessianValue} (hv : DistinctKeys v) :
    populateSingleGenericType path type v = annotate (typeOn path type) v := by
  induction path generalizing v with
  | nil =>
    cases v with
    | untypedMap es =>
      rw [annotate, annotateEntries_self fun e _ => typeOn_end type _]
      unfold populateSingleGenericType withClass
      simp only [typeOn, matchesAddress, if_true]
      split_ifs <;> rfl
    | untypedList vs =>
      rw [annotate, annotateElements_self fun i => typeOn_end type _]
      rfl
    | _ => simp only [annotate, populateSingleGenericType]
  | cons frame path ih =>
    have hroot : typeOn (frame :: path) type [] = none := by simp [typeOn, matchesAddress]
    unfold populateSingleGenericType
    split_ifs with hframe
    · -- every element, or every value
      have hall (step : Step) : selects frame step = true := by cases step <;> simp [selects, hframe]
      cases v with
      | untypedList vs =>
        rw [annotate, annotateElements_map fun i => typeOn_step path type (hall _)]
        exact congrArg HessianValue.untypedList
          (List.map_congr_left fun v hmem => ih (distinctKeys_of_mem hv v hmem))
      | untypedMap es =>
        rw [annotate, hroot, withClass, annotateEntries_map fun e _ => typeOn_step path type (hall _)]
        apply congrArg HessianValue.untypedMap
        exact List.map_congr_left fun e hmem => by rw [ih (distinctKeys_of_mem_entries hv.2 e hmem)]
      | _ => simp only [annotate]
    · cases v with
      | untypedList vs =>
        have hnone (i : Nat) : selects frame (.element i) = false := by simp [selects, hframe]
        rw [annotate, annotateElements_self fun i => typeOn_other path type (hnone i)]
      | untypedMap es =>
        rw [annotate, hroot, withClass, annotateEntries_key hframe path type hv.1]
        exact congrArg HessianValue.untypedMap
          (updateKey_congr fun e hmem => ih (distinctKeys_of_mem_entries hv.2 e hmem))
      | _ => simp only [annotate]

/-! ## All paths -/

theorem populateGenericTypes_cons (g : GenericType) (gs : List GenericType) (v : HessianValue) :
    populateGenericTypes (g :: gs) v = populateGenericTypes gs (populateSingleGenericType g.splitedPath g.type v) := rfl

theorem firstType_cons (g : GenericType) (gs : List GenericType) :
    firstType (g :: gs) = fun a => (typeOn g.splitedPath g.type a).or (firstType gs a) := by
  funext a
  unfold firstType typeOn
  rw [List.find?_cons]
  cases hmatch : matchesAddress g.splitedPath a <;> simp

/-- One path after another: the first that selects an address goes first. -/
theorem populateGenericTypes_eq (genericTypes : List GenericType) {v : HessianValue} (hv : DistinctKeys v) :
    populateGenericTypes genericTypes v = annotate (firstType genericTypes) v := by
  induction genericTypes generalizing v with
  | nil => exact (annotate_none v).symm
  | cons g gs ih =>
    rw [populateGenericTypes_cons, populateSingleGenericType_eq _ _ hv,
      ih (annotate_distinct _ _ hv), annotate_annotate,
      firstType_cons]

theorem annotate_idem (typeAt : Address → Option Bytes) (v : HessianValue) :
    annotate typeAt (annotate typeAt v) = annotate typeAt v := by
  rw [annotate_annotate]
  simp only [Option.or_self]

end Annotate

/-! ## Values from JSON -/

section FromJson
variable {order : HashOrder}

/-- Emplacing keeps the keys apart. -/
theorem emplace_distinct {es : List (HessianValue × HessianValue)} {p : Bytes × HessianValue} (hp : DistinctKeys p.2)
    (hkeys : (es.map (·.1)).Nodup) (hvalues : DistinctKeysEntries es) :
    ((emplace es p).map (·.1)).Nodup ∧ DistinctKeysEntries (emplace es p) := by
  unfold emplace
  split_ifs with hthere
  · exact ⟨hkeys, hvalues⟩
  · constructor
    · rw [List.map_append, List.nodup_append]
      refine ⟨hkeys, by simp, ?_⟩
      intro k hk k' hk' heq
      obtain ⟨e, he, rfl⟩ := List.mem_map.1 hk
      obtain rfl : k' = .string p.1 := by simpa using hk'
      apply hthere
      rw [List.any_eq_true]
      exact ⟨e, he, by rw [heq]; simp [HessianValue.node, Node.toString]⟩
    · exact distinctKeysEntries_append.2 ⟨hvalues, hp, trivial⟩

theorem foldl_emplace_distinct {ps : List (Bytes × HessianValue)} (hps : ∀ p ∈ ps, DistinctKeys p.2)
    {es : List (HessianValue × HessianValue)} (hkeys : (es.map (·.1)).Nodup) (hvalues : DistinctKeysEntries es) :
    ((ps.foldl emplace es).map (·.1)).Nodup ∧ DistinctKeysEntries (ps.foldl emplace es) := by
  induction ps generalizing es with
  | nil => exact ⟨hkeys, hvalues⟩
  | cons p ps ih =>
    obtain ⟨hkeys', hvalues'⟩ := emplace_distinct (hps p List.mem_cons_self) hkeys hvalues
    exact ih (fun q hq => hps q (List.mem_cons_of_mem _ hq)) hkeys' hvalues'

theorem distinctKeysEntries_iff {es : List (HessianValue × HessianValue)} :
    DistinctKeysEntries es ↔ ∀ e ∈ es, DistinctKeys e.2 := by
  constructor
  · exact distinctKeys_of_mem_entries
  · intro h
    induction es with
    | nil => trivial
    | cons e es ih => exact ⟨h e List.mem_cons_self, ih fun e' he => h e' (List.mem_cons_of_mem _ he)⟩

mutual
theorem internal_distinct (horder : ∀ place es, (order place es).Perm es) (ign : Bool) :
    ∀ (value : Value) (depth : Nat) (place : List Nat),
      DistinctKeys (jsonValueToHessianValueInternal order ign value depth place)
  | value, depth, place => by
    rw [jsonValueToHessianValueInternal.eq_def]
    dsimp only
    split_ifs with hdepth
    · trivial
    · match value with
      | .array values => exact listData_distinct horder ign values (depth + 1) place 0
      | .object members =>
        have hnone : (([] : List (HessianValue × HessianValue)).map (·.1)).Nodup := List.nodup_nil
        obtain ⟨hkeys, hvalues⟩ := foldl_emplace_distinct
          (dictData_distinct horder ign members (depth + 1) place 0) hnone trivial
        have hperm := horder place ((dictData order ign members (depth + 1) place 0).foldl emplace [])
        refine ⟨((hperm.map (·.1)).nodup_iff).2 hkeys, ?_⟩
        rw [distinctKeysEntries_iff] at hvalues ⊢
        exact fun e he => hvalues e (hperm.mem_iff.1 he)
      | .int i =>
        dsimp only
        split_ifs <;> trivial
      | .null | .bool _ | .unsigned .. | .double _ | .string _ => trivial
theorem listData_distinct (horder : ∀ place es, (order place es).Perm es) (ign : Bool) :
    ∀ (values : List Value) (depth : Nat) (place : List Nat) (i : Nat),
      DistinctKeysAll (listData order ign values depth place i)
  | [], _, _, _ => trivial
  | v :: vs, depth, place, i =>
    ⟨internal_distinct horder ign v depth (i :: place), listData_distinct horder ign vs depth place
      (i + 1)⟩
theorem dictData_distinct (horder : ∀ place es, (order place es).Perm es) (ign : Bool) :
    ∀ (members : List (Bytes × Value)) (depth : Nat) (place : List Nat) (i : Nat),
      ∀ p ∈ dictData order ign members depth place i, DistinctKeys p.2
  | [], _, _, _ => by rintro _ ⟨⟩
  | (name, v) :: ms, depth, place, i => by
    rw [dictData]
    split_ifs
    · exact dictData_distinct horder ign ms depth place (i + 1)
    · intro p hp
      rcases List.mem_cons.1 hp with rfl | hp
      · exact internal_distinct horder ign v depth (i :: place)
      · exact dictData_distinct horder ign ms depth place (i + 1) p hp
end

theorem fromJson_distinct {json : Rapidjson} (horder : ∀ place es, (order place es).Perm es)
    {value : Value} {type : Bytes}
    {ign : Bool} {v : HessianValue}
    (h : jsonValueToHessianValue json order value type ign = .ok v) : DistinctKeys v := by
  rcases converted h with ⟨u, -, rfl⟩ | ⟨-, s, rfl⟩
  · exact internal_distinct horder ign u 0 []
  · trivial

/-- Of a value from JSON the configured pairs change exactly what their paths
select: an untyped map at such an address gets the class of the first pair
that selects it, unless it has a class. Doing it again changes nothing. -/
theorem populate_exact {json : Rapidjson} (horder : ∀ place es, (order place es).Perm es) {value : Value} {type : Bytes}
    {ign : Bool} {v : HessianValue} (h : jsonValueToHessianValue json order value type ign = .ok v) (genericTypes : List GenericType) :
    populateGenericTypes genericTypes v = annotate (firstType genericTypes) v ∧
      populateGenericTypes genericTypes (populateGenericTypes genericTypes v) = populateGenericTypes genericTypes v := by
  have hv := fromJson_distinct horder h
  have hself := populateGenericTypes_eq genericTypes hv
  refine ⟨hself, ?_⟩
  rw [hself, populateGenericTypes_eq genericTypes (annotate_distinct _ _ hv), annotate_idem]

end FromJson

/-- A list of two maps, of which the second has a class. -/
def users : Value :=
  .array [.object [(ascii "id", .int 1)], .object [(ascii "class", .string (ascii "User"))]]

/-- The first of two pairs that select the same map. -/
theorem users_populated :
    ∃ v, jsonValueToHessianValue bitsJson (fun _ es => es) users (ascii "java.util.List") false = .ok v ∧
      populateGenericTypes [⟨ascii "*", [ascii "*"], ascii "A"⟩, ⟨ascii ".*", [ascii "*"], ascii "B"⟩] v =
        .untypedList [.untypedMap [(.string (ascii "id"), .integer 1), (.string (ascii "class"), .string (ascii "A"))],
          .untypedMap [(.string (ascii "class"), .string (ascii "User"))]] := by
  refine ⟨_, rfl, ?_⟩
  rw [(@populate_exact (fun _ es => es) bitsJson (fun _ _ => .refl _) users (ascii "java.util.List") false _ rfl _).1]
  rfl

end EnvoyProxy.Dubbo
