import EnvoyProxy.Dubbo.Converted
/-!
# Null pairs of maps

`ignore_null_map_pair` looks at the JSON value of a pair before it is
converted. The conversion makes null of whatever is 50 levels deep, so a map
49 levels deep has null pairs unless all its members are null.
-/

namespace EnvoyProxy.Dubbo
open Json

/-! ## What is converted -/

/-- The members that are not null. -/
def nonNull (members : List (Bytes × Value)) : List (Bytes × Value) := members.filter fun m => !isNull m.2

/-- A value that is converted, and how deep it is. Of the members of one name
the first that is not null stays. -/
inductive Inside (root : Value) : Nat → Value → Prop
  | root : Inside root 0 root
  | element {n : Nat} {values : List Value} {x : Value} : Inside root n (.array values) → x ∈ values → Inside root (n + 1) x
  | member {n : Nat} {members : List (Bytes × Value)} {k : Bytes} {x : Value} :
      Inside root n (.object members) → (nonNull members).lookup k = some x → Inside root (n + 1) x

/-- An object 49 levels deep has a member that is not null. -/
def TooDeep (root : Value) : Prop := ∃ members, Inside root 49 (.object members) ∧ nonNull members ≠ []

/-- The objects of a tree, at every depth. -/
def Within (root v : HessianValue) : Prop := Relation.ReflTransGen (fun p q => q ∈ (HessianValue.node p).owned) root v

/-- No map at any depth has a pair whose value is null. -/
def NoNullPair (root : HessianValue) : Prop :=
  ∀ v, Within root v → ∀ entries, (v = .untypedMap entries ∨ ∃ type, v = .typedMap type entries) → ∀ e ∈ entries, e.2 ≠ .null

/-! ## Lists and maps, element by element -/

section Elements
variable {order : HashOrder}

theorem mem_listData {ign : Bool} {values : List Value} {depth i : Nat} {place : List Nat} {h : HessianValue} :
    h ∈ listData order ign values depth place i →
      ∃ x ∈ values, ∃ place', h = jsonValueToHessianValueInternal order ign x depth place' := by
  induction values generalizing i with
  | nil => rintro ⟨⟩
  | cons x values ih =>
    intro hmem
    rw [listData] at hmem
    rcases List.mem_cons.1 hmem with rfl | hmem
    · exact ⟨x, List.mem_cons_self, _, rfl⟩
    · obtain ⟨y, hy, place', rfl⟩ := ih hmem
      exact ⟨y, List.mem_cons_of_mem _ hy, place', rfl⟩

theorem listData_mem {ign : Bool} {values : List Value} {depth i : Nat} {place : List Nat}
    {x : Value} (hx : x ∈ values) :
    ∃ place', jsonValueToHessianValueInternal order ign x depth place' ∈
      listData order ign values depth place i := by
  induction values generalizing i with
  | nil => cases hx
  | cons y values ih =>
    rw [listData]
    rcases List.mem_cons.1 hx with rfl | hx
    · exact ⟨_, List.mem_cons_self⟩
    · obtain ⟨place', hmem⟩ := ih (i := i + 1) hx
      exact ⟨place', List.mem_cons_of_mem _ hmem⟩

theorem lookup_cons_ne {α : Type} {k name : Bytes} {x : α} {ps : List (Bytes × α)} (hk : k ≠ name) :
    ((name, x) :: ps).lookup k = ps.lookup k := by
  rw [List.lookup_cons, beq_false_of_ne hk]

/-- The pairs that are emplaced are the members that are not null. -/
theorem lookup_dictData {members : List (Bytes × Value)} {depth i : Nat} {place : List Nat}
    {k : Bytes} {h : HessianValue} :
    (dictData order true members depth place i).lookup k = some h →
      ∃ x, (nonNull members).lookup k = some x ∧
        ∃ place', h = jsonValueToHessianValueInternal order true x depth place' := by
  induction members generalizing i with
  | nil => rintro ⟨⟩
  | cons m members ih =>
    obtain ⟨name, value⟩ := m
    rw [dictData]
    cases hnull : isNull value with
    | true => simpa [nonNull, hnull] using ih
    | false =>
      simp only [Bool.and_false, Bool.false_eq_true, if_false, nonNull, hnull, Bool.not_false,
        List.filter_cons_of_pos]
      rw [List.lookup_cons, List.lookup_cons]
      split
      · rintro ⟨⟩
        exact ⟨value, rfl, _, rfl⟩
      · exact ih

theorem dictData_lookup {members : List (Bytes × Value)} {depth i : Nat} {place : List Nat} {k : Bytes} {x : Value}
    (hx : (nonNull members).lookup k = some x) :
    ∃ place', (dictData order true members depth place i).lookup k =
      some (jsonValueToHessianValueInternal order true x depth place') := by
  induction members generalizing i with
  | nil => cases hx
  | cons m members ih =>
    obtain ⟨name, value⟩ := m
    rw [dictData]
    cases hnull : isNull value with
    | true =>
      simp only [Bool.and_true, if_true]
      exact ih (by simpa [nonNull, hnull] using hx)
    | false =>
      simp only [Bool.and_false, Bool.false_eq_true, if_false]
      simp only [nonNull, hnull, Bool.not_false, List.filter_cons_of_pos] at hx
      rw [List.lookup_cons] at hx ⊢
      split at hx
      · rename_i hk
        cases hx
        exact ⟨_, rfl⟩
      · exact ih hx

/-- Entries and what is emplaced behind them: the first pair of a key that is
not there yet. -/
theorem mem_foldl_emplace_entries {ps : List (Bytes × HessianValue)} {entries : List (HessianValue × HessianValue)}
    {e : HessianValue × HessianValue} :
    e ∈ ps.foldl emplace entries ↔
      e ∈ entries ∨ ∃ k h, ps.lookup k = some h ∧ (∀ e' ∈ entries, e'.1.node.toString ≠ some k) ∧
      e = (.string k, h) := by
  induction ps generalizing entries with
  | nil => simp
  | cons p ps ih =>
    obtain ⟨name, value⟩ := p
    rw [List.foldl_cons, ih]
    unfold emplace
    split_ifs with hthere
    · -- the key is there already
      obtain ⟨e₀, he₀, hname⟩ : ∃ e₀ ∈ entries, e₀.1.node.toString = some name := by simpa using hthere
      apply or_congr Iff.rfl
      constructor
      · rintro ⟨k, h, hlookup, hnew, rfl⟩
        have hk : k ≠ name := fun hk => hnew e₀ he₀ (hk ▸ hname)
        exact ⟨k, h, (lookup_cons_ne hk).trans hlookup, hnew, rfl⟩
      · rintro ⟨k, h, hlookup, hnew, rfl⟩
        have hk : k ≠ name := fun hk => hnew e₀ he₀ (hk ▸ hname)
        exact ⟨k, h, (lookup_cons_ne hk).symm.trans hlookup, hnew, rfl⟩
    · have hnone : ∀ e₀ ∈ entries, e₀.1.node.toString ≠ some name := by simpa using hthere
      constructor
      · rintro (he | ⟨k, h, hlookup, hnew, rfl⟩)
        · rcases List.mem_append.1 he with he | he
          · exact .inl he
          · rw [List.mem_singleton.1 he]
            exact .inr ⟨name, value, by simp, hnone, rfl⟩
        · have hk : k ≠ name := by
            rintro rfl
            exact hnew _ (List.mem_append_right _ (List.mem_singleton.2 rfl)) rfl
          refine .inr ⟨k, h, (lookup_cons_ne hk).trans hlookup, ?_, rfl⟩
          exact fun e' he' => hnew e' (List.mem_append_left _ he')
      · rintro (he | ⟨k, h, hlookup, hnew, rfl⟩)
        · exact .inl (List.mem_append_left _ he)
        · by_cases hk : k = name
          · subst hk
            obtain rfl : value = h := by simpa using hlookup
            exact .inl (List.mem_append_right _ (List.mem_singleton.2 rfl))
          · refine .inr ⟨k, h, (lookup_cons_ne hk).symm.trans hlookup, ?_, rfl⟩
            intro e' he'
            rcases List.mem_append.1 he' with he' | he'
            · exact hnew e' he'
            · rw [List.mem_singleton.1 he']
              simpa [HessianValue.node, Node.toString] using Ne.symm hk

/-- The first pair of each key stays. -/
theorem mem_foldl_emplace {ps : List (Bytes × HessianValue)} {e : HessianValue × HessianValue} :
    e ∈ ps.foldl emplace [] ↔ ∃ k h, ps.lookup k = some h ∧ e = (.string k, h) := by
  rw [mem_foldl_emplace_entries]
  simp

end Elements

/-! ## The tree that is built -/

section Tree
variable {order : HashOrder} {root : Value}

/-- What the conversion makes of a value at that depth. -/
def BuiltFrom (order : HashOrder) (u : Value) (depth : Nat) (v : HessianValue) : Prop :=
  ∃ place, v = jsonValueToHessianValueInternal order true u depth place

/-- What a value becomes, by its kind. -/
theorem builtFrom_cases {u : Value} {depth : Nat} {v : HessianValue} (h : BuiltFrom order u depth v) :
    (50 ≤ depth ∧ v = .null) ∨
    (depth < 50 ∧ ∃ us place, u = .array us ∧ v = .untypedList (listData order true us (depth + 1) place 0)) ∨
    (depth < 50 ∧ ∃ members place, u = .object members ∧
      v = .untypedMap (order place ((dictData order true members (depth + 1) place 0).foldl emplace []))) ∨
    ((HessianValue.node v).isContainer = false ∧ (HessianValue.node v).owned = [] ∧
    (v = .null → isNull u = true)) := by
  obtain ⟨place, rfl⟩ := h
  rw [jsonValueToHessianValueInternal.eq_def]
  dsimp only
  split_ifs with hdepth
  · exact .inl ⟨hdepth, rfl⟩
  · have hless : depth < 50 := Nat.lt_of_not_le hdepth
    cases u with
    | array us => exact .inr (.inl ⟨hless, us, place, rfl, rfl⟩)
    | object members => exact .inr (.inr (.inl ⟨hless, members, place, rfl, rfl⟩))
    | int i =>
      dsimp only
      split_ifs <;> exact .inr (.inr (.inr ⟨rfl, rfl, by simp⟩))
    | null => exact .inr (.inr (.inr ⟨rfl, rfl, fun _ => rfl⟩))
    | _ => exact .inr (.inr (.inr ⟨rfl, rfl, by simp⟩))

theorem builtFrom_map (horder : ∀ place es, (order place es).Perm es) {u : Value} {depth : Nat}
    {entries : List (HessianValue × HessianValue)} (h : BuiltFrom order u depth (.untypedMap entries)) :
    depth < 50 ∧ ∃ members, u = .object members ∧ ∀ e ∈ entries, ∃ k x, e.1 = .string k ∧
      (nonNull members).lookup k = some x ∧ BuiltFrom order x (depth + 1) e.2 := by
  rcases builtFrom_cases h with ⟨-, hnull⟩ | ⟨-, us, place, -, heq⟩ | ⟨hdepth, members, place, rfl, heq⟩ | ⟨hleaf, -⟩
  · cases hnull
  · cases heq
  · cases heq
    refine ⟨hdepth, members, rfl, ?_⟩
    intro e he
    obtain ⟨k, v, hlookup, rfl⟩ := mem_foldl_emplace.1 ((horder _ _).mem_iff.1 he)
    obtain ⟨x, hx, place', rfl⟩ := lookup_dictData hlookup
    exact ⟨k, x, rfl, hx, place', rfl⟩
  · cases hleaf

theorem not_builtFrom_typedMap {u : Value} {depth : Nat} {type : Bytes}
    {entries : List (HessianValue × HessianValue)} :
    ¬ BuiltFrom order u depth (.typedMap type entries) := by
  intro h
  rcases builtFrom_cases h with ⟨-, hnull⟩ | ⟨-, us, place, -, heq⟩ | ⟨-, members, place, -, heq⟩ | ⟨hleaf, -⟩
  · cases hnull
  · cases heq
  · cases heq
  · cases hleaf

theorem isNull_of_lookup {members : List (Bytes × Value)} {k : Bytes} {x : Value}
    (h : (nonNull members).lookup k = some x) :
    isNull x = false := by
  obtain ⟨pre, post, heq, -⟩ := List.lookup_eq_some_iff.1 h
  have hmem : (k, x) ∈ nonNull members := by simp [heq]
  simpa [nonNull] using (List.mem_filter.1 hmem).2

/-- Nothing else is null. -/
theorem builtFrom_null {u : Value} {depth : Nat} (h : BuiltFrom order u depth .null)
    (hu : isNull u = false) : 50 ≤ depth := by
  rcases builtFrom_cases h with ⟨hdepth, -⟩ | ⟨-, us, place, -, heq⟩ | ⟨-, members, place, -, heq⟩ | ⟨-, -, hnull⟩
  · exact hdepth
  · cases heq
  · cases heq
  · rw [hu] at hnull
    cases hnull rfl

/-- What a value that was built owns was built one level deeper, or is the key
of a pair. -/
theorem builtFrom_owned (horder : ∀ place es, (order place es).Perm es) {u : Value} {n : Nat} {v q : HessianValue}
    (hu : Inside root n u) (h : BuiltFrom order u n v) (hq : q ∈ (HessianValue.node v).owned) :
    (∃ k, q = .string k) ∨ ∃ x, Inside root (n + 1) x ∧ BuiltFrom order x (n + 1) q := by
  rcases builtFrom_cases h with ⟨-, rfl⟩ | ⟨-, us, place, rfl, rfl⟩ | ⟨-, members, place, rfl, rfl⟩ | ⟨-, hleaf, -⟩
  · cases hq
  · obtain ⟨x, hx, place', rfl⟩ := mem_listData hq
    exact .inr ⟨x, hu.element hx, place', rfl⟩
  · obtain ⟨-, members', heq, hentries⟩ := builtFrom_map horder h
    cases heq
    obtain ⟨e, he, hq⟩ := List.mem_flatMap.1 hq
    obtain ⟨k, x, hkey, hlookup, hbuilt⟩ := hentries e he
    rcases List.mem_cons.1 hq with rfl | hq
    · exact .inl ⟨k, hkey⟩
    · rw [List.mem_singleton.1 hq]
      exact .inr ⟨x, hu.member hlookup, hbuilt⟩
  · rw [hleaf] at hq
    cases hq

theorem within_built (horder : ∀ place es, (order place es).Perm es) {v : HessianValue}
    (h : Within (jsonValueToHessianValueInternal order true root 0 []) v) :
    (∃ k, v = .string k) ∨ ∃ n u, Inside root n u ∧ BuiltFrom order u n v := by
  induction h with
  | refl => exact .inr ⟨0, root, .root, [], rfl⟩
  | tail _ hstep ih =>
    rcases ih with ⟨k, rfl⟩ | ⟨n, u, hu, hbuilt⟩
    · cases hstep
    · rcases builtFrom_owned horder hu hbuilt hstep with hkey | ⟨x, hx, hbuilt⟩
      · exact .inl hkey
      · exact .inr ⟨n + 1, x, hx, hbuilt⟩

/-- Everything up to that depth is there. -/
theorem built_within (horder : ∀ place es, (order place es).Perm es) {n : Nat} {u : Value}
    (hu : Inside root n u) (hn : n < 50) :
    ∃ place, Within (jsonValueToHessianValueInternal order true root 0 [])
    (jsonValueToHessianValueInternal order true u n place) := by
  induction hu with
  | root => exact ⟨[], .refl⟩
  | @element n values x _ hx ih =>
    obtain ⟨place, hwithin⟩ := ih (by omega)
    obtain ⟨place', hmem⟩ := @listData_mem order true values (n + 1) 0 place _ hx
    refine ⟨place', hwithin.tail ?_⟩
    rw [jsonValueToHessianValueInternal.eq_def]
    dsimp only
    rw [if_neg (by omega)]
    exact hmem
  | @member n members k x _ hx ih =>
    obtain ⟨place, hwithin⟩ := ih (by omega)
    obtain ⟨place', hlookup⟩ := @dictData_lookup order members (n + 1) 0 place _ _ hx
    refine ⟨place', hwithin.tail ?_⟩
    rw [jsonValueToHessianValueInternal.eq_def order true (.object members)]
    dsimp only
    rw [if_neg (by omega)]
    have hmem := (horder place _).mem_iff.2 (mem_foldl_emplace.2 ⟨k, _, hlookup, rfl⟩)
    exact List.mem_flatMap.2 ⟨_, hmem, List.mem_cons_of_mem _ (List.mem_singleton.2 rfl)⟩

/-- Null pairs are those of maps 49 levels deep. -/
theorem internal_noNullPair_iff (horder : ∀ place es, (order place es).Perm es) :
    NoNullPair (jsonValueToHessianValueInternal order true root 0 []) ↔ ¬ TooDeep root := by
  constructor
  · rintro hno ⟨members, hinside, hne⟩
    obtain ⟨place, hwithin⟩ := built_within horder hinside (by omega)
    obtain ⟨⟨k, x⟩, rest, hmembers⟩ := List.exists_cons_of_ne_nil hne
    have hlookup : (nonNull members).lookup k = some x := by simp [hmembers]
    obtain ⟨place', hpair⟩ := @dictData_lookup order members 50 0 place _ _ hlookup
    have hmem := (horder place _).mem_iff.2 (mem_foldl_emplace.2 ⟨k, _, hpair, rfl⟩)
    refine hno _ hwithin _ (.inl ?_) _ hmem ?_
    · rw [jsonValueToHessianValueInternal.eq_def]
      rfl
    · rw [jsonValueToHessianValueInternal.eq_def]
      rfl
  · intro hdeep v hwithin entries hmap e he hnull
    rcases within_built horder hwithin with ⟨k, rfl⟩ | ⟨n, u, hinside, hbuilt⟩
    · rcases hmap with hmap | ⟨type, hmap⟩ <;> cases hmap
    · rcases hmap with rfl | ⟨type, rfl⟩
      · obtain ⟨hn, members, rfl, hentries⟩ := builtFrom_map horder hbuilt
        obtain ⟨k, x, -, hlookup, hvalue⟩ := hentries e he
        have hlevel := builtFrom_null (hnull ▸ hvalue) (isNull_of_lookup hlookup)
        obtain rfl : n = 49 := by omega
        refine hdeep ⟨members, hinside, ?_⟩
        intro hnil
        rw [hnil] at hlookup
        cases hlookup
      · exact absurd hbuilt not_builtFrom_typedMap

end Tree

/-! ## Every type -/

section Types
variable {json : Rapidjson} {order : HashOrder}

theorem noNullPair_string (s : Bytes) : NoNullPair (.string s) := by
  intro v hwithin entries hmap
  have hself : v = .string s := by
    rcases Relation.ReflTransGen.cases_head hwithin with heq | ⟨q, hq, -⟩
    · exact heq.symm
    · cases hq
  subst hself
  rcases hmap with hmap | ⟨type, hmap⟩ <;> cases hmap

/-- For every value and every type: no map has a null pair, unless an object
49 levels deep in what is converted has a member that is not null. -/
theorem noNullPair_iff (horder : ∀ place es, (order place es).Perm es) {value : Value} {type : Bytes} {v : HessianValue}
    (h : jsonValueToHessianValue json order value type true = .ok v) :
    NoNullPair v ↔ ∀ u, convertedValue json value type = some u → ¬ TooDeep u := by
  rcases converted h with ⟨u, hu, rfl⟩ | ⟨hnone, s, rfl⟩
  · rw [internal_noNullPair_iff horder]
    simp [hu]
  · simp [noNullPair_string, hnone]

end Types

/-! ## An object in an object in an object -/

/-- A number in that many objects. -/
def nested : Nat → Value
  | 0 => .int 1
  | n + 1 => .object [(ascii "k", nested n)]

theorem inside_nested (n m : Nat) : Inside (nested (n + m)) n (nested m) := by
  induction n generalizing m with
  | zero =>
    rw [Nat.zero_add]
    exact .root
  | succ n ih =>
    have hobject : Inside (nested (n + 1 + m)) n (.object [(ascii "k", nested m)]) := by
      have h := ih (m + 1)
      rwa [show n + (m + 1) = n + 1 + m by omega] at h
    refine hobject.member (k := ascii "k") ?_
    cases m <;> rfl

/-- The object inside is kept, and its null member is not. -/
theorem two_levels_noNullPair :
    NoNullPair (jsonValueToHessianValueInternal (fun _ es => es) true
        (.object [(ascii "a", .null), (ascii "b", .object [(ascii "c", .null), (ascii "d", .int 1)])]) 0 []) ↔
      ∀ u, convertedValue bitsJson (.object [(ascii "a", .null), (ascii "b", .object [(ascii "c", .null), (ascii "d", .int 1)])])
        (ascii "com.example.Pair") = some u → ¬ TooDeep u :=
  @noNullPair_iff bitsJson (fun _ es => es) (fun _ _ => .refl _) _ _ _ rfl

/-- The value of the innermost of fifty maps becomes null. -/
theorem nested_null_pair :
    ∃ v, jsonValueToHessianValue bitsJson (fun _ es => es) (nested 50) (ascii "com.example.Deep") true = .ok v ∧ ¬ NoNullPair v := by
  refine ⟨_, rfl, ?_⟩
  rw [internal_noNullPair_iff fun _ _ => .refl _, not_not]
  exact ⟨_, inside_nested 49 1, by simp [nonNull, nested, isNull]⟩

end EnvoyProxy.Dubbo
