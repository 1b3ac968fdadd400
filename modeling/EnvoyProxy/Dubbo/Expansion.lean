import EnvoyProxy.Dubbo.PlainText
/-!
# Following every Ref

In an acyclic heap every `Ref` can be replaced by what it points at, which
leaves a tree. `treeText` is the JSON text of a tree. `renders_expansion_iff`
compares the renderer with it: they agree except below a `BigInteger` whose
`mag` is a `Ref`, because the registered converters read their fields without
following references.
-/

namespace EnvoyProxy.Dubbo
open Json Relation

/-! ## The tree behind a heap -/

def Node.map {P Q : Type} (f : P → Q) : Node P → Node Q
  | .null => .null
  | .boolean b => .boolean b
  | .integer i => .integer i
  | .long i => .long i
  | .double d => .double d
  | .date i => .date i
  | .string s => .string s
  | .binary s => .binary s
  | .typedList t vs => .typedList t (vs.map f)
  | .untypedList vs => .untypedList (vs.map f)
  | .typedMap t es => .typedMap t (es.map fun e => (f e.1, f e.2))
  | .untypedMap es => .untypedMap (es.map fun e => (f e.1, f e.2))
  | .classInstance c => .classInstance ⟨c.def_, c.data.map f⟩
  | .ref d => .ref (f d)

theorem Node.map_congr {P Q : Type} {f g : P → Q} (n : Node P) (h : ∀ q ∈ n.holds, f q = g q) :
    n.map f = n.map g := by
  cases n with
  | typedMap _ es | untypedMap es =>
    have he : es.map (fun e => (f e.1, f e.2)) = es.map fun e => (g e.1, g e.2) :=
      List.map_congr_left fun e he => by
        rw [h e.1 (List.mem_flatMap.2 ⟨e, he, by simp⟩), h e.2 (List.mem_flatMap.2 ⟨e, he, by simp⟩)]
    simp only [map, he]
  | typedList _ vs | untypedList vs =>
    have hm : vs.map f = vs.map g := List.map_congr_left h
    simp only [map, hm]
  | classInstance c =>
    have hm : c.data.map f = c.data.map g := List.map_congr_left h
    simp only [map, hm]
  | ref d => simp only [map, h d (by simp [holds])]
  | _ => rfl

namespace HessianValue

/-- The tree of a node whose objects are trees: a `Ref` becomes the tree it
points at. -/
def ofNode : Node HessianValue → HessianValue
  | .null => .null
  | .boolean b => .boolean b
  | .integer i => .integer i
  | .long i => .long i
  | .double d => .double d
  | .date i => .date i
  | .string s => .string s
  | .binary s => .binary s
  | .typedList t vs => .typedList t vs
  | .untypedList vs => .untypedList vs
  | .typedMap t es => .typedMap t es
  | .untypedMap es => .untypedMap es
  | .classInstance c => .classInstance c.def_ c.data
  | .ref d => d

theorem node_ofNode {n : Node HessianValue} (h : ∀ d, n ≠ .ref d) : (ofNode n).node = n := by
  cases n with
  | ref d => exact absurd rfl (h d)
  | _ => rfl

theorem sizeOf_lt_of_entry {es : List (HessianValue × HessianValue)} {e : HessianValue × HessianValue}
    (he : e ∈ es) : sizeOf e.1 < sizeOf es ∧ sizeOf e.2 < sizeOf es := by
  have hlt := List.sizeOf_lt_of_mem he
  obtain ⟨k, v⟩ := e
  simp only [Prod.mk.sizeOf_spec] at hlt ⊢
  omega

/-- A tree holds only smaller trees. -/
theorem holds_wf : WellFounded fun q p => Holds HessianValue.node p q := by
  refine Subrelation.wf (r := fun q p : HessianValue => sizeOf q < sizeOf p) ?_ (measure sizeOf).wf
  intro q p hq
  cases p with
  | typedList _ vs | untypedList vs | classInstance _ vs =>
    have hlt := List.sizeOf_lt_of_mem (show q ∈ vs from hq)
    simp only [typedList.sizeOf_spec, untypedList.sizeOf_spec, classInstance.sizeOf_spec]
    omega
  | typedMap _ es | untypedMap es =>
    obtain ⟨e, he, hqe⟩ := List.mem_flatMap.1 (show q ∈ es.flatMap fun e => [e.1, e.2] from hq)
    have hlt := sizeOf_lt_of_entry he
    simp only [typedMap.sizeOf_spec, untypedMap.sizeOf_spec]
    simp only [List.mem_cons, List.not_mem_nil, or_false] at hqe
    rcases hqe with rfl | rfl <;> omega
  | _ => cases hq

end HessianValue

/-- The JSON text of a tree. -/
noncomputable def treeText (dtoa : UInt64 → Bytes) : HessianValue → Except RenderStop Bytes :=
  text dtoa HessianValue.node HessianValue.holds_wf

theorem treeText_eq (dtoa : UInt64 → Bytes) (v : HessianValue) :
    treeText dtoa v = nodeText dtoa HessianValue.node (treeText dtoa) v.node :=
  text_eq dtoa HessianValue.node HessianValue.holds_wf v

section Expand
variable {P : Type} (heap : Heap P) (hwf : WellFounded fun q p => Holds heap p q)

/-- The tree behind an object of an acyclic heap. -/
noncomputable def expand : P → HessianValue :=
  descend hwf .null fun p f => HessianValue.ofNode ((heap p).map f)

theorem expand_eq (p : P) : expand heap hwf p = HessianValue.ofNode ((heap p).map (expand heap hwf)) :=
  descend_eq hwf _ _ (fun p _ _ h => by rw [Node.map_congr (heap p) h]) p

theorem expand_ref {p d : P} (h : heap p = .ref d) : expand heap hwf p = expand heap hwf d := by
  rw [expand_eq, h]
  rfl

theorem node_expand {p : P} (h : ∀ d, heap p ≠ .ref d) :
    (expand heap hwf p).node = (heap p).map (expand heap hwf) := by
  rw [expand_eq, HessianValue.node_ofNode]
  cases hn : heap p with
  | ref d => exact absurd hn (h d)
  | _ => simp [Node.map]

variable (href : ∀ p d, heap p = .ref d → (heap d).isContainer)
include href

/-- What can be read off a node, but not off a container or a `Ref`, can be
read off the tree as well. -/
theorem view_expand {β : Type} (view : ∀ {Q : Type}, Node Q → Option β)
    (hmap : ∀ n : Node P, view (n.map (expand heap hwf)) = view n)
    (hcontainer : ∀ n : Node P, n.isContainer → view n = none) (hvref : ∀ d : P, view (.ref d) = none) (p : P) :
    view (expand heap hwf p).node = view (heap p) := by
  by_cases h : ∃ d, heap p = .ref d
  · obtain ⟨d, hd⟩ := h
    have hc := href p d hd
    have hd' : ∀ e, heap d ≠ .ref e := fun e he => by rw [he] at hc; cases hc
    rw [expand_ref heap hwf hd, node_expand heap hwf hd', hmap, hcontainer _ hc, hd, hvref]
  · rw [node_expand heap hwf fun d hd => h ⟨d, hd⟩, hmap]

theorem toInteger_expand (p : P) : (expand heap hwf p).node.toInteger = (heap p).toInteger :=
  view_expand heap hwf href Node.toInteger (fun n => by cases n <;> rfl)
    (fun n h => by cases n <;> first | rfl | cases h) (fun _ => rfl) p

theorem toLong_expand (p : P) : (expand heap hwf p).node.toLong = (heap p).toLong :=
  view_expand heap hwf href Node.toLong (fun n => by cases n <;> rfl)
    (fun n h => by cases n <;> first | rfl | cases h) (fun _ => rfl) p

theorem toDouble_expand (p : P) : (expand heap hwf p).node.toDouble = (heap p).toDouble :=
  view_expand heap hwf href Node.toDouble (fun n => by cases n <;> rfl)
    (fun n h => by cases n <;> first | rfl | cases h) (fun _ => rfl) p

theorem toDate_expand (p : P) : (expand heap hwf p).node.toDate = (heap p).toDate :=
  view_expand heap hwf href Node.toDate (fun n => by cases n <;> rfl)
    (fun n h => by cases n <;> first | rfl | cases h) (fun _ => rfl) p

theorem toString_expand (p : P) : (expand heap hwf p).node.toString = (heap p).toString :=
  view_expand heap hwf href Node.toString (fun n => by cases n <;> rfl)
    (fun n h => by cases n <;> first | rfl | cases h) (fun _ => rfl) p

end Expand

/-! ## Registered converters -/

section Registered
variable {P : Type} (dtoa : UInt64 → Bytes) (heap : Heap P) (hwf : WellFounded fun q p => Holds heap p q)

/-- A `BigInteger` other than zero whose `mag` is a `Ref` to a list of
integers, as when the array is shared with another `BigInteger`. -/
def SharesMag (d : RawDefinition) (data : List P) : Prop :=
  ∃ i j m s signum l t vs, fieldIndex d.fieldNames (ascii "mag") = some i ∧
    fieldIndex d.fieldNames (ascii "signum") = some j ∧ data[i]? = some m ∧ data[j]? = some s ∧
    (heap s).toInteger = some signum ∧ signum ≠ 0 ∧
    heap m = .ref l ∧ heap l = .typedList t vs ∧ (magWords heap vs).isSome

theorem check_map {Q : Type} (f : P → Q) (d : RawDefinition) (data : List P) :
    checkClassOnlyHasOneValue d (data.map f) = (do return f (← checkClassOnlyHasOneValue d data)) := by
  unfold checkClassOnlyHasOneValue
  split_ifs with h
  · rfl
  · rcases data with _ | ⟨v, _ | ⟨v', data⟩⟩ <;> simp

theorem null_diverge_integerText (signum : Int32) (words : List Nat) :
    Diverge (ascii "null") (integerText (some (signum, some words))) := by
  simp only [integerText]
  split
  · exact null_diverge_intText _
  · exact Diverge.head (by decide) _ _

variable (href : ∀ p d, heap p = .ref d → (heap d).isContainer)
include href

theorem magWords_expand (vs : List P) :
    magWords HessianValue.node (vs.map (expand heap hwf)) = magWords heap vs := by
  simp only [magWords, List.mapM_map, Function.comp_def, toInteger_expand heap hwf href]

omit href in
/-- A `BigInteger` other than zero is read from the words of its `mag`. -/
theorem bigIntegerFields_of_signum {d : RawDefinition} {data : List P} {i j : Nat} {m s : P} {signum : Int32}
    (hi : fieldIndex d.fieldNames (ascii "mag") = some i) (hj : fieldIndex d.fieldNames (ascii "signum") = some j)
    (hm : data[i]? = some m) (hs : data[j]? = some s) (hsig : (heap s).toInteger = some signum)
    (hne : signum ≠ 0) :
    bigIntegerFields heap d data =
      ((heap m).toTypedList >>= magWords heap).map fun words => (signum, some words) := by
  simp only [bigIntegerFields, hi, hj, hm, hs, hsig, hne, if_false, Option.bind_eq_bind, Option.bind_some]
  cases (heap m).toTypedList with
  | none => rfl
  | some vs => cases h : magWords heap vs <;> simp [h]

/-- The words of a `mag` field are the same in the tree. -/
theorem mag_expand {m : P} (hm : ∀ d, heap m ≠ .ref d) :
    ((expand heap hwf m).node.toTypedList >>= magWords HessianValue.node) =
      (heap m).toTypedList >>= magWords heap := by
  rw [node_expand heap hwf hm]
  cases heap m with
  | typedList t vs => exact magWords_expand heap hwf href vs
  | _ => rfl

/-- The tree has the words of a shared `mag` field as well. -/
theorem mag_expand_ref {m l : P} (hm : heap m = .ref l) :
    ((expand heap hwf m).node.toTypedList >>= magWords HessianValue.node) =
      (heap l).toTypedList >>= magWords heap := by
  have hc := href m l hm
  rw [expand_ref heap hwf hm, mag_expand heap hwf href fun e he => by rw [he] at hc; cases hc]

/-- The words of a `mag` field are the same unless they are shared. -/
theorem mag_expand_unshared {m : P}
    (h : ¬ ∃ l t vs, heap m = .ref l ∧ heap l = .typedList t vs ∧ (magWords heap vs).isSome) :
    ((expand heap hwf m).node.toTypedList >>= magWords HessianValue.node) =
      (heap m).toTypedList >>= magWords heap := by
  by_cases hr : ∃ l, heap m = .ref l
  · obtain ⟨l, hl⟩ := hr
    rw [mag_expand_ref heap hwf href hl, hl]
    cases hn : heap l with
    | typedList t vs =>
      have hw : magWords heap vs = none := by
        cases hw : magWords heap vs with
        | none => rfl
        | some words => exact absurd ⟨l, t, vs, hl, hn, by rw [hw]; rfl⟩ h
      simp [Node.toTypedList, hw]
    | _ => rfl
  · exact mag_expand heap hwf href fun l hl => hr ⟨l, hl⟩

/-- Without both fields, or with signum 0 or not an integer, `mag` is not read. -/
theorem bigIntegerFields_unread {d : RawDefinition} {data : List P}
    (hread : ¬ ∃ i j m s signum, fieldIndex d.fieldNames (ascii "mag") = some i ∧
      fieldIndex d.fieldNames (ascii "signum") = some j ∧ data[i]? = some m ∧ data[j]? = some s ∧
      (heap s).toInteger = some signum ∧ signum ≠ 0) :
    bigIntegerFields HessianValue.node d (data.map (expand heap hwf)) = bigIntegerFields heap d data := by
  simp only [bigIntegerFields, List.getElem?_map, Option.bind_eq_bind]
  cases hi : fieldIndex d.fieldNames (ascii "mag") with
  | none => rfl
  | some i => cases hj : fieldIndex d.fieldNames (ascii "signum") with
    | none => rfl
    | some j => cases hm : data[i]? with
      | none => simp [hm]
      | some m => cases hs : data[j]? with
        | none => simp [hs]
        | some s => cases hsig : (heap s).toInteger with
          | none => simp [hs, hsig, toInteger_expand heap hwf href]
          | some signum =>
            obtain rfl : signum = 0 := by_contra fun hne => hread ⟨i, j, m, s, signum, hi, hj, hm, hs, hsig, hne⟩
            simp [hm, hs, hsig, toInteger_expand heap hwf href]

theorem bigIntegerFields_expand (d : RawDefinition) (data : List P) :
    (¬ SharesMag heap d data ∧
      bigIntegerFields HessianValue.node d (data.map (expand heap hwf)) = bigIntegerFields heap d data) ∨
    (SharesMag heap d data ∧ bigIntegerFields heap d data = none ∧
      ∃ signum words, bigIntegerFields HessianValue.node d (data.map (expand heap hwf)) =
        some (signum, some words)) := by
  by_cases hread : ∃ i j m s signum, fieldIndex d.fieldNames (ascii "mag") = some i ∧
    fieldIndex d.fieldNames (ascii "signum") = some j ∧ data[i]? = some m ∧ data[j]? = some s ∧
    (heap s).toInteger = some signum ∧ signum ≠ 0
  · obtain ⟨i, j, m, s, signum, hi, hj, hm, hs, hsig, hne⟩ := hread
    have hh := bigIntegerFields_of_signum heap hi hj hm hs hsig hne
    have hm' : (data.map (expand heap hwf))[i]? = some (expand heap hwf m) := by rw [List.getElem?_map, hm]; rfl
    have hs' : (data.map (expand heap hwf))[j]? = some (expand heap hwf s) := by rw [List.getElem?_map, hs]; rfl
    have ht := bigIntegerFields_of_signum HessianValue.node hi hj hm' hs'
      (by rw [toInteger_expand heap hwf href, hsig]) hne
    rw [hh, ht]
    by_cases hshared : ∃ l t vs, heap m = .ref l ∧ heap l = .typedList t vs ∧ (magWords heap vs).isSome
    · obtain ⟨l, t, vs, hl, hvs, hw⟩ := hshared
      obtain ⟨words, hw'⟩ := Option.isSome_iff_exists.1 hw
      refine .inr ⟨⟨i, j, m, s, signum, l, t, vs, hi, hj, hm, hs, hsig, hne, hl, hvs, hw⟩, ?_, signum, words, ?_⟩
      · rw [hl]; rfl
      · rw [mag_expand_ref heap hwf href hl, hvs]
        simp [Node.toTypedList, hw']
    · refine .inl ⟨?_, by rw [mag_expand_unshared heap hwf href hshared]⟩
      rintro ⟨i', j', m', s', signum', l, t, vs, hi', hj', hm', hs', -, -, hl, hvs, hw⟩
      rw [hi] at hi'; cases hi'
      rw [hm] at hm'; cases hm'
      exact hshared ⟨l, t, vs, hl, hvs, hw⟩
  · refine .inl ⟨?_, bigIntegerFields_unread heap hwf href hread⟩
    rintro ⟨i, j, m, s, signum, _, _, _, hi, hj, hm, hs, hsig, hne, -⟩
    exact hread ⟨i, j, m, s, signum, hi, hj, hm, hs, hsig, hne⟩

end Registered

/-! ## Comparing the two texts -/

/-- Two renderings that end alike: in the same exception, or in texts that are
equal unless `bad`. -/
def Agree {β : Type} (put : β → Bytes) (bad : Prop) (ra rb : Except RenderStop β) : Prop :=
  (∃ e, ra = .error e ∧ rb = .error e) ∨
  ∃ a b, ra = .ok a ∧ rb = .ok b ∧ EqUnless bad (put a) (put b)

namespace Agree
variable {α β : Type} {put : β → Bytes} {p q : Prop}

theorem refl (r : Except RenderStop Bytes) : Agree id False r r := by
  cases r with
  | ok t => exact .inr ⟨t, t, rfl, rfl, EqUnless.refl t⟩
  | error e => exact .inl ⟨e, rfl, rfl⟩

theorem congr {ra rb : Except RenderStop β} (h : Agree put p ra rb) (hpq : p ↔ q) : Agree put q ra rb := by
  rwa [propext hpq] at h

/-- The member of a key and a value. -/
theorem member {ka kb va vb : Except RenderStop Bytes} (hk : Agree id p ka kb) (hv : Agree id q va vb) :
    Agree memberText (p ∨ q) (do return (← ka, ← va)) (do return (← kb, ← vb)) := by
  rcases hk with ⟨e, rfl, rfl⟩ | ⟨k, k', rfl, rfl, hk⟩
  · exact .inl ⟨e, rfl, rfl⟩
  · rcases hv with ⟨e, rfl, rfl⟩ | ⟨v, v', rfl, rfl, hv⟩
    · exact .inl ⟨e, rfl, rfl⟩
    · exact .inr ⟨(k, v), (k', v'), rfl, rfl, eqUnless_memberText hk hv⟩

/-- A loop over the elements of a container. -/
theorem mapM {f g : α → Except RenderStop β} {bad : α → Prop} (xs : List α)
    (h : ∀ x ∈ xs, Agree put (bad x) (f x) (g x)) :
    (∃ e, xs.mapM f = .error e ∧ xs.mapM g = .error e) ∨
    ∃ as bs, xs.mapM f = .ok as ∧ xs.mapM g = .ok bs ∧ as.length = bs.length ∧
      EqUnless (∃ x ∈ xs, bad x) (commaSep (as.map put)) (commaSep (bs.map put)) := by
  induction xs with
  | nil => exact .inr ⟨[], [], rfl, rfl, rfl, (EqUnless.refl _).congr (by simp)⟩
  | cons x xs ih =>
    simp only [List.mapM_cons, List.exists_mem_cons_iff]
    rcases h x List.mem_cons_self with ⟨e, hf, hg⟩ | ⟨a, b, hf, hg, hx⟩
    · exact .inl ⟨e, by simp [hf], by simp [hg]⟩
    · rcases ih fun y hy => h y (List.mem_cons_of_mem _ hy) with ⟨e, he, he'⟩ | ⟨as, bs, ha, hb, hl, hs⟩
      · exact .inl ⟨e, by simp [hf, he], by simp [hg, he']⟩
      · refine .inr ⟨a :: as, b :: bs, by simp [hf, ha], by simp [hg, hb], by simp [hl], ?_⟩
        exact eqUnless_commaSep_cons hx (by simpa using hl) hs

theorem array {f g : α → Except RenderStop Bytes} {bad : α → Prop} (xs : List α)
    (h : ∀ x ∈ xs, Agree id (bad x) (f x) (g x)) :
    Agree id (∃ x ∈ xs, bad x) (do return arrayText (← xs.mapM f)) (do return arrayText (← xs.mapM g)) := by
  rcases mapM xs h with ⟨e, he, he'⟩ | ⟨as, bs, ha, hb, -, hs⟩
  · exact .inl ⟨e, by simp [he], by simp [he']⟩
  · simp only [List.map_id] at hs
    exact .inr ⟨arrayText as, arrayText bs, by simp [ha], by simp [hb], (hs.cons 91).append_right [93]⟩

theorem object {f g : α → Except RenderStop (Bytes × Bytes)} {bad : α → Prop} (xs : List α)
    (h : ∀ x ∈ xs, Agree memberText (bad x) (f x) (g x)) :
    Agree id (∃ x ∈ xs, bad x) (do return objectText (← xs.mapM f)) (do return objectText (← xs.mapM g)) := by
  rcases mapM xs h with ⟨e, he, he'⟩ | ⟨as, bs, ha, hb, -, hs⟩
  · exact .inl ⟨e, by simp [he], by simp [he']⟩
  · exact .inr ⟨objectText as, objectText bs, by simp [ha], by simp [hb], (hs.cons 123).append_right [125]⟩

end Agree

section Compare
variable {P : Type} (dtoa : UInt64 → Bytes) (heap : Heap P) (hwf : WellFounded fun q p => Holds heap p q)

/-- `p` is a `BigInteger` whose `mag` is shared. -/
def MagShared (p : P) : Prop :=
  ∃ d data, heap p = .classInstance ⟨some d, data⟩ ∧ registeredAs d.type = some .bigInteger ∧ SharesMag heap d data

/-- A rendering of `p` comes by a `BigInteger` whose `mag` is shared. -/
def MeetsShared (p : P) : Prop := ∃ q, ReflTransGen (Uses heap) p q ∧ MagShared heap q

theorem meetsShared_iff (p : P) :
    MeetsShared heap p ↔ MagShared heap p ∨ ∃ q, Uses heap p q ∧ MeetsShared heap q := by
  constructor
  · rintro ⟨q, hq, hs⟩
    rcases ReflTransGen.cases_head hq with rfl | ⟨r, hr, hrq⟩
    · exact .inl hs
    · exact .inr ⟨r, hr, q, hrq, hs⟩
  · rintro (hs | ⟨q, hq, r, hr, hs⟩)
    · exact ⟨p, .refl, hs⟩
    · exact ⟨r, .head hq hr, hs⟩

/-- Objects other than class instances share no `mag` themselves. -/
theorem meetsShared_iff_uses {p : P} (h : ∀ c, heap p ≠ .classInstance c) :
    MeetsShared heap p ↔ ∃ q, Uses heap p q ∧ MeetsShared heap q := by
  rw [meetsShared_iff]
  refine or_iff_right ?_
  rintro ⟨d, data, hp, -⟩
  exact h _ hp

/-- A map meets what its values meet and what the keys rendered by themselves
meet. -/
theorem meetsShared_map {p : P} {es : List (P × P)} (hp : (∃ t, heap p = .typedMap t es) ∨ heap p = .untypedMap es) :
    MeetsShared heap p ↔
      ∃ e ∈ es, ((heap e.1).toString = none ∧ MeetsShared heap e.1) ∨ MeetsShared heap e.2 := by
  have huses : ∀ q, Uses heap p q ↔ ∃ e ∈ es, ((heap e.1).toString = none ∧ q = e.1) ∨ q = e.2 := by
    intro q
    rcases hp with ⟨t, hp⟩ | hp
    all_goals
      simp only [Uses, Next, Node.rendered, Node.renderedKeys, hp, List.mem_map, List.mem_filter, Node.isString,
        Bool.not_eq_true', Option.isSome_eq_false_iff, Option.isNone_iff_eq_none, reduceCtorEq, or_false]
      constructor
      · rintro (⟨e, he, rfl⟩ | ⟨⟨e, he, rfl⟩, hk⟩)
        · exact ⟨e, he, .inr rfl⟩
        · exact ⟨e, he, .inl ⟨hk, rfl⟩⟩
      · rintro ⟨e, he, ⟨hk, rfl⟩ | rfl⟩
        · exact .inr ⟨⟨e, he, rfl⟩, hk⟩
        · exact .inl ⟨e, he, rfl⟩
  rw [meetsShared_iff_uses heap (by rcases hp with ⟨t, hp⟩ | hp <;> simp [hp])]
  constructor
  · rintro ⟨q, hq, h⟩
    obtain ⟨e, he, ⟨hk, rfl⟩ | rfl⟩ := (huses q).1 hq
    · exact ⟨e, he, .inl ⟨hk, h⟩⟩
    · exact ⟨e, he, .inr h⟩
  · rintro ⟨e, he, ⟨hk, h⟩ | h⟩
    · exact ⟨e.1, (huses _).2 ⟨e, he, .inl ⟨hk, rfl⟩⟩, h⟩
    · exact ⟨e.2, (huses _).2 ⟨e, he, .inr rfl⟩, h⟩

variable (href : ∀ p d, heap p = .ref d → (heap d).isContainer)
include href

theorem numberText_expand (kind : NumberKind) (v : P) :
    numberText dtoa kind (expand heap hwf v).node = numberText dtoa kind (heap v) := by
  cases kind <;>
    simp only [numberText, toInteger_expand heap hwf href, toLong_expand heap hwf href,
      toDouble_expand heap hwf href, toDate_expand heap hwf href]

theorem registeredText_agree (r : Registered) (d : RawDefinition) (data : List P) :
    Agree id (r = .bigInteger ∧ SharesMag heap d data) (registeredText dtoa heap r d data)
      (registeredText dtoa HessianValue.node r d (data.map (expand heap hwf))) := by
  cases r with
  | bigDecimal =>
    simp only [registeredText, check_map, bind_assoc, pure_bind, toString_expand heap hwf href]
    exact (Agree.refl _).congr (by simp)
  | valueNumber kind =>
    simp only [registeredText, check_map, bind_assoc, pure_bind, numberText_expand dtoa heap hwf href]
    exact (Agree.refl _).congr (by simp)
  | bigInteger =>
    simp only [registeredText, true_and]
    rcases bigIntegerFields_expand heap hwf href d data with ⟨hs, he⟩ | ⟨hs, hn, signum, words, he⟩
    · exact .inr ⟨_, _, rfl, rfl, .inl ⟨hs, by rw [he]⟩⟩
    · refine .inr ⟨_, _, rfl, rfl, .inr ⟨hs, ?_⟩⟩
      rw [he, hn]
      exact null_diverge_integerText signum words

theorem classText_agree {p : P} {c : ClassInstance P} (hn : heap p = .classInstance c)
    (ih : ∀ v ∈ c.data, Agree id (MeetsShared heap v) (text dtoa heap hwf v) (treeText dtoa (expand heap hwf v))) :
    Agree id (MeetsShared heap p) (classText dtoa heap (text dtoa heap hwf) c)
      (classText dtoa HessianValue.node (treeText dtoa) ⟨c.def_, c.data.map (expand heap hwf)⟩) := by
  obtain ⟨_ | d, data⟩ := c
  · refine (Agree.refl (.ok (ascii "null"))).congr (iff_of_false id ?_)
    rw [meetsShared_iff]
    simp [MagShared, hn, Uses, Next, Node.rendered, Node.renderedKeys]
  · cases hreg : registeredAs d.type with
    | some r =>
      simp only [classText, hreg]
      refine (registeredText_agree dtoa heap hwf href r d data).congr ?_
      rw [meetsShared_iff]
      simp [MagShared, hn, Uses, Next, Node.rendered, Node.renderedKeys, hreg]
    | none =>
      simp only [classText, hreg, List.zip_map_right, List.mapM_map, Function.comp_def, Prod.map_fst,
        Prod.map_snd, id_eq]
      refine (Agree.object _ fun m hm => ((Agree.refl (.ok m.1)).member (ih m.2 (List.of_mem_zip hm).2))).congr ?_
      rw [meetsShared_iff]
      simp only [MagShared, hn, Uses, Next, Node.rendered, Node.renderedKeys, hreg]
      constructor
      · rintro ⟨m, hm, h | h⟩
        · exact h.elim
        · exact .inr ⟨m.2, by simpa using ⟨m.1, hm⟩, h⟩
      · rintro (⟨d', data', hd, hr, -⟩ | ⟨q, hq, h⟩)
        · cases hd; rw [hreg] at hr; cases hr
        · obtain ⟨a, ha⟩ : ∃ a, (a, q) ∈ d.fieldNames.zip data := by simpa using hq
          exact ⟨(a, q), ha, .inr h⟩

/-- A key that is not a string is rendered by itself; one that is a string
meets nothing. -/
theorem keyOf_agree (k : P)
    (h : Agree id (MeetsShared heap k) (text dtoa heap hwf k) (treeText dtoa (expand heap hwf k))) :
    Agree id ((heap k).toString = none ∧ MeetsShared heap k) (keyOf heap (text dtoa heap hwf) k)
      (keyOf HessianValue.node (treeText dtoa) (expand heap hwf k)) := by
  unfold keyOf
  rw [toString_expand heap hwf href]
  cases hs : (heap k).toString with
  | some s => exact (Agree.refl (.ok s)).congr (by simp)
  | none => exact h.congr (by simp)

theorem text_agree (p : P) :
    Agree id (MeetsShared heap p) (text dtoa heap hwf p) (treeText dtoa (expand heap hwf p)) := by
  induction p using hwf.induction with
  | _ p ih =>
    simp only [Holds] at ih
    by_cases hr : ∃ d, heap p = .ref d
    · obtain ⟨d, hd⟩ := hr
      rw [text_eq, hd, expand_ref heap hwf hd]
      refine (ih d (by rw [hd]; simp [Node.holds])).congr ?_
      rw [meetsShared_iff_uses heap (p := p) (by simp [hd])]
      simp [Uses, Next, Node.rendered, Node.renderedKeys, hd]
    · rw [text_eq, treeText_eq, node_expand heap hwf fun d hd => hr ⟨d, hd⟩]
      cases hn : heap p with
      | typedList _ vs | untypedList vs =>
        simp only [Node.map, nodeText, List.mapM_map, Function.comp_def]
        refine (Agree.array vs fun v hv => ih v (by rw [hn]; exact hv)).congr ?_
        rw [meetsShared_iff_uses heap (p := p) (by simp [hn])]
        simp [Uses, Next, Node.rendered, Node.renderedKeys, hn]
      | typedMap _ es | untypedMap es =>
        have hes : ∀ e ∈ es, e.1 ∈ (heap p).holds ∧ e.2 ∈ (heap p).holds := by
          intro e he
          rw [hn]
          exact ⟨List.mem_flatMap.2 ⟨e, he, by simp⟩, List.mem_flatMap.2 ⟨e, he, by simp⟩⟩
        simp only [Node.map, nodeText, List.mapM_map, Function.comp_def]
        refine (Agree.object es fun e he =>
          (keyOf_agree dtoa heap hwf href e.1 (ih _ (hes e he).1)).member (ih _ (hes e he).2)).congr ?_
        exact (meetsShared_map heap (by simp [hn])).symm
      | classInstance c =>
        exact classText_agree dtoa heap hwf href hn fun v hv => ih v (by rw [hn]; exact hv)
      | ref d => exact absurd ⟨d, hn⟩ hr
      | _ =>
        refine (Agree.refl _).congr (iff_of_false id ?_)
        rw [meetsShared_iff_uses heap (p := p) (by simp [hn])]
        simp [Uses, Next, Node.rendered, Node.renderedKeys, hn]

end Compare

/-! ## The renderer and the tree -/

/-- The renderer returns the text of the tree behind an acyclic graph exactly
when it comes by no `BigInteger` whose `mag` is a `Ref`. -/
theorem renders_expansion_iff {P : Type} [Finite P] [DecidableEq P] (dtoa : UInt64 → Bytes) (heap : Heap P)
    (hacyclic : ∀ p, ¬ TransGen (Holds heap) p p) (href : ∀ p d, heap p = .ref d → (heap d).isContainer)
    (p : P) (t : Bytes) (ht : treeText dtoa (expand heap (wellFounded_of_acyclic hacyclic) p) = .ok t) :
    EndsWith (fun fuel => hessianValueToJsonString dtoa heap fuel (some p)) (.ok t) ↔
      ∀ q, ReflTransGen (Uses heap) p q → ¬ MagShared heap q := by
  have hwf := wellFounded_of_acyclic hacyclic
  have hends := hessianValueToJsonString_ends dtoa heap hwf p
  rcases text_agree dtoa heap hwf href p with ⟨e, -, he⟩ | ⟨a, b, ha, hb, hab⟩
  · rw [ht] at he; cases he
  · rw [ht] at hb; cases hb
    rw [ha] at hends
    calc EndsWith (fun fuel => hessianValueToJsonString dtoa heap fuel (some p)) (.ok t)
        ↔ a = t := ⟨fun h => Except.ok.inj (hends.unique h), fun h => h ▸ hends⟩
      _ ↔ ¬ MeetsShared heap p := hab.eq_iff
      _ ↔ ∀ q, ReflTransGen (Uses heap) p q → ¬ MagShared heap q := by
        simp only [MeetsShared, not_exists, not_and]

/-- `[[7], r]` with `r` a `Ref` to `[7]`. -/
def sharedList : Heap (Fin 4)
  | 0 => .untypedList [1, 3]
  | 1 => .untypedList [2]
  | 2 => .integer 7
  | 3 => .ref 1

theorem sharedList_acyclic : ∀ p, ¬ TransGen (Holds sharedList) p p :=
  acyclic_of_rank (fun p => [3, 1, 0, 2].getD p.val 0) (by decide)

theorem sharedList_renders :
    EndsWith (fun fuel => hessianValueToJsonString (fun _ => []) sharedList fuel (some 0))
      (.ok (ascii "[[7],[7]]")) := by
  have hwf := wellFounded_of_acyclic sharedList_acyclic
  have h2 : expand sharedList hwf 2 = .integer 7 := expand_eq sharedList hwf 2
  have h1 : expand sharedList hwf 1 = .untypedList [.integer 7] := by
    rw [expand_eq, ← h2]; rfl
  have h0 : expand sharedList hwf 0 = .untypedList [.untypedList [.integer 7], .untypedList [.integer 7]] := by
    rw [expand_eq, ← h1]
    simp [sharedList, Node.map, HessianValue.ofNode, expand_ref sharedList hwf (p := 3) rfl]
  have t2 : treeText (fun _ => []) (.integer 7) = .ok (ascii "7") := by rw [treeText_eq]; decide
  have t1 : treeText (fun _ => []) (.untypedList [.integer 7]) = .ok (ascii "[7]") := by
    rw [treeText_eq]
    simp [HessianValue.node, nodeText, t2]
    rfl
  have t0 : treeText (fun _ => []) (expand sharedList hwf 0) = .ok (ascii "[[7],[7]]") := by
    rw [h0, treeText_eq]
    simp [HessianValue.node, nodeText, t1]
    rfl
  refine (renders_expansion_iff (fun _ => []) sharedList sharedList_acyclic (by decide) 0 _ t0).2 ?_
  rintro q - ⟨d, data, hq, -⟩
  fin_cases q <;> cases hq

/-- The definition of `java.math.BigInteger`. -/
def bigInteger : RawDefinition := ⟨ascii "java.math.BigInteger", [ascii "signum", ascii "mag"]⟩

/-- `[x, y]` with `x = 7` and `y = x.negate()`, which shares the words of `x`. -/
def negated : Heap (Fin 8)
  | 0 => .untypedList [1, 5]
  | 1 => .classInstance ⟨some bigInteger, [2, 3]⟩
  | 2 => .integer 1
  | 3 => .typedList (ascii "[int") [4]
  | 4 => .integer 7
  | 5 => .classInstance ⟨some bigInteger, [6, 7]⟩
  | 6 => .integer (-1)
  | 7 => .ref 3

theorem negated_acyclic : ∀ p, ¬ TransGen (Holds negated) p p :=
  acyclic_of_rank (fun p => [4, 2, 0, 1, 0, 3, 0, 2].getD p.val 0) (by decide)

theorem negated_decoded : Decoded negated where
  owner_unique := by decide
  owned_once := by decide
  grounded := grounded_of_lt (by decide)
  ref_container := by decide

theorem negated_tree (hwf : WellFounded fun q p => Holds negated p q) :
    treeText (fun _ => []) (expand negated hwf 0) = .ok (ascii "[7,-7]") := by
  have mag : expand negated hwf 3 = .typedList (ascii "[int") [.integer 7] := by
    rw [expand_eq, ← show expand negated hwf 4 = .integer 7 from expand_eq negated hwf 4]; rfl
  have x : expand negated hwf 1 = .classInstance bigInteger [.integer 1, .typedList (ascii "[int") [.integer 7]] := by
    rw [expand_eq, ← mag, ← show expand negated hwf 2 = .integer 1 from expand_eq negated hwf 2]; rfl
  have y : expand negated hwf 5 = .classInstance bigInteger [.integer (-1), .typedList (ascii "[int") [.integer 7]] := by
    rw [expand_eq, ← mag, ← expand_ref negated hwf (p := 7) rfl,
      ← show expand negated hwf 6 = .integer (-1) from expand_eq negated hwf 6]
    rfl
  have tx : treeText (fun _ => []) (expand negated hwf 1) = .ok (ascii "7") := by
    rw [x, treeText_eq]; decide
  have ty : treeText (fun _ => []) (expand negated hwf 5) = .ok (ascii "-7") := by
    rw [y, treeText_eq]; decide
  have xy : expand negated hwf 0 = .untypedList [expand negated hwf 1, expand negated hwf 5] :=
    expand_eq negated hwf 0
  rw [xy, treeText_eq]
  simp [HessianValue.node, nodeText, tx, ty]
  rfl

/-- The tree behind `[x, x.negate()]` reads `[7,-7]`; the renderer returns
`[7,null]`. -/
theorem negated_not_expanded :
    Decoded negated ∧ (∀ p, ¬ TransGen (Holds negated) p p) ∧
    (∀ hwf, treeText (fun _ => []) (expand negated hwf 0) = .ok (ascii "[7,-7]")) ∧
    EndsWith (fun fuel => hessianValueToJsonString (fun _ => []) negated fuel (some 0)) (.ok (ascii "[7,null]")) ∧
    ¬ EndsWith (fun fuel => hessianValueToJsonString (fun _ => []) negated fuel (some 0)) (.ok (ascii "[7,-7]")) := by
  have hwf := wellFounded_of_acyclic negated_acyclic
  have tx : text (fun _ => []) negated hwf 1 = .ok (ascii "7") := by rw [text_eq]; rfl
  have ty : text (fun _ => []) negated hwf 5 = .ok (ascii "null") := by rw [text_eq]; rfl
  have txy : text (fun _ => []) negated hwf 0 = .ok (ascii "[7,null]") := by
    rw [text_eq]
    simp [negated, nodeText, tx, ty]
    rfl
  have hends := hessianValueToJsonString_ends (fun _ => []) negated hwf 0
  rw [txy] at hends
  exact ⟨negated_decoded, negated_acyclic, negated_tree, hends, fun h => absurd (hends.unique h) (by decide)⟩

end EnvoyProxy.Dubbo
