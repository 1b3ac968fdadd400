import EnvoyProxy.Lib.Fuel
import EnvoyProxy.Dubbo.Render
/-!
# When rendering returns

The history holds the objects the renderer is inside of, and a `Ref` to one of
them is cut to null. Two things escape it. A container entered through a `Ref`
can be entered again through its owner, and leaving the inner visit erases it
from the history while the outer one goes on. And a map key that is not a
string is rendered with an empty history. `Guarded` says that a container is
not entered while a visit of it is open, unless the rendering throws before the
inner visit is over. `returns_of_guarded` shows that nothing else keeps the
recursion from ending, and that what is not guarded leaves such an inner visit
or never ends.
-/

namespace EnvoyProxy.Dubbo
open Json

/-! ## Visits -/

namespace Node
variable {P : Type}

/-- A class instance that its registered converter refuses: all converters but
that of `BigInteger` want one field, `value`. -/
def malformed : Node P → Bool
  | .classInstance ⟨some d, data⟩ =>
    match registeredAs d.type with
    | none | some .bigInteger => false
    | some _ => d.fieldNames != [ascii "value"] || data.length != 1
  | _ => false

end Node

/-- A call on an object: the history it is given, and the objects that are
being rendered further up, which the history of a key leaves out. -/
structure Visit (P : Type) where
  history : Finset P
  opened : Finset P
  object : P
  deriving DecidableEq

namespace Visit
variable {P : Type} [DecidableEq P] (heap : Heap P)

/-- A call from inside the object, with its history. -/
def inside (v : Visit P) (q : P) : Visit P := ⟨insert v.object v.history, insert v.object v.opened, q⟩

/-- A key of the object, rendered by itself. -/
def alone (v : Visit P) (k : P) : Visit P := ⟨∅, insert v.object v.opened, k⟩

/-- The calls for one entry of a map. -/
def entryCalls (v : Visit P) (e : P × P) : List (Visit P) :=
  (if (heap e.1).isString then [] else [v.alone e.1]) ++ [v.inside e.2]

/-- The calls that the rendering of an object makes, in order. -/
def calls (v : Visit P) : List (Visit P) :=
  match heap v.object with
  | .typedList _ vs | .untypedList vs => vs.flatMap fun q => [v.inside q]
  | .typedMap _ es | .untypedMap es => es.flatMap (v.entryCalls heap)
  | .classInstance ⟨some d, data⟩ =>
    if (registeredAs d.type).isSome then []
    else (d.fieldNames.zip data).flatMap fun f => [v.inside f.2]
  | .ref q => if q ∈ v.history then [] else [v.inside q]
  | _ => []

/-- A list, map or class instance is entered while a visit of it is open. -/
def Reenters (v : Visit P) : Prop := (heap v.object).isContainer ∧ v.object ∈ v.opened

instance (v : Visit P) : Decidable (v.Reenters heap) := inferInstanceAs (Decidable (_ ∧ _))

/-- A refused class instance lies behind the calls. -/
inductive Throws : Visit P → Prop
  | malformed {v : Visit P} (h : (heap v.object).malformed = true) : Throws v
  | call {v w : Visit P} (hw : w ∈ v.calls heap) (h : Throws w) : Throws v

/-- `w` is one of the calls of `v`, and none before it throws. -/
def Leads (v w : Visit P) : Prop := ComesTo (fun u => ¬ Throws heap u) (· = w) (v.calls heap)

/-- The rendering comes to a refused class instance. -/
def Raises (v : Visit P) : Prop :=
  ∃ w, Relation.ReflTransGen (Leads heap) v w ∧ (heap w.object).malformed = true

/-- No visit that the rendering comes to enters an open container, unless it
throws from there. -/
def Safe (v : Visit P) : Prop :=
  ∀ w, Relation.ReflTransGen (Leads heap) v w → w.Reenters heap → w.Raises heap

/-- The first call on an object. -/
def start (s : P) : Visit P := ⟨∅, ∅, s⟩

/-- The history names open objects only, and each `Ref` in it comes with the
object it was followed to. -/
structure Sound (v : Visit P) : Prop where
  opened : v.history ⊆ v.opened
  refs : ∀ r ∈ v.history, ∀ q, heap r = .ref q → q ∈ v.history ∨ q = v.object

variable {heap}

theorem Leads.mem {v w : Visit P} (h : Leads heap v w) : w ∈ v.calls heap := by
  obtain ⟨_, hmem, rfl⟩ := h.exists_mem
  exact hmem

theorem Raises.head {v w : Visit P} (hw : Leads heap v w) (h : w.Raises heap) : v.Raises heap := by
  obtain ⟨u, hu, hm⟩ := h
  exact ⟨u, .head hw hu, hm⟩

theorem Raises.throws {v : Visit P} (h : v.Raises heap) : Throws heap v := by
  obtain ⟨w, hw, hm⟩ := h
  induction hw using Relation.ReflTransGen.head_induction_on with
  | refl => exact .malformed hm
  | head hstep _ ih => exact .call hstep.mem ih

theorem Safe.call {v w : Visit P} (h : v.Safe heap) (hw : Leads heap v w) : w.Safe heap :=
  fun u hu => h u (.head hw hu)

theorem throws_iff {v : Visit P} :
    Throws heap v ↔ (heap v.object).malformed = true ∨ ∃ w ∈ v.calls heap, Throws heap w := by
  constructor
  · rintro (h | ⟨hw, h⟩)
    · exact .inl h
    · exact .inr ⟨_, hw, h⟩
  · rintro (h | ⟨w, hw, h⟩)
    · exact .malformed h
    · exact .call hw h

/-- A refused instance makes no call. -/
theorem calls_of_malformed {v : Visit P} (h : (heap v.object).malformed = true) : v.calls heap = [] := by
  unfold Node.malformed at h
  unfold calls
  split at h
  · rename_i d data hn
    rw [hn]
    cases hreg : registeredAs d.type with
    | none => simp [hreg] at h
    | some r => simp [hreg]
  · cases h

theorem not_malformed_of_leads {v w : Visit P} (h : Leads heap v w) : (heap v.object).malformed = false := by
  by_contra hm
  rw [Leads, calls_of_malformed (by simpa using hm)] at h
  exact h

/-- A call is from inside the object or on a key of it. -/
theorem mem_calls {v w : Visit P} (hw : w ∈ v.calls heap) :
    (∃ q, w = v.inside q ∧ ∀ d, heap v.object = .ref d → q = d ∧ d ∉ v.history) ∨
      ∃ k, w = v.alone k ∧ (heap v.object).isContainer := by
  unfold calls at hw
  cases hn : heap v.object with
  | typedList _ vs | untypedList vs =>
    simp only [hn, List.mem_flatMap, List.mem_singleton] at hw
    obtain ⟨q, -, rfl⟩ := hw
    exact .inl ⟨q, rfl, by simp⟩
  | typedMap _ es | untypedMap es =>
    simp only [hn, List.mem_flatMap, entryCalls, List.mem_append, List.mem_singleton] at hw
    obtain ⟨e, -, hw | rfl⟩ := hw
    · split at hw
      · cases hw
      · exact .inr ⟨e.1, List.mem_singleton.1 hw, by simp [Node.isContainer]⟩
    · exact .inl ⟨e.2, rfl, by simp⟩
  | classInstance c =>
    obtain ⟨_ | d, data⟩ := c
    · simp [hn] at hw
    · simp only [hn] at hw
      split at hw
      · cases hw
      · simp only [List.mem_flatMap, List.mem_singleton] at hw
        obtain ⟨f, -, rfl⟩ := hw
        exact .inl ⟨f.2, rfl, by simp⟩
  | ref d =>
    simp only [hn] at hw
    split at hw
    · cases hw
    · rename_i hd
      obtain rfl := List.mem_singleton.1 hw
      exact .inl ⟨d, rfl, by simp [hd]⟩
  | _ => simp [hn] at hw

omit [DecidableEq P] in
theorem sound_start (s : P) : (start s).Sound heap := ⟨by simp [start], by simp [start]⟩

theorem Sound.call {v w : Visit P} (hv : v.Sound heap) (hw : w ∈ v.calls heap) : w.Sound heap := by
  rcases mem_calls hw with ⟨q, rfl, href⟩ | ⟨k, rfl, -⟩
  · refine ⟨Finset.insert_subset_insert _ hv.opened, fun r hr d hd => ?_⟩
    simp only [inside, Finset.mem_insert] at hr ⊢
    rcases hr with rfl | hr
    · exact .inr (href d hd).1.symm
    · rcases hv.refs r hr d hd with hin | rfl
      · exact .inl (.inr hin)
      · exact .inl (.inl rfl)
  · exact ⟨by simp [alone], by simp [alone]⟩

/-- An object that is rendered from inside is not in the history yet. -/
def Fresh (heap : Heap P) (v : Visit P) : Prop :=
  ((heap v.object).isContainer ∨ ∃ d, heap v.object = .ref d ∧ d ∉ v.history) → v.object ∉ v.history

omit [DecidableEq P] in
theorem Sound.fresh {v : Visit P} (hv : v.Sound heap) (hre : ¬ v.Reenters heap) : v.Fresh heap := by
  intro hcalls hin
  rcases hcalls with hc | ⟨d, hd, hnot⟩
  · exact hre ⟨hc, hv.opened hin⟩
  · rcases hv.refs _ hin d hd with h | rfl
    · exact hnot h
    · exact hnot hin

/-- The room a visit has left: containers not open, and objects not in the
history. -/
def room [Fintype P] (heap : Heap P) (v : Visit P) : ℕ ×ₗ ℕ :=
  toLex ((Finset.univ.filter fun p => (heap p).isContainer ∧ p ∉ v.opened).card, (Finset.univ \ v.history).card)

/-- Entering a container takes from the first, following a `Ref` from the
second. -/
theorem room_lt [Fintype P] {v w : Visit P} (hv : v.Sound heap) (hre : ¬ v.Reenters heap)
    (hw : w ∈ v.calls heap) : w.room heap < v.room heap := by
  have hopened : w.opened = insert v.object v.opened := by
    rcases mem_calls hw with ⟨q, rfl, -⟩ | ⟨k, rfl, -⟩ <;> rfl
  simp only [room, Prod.Lex.toLex_lt_toLex, hopened]
  by_cases hc : (heap v.object).isContainer
  · refine .inl (Finset.card_lt_card (Finset.ssubset_iff_of_subset ?_ |>.2 ⟨v.object, ?_, ?_⟩))
    · intro p hp
      simp only [Finset.mem_filter, Finset.mem_insert, not_or] at hp ⊢
      exact ⟨hp.1, hp.2.1, hp.2.2.2⟩
    · simpa [hc] using fun h => hre ⟨hc, h⟩
    · simp
  · have hsame : (Finset.univ.filter fun p => (heap p).isContainer ∧ p ∉ insert v.object v.opened) =
        Finset.univ.filter fun p => (heap p).isContainer ∧ p ∉ v.opened := by
      refine Finset.filter_congr fun p _ => ?_
      have hne : (heap p).isContainer → p ≠ v.object := by
        rintro hp rfl
        exact hc hp
      simp only [Finset.mem_insert, not_or]
      tauto
    refine .inr ⟨by rw [hsame], ?_⟩
    rcases mem_calls hw with ⟨q, rfl, href⟩ | ⟨k, rfl, hcont⟩
    · obtain ⟨d, hd⟩ : ∃ d, heap v.object = .ref d := by
        cases hn : heap v.object <;> simp [calls, hn, Node.isContainer] at hw hc ⊢
      have hfresh : v.object ∉ v.history := hv.fresh hre (.inr ⟨d, hd, (href d hd).2⟩)
      refine Finset.card_lt_card (Finset.ssubset_iff_of_subset ?_ |>.2 ⟨v.object, by simp [hfresh], by simp [inside]⟩)
      exact Finset.sdiff_subset_sdiff subset_rfl (Finset.subset_insert _ _)
    · exact absurd hcont hc

end Visit

/-! ## Each branch makes its calls in order -/

section Converters
variable {P : Type}

theorem check_accepts {d : RawDefinition} {data : List P} (hnames : d.fieldNames = [ascii "value"])
    (hdata : data.length = 1) : ∃ v, checkClassOnlyHasOneValue d data = .ok v := by
  obtain ⟨v, rfl⟩ := List.length_eq_one_iff.1 hdata
  exact ⟨v, by simp [checkClassOnlyHasOneValue, hnames]⟩

theorem check_refuses {d : RawDefinition} {data : List P}
    (h : d.fieldNames ≠ [ascii "value"] ∨ data.length ≠ 1) :
    ∃ e, checkClassOnlyHasOneValue d data = .error (.thrown e) := by
  unfold checkClassOnlyHasOneValue
  split
  · exact ⟨_, rfl⟩
  · rename_i hnames
    split
    · rcases h with h | h
      · exact absurd h hnames
      · simp at h
    · exact ⟨_, rfl⟩

/-- A registered converter returns or throws, as `malformed` says. -/
theorem converter_stops (dtoa : UInt64 → Bytes) (heap : Heap P) {d : RawDefinition} (data : List P) {r : Registered}
    (hreg : registeredAs d.type = some r) (w : Writer) :
    if (Node.classInstance ⟨some d, data⟩).malformed then ∃ e, r.converter heap dtoa d data w = .error (.thrown e)
    else ∃ w', r.converter heap dtoa d data w = .ok w' := by
  cases r with
  | bigInteger =>
    simp only [Node.malformed, hreg, Bool.false_eq_true, if_false, Registered.converter, bigIntegerConverter]
    split
    · exact ⟨_, rfl⟩
    · exact ⟨_, rfl⟩
    · split <;> exact ⟨_, rfl⟩
  | bigDecimal | valueNumber kind =>
    simp only [Node.malformed, hreg, Bool.or_eq_true, bne_iff_ne]
    split
    · rename_i h
      obtain ⟨e, he⟩ := check_refuses h
      refine ⟨e, ?_⟩
      simp only [Registered.converter, bigDecimalConverter, handleValueNumber, he, error_bind]
    · rename_i h
      simp only [not_or, not_not] at h
      obtain ⟨v, hv⟩ := check_accepts h.1 h.2
      simp only [Registered.converter, bigDecimalConverter, handleValueNumber, hv, ok_bind]
      first
        | cases (heap v).toString <;> exact ⟨_, rfl⟩
        | cases kind <;> exact ⟨_, rfl⟩

end Converters

section Branches
variable {P : Type} [DecidableEq P] {dtoa : UInt64 → Bytes} {heap : Heap P} {K : RenderStop → Prop}
  (render : Finset P → Nat → RenderCall P)

/-- Whatever is written already, the visit returns and gives its history back. -/
def Passes (v : Visit P) : Prop :=
  ∀ w, Returns (fun n => render v.opened n (some v.object) (w, v.history)) fun r => r.2 = v.history

/-- Whatever is written already, the visit fails. -/
def Halts (K : RenderStop → Prop) (v : Visit P) : Prop :=
  ∀ w, Fails (fun n => render v.opened n (some v.object) (w, v.history)) K

variable {render} {v : Visit P}

theorem inside_follows (q : P) {s : RenderState P} (hs : s.2 = insert v.object v.history) :
    Follows (Passes render) (Halts render K) K [v.inside q]
      (fun n => render (insert v.object v.opened) n (some q) s) fun r => r.2 = insert v.object v.history := by
  obtain ⟨w, H⟩ := s
  cases hs
  exact .one (fun h => h w) fun h => h w

theorem convertList_follows (vs : List P) {s : RenderState P} (hs : s.2 = insert v.object v.history) :
    Follows (Passes render) (Halts render K) K (vs.flatMap fun q => [v.inside q])
      (fun n => convertListToJsonString (render (insert v.object v.opened) n) vs s)
      fun r => r.2 = insert v.object v.history := by
  unfold convertListToJsonString
  exact (Follows.foldlM (fun n s q => render (insert v.object v.opened) n (some q) s) _ vs
    (fun q _ s hs => inside_follows q hs) (s.1.startArray, s.2) hs).andThen
    (k := fun r => (r.1.endArray, r.2)) (R := fun r => r.2 = insert v.object v.history) fun _ hr => hr

theorem defaultClass_follows (d : RawDefinition) (data : List P) {s : RenderState P}
    (hs : s.2 = insert v.object v.history) :
    Follows (Passes render) (Halts render K) K ((d.fieldNames.zip data).flatMap fun f => [v.inside f.2])
      (fun n => defaultClassConverter (render (insert v.object v.opened) n) d data s)
      fun r => r.2 = insert v.object v.history := by
  unfold defaultClassConverter
  exact (Follows.foldlM
    (fun n s (f : Bytes × P) => render (insert v.object v.opened) n (some f.2) (s.1.string f.1, s.2)) _ _
    (fun f _ s hs => inside_follows f.2 hs) (s.1.startObject, s.2) hs).andThen
    (k := fun r => (r.1.endObject, r.2)) (R := fun r => r.2 = insert v.object v.history) fun _ hr => hr

theorem keyText_follows (k : P) :
    Follows (Passes render) (Halts render K) K (if (heap k).isString then [] else [v.alone k])
      (fun n => keyText heap (render (insert v.object v.opened) n) k) fun _ => True := by
  unfold keyText
  cases hk : (heap k).toString with
  | some s =>
    simp only [Node.isString, hk, Option.isSome_some, if_true]
    exact .ret trivial
  | none =>
    simp only [Node.isString, hk, Option.isSome_none, Bool.false_eq_true, if_false]
    have hone : Follows (Passes render) (Halts render K) K [v.alone k]
        (fun n => render (insert v.object v.opened) n (some k) (Writer.new, ∅)) fun r => r.2 = ∅ :=
      .one (fun h => h Writer.new) fun h => h Writer.new
    exact hone.andThen fun _ _ => trivial

theorem convertMap_follows (es : List (P × P)) {s : RenderState P} (hs : s.2 = insert v.object v.history) :
    Follows (Passes render) (Halts render K) K (es.flatMap (v.entryCalls heap))
      (fun n => convertUntypedMapToJsonString heap (render (insert v.object v.opened) n) es s)
      fun r => r.2 = insert v.object v.history := by
  unfold convertUntypedMapToJsonString
  exact (Follows.foldlM (fun n s (e : P × P) => do
    render (insert v.object v.opened) n (some e.2)
      (s.1.string (← keyText heap (render (insert v.object v.opened) n) e.1), s.2)) (v.entryCalls heap) es
    (fun e _ s hs => (keyText_follows e.1).bind fun t _ => inside_follows e.2 hs) (s.1.startObject, s.2) hs).andThen
    (k := fun r => (r.1.endObject, r.2)) (R := fun r => r.2 = insert v.object v.history) fun _ hr => hr

/-- The body of a visit between `insert` and `erase`. -/
theorem withHistory_follows {cs : List (Visit P)} {body : Nat → RenderState P → Except RenderStop (RenderState P)}
    (hfresh : v.Fresh heap → v.object ∉ v.history) (w : Writer)
    (h : Follows (Passes render) (Halts render K) K cs (fun n => body n (w, insert v.object v.history))
      fun r => r.2 = insert v.object v.history) :
    Follows (Passes render) (Halts render K) K cs (fun n => withHistory v.object (body n) (w, v.history))
      fun r => v.Fresh heap → r.2 = v.history := by
  unfold withHistory
  exact h.andThen fun r hr hv => by rw [hr, Finset.erase_insert (hfresh hv)]

theorem covertClass_follows {d : RawDefinition} {data : List P} {s : RenderState P}
    (hs : s.2 = insert v.object v.history) (hm : (Node.classInstance (P := P) ⟨some d, data⟩).malformed = false) :
    Follows (Passes render) (Halts render K) K
      (if (registeredAs d.type).isSome then [] else (d.fieldNames.zip data).flatMap fun f => [v.inside f.2])
      (fun n => covertClassToJsonString dtoa heap (render (insert v.object v.opened) n) ⟨some d, data⟩ s)
      fun r => r.2 = insert v.object v.history := by
  cases hreg : registeredAs d.type with
  | some r =>
    have hstop := converter_stops dtoa heap data hreg s.1
    simp only [hm, Bool.false_eq_true, if_false] at hstop
    obtain ⟨w', hw'⟩ := hstop
    simp only [covertClassToJsonString, hreg, hw', ok_bind, Option.isSome_some, if_true]
    exact .ret hs
  | none =>
    simp only [covertClassToJsonString, hreg, Option.isSome_none, Bool.false_eq_true, if_false]
    exact defaultClass_follows d data hs

variable (dtoa render) in
/-- A visit of what is not refused makes the calls that `Visit.calls` lists; one
that is not fresh loses the object from its history. -/
theorem renderObject_follows (hm : (heap v.object).malformed = false) (w : Writer) :
    Follows (Passes render) (Halts render K) K (v.calls heap)
      (fun n => renderObject dtoa heap (render (insert v.object v.opened) n) v.object (w, v.history))
      fun r => v.Fresh heap → r.2 = v.history := by
  have hcontainer : (heap v.object).isContainer → v.Fresh heap → v.object ∉ v.history := fun hc hv => hv (.inl hc)
  unfold Visit.calls renderObject
  cases hn : heap v.object with
  | typedList _ vs | untypedList vs =>
    exact withHistory_follows (hcontainer (by simp [hn, Node.isContainer])) w (convertList_follows vs rfl)
  | typedMap _ es | untypedMap es =>
    exact withHistory_follows (hcontainer (by simp [hn, Node.isContainer])) w (convertMap_follows es rfl)
  | classInstance c =>
    obtain ⟨_ | d, data⟩ := c
    · exact withHistory_follows (hcontainer (by simp [hn, Node.isContainer])) w (.ret rfl)
    · rw [hn] at hm
      exact withHistory_follows (hcontainer (by simp [hn, Node.isContainer])) w (covertClass_follows rfl hm)
  | ref q =>
    by_cases hq : q ∈ v.history
    · simp only [hq, if_true]
      exact .ret fun _ => rfl
    · simp only [hq, if_false]
      exact withHistory_follows (fun hv => hv (.inr ⟨q, hn, hq⟩)) w (inside_follows q rfl)
  | _ => exact .ret fun _ => rfl

theorem renderObject_throws (dtoa : UInt64 → Bytes) (hm : (heap v.object).malformed = true) (s : RenderState P) :
    ∃ e, ∀ call, renderObject dtoa heap call v.object s = .error (.thrown e) := by
  have hclass : ∃ d data, heap v.object = .classInstance ⟨some d, data⟩ := by
    unfold Node.malformed at hm
    split at hm
    · exact ⟨_, _, ‹_›⟩
    · cases hm
  obtain ⟨d, data, hn⟩ := hclass
  rw [hn] at hm
  cases hreg : registeredAs d.type with
  | none => simp [Node.malformed, hreg] at hm
  | some r =>
    have hstop := converter_stops dtoa heap data hreg s.1
    simp only [hm, if_true] at hstop
    obtain ⟨e, he⟩ := hstop
    refine ⟨e, fun call => ?_⟩
    simp only [renderObject, hn, withHistory, covertClassToJsonString, hreg, he, error_bind]

end Branches

/-! ## How a visit ends -/

section Main
variable {P : Type} [DecidableEq P] {dtoa : UInt64 → Bytes} {heap : Heap P}

/-- A safe visit behind which no refused instance lies returns with its
history. -/
theorem returns_of_safe [Fintype P] {v : Visit P} (hv : v.Sound heap) (hsafe : v.Safe heap) (hnot : ¬ v.Throws heap) :
    Passes (fun _ => hessianValueToJsonStringInternal dtoa heap) v := by
  induction hroom : v.room heap using WellFoundedLT.induction generalizing v with
  | _ room ih =>
    intro w
    have hre : ¬ v.Reenters heap := fun hre => hnot (hsafe v .refl hre).throws
    rw [Visit.throws_iff, not_or] at hnot
    have hnone : ∀ u ∈ v.calls heap, ¬ u.Throws heap := fun u hu h => hnot.2 ⟨u, hu, h⟩
    have hpasses : ∀ u ∈ v.calls heap, Passes (fun _ => hessianValueToJsonStringInternal dtoa heap) u := fun u hu =>
      ih _ (hroom ▸ Visit.room_lt hv hre hu) (hv.call hu) (hsafe.call (comesTo_mem hnone hu)) (hnone u hu) rfl
    have hfollows := renderObject_follows (K := fun _ => False) dtoa
      (fun _ => hessianValueToJsonStringInternal dtoa heap) (by simpa using hnot.1) w
    obtain ⟨r, hr, hends⟩ := hfollows.returns hpasses
    exact ⟨r, hr (hv.fresh hre), hends.succ fun n => rfl⟩

/-- A safe visit behind which a refused instance lies comes to one. -/
theorem raises_of_throws [Fintype P] {v : Visit P} (hv : v.Sound heap) (hsafe : v.Safe heap) (hthrows : v.Throws heap) :
    v.Raises heap := by
  induction hroom : v.room heap using WellFoundedLT.induction generalizing v with
  | _ room ih =>
    by_cases hre : v.Reenters heap
    · exact hsafe v .refl hre
    rcases Visit.throws_iff.1 hthrows with hm | ⟨u, hu, hthrows⟩
    · exact ⟨v, .refl, hm⟩
    · have hfirst : ComesTo (fun u => ¬ u.Throws heap) (Visit.Throws heap) (v.calls heap) := comesTo_of_mem hu hthrows
      obtain ⟨x, hthrows, hx⟩ := hfirst.exists_first
      have hleads : Visit.Leads heap v x := hx
      exact .head hleads
        (ih _ (hroom ▸ Visit.room_lt hv hre hleads.mem) (hv.call hleads.mem) (hsafe.call hleads) hthrows rfl)

/-- What comes to a refused instance throws: all that is rendered before it
returns. -/
theorem throws_of_raises [Fintype P] {v : Visit P} (hv : v.Sound heap) (hsafe : v.Safe heap) (h : v.Raises heap) :
    Halts (fun _ => hessianValueToJsonStringInternal dtoa heap) (fun e => ∃ what, e = .thrown what) v := by
  obtain ⟨m, hpath, hm⟩ := h
  induction hpath using Relation.ReflTransGen.head_induction_on with
  | refl =>
    intro w
    obtain ⟨what, hwhat⟩ := renderObject_throws dtoa hm (w, m.history)
    exact ⟨.thrown what, ⟨what, rfl⟩, (EndsWith.const _).succ fun n => hwhat _⟩
  | head hleads _ ih =>
    intro w
    have hfollows := renderObject_follows dtoa (fun _ => hessianValueToJsonStringInternal dtoa heap)
      (K := fun e => ∃ what, e = .thrown what) (Visit.not_malformed_of_leads hleads) w
    refine .succ (fun n => rfl) (hfollows.fails ?_)
    refine (hleads.along fun u hu => hsafe.call hu).mono ?_ ?_
    · exact fun u hu h => returns_of_safe (hv.call hu) h.2 h.1
    · rintro u hu ⟨rfl, hsafe⟩
      exact ih (hv.call hu) hsafe

/-! ## What is not safe -/

/-- The renderer, made to stop where it leaves a container while another visit
of it is open: there the code has just erased the container from the history. -/
def renderOnce (dtoa : UInt64 → Bytes) (heap : Heap P) : Finset P → Nat → RenderCall P
  | _, 0, _, _ => .error .outOfFuel
  | _, _ + 1, none, s => .ok (s.1.null, s.2)
  | opened, fuel + 1, some object, s => do
    let r ← renderObject dtoa heap (renderOnce dtoa heap (insert object opened) fuel) object s
    if (heap object).isContainer ∧ object ∈ opened then .error .outOfFuel else .ok r

/-- `renderOnce` with a fixed fuel. -/
abbrev onceWithin (dtoa : UInt64 → Bytes) (heap : Heap P) (fuel : Nat) : Finset P → Nat → RenderCall P :=
  fun opened _ => renderOnce dtoa heap opened fuel

/-- What comes to no refused instance does not throw: with any fuel it returns
or runs out of it. -/
theorem renderOnce_ends {v : Visit P} (hv : v.Sound heap) (hraises : ¬ v.Raises heap) (fuel : Nat) :
    (Passes (onceWithin dtoa heap fuel) v ∧ ¬ v.Throws heap ∧ ¬ v.Reenters heap) ∨
      Halts (onceWithin dtoa heap fuel) (· = .outOfFuel) v := by
  induction fuel generalizing v with
  | zero => exact .inr fun w => ⟨.outOfFuel, rfl, EndsWith.const _⟩
  | succ fuel ih =>
    have hm : (heap v.object).malformed = false := by
      by_contra hm
      exact hraises ⟨v, .refl, by simpa using hm⟩
    have hfollows (w : Writer) := renderObject_follows (K := (· = .outOfFuel)) dtoa (onceWithin dtoa heap fuel) hm w
    have hcalls : (∀ u ∈ v.calls heap, Passes (onceWithin dtoa heap fuel) u ∧ ¬ u.Throws heap) ∨
        ComesTo (fun u => Passes (onceWithin dtoa heap fuel) u ∧ ¬ u.Throws heap)
          (Halts (onceWithin dtoa heap fuel) (· = .outOfFuel)) (v.calls heap) := by
      refine forall_or_comesTo fun u hu => ?_
      have hleads : Visit.Leads heap v u := hu.mono (fun _ _ h => h.2) fun _ _ h => h
      exact (ih (hv.call hleads.mem) fun h => hraises (.head hleads h)).imp_left fun h => ⟨h.1, h.2.1⟩
    rcases hcalls with hall | hfirst
    · have hreturns (w : Writer) := (hfollows w).returns fun u hu => (hall u hu).1
      by_cases hre : v.Reenters heap
      · -- the inner visit is left
        refine .inr fun w => (hreturns w).fails fun r _ => ⟨.outOfFuel, rfl, ?_⟩
        simp only [if_pos (show (heap v.object).isContainer = true ∧ v.object ∈ v.opened from hre)]
        exact .const _
      · refine .inl ⟨fun w => (hreturns w).bind fun r hr => ?_, ?_, hre⟩
        · simp only [if_neg (show ¬ ((heap v.object).isContainer = true ∧ v.object ∈ v.opened) from hre)]
          exact .ret (hr (hv.fresh hre))
        · rw [Visit.throws_iff, hm]
          rintro (h | ⟨u, hu, h⟩)
          · cases h
          · exact (hall u hu).2 h
    · exact .inr fun w => ((hfollows w).fails (hfirst.mono (fun _ _ h => h.1) fun _ _ h => h)).bind

/-- With no fuel does a visit end that is not safe. -/
theorem unsafe_never {v : Visit P} (hv : v.Sound heap) (hnot : ¬ v.Safe heap) (fuel : Nat) :
    Halts (onceWithin dtoa heap fuel) (· = .outOfFuel) v := by
  induction fuel generalizing v with
  | zero => exact fun w => ⟨.outOfFuel, rfl, EndsWith.const _⟩
  | succ fuel ih =>
    unfold Visit.Safe at hnot
    push Not at hnot
    obtain ⟨w, hpath, hre, hraises⟩ := hnot
    rcases Relation.ReflTransGen.cases_head hpath with rfl | ⟨u, hleads, hpath⟩
    · exact (renderOnce_ends hv hraises (fuel + 1)).resolve_left fun h => h.2.2 hre
    · intro s
      have hfollows := renderObject_follows (K := (· = .outOfFuel)) dtoa (onceWithin dtoa heap fuel)
        (Visit.not_malformed_of_leads hleads) s
      refine (hfollows.fails (hleads.refine (fun x hx hthrows => ?_) ?_)).bind
      · exact (renderOnce_ends (hv.call hx) (fun h => hthrows h.throws) fuel).imp_left And.left
      · rintro _ hx rfl
        exact ih (hv.call hx) fun hsafe => hraises (hsafe w hpath hre)

/-- From the first call on a container is entered while a visit of it is open
only where the rendering throws before it is left. -/
def Guarded (heap : Heap P) (s : P) : Prop := (Visit.start s).Safe heap

/-- A guarded rendering returns or throws, with every larger fuel alike; one
that is not guarded leaves an inner visit of an open container, unless it never
ends. -/
theorem returns_of_guarded [Fintype P] (value : Option P) :
    ((∀ s, value = some s → Guarded heap s) →
      ∃ r, r ≠ .error .outOfFuel ∧ EndsWith (fun fuel => hessianValueToJsonString dtoa heap fuel value) r) ∧
    ∀ s, value = some s → ¬ Guarded heap s →
      ∀ fuel, renderOnce dtoa heap ∅ fuel (some s) (Writer.new, ∅) = .error .outOfFuel := by
  constructor
  · intro hguarded
    unfold hessianValueToJsonString
    cases value with
    | none =>
      have hnull : EndsWith (fun fuel => hessianValueToJsonStringInternal dtoa heap fuel none (Writer.new, ∅))
          (.ok (Writer.new.null, ∅)) := (EndsWith.const _).succ fun n => rfl
      exact ⟨_, by simp, hnull.bind (EndsWith.const (.ok _))⟩
    | some s =>
      have hv : (Visit.start s).Sound heap := Visit.sound_start s
      have hsafe : (Visit.start s).Safe heap := hguarded s rfl
      by_cases hthrows : (Visit.start s).Throws heap
      · obtain ⟨e, ⟨what, rfl⟩, he⟩ := throws_of_raises hv hsafe (raises_of_throws hv hsafe hthrows) Writer.new
        exact ⟨_, by simp, he.bind_error⟩
      · obtain ⟨r, -, hr⟩ := returns_of_safe hv hsafe hthrows Writer.new
        exact ⟨_, by simp, hr.bind (EndsWith.const (.ok _))⟩
  · rintro s rfl hnot fuel
    obtain ⟨e, rfl, N, hN⟩ := unsafe_never (Visit.sound_start s) hnot fuel Writer.new
    exact hN N le_rfl

end Main

/-! ## Graphs that return -/

section Guarded
variable {P : Type} [DecidableEq P] {heap : Heap P}

/-- A set of visits closed under calls, in which what enters an open container
throws. -/
theorem guarded_of_closed {s : P} (S : Finset (Visit P)) (hs : Visit.start s ∈ S)
    (hclosed : ∀ v ∈ S, ∀ w ∈ v.calls heap, w ∈ S) (hopen : ∀ v ∈ S, v.Reenters heap → v.Raises heap) :
    Guarded heap s := by
  have hin : ∀ w, Relation.ReflTransGen (Visit.Leads heap) (Visit.start s) w → w ∈ S := by
    intro w hw
    induction hw with
    | refl => exact hs
    | tail _ hstep ih => exact hclosed _ ih _ hstep.mem
  exact fun w hw => hopen w (hin w hw)

end Guarded

/-- A list that holds a reference to itself, and a null. -/
def selfReference : Heap (Fin 3)
  | 0 => .untypedList [1, 2]
  | 1 => .ref 0
  | 2 => .null

/-- What the rendering comes to, from the list or from what it holds. -/
def selfReferenceVisits : Finset (Visit (Fin 3)) :=
  {⟨∅, ∅, 0⟩, ⟨{0}, {0}, 1⟩, ⟨{0}, {0}, 2⟩, ⟨∅, ∅, 1⟩, ⟨{1}, {1}, 0⟩, ⟨{0, 1}, {0, 1}, 1⟩,
    ⟨{0, 1}, {0, 1}, 2⟩, ⟨∅, ∅, 2⟩}

theorem selfReference_guarded (s : Fin 3) : Guarded selfReference s := by
  have hstart : ∀ s, Visit.start s ∈ selfReferenceVisits := by decide
  have hnone : ∀ v ∈ selfReferenceVisits, ¬ v.Reenters selfReference := by decide
  exact guarded_of_closed selfReferenceVisits (hstart s) (by decide) fun v hv h => absurd h (hnone v hv)

/-- `[d, m]` with a `BigDecimal` without a `value` before a map that a key of
its own refers to. -/
def refusedFirst : Heap (Fin 6)
  | 0 => .untypedList [1, 3]
  | 1 => .classInstance ⟨some ⟨ascii "java.math.BigDecimal", [ascii "amount"]⟩, [2]⟩
  | 2 => .string (ascii "1")
  | 3 => .untypedMap [(4, 5)]
  | 4 => .ref 3
  | 5 => .null

/-- The map is never come to. -/
theorem refusedFirst_guarded : Guarded refusedFirst 0 := by
  have hrefused : (refusedFirst 1).malformed = true := by decide
  intro w hw
  rcases Relation.ReflTransGen.cases_head hw with rfl | ⟨u, rfl | ⟨hnot, -⟩, hw⟩
  · exact fun h => absurd h (by decide)
  · rcases Relation.ReflTransGen.cases_head hw with rfl | ⟨u, hu, -⟩
    · exact fun h => absurd h (by decide)
    · rw [Visit.Leads, Visit.calls_of_malformed hrefused] at hu
      exact hu.elim
  · exact absurd (Visit.Throws.malformed hrefused) hnot

/-- `c = [Ref p, d]` with `p = [c]`: inside `c`, the `Ref` enters `c` again, and
`d` throws before that visit is over. -/
def refusedInside : Heap (Fin 5)
  | 0 => .untypedList [1, 3]
  | 1 => .ref 2
  | 2 => .untypedList [0]
  | 3 => .classInstance ⟨some ⟨ascii "java.math.BigDecimal", [ascii "amount"]⟩, [4]⟩
  | 4 => .string (ascii "1")

def refusedInsideVisits : Finset (Visit (Fin 5)) :=
  {⟨∅, ∅, 0⟩, ⟨{0}, {0}, 1⟩, ⟨{0}, {0}, 3⟩, ⟨{1, 0}, {1, 0}, 2⟩, ⟨{2, 1, 0}, {2, 1, 0}, 0⟩,
    ⟨{2, 1, 0}, {2, 1, 0}, 1⟩, ⟨{2, 1, 0}, {2, 1, 0}, 3⟩}

theorem refusedInside_guarded : Guarded refusedInside 0 := by
  have honly : ∀ v ∈ refusedInsideVisits, v.Reenters refusedInside → v = ⟨{2, 1, 0}, {2, 1, 0}, 0⟩ := by decide
  refine guarded_of_closed refusedInsideVisits (by decide) (by decide) fun v hv h => ?_
  obtain rfl := honly v hv h
  -- the `Ref` is cut here
  have hcut : Visit.calls refusedInside ⟨{2, 1, 0}, {2, 1, 0}, 1⟩ = [] := by decide
  have hreturns : ¬ Visit.Throws refusedInside ⟨{2, 1, 0}, {2, 1, 0}, 1⟩ := by
    rw [Visit.throws_iff, hcut]
    rintro (h | ⟨w, hw, -⟩)
    · exact absurd h (by decide)
    · cases hw
  exact .head (.inr ⟨hreturns, .inl rfl⟩) ⟨_, .refl, by decide⟩

/-- From the list as from the reference; and what is refused throws, whether
it comes before the other visit or inside of it. -/
theorem selfReference_returns :
    (∀ s, ∃ r, r ≠ .error .outOfFuel ∧
      EndsWith (fun fuel => hessianValueToJsonString (fun _ => []) selfReference fuel (some s)) r) ∧
    (∃ r, r ≠ .error .outOfFuel ∧
      EndsWith (fun fuel => hessianValueToJsonString (fun _ => []) refusedFirst fuel (some 0)) r) ∧
    ∃ r, r ≠ .error .outOfFuel ∧
      EndsWith (fun fuel => hessianValueToJsonString (fun _ => []) refusedInside fuel (some 0)) r := by
  refine ⟨fun s => (returns_of_guarded _).1 ?_, (returns_of_guarded _).1 ?_, (returns_of_guarded _).1 ?_⟩
  · exact fun s _ => selfReference_guarded s
  · rintro s ⟨⟩
    exact refusedFirst_guarded
  · rintro s ⟨⟩
    exact refusedInside_guarded

/-! ## Two graphs that never return -/

/-- `[p, Ref c]` with `p = [c]` and `c = [Ref p, Ref c]`: inside `c`, the first
`Ref` enters `c` again through its owner and erases it from the history. -/
def reentered : Heap (Fin 6)
  | 0 => .untypedList [1, 5]
  | 1 => .untypedList [2]
  | 2 => .untypedList [3, 4]
  | 3 => .ref 1
  | 4 => .ref 2
  | 5 => .ref 2

/-- A map with a reference to itself as a key. -/
def selfKeyed : Heap (Fin 3)
  | 0 => .untypedMap [(1, 2)]
  | 1 => .ref 0
  | 2 => .null

theorem reentered_decoded : Decoded reentered where
  owner_unique := by decide
  owned_once := by decide
  grounded := grounded_of_lt (by decide)
  ref_container := by decide

theorem selfKeyed_decoded : Decoded selfKeyed where
  owner_unique := by decide
  owned_once := by decide
  grounded := grounded_of_lt (by decide)
  ref_container := by decide

/-- With `c` in the history and `p` not, rendering `Ref p` drops `c`. -/
theorem reentered_drops (dtoa : UInt64 → Bytes) (fuel : Nat) (s : RenderState (Fin 6)) (h2 : 2 ∈ s.2)
    (h1 : 1 ∉ s.2) :
    hessianValueToJsonStringInternal dtoa reentered fuel (some 3) s = .error .outOfFuel ∨
      ∃ s', hessianValueToJsonStringInternal dtoa reentered fuel (some 3) s = .ok s' ∧ 1 ∉ s'.2 ∧ 2 ∉ s'.2 := by
  rcases fuel with _ | _ | _ | _ | _ | fuel
  all_goals
    simp [hessianValueToJsonStringInternal, renderObject, reentered, withHistory, convertListToJsonString,
      h1, h2, bind, Except.bind, pure, Except.pure]

/-- So `Ref c`, the next element of `c`, enters `c` once more. -/
theorem reentered_never (dtoa : UInt64 → Bytes) (fuel : Nat) (s : RenderState (Fin 6)) (h1 : 1 ∉ s.2) :
    hessianValueToJsonStringInternal dtoa reentered fuel (some 2) s = .error .outOfFuel := by
  induction fuel using Nat.strong_induction_on generalizing s with
  | _ fuel ih =>
    cases fuel with
    | zero => rfl
    | succ fuel =>
      have again : ∀ s' : RenderState (Fin 6), 1 ∉ s'.2 → 2 ∉ s'.2 →
          hessianValueToJsonStringInternal dtoa reentered fuel (some 4) s' = .error .outOfFuel := by
        intro s' h1' h2'
        cases fuel with
        | zero => rfl
        | succ m =>
          have hm := ih m (by omega) (s'.1, insert 4 s'.2) (by simp [h1'])
          simp only [hessianValueToJsonStringInternal, renderObject, reentered, h2', if_false, withHistory, hm,
            error_bind]
      have first := reentered_drops dtoa fuel (s.1.startArray, insert 2 s.2) (by simp) (by simp [h1])
      simp only [hessianValueToJsonStringInternal, renderObject, reentered, withHistory, convertListToJsonString,
        List.foldlM_cons]
      rcases first with first | ⟨s', first, h1', h2'⟩
      · simp only [first, error_bind]
      · simp only [first, ok_bind, again s' h1' h2', error_bind]

theorem reentered_owner (dtoa : UInt64 → Bytes) (fuel : Nat) (w : Writer) :
    hessianValueToJsonStringInternal dtoa reentered fuel (some 1) (w, {0}) = .error .outOfFuel ∨
      ∃ w', hessianValueToJsonStringInternal dtoa reentered fuel (some 1) (w, {0}) = .ok (w', {0}) := by
  rcases fuel with _ | _ | _ | fuel
  all_goals
    simp [hessianValueToJsonStringInternal, renderObject, reentered, withHistory, convertListToJsonString]

theorem reentered_root_never (dtoa : UInt64 → Bytes) (fuel : Nat) :
    hessianValueToJsonString dtoa reentered fuel (some 0) = .error .outOfFuel := by
  cases fuel with
  | zero => rfl
  | succ fuel =>
    have last : ∀ w : Writer,
        hessianValueToJsonStringInternal dtoa reentered fuel (some 5) (w, {0}) = .error .outOfFuel := by
      intro w
      cases fuel with
      | zero => rfl
      | succ m =>
        have hm := reentered_never dtoa m (w, insert 5 {0}) (show (1 : Fin 6) ∉ insert 5 {0} by decide)
        simp [hessianValueToJsonStringInternal, renderObject, reentered, withHistory, hm]
    simp only [hessianValueToJsonString, hessianValueToJsonStringInternal, renderObject, reentered, withHistory,
      convertListToJsonString, List.foldlM_cons, insert_empty_eq]
    rcases reentered_owner dtoa fuel Writer.new.startArray with first | ⟨w', first⟩
    · simp only [first, error_bind]
    · simp only [first, ok_bind, last w', error_bind]

theorem selfKeyed_never (dtoa : UInt64 → Bytes) (fuel : Nat) (s : RenderState (Fin 3)) :
    hessianValueToJsonStringInternal dtoa selfKeyed fuel (some 0) s = .error .outOfFuel := by
  induction fuel using Nat.strong_induction_on generalizing s with
  | _ fuel ih =>
    cases fuel with
    | zero => rfl
    | succ fuel =>
      have key : keyText selfKeyed (hessianValueToJsonStringInternal dtoa selfKeyed fuel) 1 =
          .error .outOfFuel := by
        cases fuel with
        | zero => rfl
        | succ m =>
          have hm := ih m (by omega) (Writer.new, {1})
          simp only [keyText, selfKeyed, Node.toString, hessianValueToJsonStringInternal, renderObject]
          simp only [Finset.notMem_empty, if_false, withHistory, insert_empty_eq, hm, error_bind]
      simp only [hessianValueToJsonStringInternal, renderObject, selfKeyed, withHistory,
        convertUntypedMapToJsonString, List.foldlM_cons]
      simp only [key, error_bind]

/-- Both graphs are ones the decoder builds, and no fuel is enough to render
either of them. -/
theorem decoded_graphs_never_return :
    (Decoded reentered ∧ ∀ dtoa fuel,
      hessianValueToJsonString dtoa reentered fuel (some 0) = .error .outOfFuel) ∧
    (Decoded selfKeyed ∧ ∀ dtoa fuel,
      hessianValueToJsonString dtoa selfKeyed fuel (some 0) = .error .outOfFuel) := by
  refine ⟨⟨reentered_decoded, reentered_root_never⟩, selfKeyed_decoded, fun dtoa fuel => ?_⟩
  simp only [hessianValueToJsonString, selfKeyed_never, error_bind]

end EnvoyProxy.Dubbo
