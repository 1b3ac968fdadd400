import EnvoyProxy.Dubbo.PlainText
/-!
# The rendering is JSON

Every branch of the renderer writes a JSON value when the values inside do,
with one exception: the converter of `java.math.BigDecimal` copies a string
of the upstream unchecked. `rendersJson_iff` says that this is the only way
to get something else than JSON. A key that is not a string is rendered and
then quoted, so nothing is asked of it.
-/

namespace EnvoyProxy.Dubbo
open Json Relation

/-! ## Containers -/

section Containers
variable {α β : Type}

theorem exists_of_mapM {f : α → Except RenderStop β} {xs : List α} {ts : List β}
    (h : xs.mapM f = .ok ts) : ∀ t ∈ ts, ∃ x ∈ xs, f x = .ok t := by
  induction xs generalizing ts with
  | nil => cases h; simp
  | cons x xs ih =>
    rw [List.mapM_cons] at h
    cases hx : f x with
    | error e => rw [hx] at h; cases h
    | ok a =>
      cases hxs : xs.mapM f with
      | error e => rw [hx, hxs] at h; cases h
      | ok as =>
        rw [hx, hxs] at h
        cases h
        intro t ht
        rcases List.mem_cons.1 ht with rfl | ht
        · exact ⟨x, List.mem_cons_self, hx⟩
        · obtain ⟨y, hy, hfy⟩ := ih hxs t ht
          exact ⟨y, List.mem_cons_of_mem _ hy, hfy⟩

theorem member_ok {k v : Except RenderStop Bytes} {m : Bytes × Bytes}
    (h : (do return (← k, ← v)) = Except.ok m) : k = .ok m.1 ∧ v = .ok m.2 := by
  cases k with
  | error e => cases h
  | ok k =>
    cases v with
    | error e => cases h
    | ok v => cases h; exact ⟨rfl, rfl⟩

theorem isText_array {f : α → Except RenderStop Bytes} {xs : List α} {t : Bytes}
    (hf : ∀ x ∈ xs, ∀ t, f x = .ok t → IsText t) (h : (do return arrayText (← xs.mapM f)) = Except.ok t) :
    IsText t := by
  cases hm : xs.mapM f with
  | error e => rw [hm] at h; cases h
  | ok ts =>
    rw [hm] at h
    cases h
    refine (isValue_arrayText fun u hu => ?_).text
    obtain ⟨x, hx, hxu⟩ := exists_of_mapM hm u hu
    exact hf x hx u hxu

theorem isText_object {f : α → Except RenderStop (Bytes × Bytes)} {xs : List α} {t : Bytes}
    (hf : ∀ x ∈ xs, ∀ m, f x = .ok m → IsText m.2) (h : (do return objectText (← xs.mapM f)) = Except.ok t) :
    IsText t := by
  cases hm : xs.mapM f with
  | error e => rw [hm] at h; cases h
  | ok ms =>
    rw [hm] at h
    cases h
    refine (isValue_objectText fun m hmm => ?_).text
    obtain ⟨x, hx, hxm⟩ := exists_of_mapM hm m hmm
    exact hf x hx m hxm

end Containers

/-! ## Every branch -/

section WellFormed
variable {P : Type} (dtoa : UInt64 → Bytes) (heap : Heap P)

/-- `q` is a `BigDecimal`, and its converter copies `s`. -/
def RawText (q : P) (s : Bytes) : Prop :=
  ∃ d v, heap q = .classInstance ⟨some d, [v]⟩ ∧ registeredAs d.type = some .bigDecimal ∧
    d.fieldNames = [ascii "value"] ∧ (heap v).toString = some s

/-- No class is registered with a converter of doubles. -/
theorem registeredAs_ne_double (type : Bytes) : registeredAs type ≠ some (.valueNumber .double) := by
  unfold registeredAs
  split_ifs <;> simp

theorem isText_null : IsText (ascii "null") := IsValue.null.text

theorem isText_int (i : Int) : IsText (intText i) := (IsValue.number (isNumber_intText i)).text

theorem isText_quote (s : Bytes) : IsText (quote s) := (IsValue.string (isString_quote s)).text

theorem isText_getD_int {α : Type} (o : Option α) (f : α → Int) :
    IsText ((o.map fun i => intText (f i)).getD (ascii "null")) := by
  cases o with
  | none => exact isText_null
  | some i => exact isText_int (f i)

theorem isText_numberText {kind : NumberKind} (h : kind ≠ .double) (n : Node P) :
    IsText (numberText dtoa kind n) := by
  cases kind with
  | integer => exact isText_getD_int _ _
  | long => exact isText_getD_int _ _
  | date => exact isText_getD_int _ _
  | double => exact absurd rfl h

theorem isText_integerText (o : Option (Int32 × Option (List Nat))) : IsText (integerText o) := by
  rcases o with _ | ⟨signum, _ | words⟩
  · exact isText_null
  · exact isText_int 0
  · simp only [integerText]
    split
    · exact isText_int _
    · exact isText_quote _

variable {heap} in
/-- What the check of a one-field class returns. -/
theorem check_ok {d : RawDefinition} {data : List P} {v : P} (h : checkClassOnlyHasOneValue d data = .ok v) :
    d.fieldNames = [ascii "value"] ∧ data = [v] := by
  unfold checkClassOnlyHasOneValue at h
  split_ifs at h with hf
  rcases data with _ | ⟨a, _ | ⟨b, data⟩⟩
  · cases h
  · cases h
    exact ⟨not_not.1 hf, rfl⟩
  · cases h

variable {dtoa heap}

/-- A registered converter writes JSON, or the raw text of a `BigDecimal`. -/
theorem isText_registeredText {p : P} {d : RawDefinition} {data : List P} {r : Registered}
    (hp : heap p = .classInstance ⟨some d, data⟩) (hreg : registeredAs d.type = some r)
    (hraw : ∀ s, RawText heap p s → IsText s) {t : Bytes} (ht : registeredText dtoa heap r d data = .ok t) :
    IsText t := by
  cases r with
  | bigInteger => cases ht; exact isText_integerText _
  | bigDecimal =>
    cases hc : checkClassOnlyHasOneValue d data with
    | error e => simp [registeredText, hc] at ht
    | ok v =>
      obtain ⟨hf, rfl⟩ := check_ok hc
      simp only [registeredText, hc, ok_bind, pure_ok, Except.ok.injEq] at ht
      cases hs : (heap v).toString with
      | none => rw [hs] at ht; subst ht; exact isText_null
      | some s => rw [hs] at ht; subst ht; exact hraw s ⟨d, v, hp, hreg, hf, hs⟩
  | valueNumber kind =>
    cases hc : checkClassOnlyHasOneValue d data with
    | error e => simp [registeredText, hc] at ht
    | ok v =>
      simp only [registeredText, hc, ok_bind, pure_ok, Except.ok.injEq] at ht
      subst ht
      exact isText_numberText dtoa (fun hk => registeredAs_ne_double d.type (hk ▸ hreg)) _

/-- The text of an object is JSON, if its doubles are finite and the raw
texts on the way are JSON. -/
theorem isText_text (hwf : WellFounded fun q p => Holds heap p q) (hdtoa : ∀ d, isFinite d → IsNumber (dtoa d))
    (p : P) (hfin : ∀ q, ReflTransGen (Next heap) p q → ∀ d, heap q = .double d → isFinite d)
    (hraw : ∀ q, ReflTransGen (Next heap) p q → ∀ s, RawText heap q s → IsText s)
    (t : Bytes) (ht : text dtoa heap hwf p = .ok t) : IsText t := by
  induction p using hwf.induction generalizing t with
  | _ p ih =>
    have below : ∀ q, Holds heap p q → Next heap p q → ∀ t, text dtoa heap hwf q = .ok t → IsText t :=
      fun q hq hn t ht => ih q hq (fun r hr => hfin r (.head hn hr)) (fun r hr => hraw r (.head hn hr)) t ht
    rw [text_eq] at ht
    cases hn : heap p with
    | null => rw [hn] at ht; cases ht; exact isText_null
    | boolean b =>
      rw [hn] at ht
      cases ht
      cases b
      · exact IsValue.false.text
      · exact IsValue.true.text
    | integer i | long i | date i => rw [hn] at ht; cases ht; exact isText_int _
    | string s | binary s => rw [hn] at ht; cases ht; exact isText_quote s
    | double d =>
      have hd := hfin p .refl d hn
      rw [hn] at ht
      simp only [nodeText, hd, if_true, Except.ok.injEq] at ht
      subst ht
      exact (IsValue.number (hdtoa d hd)).text
    | typedList _ vs | untypedList vs =>
      rw [hn] at ht
      refine isText_array (fun v hv t hvt => ?_) ht
      exact below v (by rw [Holds, hn]; exact hv) (.inl (by rw [hn]; exact hv)) t hvt
    | typedMap _ es | untypedMap es =>
      rw [hn] at ht
      refine isText_object (fun e he m hem => ?_) ht
      exact below e.2 (by rw [Holds, hn]; exact List.mem_flatMap.2 ⟨e, he, by simp⟩)
        (.inl (by rw [hn]; exact List.mem_map_of_mem he)) _ (member_ok hem).2
    | ref d =>
      rw [hn] at ht
      exact below d (by rw [Holds, hn]; simp [Node.holds]) (.inr hn) t ht
    | classInstance c =>
      obtain ⟨_ | d, data⟩ := c
      · rw [hn] at ht; cases ht; exact isText_null
      · rw [hn] at ht
        simp only [nodeText, classText] at ht
        cases hreg : registeredAs d.type with
        | some r =>
          rw [hreg] at ht
          exact isText_registeredText hn hreg (hraw p .refl) ht
        | none =>
          rw [hreg] at ht
          refine isText_object (fun f hf m hfm => ?_) ht
          have hv : f.2 ∈ (heap p).rendered := by
            rw [hn]
            simp only [Node.rendered, hreg, Option.isSome_none, Bool.false_eq_true, if_false]
            exact List.mem_map_of_mem hf
          exact below f.2 (by rw [Holds, hn]; exact (List.of_mem_zip hf).2) (.inl hv) _
            (member_ok (k := .ok f.1) hfm).2

/-- The text of a `BigDecimal` is its raw text. -/
theorem text_of_rawText (hwf : WellFounded fun q p => Holds heap p q) {q : P} {s : Bytes} (h : RawText heap q s) :
    text dtoa heap hwf q = .ok s := by
  obtain ⟨d, v, hq, hreg, hf, hs⟩ := h
  rw [text_eq, hq]
  simp [nodeText, classText, hreg, registeredText, checkClassOnlyHasOneValue, hf, hs]

end WellFormed

/-- Whatever an upstream sends without cycles: all of its values render as
JSON exactly when the text of every `BigDecimal` among them is JSON. -/
theorem rendersJson_iff {P : Type} [Finite P] [DecidableEq P] (dtoa : UInt64 → Bytes) (heap : Heap P)
    (hdtoa : ∀ d, isFinite d → IsNumber (dtoa d)) (hacyclic : ∀ p, ¬ TransGen (Holds heap) p p) (p : P)
    (hfin : ∀ q, ReflTransGen (Next heap) p q → ∀ d, heap q = .double d → isFinite d) :
    (∀ q, ReflTransGen (Next heap) p q →
      ∀ t, EndsWith (fun fuel => hessianValueToJsonString dtoa heap fuel (some q)) (.ok t) → IsText t) ↔
    ∀ q, ReflTransGen (Next heap) p q → ∀ s, RawText heap q s → IsText s := by
  have hwf := wellFounded_of_acyclic hacyclic
  constructor
  · intro h q hq s hs
    have hends := hessianValueToJsonString_ends dtoa heap hwf q
    rw [text_of_rawText hwf hs] at hends
    exact h q hq s hends
  · intro h q hq t ht
    have hends := hessianValueToJsonString_ends dtoa heap hwf q
    exact isText_text hwf hdtoa q (fun r hr => hfin r (hq.trans hr)) (fun r hr => h r (hq.trans hr)) t
      (hends.unique ht)

/-- The definition of `java.math.BigDecimal`. -/
def bigDecimal : RawDefinition := ⟨ascii "java.math.BigDecimal", [ascii "value"]⟩

/-- A `BigDecimal` of the text `s`. -/
def decimalOf (s : Bytes) : Heap (Fin 2)
  | 0 => .classInstance ⟨some bigDecimal, [1]⟩
  | 1 => .string s

theorem decimalOf_acyclic (s : Bytes) : ∀ p, ¬ TransGen (Holds (decimalOf s)) p p := by
  refine acyclic_of_rank (fun p => 1 - p.val) fun p q h => ?_
  fin_cases p <;> fin_cases q <;> simp_all [Holds, decimalOf, Node.holds, Node.owned]

theorem decimalOf_rawText {s : Bytes} {q : Fin 2} {u : Bytes} (h : RawText (decimalOf s) q u) : u = s := by
  obtain ⟨d, v, hq, -, -, hs⟩ := h
  fin_cases q
  · cases hq
    exact (Option.some.inj hs).symm
  · cases hq

theorem decimalOf_ends (dtoa : UInt64 → Bytes) (s : Bytes) :
    EndsWith (fun fuel => hessianValueToJsonString dtoa (decimalOf s) fuel (some 0)) (.ok s) := by
  have hwf := wellFounded_of_acyclic (decimalOf_acyclic s)
  have hends := hessianValueToJsonString_ends dtoa _ hwf 0
  rwa [text_of_rawText hwf ⟨bigDecimal, 1, rfl, by decide, rfl, rfl⟩] at hends

theorem decimal_rendersJson :
    EndsWith (fun fuel => hessianValueToJsonString (fun _ => ascii "0.0") (decimalOf (ascii "1.5")) fuel (some 0))
      (.ok (ascii "1.5")) ∧ IsText (ascii "1.5") := by
  have zero : IsNumber (ascii "0.0") :=
    ⟨[], [48], [46, 48], [], .inl rfl, .inl rfl, .inr ⟨[48], by simp [IsDigits, IsDigit], rfl⟩, .inl rfl, rfl⟩
  have number : IsNumber (ascii "1.5") :=
    ⟨[], [49], [46, 53], [], .inl rfl, .inr ⟨by simp [IsDigits, IsDigit], by decide⟩,
      .inr ⟨[53], by simp [IsDigits, IsDigit], rfl⟩, .inl rfl, rfl⟩
  refine ⟨decimalOf_ends _ _, ?_⟩
  refine (rendersJson_iff (fun _ => ascii "0.0") (decimalOf (ascii "1.5")) (fun _ _ => zero)
    (decimalOf_acyclic _) 0 ?_).2 ?_ 0 .refl _ (decimalOf_ends _ _)
  · intro q _ d hd
    fin_cases q <;> cases hd
  · intro q _ s hs
    rw [decimalOf_rawText hs]
    exact (IsValue.number number).text

/-- A `BigDecimal` of the text `NaN` renders as `NaN`, which is not JSON. -/
theorem decimal_not_json :
    Decoded (decimalOf (ascii "NaN")) ∧ (∀ p, ¬ TransGen (Holds (decimalOf (ascii "NaN"))) p p) ∧
    (∀ dtoa, EndsWith (fun fuel => hessianValueToJsonString dtoa (decimalOf (ascii "NaN")) fuel (some 0))
      (.ok (ascii "NaN"))) ∧
    ¬ IsText (ascii "NaN") := by
  refine ⟨⟨by decide, by decide, grounded_of_lt (by decide), by decide⟩, decimalOf_acyclic _,
    fun dtoa => decimalOf_ends dtoa _, fun h => ?_⟩
  rcases IsText.head h with h | h | h
  · exact absurd h (by unfold IsWsByte; decide)
  · exact absurd h (by decide)
  · exact absurd h.2 (by decide)

end EnvoyProxy.Dubbo
