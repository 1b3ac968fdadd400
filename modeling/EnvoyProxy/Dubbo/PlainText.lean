import EnvoyProxy.Lib.Fuel
import EnvoyProxy.Lib.Paths
import EnvoyProxy.Dubbo.Render
/-!
# The text of an acyclic graph

On a heap whose ownership and `Ref` edges have no cycle, the text of an object
can be given by recursion along the edges, with no history and no writer:
`text`. `internal_ends` shows that the renderer writes exactly that, from any
history that holds nothing the object leads to, and leaves the history as it
found it.
-/

namespace EnvoyProxy.Dubbo
open Json

/-! ## The steps of a rendering -/

namespace Node
variable {P : Type}

/-- The owned objects a rendering calls itself on with its own history. -/
def rendered : Node P → List P
  | .typedList _ vs | .untypedList vs => vs
  | .typedMap _ es | .untypedMap es => es.map Prod.snd
  | .classInstance ⟨some d, data⟩ =>
    if (registeredAs d.type).isSome then [] else (d.fieldNames.zip data).map Prod.snd
  | _ => []

/-- The keys a rendering renders by themselves. -/
def renderedKeys (heap : Heap P) : Node P → List P
  | .typedMap _ es | .untypedMap es => (es.map Prod.fst).filter fun k => !(heap k).isString
  | _ => []

end Node

section Text
variable {P : Type} (dtoa : UInt64 → Bytes) (heap : Heap P)

/-- Ownership and `Ref` edges together. -/
def Holds (p q : P) : Prop := q ∈ (heap p).holds

instance [DecidableEq P] (p q : P) : Decidable (Holds heap p q) :=
  inferInstanceAs (Decidable (q ∈ (heap p).holds))

/-- One step of a rendering: to an owned object, or through a `Ref`. -/
def Next (p q : P) : Prop := q ∈ (heap p).rendered ∨ heap p = .ref q

/-- `Next`, or from a map to a key rendered by itself. -/
def Uses (p q : P) : Prop := Next heap p q ∨ q ∈ (heap p).renderedKeys heap

/-! ## The text -/

/-- The text of a key, given the texts of objects. -/
def keyOf (f : P → Except RenderStop Bytes) (k : P) : Except RenderStop Bytes :=
  match (heap k).toString with
  | some s => .ok s
  | none => f k

/-- What `handleValueNumber` writes for a field. -/
def numberText (kind : NumberKind) (n : Node P) : Bytes :=
  match kind with
  | .integer => (n.toInteger.map fun i => intText i.toInt).getD (ascii "null")
  | .long => (n.toLong.map fun i => intText i.toInt).getD (ascii "null")
  | .double => (n.toDouble.map fun x => if isFinite x then dtoa x else []).getD (ascii "null")
  | .date => (n.toDate.map fun i => intText i.toInt).getD (ascii "null")

/-- What `bigIntegerConverter` writes for its fields. -/
def integerText : Option (Int32 × Option (List Nat)) → Bytes
  | none => ascii "null"
  | some (_, none) => intText 0
  | some (signum, some words) =>
    match simpleAtoi (bigIntegerText signum words) with
    | some i => intText i
    | none => quote (bigIntegerText signum words)

/-- What a registered converter writes. -/
def registeredText (r : Registered) (d : RawDefinition) (data : List P) : Except RenderStop Bytes :=
  match r with
  | .bigDecimal => do return (heap (← checkClassOnlyHasOneValue d data)).toString.getD (ascii "null")
  | .bigInteger => .ok (integerText (bigIntegerFields heap d data))
  | .valueNumber kind => do return numberText dtoa kind (heap (← checkClassOnlyHasOneValue d data))

/-- The text of a class instance, given the texts of objects. -/
def classText (f : P → Except RenderStop Bytes) (c : ClassInstance P) : Except RenderStop Bytes :=
  match c.def_ with
  | none => .ok (ascii "null")
  | some d =>
    match registeredAs d.type with
    | some r => registeredText dtoa heap r d c.data
    | none => do return objectText (← (d.fieldNames.zip c.data).mapM fun m => do return (m.1, ← f m.2))

/-- The text of a node, given the texts of objects. -/
def nodeText (f : P → Except RenderStop Bytes) : Node P → Except RenderStop Bytes
  | .null => .ok (ascii "null")
  | .boolean b => .ok (if b then ascii "true" else ascii "false")
  | .integer i => .ok (intText i.toInt)
  | .long i => .ok (intText i.toInt)
  | .date i => .ok (intText i.toInt)
  | .double d => .ok (if isFinite d then dtoa d else [])
  | .string s => .ok (quote s)
  | .binary s => .ok (quote s)
  | .typedList _ vs | .untypedList vs => do return arrayText (← vs.mapM f)
  | .typedMap _ es | .untypedMap es => do
    return objectText (← es.mapM fun e => do return (← keyOf heap f e.1, ← f e.2))
  | .classInstance c => classText dtoa heap f c
  | .ref d => f d

theorem mapM_congr {α β : Type} {f g : α → Except RenderStop β} {xs : List α} (h : ∀ x ∈ xs, f x = g x) :
    xs.mapM f = xs.mapM g := by
  induction xs with
  | nil => rfl
  | cons x xs ih =>
    rw [List.mapM_cons, List.mapM_cons, h x List.mem_cons_self,
      ih fun y hy => h y (List.mem_cons_of_mem _ hy)]

theorem nodeText_congr {f g : P → Except RenderStop Bytes} (n : Node P) (h : ∀ q ∈ n.holds, f q = g q) :
    nodeText dtoa heap f n = nodeText dtoa heap g n := by
  cases n with
  | typedList _ vs | untypedList vs =>
    have hm : vs.mapM f = vs.mapM g := mapM_congr h
    simp only [nodeText, hm]
  | typedMap _ es | untypedMap es =>
    have he : ∀ e ∈ es, f e.1 = g e.1 ∧ f e.2 = g e.2 := fun e he =>
      ⟨h e.1 (List.mem_flatMap.2 ⟨e, he, by simp⟩), h e.2 (List.mem_flatMap.2 ⟨e, he, by simp⟩)⟩
    have hm : (es.mapM fun e => do return (← keyOf heap f e.1, ← f e.2)) =
        es.mapM fun e => do return (← keyOf heap g e.1, ← g e.2) :=
      mapM_congr fun e hm => by simp only [keyOf, (he e hm).1, (he e hm).2]
    simp only [nodeText, hm]
  | classInstance c =>
    obtain ⟨_ | d, data⟩ := c
    · rfl
    · have hm : ((d.fieldNames.zip data).mapM fun m => do return (m.1, ← f m.2)) =
          (d.fieldNames.zip data).mapM fun m => do return (m.1, ← g m.2) :=
        mapM_congr fun m hm => by rw [h m.2 (List.of_mem_zip hm).2]
      simp only [nodeText, classText, hm]
  | ref d => exact h d (by simp [Node.holds])
  | _ => rfl

/-- The text of an object of an acyclic heap. -/
noncomputable def text (hwf : WellFounded fun q p => Holds heap p q) : P → Except RenderStop Bytes :=
  descend hwf (.error .outOfFuel) fun p f => nodeText dtoa heap f (heap p)

theorem text_eq (hwf : WellFounded fun q p => Holds heap p q) (p : P) :
    text dtoa heap hwf p = nodeText dtoa heap (text dtoa heap hwf) (heap p) :=
  descend_eq hwf _ _ (fun p _ _ h => nodeText_congr dtoa heap (heap p) h) p

end Text

/-! ## The renderer writes the text -/

section Loops
variable {P : Type} {heap : Heap P} {dtoa : UInt64 → Bytes} {call : Nat → RenderCall P} {H : HessianHistory P}

/-- The call on `q` writes `r` as one value and leaves the history alone. -/
def Writes (call : Nat → RenderCall P) (H : HessianHistory P) (q : P) (r : Except RenderStop Bytes) : Prop :=
  ∀ w, EndsWith (fun n => call n (some q) (w, H)) (r >>= fun t => .ok (w.emit t, H))

/-- A loop whose rounds each write one piece. -/
theorem fold_ends {α β : Type} (put : Writer → β → Writer) (f : α → Except RenderStop β)
    (body : Nat → RenderState P → α → Except RenderStop (RenderState P)) (xs : List α)
    (h : ∀ x ∈ xs, ∀ w, EndsWith (fun n => body n (w, H) x) (f x >>= fun t => .ok (put w t, H))) (w : Writer) :
    EndsWith (fun n => xs.foldlM (body n) (w, H)) (xs.mapM f >>= fun ts => .ok (ts.foldl put w, H)) := by
  induction xs generalizing w with
  | nil => exact EndsWith.const _
  | cons x xs ih =>
    have hrest := fun w => ih (fun y hy => h y (List.mem_cons_of_mem _ hy)) w
    have := (h x List.mem_cons_self w).seq (k := fun n s => xs.foldlM (body n) s)
      (f := fun s => xs.mapM f >>= fun ts => .ok (ts.foldl put s.1, H)) fun s hs => by
        have hH : s = (s.1, H) := by
          cases hf : f x with
          | ok t => rw [hf] at hs; cases hs; rfl
          | error e => rw [hf] at hs; cases hs
        rw [hH]
        exact hrest s.1
    simp only [List.foldlM_cons, List.mapM_cons, bind_assoc, pure_bind] at this ⊢
    exact this

theorem list_ends {vs : List P} {f : P → Except RenderStop Bytes} (h : ∀ v ∈ vs, Writes call H v (f v))
    (w : Writer) :
    EndsWith (fun n => convertListToJsonString (call n) vs (w, H))
      ((do return arrayText (← vs.mapM f)) >>= fun t => .ok (w.emit t, H)) := by
  have := (fold_ends Writer.emit f (fun n s v => call n (some v) s) vs h w.startArray).seq
    (k := fun _ s => .ok (s.1.endArray, s.2)) (f := fun s => .ok (s.1.endArray, s.2)) fun s _ => EndsWith.const _
  simpa only [convertListToJsonString, bind_assoc, ok_bind, pure_ok, Writer.emit_array] using this

theorem key_ends {f : P → Except RenderStop Bytes} {k : P}
    (hk : (heap k).toString = none → Writes call ∅ k (f k)) :
    EndsWith (fun n => keyText heap (call n) k) (keyOf heap f k) := by
  unfold keyText keyOf
  cases hs : (heap k).toString with
  | some s => exact EndsWith.const _
  | none =>
    have := (hk hs Writer.new).seq (k := fun _ s => .ok s.1.out) (f := fun s => .ok s.1.out)
      fun s _ => EndsWith.const _
    simp only [bind_assoc, ok_bind, Writer.new_emit] at this ⊢
    cases hf : f k <;> simpa [hf] using this

theorem map_ends {es : List (P × P)} {f : P → Except RenderStop Bytes}
    (hk : ∀ e ∈ es, (heap e.1).toString = none → Writes call ∅ e.1 (f e.1))
    (hv : ∀ e ∈ es, Writes call H e.2 (f e.2)) (w : Writer) :
    EndsWith (fun n => convertUntypedMapToJsonString heap (call n) es (w, H))
      ((do return objectText (← es.mapM fun e => do return (← keyOf heap f e.1, ← f e.2))) >>=
        fun t => .ok (w.emit t, H)) := by
  have loop := fold_ends (H := H) Writer.member (fun e : P × P => do return (← keyOf heap f e.1, ← f e.2))
    (fun n s e => do call n (some e.2) (s.1.string (← keyText heap (call n) e.1), s.2)) es
    (fun e he w => by
      have := (key_ends (hk e he)).seq (k := fun n t => call n (some e.2) (w.string t, H))
        (f := fun t => f e.2 >>= fun u => .ok ((w.string t).emit u, H)) fun t _ => hv e he (w.string t)
      simpa only [bind_assoc, pure_bind, Writer.member] using this) w.startObject
  have := loop.seq (k := fun _ s => .ok (s.1.endObject, s.2)) (f := fun s => .ok (s.1.endObject, s.2))
    fun s _ => EndsWith.const _
  simpa only [convertUntypedMapToJsonString, bind_assoc, ok_bind, pure_ok, Writer.emit_object] using this

theorem defaultClass_ends {d : RawDefinition} {data : List P} {f : P → Except RenderStop Bytes}
    (hv : ∀ v ∈ data, Writes call H v (f v)) (w : Writer) :
    EndsWith (fun n => defaultClassConverter (call n) d data (w, H))
      ((do return objectText (← (d.fieldNames.zip data).mapM fun m => do return (m.1, ← f m.2))) >>=
        fun t => .ok (w.emit t, H)) := by
  have loop := fold_ends (H := H) Writer.member (fun m : Bytes × P => do return (m.1, ← f m.2))
    (fun n s m => call n (some m.2) (s.1.string m.1, s.2)) (d.fieldNames.zip data)
    (fun m hm w => by
      simpa only [bind_assoc, pure_bind, Writer.member] using hv m.2 (List.of_mem_zip hm).2 (w.string m.1)) w.startObject
  have := loop.seq (k := fun _ s => .ok (s.1.endObject, s.2)) (f := fun s => .ok (s.1.endObject, s.2))
    fun s _ => EndsWith.const _
  simpa only [defaultClassConverter, bind_assoc, ok_bind, pure_ok, Writer.emit_object] using this

/-- A registered converter writes one value, the same in every position. -/
theorem converter_emit (r : Registered) (d : RawDefinition) (data : List P) (w : Writer) :
    r.converter heap dtoa d data w = registeredText dtoa heap r d data >>= fun t => .ok (w.emit t) := by
  cases r with
  | bigDecimal =>
    simp only [Registered.converter, bigDecimalConverter, registeredText, bind_assoc, pure_ok, ok_bind]
    congr 1
    funext v
    cases (heap v).toString <;> rfl
  | bigInteger =>
    simp only [Registered.converter, bigIntegerConverter, registeredText, ok_bind]
    rcases bigIntegerFields heap d data with _ | ⟨signum, _ | words⟩
    · rfl
    · rfl
    · simp only [integerText]
      cases simpleAtoi (bigIntegerText signum words) <;> rfl
  | valueNumber kind =>
    simp only [Registered.converter, handleValueNumber, registeredText, bind_assoc, pure_ok, ok_bind]
    congr 1
    funext v
    cases kind with
    | integer => simp only [numberText]; cases (heap v).toInteger <;> rfl
    | long => simp only [numberText]; cases (heap v).toLong <;> rfl
    | double => simp only [numberText]; cases (heap v).toDouble <;> rfl
    | date => simp only [numberText]; cases (heap v).toDate <;> rfl

theorem covertClass_ends {c : ClassInstance P} {f : P → Except RenderStop Bytes}
    (hv : ∀ v ∈ c.data, Writes call H v (f v)) (w : Writer) :
    EndsWith (fun n => covertClassToJsonString dtoa heap (call n) c (w, H))
      (classText dtoa heap f c >>= fun t => .ok (w.emit t, H)) := by
  obtain ⟨_ | d, data⟩ := c
  · exact EndsWith.const _
  · cases hreg : registeredAs d.type with
    | some r =>
      simp only [covertClassToJsonString, classText, hreg, converter_emit, bind_assoc, ok_bind, pure_ok]
      exact EndsWith.const _
    | none =>
      simp only [covertClassToJsonString, classText, hreg]
      exact defaultClass_ends hv w

theorem withHistory_ends [DecidableEq P] {body : Nat → RenderState P → Except RenderStop (RenderState P)} {p : P}
    (hp : p ∉ H) {r : Except RenderStop Bytes} {w : Writer}
    (h : EndsWith (fun n => body n (w, insert p H)) (r >>= fun t => .ok (w.emit t, insert p H))) :
    EndsWith (fun n => withHistory p (body n) (w, H)) (r >>= fun t => .ok (w.emit t, H)) := by
  have := h.seq (k := fun _ s => .ok (s.1, s.2.erase p)) (f := fun s => .ok (s.1, s.2.erase p))
    fun s _ => EndsWith.const _
  simpa only [withHistory, bind_assoc, ok_bind, pure_ok, Finset.erase_insert hp] using this

end Loops

section Main
variable {P : Type} [DecidableEq P] (dtoa : UInt64 → Bytes) (heap : Heap P)

/-- The renderer on an acyclic heap writes the text of the object. The
history never stops it: it holds only objects that lead to this one. -/
theorem internal_ends (hwf : WellFounded fun q p => Holds heap p q) (p : P) (H : HessianHistory P)
    (hH : ∀ q, Relation.ReflTransGen (Holds heap) p q → q ∉ H) :
    Writes (hessianValueToJsonStringInternal dtoa heap) H p (text dtoa heap hwf p) := by
  induction p using hwf.induction generalizing H with
  | _ p ih =>
    have hp : p ∉ H := hH p .refl
    have below : ∀ q, Holds heap p q →
        Writes (hessianValueToJsonStringInternal dtoa heap) (insert p H) q (text dtoa heap hwf q) := by
      intro q hq
      refine ih q hq _ fun r hr => ?_
      rw [Finset.mem_insert, not_or]
      refine ⟨fun he => ?_, hH r (.head hq hr)⟩
      exact acyclic_of_wellFounded hwf p (.head' hq (he ▸ hr))
    have keys : ∀ q, Holds heap p q →
        Writes (hessianValueToJsonStringInternal dtoa heap) ∅ q (text dtoa heap hwf q) :=
      fun q hq => ih q hq ∅ fun r _ => Finset.notMem_empty r
    intro w
    rw [text_eq]
    refine EndsWith.succ (b := fun n =>
      renderObject dtoa heap (hessianValueToJsonStringInternal dtoa heap n) p (w, H)) (fun n => rfl) ?_
    simp only [renderObject]
    cases hn : heap p with
    | typedList _ vs | untypedList vs =>
      exact withHistory_ends hp (list_ends (fun v hv => below v (by rw [Holds, hn]; exact hv)) w)
    | typedMap _ es | untypedMap es =>
      have hes : ∀ e ∈ es, Holds heap p e.1 ∧ Holds heap p e.2 := by
        intro e he
        rw [Holds, Holds, hn]
        exact ⟨List.mem_flatMap.2 ⟨e, he, by simp⟩, List.mem_flatMap.2 ⟨e, he, by simp⟩⟩
      exact withHistory_ends hp
        (map_ends (fun e he _ => keys e.1 (hes e he).1) (fun e he => below e.2 (hes e he).2) w)
    | classInstance c =>
      exact withHistory_ends hp (covertClass_ends (fun v hv => below v (by rw [Holds, hn]; exact hv)) w)
    | ref d =>
      have hd : Holds heap p d := by rw [Holds, hn]; simp [Node.holds]
      simp only [if_neg (hH d (.single hd))]
      exact withHistory_ends hp (below d hd w)
    | _ => exact EndsWith.const _

/-- `hessianValueToJsonString` on an acyclic heap returns the text of its
object, or throws the exception the text ends in. -/
theorem hessianValueToJsonString_ends (hwf : WellFounded fun q p => Holds heap p q) (p : P) :
    EndsWith (fun fuel => hessianValueToJsonString dtoa heap fuel (some p)) (text dtoa heap hwf p) := by
  have := (internal_ends dtoa heap hwf p ∅ (fun q _ => Finset.notMem_empty q) Writer.new).seq
    (k := fun _ s => .ok s.1.out) (f := fun s => .ok s.1.out) fun s _ => EndsWith.const _
  simp only [bind_assoc, ok_bind, Writer.new_emit] at this
  unfold hessianValueToJsonString
  cases ht : text dtoa heap hwf p <;> simpa [ht] using this

end Main

end EnvoyProxy.Dubbo
