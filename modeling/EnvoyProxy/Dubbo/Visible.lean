import EnvoyProxy.Lib.Decoder
import EnvoyProxy.Dubbo.Chunking
/-!
# Bytes behind a frame

The Hessian decoder of a response is not given the body of the frame but all
bytes that have arrived. A body that is too short is then a null value or a
protocol error, as the bytes behind it happen to be there or not.
`chunking_invariant_iff`: the way a stream is cut into chunks cannot be seen
exactly when the decoder stays in the body of the frame that is answered.
-/

namespace EnvoyProxy.Dubbo
open Json

section Visible
variable {V : Type} (codec : Codec V)

/-- Whether a response type announces a value behind it. -/
def announcesValue (typeData : Int32) : Prop :=
  ∃ kind, rpcResponseKind (rpcResponseType typeData) = some kind ∧ kind ≠ .nullValue

/-- With these bytes visible, nothing is read past the end of the body. -/
structure ReadsInBody (header : Header) (visible : Bytes) : Prop where
  object : header.responseStatus ≠ statusOk → (codec.decodeObject visible 0).2 ≤ header.bodySize
  type : header.responseStatus = statusOk → ∀ typeData offset, codec.decodeInt visible 0 = (some typeData, offset) →
    offset ≤ header.bodySize
  value : header.responseStatus = statusOk → ∀ typeData offset, codec.decodeInt visible 0 = (some typeData, offset) →
    announcesValue typeData → (codec.decodeObject visible offset).2 ≤ header.bodySize

/-- However many of the bytes behind the frame are visible, a response is read
from its body alone. -/
def StaysInBody (header : Header) (visible : Bytes) : Prop :=
  header.messageType = .response → ∀ m, header.bodySize ≤ m → m ≤ visible.length →
    ReadsInBody codec header (visible.take m)

/-- The decoders fail when they run off the end of what is visible. -/
structure LocalCodec : Prop where
  int : LocalDecoder codec.decodeInt
  object : LocalDecoder codec.decodeObject

variable {codec}

/-- The reply to an OK response, from its type on. -/
def typedReply (codec : Codec V) (protocolErrorCode respExceptionCode : Nat) (header : Header) (visible : Bytes)
    (typeData : Int32) (offset : Nat) : Except Bytes (Reply V) :=
  match rpcResponseKind (rpcResponseType typeData) with
  | none => .error (ascii "not supported return type " ++ natText (rpcResponseType typeData).toNat)
  | some .nullValue => .ok ⟨200, .value, .object none, false⟩
  | some kind =>
    if header.bodySize < (codec.decodeObject visible offset).2 then
      .ok ⟨protocolErrorCode, .exception, .text (sizeText (codec.decodeObject visible offset).2 header.bodySize), true⟩
    else if kind = .withException then
      .ok ⟨respExceptionCode, .exception, .object (codec.decodeObject visible offset).1, false⟩
    else .ok ⟨200, .value, .object (codec.decodeObject visible offset).1, false⟩

section Branches
variable {pe re : Nat} {h : Header} {visible : Bytes}

theorem frameReply_notResponse (hm : h.messageType ≠ .response) (visible' : Bytes) :
    frameReply codec pe re h visible = frameReply codec pe re h visible' := by
  unfold frameReply
  rw [if_pos hm, if_pos hm]

theorem frameReply_notOk (hm : h.messageType = .response) (hs : h.responseStatus ≠ statusOk) :
    frameReply codec pe re h visible =
      if h.bodySize < (codec.decodeObject visible 0).2 then
        .ok ⟨pe, .exception, .text (sizeText (codec.decodeObject visible 0).2 h.bodySize), true⟩
      else .ok ⟨pe, .exception, .object (codec.decodeObject visible 0).1, true⟩ := by
  unfold frameReply
  rw [if_neg (not_not.2 hm), if_pos hs]

def noTypeText : Bytes := ascii "No response type get from dubbo response and do nothing"

theorem frameReply_noType (hm : h.messageType = .response) (hs : h.responseStatus = statusOk)
    (hi : (codec.decodeInt visible 0).1 = none) :
    frameReply codec pe re h visible = .ok ⟨pe, .exception, .text noTypeText, true⟩ := by
  unfold frameReply
  rw [if_neg (not_not.2 hm), if_neg (not_not.2 hs)]
  rcases hd : codec.decodeInt visible 0 with ⟨_ | t, o⟩
  · rfl
  · rw [hd] at hi
    cases hi

theorem frameReply_typed (hm : h.messageType = .response) (hs : h.responseStatus = statusOk) {typeData : Int32}
    {offset : Nat} (hi : codec.decodeInt visible 0 = (some typeData, offset)) :
    frameReply codec pe re h visible = typedReply codec pe re h visible typeData offset := by
  unfold frameReply typedReply
  rw [if_neg (not_not.2 hm), if_neg (not_not.2 hs)]
  cases hk : rpcResponseKind (rpcResponseType typeData) with
  | none => simp only [hi, hk]
  | some kind => cases kind <;> simp only [hi, hk]

theorem typedReply_value {typeData : Int32} (hv : announcesValue typeData) :
    ∃ code type, ∀ visible offset, typedReply codec pe re h visible typeData offset =
      if h.bodySize < (codec.decodeObject visible offset).2 then
        .ok ⟨pe, .exception, .text (sizeText (codec.decodeObject visible offset).2 h.bodySize), true⟩
      else .ok ⟨code, type, .object (codec.decodeObject visible offset).1, false⟩ := by
  obtain ⟨kind, hk, hnull⟩ := hv
  unfold typedReply
  rw [hk]
  cases kind with
  | nullValue => exact absurd rfl hnull
  | withException => exact ⟨re, .exception, fun _ _ => rfl⟩
  | withValue => exact ⟨200, .value, fun _ _ => rfl⟩

theorem typedReply_noValue {typeData : Int32} (hv : ¬ announcesValue typeData) (visible' : Bytes) (o o' : Nat) :
    typedReply codec pe re h visible typeData o = typedReply codec pe re h visible' typeData o' := by
  unfold typedReply
  cases hk : rpcResponseKind (rpcResponseType typeData) with
  | none => rfl
  | some kind =>
    cases kind with
    | nullValue => rfl
    | withException | withValue => exact absurd ⟨_, hk, by simp⟩ hv

end Branches

/-- The reply to a frame that is read in its body is the reply to the body. -/
theorem frameReply_body (hc : LocalCodec codec) (pe re : Nat) {h : Header} {visible : Bytes} {m : Nat}
    (hread : h.messageType = .response → ReadsInBody codec h (visible.take m)) (hm : h.bodySize ≤ m)
    (hlen : h.bodySize ≤ visible.length) :
    frameReply codec pe re h (visible.take m) = frameReply codec pe re h (visible.take h.bodySize) := by
  by_cases hresp : h.messageType = .response
  case neg => exact frameReply_notResponse hresp _
  have hr := hread hresp
  by_cases hok : h.responseStatus = statusOk
  case neg =>
    have hvalue := hc.object.take_value hm hlen (hr.object hok)
    rw [frameReply_notOk hresp hok, frameReply_notOk hresp hok, if_neg (not_lt.2 (hr.object hok)),
      if_neg (not_lt.2 (hc.object.take_le hlen (Nat.zero_le _))), hvalue]
  rcases hi : codec.decodeInt (visible.take m) 0 with ⟨_ | typeData, offset⟩
  · -- no type with more bytes, so none in the body
    have hib : (codec.decodeInt (visible.take h.bodySize) 0).1 = none := by
      rcases hib : codec.decodeInt (visible.take h.bodySize) 0 with ⟨_ | typeData, offset'⟩
      · rfl
      · rw [hc.int.take_extend hm hib] at hi
        cases hi
    rw [frameReply_noType hresp hok hib, frameReply_noType hresp hok (by rw [hi])]
  · have hoff := hr.type hok _ _ hi
    have hib := hc.int.take_restrict hm hlen hi hoff
    rw [frameReply_typed hresp hok hi, frameReply_typed hresp hok hib]
    by_cases hv : announcesValue typeData
    · obtain ⟨code, type, htyped⟩ := typedReply_value hv
      have hin := hr.value hok _ _ hi hv
      have hvalue := hc.object.take_value hm hlen hin
      rw [htyped, htyped, if_neg (not_lt.2 hin), if_neg (not_lt.2 (hc.object.take_le hlen hoff)), hvalue]
    · exact typedReply_noValue hv _ _ _

/-- A body that can be decoded is never left. -/
theorem staysInBody_of_decodes (hc : LocalCodec codec) {h : Header} {visible : Bytes}
    (hlen : h.bodySize ≤ visible.length) (hok : h.responseStatus = statusOk) {typeData : Int32}
    {offset offset' : Nat}
    {value : V} (hi : codec.decodeInt (visible.take h.bodySize) 0 = (some typeData, offset))
    (hv : codec.decodeObject (visible.take h.bodySize) offset = (some value, offset')) :
    StaysInBody codec h visible := by
  intro _ m hm _
  have hi' := hc.int.take_extend hm hi
  have hv' := hc.object.take_extend hm hv
  have hoff : offset ≤ h.bodySize := by
    have := hc.int.take_le hlen (Nat.zero_le h.bodySize)
    rwa [hi] at this
  have hoff' : offset' ≤ h.bodySize := by
    have := hc.object.take_le hlen hoff
    rwa [hv] at this
  refine ⟨fun hne => absurd hok hne, ?_, ?_⟩
  · intro _ t o hd
    rw [hi'] at hd
    cases hd
    exact hoff
  · intro _ t o hd _
    rw [hi'] at hd
    cases hd
    rw [hv']
    exact hoff'

end Visible

/-! ## What the downstream can tell apart -/

section Legible
variable {V : Type} (env : Env V)

/-- The router takes whole responses, and the getter renders texts and null so
that they can be told apart. -/
structure Legible (s : DubboUpstream V) : Prop where
  taken : ∀ headers, env.resets headers = false
  text : ∀ what, ∃ r, respond env s (.ok (errorReply s what)) = .ok r
  text_inj : ∀ a b, respond env s (.ok (errorReply s a)) = respond env s (.ok (errorReply s b)) → a = b
  null : ∀ code type close, ∃ r, respond env s (.ok ⟨code, type, .object none, close⟩) = .ok r
  null_ne : ∀ what, respond env s (.ok ⟨s.protocolErrorCode, .exception, .object none, true⟩) ≠
    respond env s (.ok (errorReply s what))

/-- JSON texts: the getter of the repository, and the rendering of null and of
texts by `hessianValueToJsonString`. -/
theorem legible_of_json {s : DubboUpstream V} (htaken : ∀ headers, env.resets headers = false)
    (hgetter : s.responseGetter = some (simpleResponseGetter env.codec))
    (hnull : env.codec.hessianValueToJsonString none = .ok (ascii "null"))
    (htext : ∀ what, env.codec.hessianValueToJsonString (some (env.codec.stringObject what)) = .ok (quote what)) :
    Legible env s := by
  have hrespond : ∀ what, respond env s (.ok (errorReply s what)) = .ok (s.protocolErrorCode, quote what, true) := by
    intro what
    simp only [respond, renderReply, hgetter, simpleResponseGetter, errorReply, htext, ok_bind, pure_ok]
    rfl
  have hnone : ∀ code type close,
      respond env s (.ok ⟨code, type, .object none, close⟩) = .ok (code, ascii "null", close) := by
    intro code type close
    simp only [respond, renderReply, hgetter, simpleResponseGetter, hnull, ok_bind, pure_ok]
    rfl
  refine ⟨htaken, fun what => ⟨_, hrespond what⟩, ?_, fun code type close => ⟨_, hnone code type close⟩, ?_⟩
  · intro a b h
    rw [hrespond, hrespond] at h
    exact quote_injective (Prod.mk.inj (Prod.mk.inj (Except.ok.inj h)).2).1
  · intro what h
    rw [hrespond, hnone] at h
    have htexts := (Prod.mk.inj (Prod.mk.inj (Except.ok.inj h)).2).1
    have hfirst : (ascii "null").head? = some 34 := (congrArg List.head? htexts).trans rfl
    exact absurd hfirst (by decide)

/-- A router that takes whole responses sees all of a response. -/
theorem deliveries_injective (htaken : ∀ headers, env.resets headers = false) :
    Function.Injective (deliveries env) := by
  rintro ⟨code, body, close⟩ ⟨code', body', close'⟩ h
  simp only [deliveries, htaken, Bool.or_false] at h
  cases body <;> cases body' <;> simp_all

theorem delivering_injective {s : DubboUpstream V} (htaken : ∀ headers, env.resets headers = false) :
    Function.Injective (delivering env s) := by
  intro r r' h
  cases r with
  | error what =>
    cases r' with
    | error what' => cases h; rfl
    | ok r' => cases h
  | ok r =>
    cases r' with
    | error what' => cases h
    | ok r' =>
      have hlists := List.append_cancel_left (Except.ok.inj h)
      rw [deliveries_injective env htaken hlists]

/-- The texts of the two ways to miss the response type are no size texts. -/
theorem noTypeText_ne (offset bodySize : Nat) (type : UInt8) :
    sizeText offset bodySize ≠ noTypeText ∧ ascii "not supported return type " ++ natText type.toNat ≠ noTypeText := by
  constructor
  · intro h
    have hfirst : some (82 : UInt8) = noTypeText.head? := (congrArg List.head? h)
    exact absurd hfirst (by decide)
  · intro h
    have hfirst : some (110 : UInt8) = noTypeText.head? := (congrArg List.head? h)
    exact absurd hfirst (by decide)

variable {env} {s : DubboUpstream V} (hc : LocalCodec env.codec) (hl : Legible env s)

include hl in
theorem Legible.error_inj {a b : Bytes}
    (h : respondOrError env s (.ok (errorReply s a)) = respondOrError env s (.ok (errorReply s b))) : a = b := by
  obtain ⟨r, hr⟩ := hl.text a
  obtain ⟨r', hr'⟩ := hl.text b
  rw [respondOrError_of_ok env hr, respondOrError_of_ok env hr', ← hr, ← hr'] at h
  exact hl.text_inj a b h

include hl in
/-- An exception is answered like the error reply with its text. -/
theorem Legible.error_eq (what : Bytes) :
    respondOrError env s (.error what) = respondOrError env s (.ok (errorReply s what)) := by
  obtain ⟨r, hr⟩ := hl.text what
  rw [respondOrError_of_ok env hr]
  exact hr

include hl in
/-- An error reply closes the connection, a null value does not. -/
theorem Legible.error_ne_null (what : Bytes) (code : Nat) (type : ResponseType) :
    respondOrError env s (.ok (errorReply s what)) ≠
      respondOrError env s (.ok ⟨code, type, .object none, false⟩) := by
  intro h
  obtain ⟨r, hr⟩ := hl.text what
  obtain ⟨r', hr'⟩ := hl.null code type false
  rw [respondOrError_of_ok env hr, respondOrError_of_ok env hr'] at h
  cases h
  exact absurd ((respond_close env hr).symm.trans (respond_close env hr')) (by simp [errorReply])

section Same
variable {h : Header} {visible : Bytes} {m : Nat} (hresp : h.messageType = .response) (hm : h.bodySize ≤ m)
  (hlen : h.bodySize ≤ visible.length)
  (hsame : frameResponse env s h (visible.take m) = frameResponse env s h (visible.take h.bodySize))

include hc hl hresp hm hlen hsame

/-- A response type that is completed by later bytes changes the response. -/
theorem type_in_body (hok : h.responseStatus = statusOk) {typeData : Int32} {offset : Nat}
    (hi : env.codec.decodeInt (visible.take m) 0 = (some typeData, offset)) : offset ≤ h.bodySize := by
  by_contra hpast
  have hib := hc.int.take_none hm hlen (Nat.zero_le _) (by rw [hi]; exact not_le.1 hpast)
  unfold frameResponse at hsame
  rw [frameReply_typed hresp hok hi, frameReply_noType hresp hok hib] at hsame
  change _ = respondOrError env s (.ok (errorReply s noTypeText)) at hsame
  by_cases hv : announcesValue typeData
  · obtain ⟨code, type, htyped⟩ := typedReply_value hv
    have hge := hc.object.ge (visible.take m) offset
    rw [htyped, if_pos (by omega)] at hsame
    exact (noTypeText_ne _ _ 0).1 (hl.error_inj hsame)
  · unfold typedReply at hsame
    cases hk : rpcResponseKind (rpcResponseType typeData) with
    | none =>
      rw [hk] at hsame
      simp only [hl.error_eq] at hsame
      exact (noTypeText_ne 0 0 _).2 (hl.error_inj hsame)
    | some kind =>
      obtain rfl : kind = .nullValue := by
        by_contra hne
        exact hv ⟨kind, hk, hne⟩
      rw [hk] at hsame
      exact hl.error_ne_null _ _ _ hsame.symm

/-- So does an error value that is read past the body, -/
theorem object_in_body (hok : h.responseStatus ≠ statusOk) :
    (env.codec.decodeObject (visible.take m) 0).2 ≤ h.bodySize := by
  by_contra hpast
  have hpast' := not_le.1 hpast
  unfold frameResponse at hsame
  rw [frameReply_notOk hresp hok, frameReply_notOk hresp hok, if_pos hpast',
    if_neg (not_lt.2 (hc.object.take_le hlen (Nat.zero_le _))),
    hc.object.take_none hm hlen (Nat.zero_le _) hpast'] at hsame
  obtain ⟨r, hr⟩ := hl.text (sizeText (env.codec.decodeObject (visible.take m) 0).2 h.bodySize)
  obtain ⟨r', hr'⟩ := hl.null s.protocolErrorCode .exception true
  have heq := (respondOrError_of_ok env hr).symm.trans (hsame.trans (respondOrError_of_ok env hr'))
  exact hl.null_ne _ (by rw [hr, hr', heq])

/-- and a value that is. -/
theorem value_in_body (hok : h.responseStatus = statusOk) {typeData : Int32} {offset : Nat}
    (hi : env.codec.decodeInt (visible.take m) 0 = (some typeData, offset)) (hv : announcesValue typeData) :
    (env.codec.decodeObject (visible.take m) offset).2 ≤ h.bodySize := by
  by_contra hpast
  have hpast' := not_le.1 hpast
  have hoff := type_in_body hc hl hresp hm hlen hsame hok hi
  have hib := hc.int.take_restrict hm hlen hi hoff
  obtain ⟨code, type, htyped⟩ := typedReply_value hv
  unfold frameResponse at hsame
  rw [frameReply_typed hresp hok hi, frameReply_typed hresp hok hib, htyped, htyped, if_pos hpast',
    if_neg (not_lt.2 (hc.object.take_le hlen hoff)), hc.object.take_none hm hlen hoff hpast'] at hsame
  exact hl.error_ne_null _ _ _ hsame

/-- A response that is the same with the body alone was read in the body. -/
theorem readsInBody_of_same : ReadsInBody env.codec h (visible.take m) where
  object hok := object_in_body hc hl hresp hm hlen hsame hok
  type hok _ _ hi := type_in_body hc hl hresp hm hlen hsame hok hi
  value hok _ _ hi hv := value_in_body hc hl hresp hm hlen hsame hok hi hv

end Same

/-- Any two ways to cut a stream into chunks give the same outcome. -/
def ChunkingInvariant (env : Env V) (s : DubboUpstream V) (stream : Bytes) (endStream : Bool) : Prop :=
  ∀ cs ds : List Bytes, cs.flatten = stream → ds.flatten = stream → (∀ c ∈ cs, c ≠ []) → (∀ d ∈ ds, d ≠ []) →
    outcome (feed env endStream cs s) = outcome (feed env endStream ds s)

include hc in
/-- If the decoder stays in the body of the frame that is answered, the cut
cannot be seen; and only then, if responses can be told apart. -/
theorem chunking_invariant_iff (hs : Fresh s) (stream : Bytes) (endStream : Bool) :
    ((∀ frame header, await env.codec stream none = .ready frame header →
        StaysInBody env.codec header (frame.drop 16)) →
      ChunkingInvariant env s stream endStream) ∧
    (Legible env s → ChunkingInvariant env s stream endStream →
      ∀ frame header, await env.codec stream none = .ready frame header →
        StaysInBody env.codec header (frame.drop 16)) := by
  have hlen : ∀ frame header, await env.codec stream none = .ready frame header →
      header.bodySize ≤ (frame.drop 16).length := by
    intro frame header hready
    have := (await_ready env.codec hready).1
    simp only [List.length_drop]
    omega
  constructor
  · intro hstays
    refine (outcome_invariant_iff env hs stream endStream).2 ?_
    intro frame header hready m hm hmf
    have hsize := hlen frame header hready
    have hbody : ∀ k, header.bodySize ≤ k → k ≤ (frame.drop 16).length →
        frameResponse env s header ((frame.drop 16).take k) =
          frameResponse env s header ((frame.drop 16).take header.bodySize) := by
      intro k hk hkf
      unfold frameResponse
      rw [frameReply_body hc _ _ (fun hresp => hstays frame header hready hresp k hk hkf) hk hsize]
    have hwhole := hbody (frame.drop 16).length hsize le_rfl
    rw [List.take_length] at hwhole
    rw [hbody m hm (by simpa using hmf), hwhole]
  · intro hl hinvariant frame header hready hresp m hm hmf
    have hsame := (outcome_invariant_iff env hs stream endStream).1 hinvariant frame header hready
    have hsize := hlen frame header hready
    simp only [List.length_drop] at hmf hsize
    have hm' := delivering_injective env hl.taken (hsame m hm hmf)
    have hb := delivering_injective env hl.taken (hsame header.bodySize le_rfl hsize)
    exact readsInBody_of_same hc hl hresp hm (hlen frame header hready) (hm'.trans hb.symm)

end Legible

/-! ## The scalar codec -/

theorem take_drop_append {b x : Bytes} {i n : Nat} (h : i + n ≤ b.length) :
    ((b ++ x).drop i).take n = (b.drop i).take n := by
  rw [List.drop_append_of_le_length (by omega), List.take_append_of_le_length
    (by simp only [List.length_drop]; omega)]

theorem decodeScalarInt_append {b x : Bytes} {o o' : Nat} {v : Int32} (ho : o' ≤ b.length) :
    decodeScalarInt (b ++ x) o = (some v, o') ↔ decodeScalarInt b o = (some v, o') := by
  unfold decodeScalarInt
  by_cases hlt : o < b.length
  · rw [List.getElem?_append_left hlt]
    by_cases h5 : o + 5 ≤ b.length
    · have h5' : o + 5 ≤ (b ++ x).length := by simp only [List.length_append]; omega
      simp only [h5, h5', take_drop_append (x := x) (show o + 1 + 4 ≤ b.length by omega)]
    · grind
  · grind

/-- The tag of a short string is no tag of an integer. -/
theorem decodeScalarInt_string {b : Bytes} {o : Nat} {c : UInt8} (hc : b[o]? = some c) (h : c < 0x20) :
    decodeScalarInt b o = (none, o) := by
  unfold decodeScalarInt
  have h1 : ¬ (0x80 ≤ c ∧ c ≤ 0xbf) := by grind
  have h2 : ¬ (c = 0x49 ∧ o + 5 ≤ b.length) := by grind
  rw [hc]
  simp only [h1, h2, if_false]

theorem decodeScalar_append {b x : Bytes} {o o' : Nat} {v : Scalar} (ho : o' ≤ b.length) :
    decodeScalar (b ++ x) o = (some v, o') ↔ decodeScalar b o = (some v, o') := by
  unfold decodeScalar
  by_cases hlt : o < b.length
  · have hc := List.getElem?_eq_getElem hlt
    have hc' : (b ++ x)[o]? = some b[o] := by rw [List.getElem?_append_left hlt, hc]
    have hint := fun w => decodeScalarInt_append (x := x) (o := o) (v := w) ho
    have htake := fun n => take_drop_append (b := b) (x := x) (i := o + 1) (n := n)
    have hstring := decodeScalarInt_string hc
    have hstring' := decodeScalarInt_string hc'
    rw [hc, hc']
    simp only
    grind
  · grind [decodeScalarInt]

/-- The decoder of a whole value consumes a part of what is visible. -/
theorem decodeScalarInt_bounds (b : Bytes) (o : Nat) :
    o ≤ (decodeScalarInt b o).2 ∧
    (o ≤ b.length ∨ (decodeScalarInt b o).1 ≠ none → (decodeScalarInt b o).2 ≤ b.length) := by
  unfold decodeScalarInt
  grind

theorem decodeScalar_bounds (b : Bytes) (o : Nat) :
    o ≤ (decodeScalar b o).2 ∧ (o ≤ b.length ∨ (decodeScalar b o).1 ≠ none → (decodeScalar b o).2 ≤ b.length) := by
  have := decodeScalarInt_bounds b o
  unfold decodeScalar
  grind

theorem decodeScalarInt_local : LocalDecoder decodeScalarInt where
  ge b o := (decodeScalarInt_bounds b o).1
  le b o ho := (decodeScalarInt_bounds b o).2 (.inl ho)
  extend b o v o' x h := by
    have hle := (decodeScalarInt_bounds b o).2 (.inr (by simp [h]))
    rw [h] at hle
    exact (decodeScalarInt_append hle).2 h
  restrict b o v o' x h ho := (decodeScalarInt_append ho).1 h

theorem decodeScalar_local : LocalDecoder decodeScalar where
  ge b o := (decodeScalar_bounds b o).1
  le b o ho := (decodeScalar_bounds b o).2 (.inl ho)
  extend b o v o' x h := by
    have hle := (decodeScalar_bounds b o).2 (.inr (by simp [h]))
    rw [h] at hle
    exact (decodeScalar_append hle).2 h
  restrict b o v o' x h ho := (decodeScalar_append ho).1 h

theorem scalarCodec_local : LocalCodec scalarCodec := ⟨decodeScalarInt_local, decodeScalar_local⟩

theorem writtenUpstream_legible : Legible scalarEnv writtenUpstream :=
  legible_of_json scalarEnv (fun _ => rfl) rfl rfl fun _ => rfl

/-- A response of the value 7 with a heartbeat behind it. -/
def sevenThenHeartbeat : Bytes := responseFrame statusOk 1 [0x91, 0x97] ++ heartbeatFrame

/-- The body can be decoded without the bytes behind it, so the stream may come
whole or byte by byte. -/
theorem sevenThenHeartbeat_chunks :
    outcome (feed scalarEnv false [sevenThenHeartbeat] writtenUpstream) =
      outcome (feed scalarEnv false (sevenThenHeartbeat.map fun b => [b]) writtenUpstream) := by
  refine (chunking_invariant_iff scalarCodec_local writtenUpstream_fresh sevenThenHeartbeat false).1 ?_ _ _
    (by decide) (by decide) (by decide) (by decide)
  intro frame header hready
  have hawait : await scalarEnv.codec sevenThenHeartbeat none =
      .ready sevenThenHeartbeat ⟨.response, statusOk, 1, 2⟩ := by decide
  rw [hawait] at hready
  cases hready
  have htype : scalarCodec.decodeInt ((sevenThenHeartbeat.drop 16).take 2) 0 = (some 1, 1) := by decide
  have hvalue : scalarCodec.decodeObject ((sevenThenHeartbeat.drop 16).take 2) 1 =
      (some (.integer 7), 2) := by decide
  exact staysInBody_of_decodes scalarCodec_local (by decide) rfl htype hvalue

/-- A response that announces a value and ends before it, with one byte of the
next frame behind it. -/
def truncatedValue : Bytes := responseFrame statusOk 1 [0x91] ++ [0xda]

/-- Alone, the truncated response is a success with the body `null`; with the
byte behind it in view, it is a protocol error that closes the connection. -/
theorem truncatedValue_chunks :
    Fresh writtenUpstream ∧ Legible scalarEnv writtenUpstream ∧ LocalCodec scalarEnv.codec ∧
    outcome (feed scalarEnv false [truncatedValue.take 17, truncatedValue.drop 17] writtenUpstream) =
      .ok [.headers 200 4 false false, .data (ascii "null")] ∧
    outcome (feed scalarEnv false [truncatedValue] writtenUpstream) =
      .ok [.headers 501 43 true false, .data (quote (sizeText 2 1))] := by
  exact ⟨writtenUpstream_fresh, writtenUpstream_legible, scalarCodec_local, by decide, by decide⟩

end EnvoyProxy.Dubbo
