import EnvoyProxy.Dubbo.Chunking
/-!
# The second response decoder

`DubboResponse::decodeDubboFromBuffer` (utility.cc) is a copy of
`DubboUpstream::readRespnoseFromUpstream` that throws where the other one
replies, and checks the size of the body in one place more.
`decoders_agree_iff` compares what the two make of a stream, chunk by chunk.
-/

namespace EnvoyProxy.Dubbo
open Json

structure DubboResponse (V : Type) where
  /-- `context_` with `metadata_` -/
  context : Option Header := none
  isException : Bool := false
  closeConnection : Bool := false
  value : Option V := none

section Decode
variable {V : Type} (codec : Codec V)

/-- `DubboResponse::reset` -/
def DubboResponse.reset : DubboResponse V := {}

/-- Waiting for the whole frame, and the loop that drains heartbeats: no
header while there is not enough data. -/
def awaitResponse : Nat → Bytes → DubboResponse V → Except Bytes (Option Header) × Bytes × DubboResponse V
  | 0, buffer, response => (.ok none, buffer, response)
  | fuel + 1, buffer, response =>
    match headerOf codec buffer response.context with
    | .error what => (.error what, buffer, response)
    | .ok none => (.ok none, buffer, response)
    | .ok (some header) =>
      let response := { response with context := some header }
      if buffer.length < header.bodySize + 16 then (.ok none, buffer, response)
      else if header.messageType.isHeartbeat then
        awaitResponse fuel (buffer.drop (header.bodySize + 16)) DubboResponse.reset
      else (.ok (some header), buffer, response)

/-- Behind the header of a response. -/
def decodeResult (header : Header) (visible : Bytes) (response : DubboResponse V) :
    Except Bytes ResponseStatus × DubboResponse V :=
  if header.responseStatus ≠ statusOk then
    let (value, offset) := codec.decodeObject visible 0
    let response := { response with value }
    if header.bodySize < offset then (.error (sizeText offset header.bodySize), response)
    else (.ok .ok, { response with isException := true, closeConnection := true })
  else
    match codec.decodeInt visible 0 with
    | (none, _) => (.error (ascii "No response type get from dubbo response and do nothing"), response)
    | (some typeData, offset) =>
      match rpcResponseKind (rpcResponseType typeData) with
      | none => (.error (ascii "not supported return type " ++ natText (rpcResponseType typeData).toNat), response)
      | some kind =>
        let (response, offset) :=
          if kind = .nullValue then (response, offset)
          else
            let (value, offset) := codec.decodeObject visible offset
            ({ response with value, isException := kind = .withException }, offset)
        -- here also for a null value
        if header.bodySize < offset then (.error (sizeText offset header.bodySize), response)
        else (.ok .ok, response)

/-- The status, or an exception, with the buffer and the response either way. -/
def decodeDubboFromBuffer (buffer : Bytes) (response : DubboResponse V) :
    Except Bytes ResponseStatus × Bytes × DubboResponse V :=
  match awaitResponse codec (buffer.length + 1) buffer response with
  | (.error what, buffer, response) => (.error what, buffer, response)
  | (.ok none, buffer, response) => (.ok .waiting, buffer, response)
  | (.ok (some header), buffer, response) =>
    if header.messageType ≠ .response then
      (.error (ascii "Expected response message but get " ++ natText header.messageType.toNat), buffer, response)
    else
      let (status, response) := decodeResult codec header (buffer.drop 16) response
      (status, buffer.drop 16, response)

/-! ## What a decoder makes of a stream -/

inductive Classification (V : Type)
  | waiting
  | value (v : V)
  | nullValue
  | applicationException (v : Option V)
  | nonOkStatus (v : Option V)
  | protocolError
  deriving DecidableEq, Repr

/-- The classification of a response that was decoded. -/
def DubboResponse.classify (response : DubboResponse V) : Classification V :=
  if response.isException then
    if response.closeConnection then .nonOkStatus response.value else .applicationException response.value
  else
    match response.value with
    | some v => .value v
    | none => .nullValue

/-- The second decoder, called for each chunk until it does not wait. -/
def classifyResponse : List Bytes → Bytes → DubboResponse V → Classification V
  | [], _, _ => .waiting
  | d :: ds, buffer, response =>
    match decodeDubboFromBuffer codec (buffer ++ d) response with
    | (.error _, _, _) => .protocolError
    | (.ok .waiting, buffer, response) => classifyResponse ds buffer response
    | (.ok .ok, _, response) => response.classify

/-- The classification of a reply: a text is an error of the protocol. -/
def Reply.classify (reply : Reply V) : Classification V :=
  match reply.content with
  | .text _ => .protocolError
  | .object value =>
    if reply.type = .value then
      match value with
      | some v => .value v
      | none => .nullValue
    else if reply.close then .nonOkStatus value else .applicationException value

/-- The reply `readRespnoseFromUpstream` calls `handleResponse` with, if it
calls it, or its exception. -/
def upstreamReply (s : DubboUpstream V) : Option (Except Bytes (Reply V)) :=
  match await codec s.dubboResponseBuffer s.responseContext with
  | .waiting _ _ => none
  | .thrown what _ => some (.error what)
  | .ready frame header => some (frameReply codec s.protocolErrorCode s.respExceptionCode header (frame.drop 16))

/-- An exception becomes a protocol error. -/
def classifyReply (reply : Except Bytes (Reply V)) : Classification V :=
  match reply with
  | .error _ => .protocolError
  | .ok reply => reply.classify

end Decode

section Upstream
variable {V : Type} (env : Env V)

/-- The first decoder, called for each chunk until it does not wait. -/
def classifyUpstream : List Bytes → DubboUpstream V → Classification V
  | [], _ => .waiting
  | d :: ds, s =>
    let s := { s with dubboResponseBuffer := s.dubboResponseBuffer ++ d }
    match upstreamReply env.codec s with
    | some reply => classifyReply reply
    | none => classifyUpstream ds (readRespnoseFromUpstream env s).2

/-- `readRespnoseFromUpstream` waits without a reply, and with one does nothing
but hand it to `handleResponse`. -/
theorem readRespnose_eq (s : DubboUpstream V) :
    readRespnoseFromUpstream env s =
      match upstreamReply env.codec s with
      | none => (.ok .waiting, advance s (await env.codec s.dubboResponseBuffer s.responseContext))
      | some reply =>
        match reply >>= fun reply =>
          handleResponse env reply (advance s (await env.codec s.dubboResponseBuffer s.responseContext)) with
        | .error what => (.error what, advance s (await env.codec s.dubboResponseBuffer s.responseContext))
        | .ok s' => (.ok .ok, s') := by
  simp only [readRespnoseFromUpstream, upstreamReply]
  rw [← await]
  cases await env.codec s.dubboResponseBuffer s.responseContext <;> rfl

/-! ## The two decoders side by side -/

end Upstream

section Compare
variable {V : Type} (codec : Codec V)

/-- The second loop finds what the first one finds. -/
theorem awaitResponse_eq (f : Nat) (b : Bytes) (c : Option Header) :
    awaitResponse codec f b { context := c } =
      match awaitFrame codec f b c with
      | .waiting b c => (.ok none, b, { context := c })
      | .thrown what b => (.error what, b, { context := none })
      | .ready b h => (.ok (some h), b, { context := some h }) := by
  induction f generalizing b c with
  | zero => rfl
  | succ f ih =>
    unfold awaitResponse awaitFrame
    cases hh : headerOf codec b c with
    | error what =>
      cases c with
      | some c => cases hh
      | none => rfl
    | ok o =>
      cases o with
      | none =>
        cases c with
        | some c => cases hh
        | none => rfl
      | some h =>
        simp only
        split_ifs
        · rfl
        · exact ih _ none
        · rfl

theorem decodeDubboFromBuffer_eq (b : Bytes) (c : Option Header) :
    decodeDubboFromBuffer codec b { context := c } =
      match await codec b c with
      | .waiting b c => (.ok .waiting, b, { context := c })
      | .thrown what b => (.error what, b, { context := none })
      | .ready b h =>
        if h.messageType ≠ .response then
          (.error (ascii "Expected response message but get " ++ natText h.messageType.toNat), b, { context := some h })
        else
          ((decodeResult codec h (b.drop 16) { context := some h }).1, b.drop 16,
            (decodeResult codec h (b.drop 16) { context := some h }).2) := by
  unfold decodeDubboFromBuffer
  rw [awaitResponse_eq, ← await]
  cases await codec b c <;> rfl

/-- The response ends before the integer that announces a null value. -/
def NullPastBody (header : Header) (visible : Bytes) : Prop :=
  header.messageType = .response ∧ header.responseStatus = statusOk ∧
    ∃ typeData offset, codec.decodeInt visible 0 = (some typeData, offset) ∧
      rpcResponseKind (rpcResponseType typeData) = some .nullValue ∧ header.bodySize < offset

/-- What the second decoder makes of a whole frame. -/
def classifyFrame (header : Header) (visible : Bytes) : Classification V :=
  if header.messageType ≠ .response then .protocolError
  else
    match decodeResult codec header visible { context := some header } with
    | (.ok _, response) => response.classify
    | (.error _, _) => .protocolError

/-- A whole frame is never waited for. -/
theorem decodeResult_ne_waiting (h : Header) (visible : Bytes) (r : DubboResponse V) :
    (decodeResult codec h visible r).1 ≠ .ok .waiting := by
  unfold decodeResult
  by_cases hs : h.responseStatus = statusOk
  · rw [if_neg (not_not.2 hs)]
    rcases codec.decodeInt visible 0 with ⟨_ | typeData, offset⟩
    · simp
    · cases hk : rpcResponseKind (rpcResponseType typeData) with
      | none => simp [hk]
      | some kind => simp only [hk]; split_ifs <;> simp
  · rw [if_pos hs]
    simp only
    split_ifs <;> simp

/-- On one frame the decoders differ exactly on a null value that is announced
past the end of the body. -/
theorem frame_agree_iff (protocolErrorCode respExceptionCode : Nat) (h : Header) (visible : Bytes) :
    classifyReply (frameReply codec protocolErrorCode respExceptionCode h visible) = classifyFrame codec h visible ↔
      ¬ NullPastBody codec h visible := by
  unfold frameReply classifyFrame NullPastBody decodeResult
  by_cases hm : h.messageType = .response
  case neg => simp [hm, classifyReply, Reply.classify]
  by_cases hs : h.responseStatus = statusOk
  case neg =>
    rcases codec.decodeObject visible 0 with ⟨v, off⟩
    by_cases hoff : h.bodySize < off <;>
      simp [hm, hs, hoff, classifyReply, Reply.classify, DubboResponse.classify]
  rcases hi : codec.decodeInt visible 0 with ⟨_ | typeData, off⟩
  · simp [hm, hs, classifyReply, Reply.classify]
  · cases hk : rpcResponseKind (rpcResponseType typeData) with
    | none => simp [hm, hs, hk, classifyReply]
    | some kind =>
      rcases ho : codec.decodeObject visible off with ⟨v, off'⟩
      cases kind with
      | nullValue =>
        -- the first decoder does not look at the size here
        by_cases hoff : h.bodySize < off <;>
          simp [hm, hs, hk, hoff, classifyReply, Reply.classify, DubboResponse.classify]
      | withValue =>
        by_cases hoff : h.bodySize < off' <;>
          simp [hm, hs, hk, ho, hoff, classifyReply, Reply.classify, DubboResponse.classify]
      | withException =>
        by_cases hoff : h.bodySize < off' <;>
          simp [hm, hs, hk, ho, hoff, classifyReply, Reply.classify, DubboResponse.classify]

end Compare

/-! ## Whole streams -/

section Streams
variable {V : Type} (env : Env V)

/-- The frame that is answered, with all that had arrived when it was whole. -/
def answeredFrame (codec : Codec V) : List Bytes → Bytes → Option Header → Option (Bytes × Header)
  | [], _, _ => none
  | d :: ds, buffer, context =>
    match await codec (buffer ++ d) context with
    | .waiting buffer context => answeredFrame codec ds buffer context
    | .thrown _ _ => none
    | .ready frame header => some (frame, header)

theorem classifyUpstream_cons (d : Bytes) (ds : List Bytes) (s : DubboUpstream V) :
    classifyUpstream env (d :: ds) s =
      match awaitWith env s d with
      | .waiting b c => classifyUpstream env ds (advance s (.waiting b c))
      | .thrown _ _ => .protocolError
      | .ready f h =>
        classifyReply (frameReply env.codec s.protocolErrorCode s.respExceptionCode h
          (f.drop 16)) := by
  simp only [classifyUpstream, readRespnose_eq, upstreamReply]
  rw [← awaitWith]
  cases awaitWith env s d <;> rfl

theorem classifyResponse_cons (codec : Codec V) (d : Bytes) (ds : List Bytes) (b : Bytes) (c : Option Header) :
    classifyResponse codec (d :: ds) b { context := c } =
      match await codec (b ++ d) c with
      | .waiting b c => classifyResponse codec ds b { context := c }
      | .thrown _ _ => .protocolError
      | .ready f h => classifyFrame codec h (f.drop 16) := by
  simp only [classifyResponse, decodeDubboFromBuffer_eq]
  cases await codec (b ++ d) c with
  | waiting b c => rfl
  | thrown what b => rfl
  | ready f h =>
    have hw := decodeResult_ne_waiting codec h (f.drop 16) { context := some h }
    simp only [classifyFrame]
    by_cases hm : h.messageType = .response
    · simp only [hm, ne_eq, not_true_eq_false, if_false]
      rcases hd : decodeResult codec h (f.drop 16) { context := some h } with ⟨_ | _ | _, r⟩
      · rfl
      · rfl
      · exact absurd (by rw [hd]) hw
    · simp only [hm, ne_eq, not_false_eq_true, if_true]

theorem classify_agree_iff (chunks : List Bytes) (s : DubboUpstream V) :
    classifyUpstream env chunks s =
        classifyResponse env.codec chunks s.dubboResponseBuffer { context := s.responseContext } ↔
      ∀ frame header, answeredFrame env.codec chunks s.dubboResponseBuffer s.responseContext = some (frame, header) →
        ¬ NullPastBody env.codec header (frame.drop 16) := by
  induction chunks generalizing s with
  | nil => simp [classifyUpstream, classifyResponse, answeredFrame]
  | cons d ds ih =>
    rw [classifyUpstream_cons, classifyResponse_cons, answeredFrame, ← awaitWith]
    cases awaitWith env s d with
    | waiting b c => exact ih (advance s (.waiting b c))
    | thrown what b => simp
    | ready f h =>
      refine (frame_agree_iff env.codec s.protocolErrorCode s.respExceptionCode h (f.drop 16)).trans ?_
      constructor
      · rintro hn frame header hfh
        cases hfh
        exact hn
      · intro hn
        exact hn f h rfl

/-- The two decoders make the same of a stream exactly when the frame they
answer does not announce a null value past the end of its body. -/
theorem decoders_agree_iff {s : DubboUpstream V} (hbuffer : s.dubboResponseBuffer = [])
    (hcontext : s.responseContext = none) (chunks : List Bytes) :
    classifyUpstream env chunks s = classifyResponse env.codec chunks [] {} ↔
      ∀ frame header, answeredFrame env.codec chunks [] none = some (frame, header) →
        ¬ NullPastBody env.codec header (frame.drop 16) := by
  have := classify_agree_iff env chunks s
  rwa [hbuffer, hcontext] at this

end Streams

/-- A heartbeat and the value 7, in two chunks. -/
theorem heartbeat_seven_agree :
    classifyUpstream scalarEnv [heartbeatFrame.take 5, heartbeatFrame.drop 5 ++ responseFrame statusOk 1 [0x91, 0x97]]
        writtenUpstream =
      classifyResponse scalarCodec
        [heartbeatFrame.take 5, heartbeatFrame.drop 5 ++ responseFrame statusOk 1 [0x91, 0x97]] [] {} := by
  refine (decoders_agree_iff scalarEnv rfl rfl _).2 ?_
  intro frame header hanswered
  have hframe : answeredFrame scalarCodec
      [heartbeatFrame.take 5, heartbeatFrame.drop 5 ++ responseFrame statusOk 1 [0x91, 0x97]] [] none =
      some (responseFrame statusOk 1 [0x91, 0x97], ⟨.response, statusOk, 1, 2⟩) := by decide
  obtain ⟨rfl, rfl⟩ := Prod.mk.inj (Option.some.inj (hframe.symm.trans hanswered))
  rintro ⟨-, -, typeData, offset, hi, hk, -⟩
  have htype : scalarCodec.decodeInt ((responseFrame statusOk 1 [0x91, 0x97]).drop 16) 0 = (some 1, 1) := by decide
  obtain ⟨ht, -⟩ := Prod.mk.inj (htype.symm.trans hi)
  obtain rfl := Option.some.inj ht
  exact absurd hk (by decide)

/-- A body that ends inside the integer of the response type, and the frame of
another response behind it, whose flag byte completes the type of a null
value. -/
def truncatedType : Bytes := responseFrame statusOk 1 [0x49, 0x00] ++ responseFrame statusOk 2 [0x91, 0x97]

/-- The first decoder answers with a null value, the second one throws. -/
theorem truncatedType_disagree :
    classifyUpstream scalarEnv [truncatedType] writtenUpstream = .nullValue ∧
    classifyResponse scalarCodec [truncatedType] [] {} = .protocolError := by
  refine ⟨by decide, by decide⟩

end EnvoyProxy.Dubbo
