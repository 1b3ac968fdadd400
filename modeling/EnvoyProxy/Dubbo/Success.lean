import EnvoyProxy.Dubbo.Visible
/-!
# Responses with status 200

`readRespnoseFromUpstream` answers 200 for a response with a value or a null
value. A value that the decoder fails to read is a null pointer, which renders
as JSON null, and a null value is not compared with the size of the body.
`success_iff`: these bodies are the ones that are answered as if they had been
decoded.
-/

namespace EnvoyProxy.Dubbo
open Json

section Success
variable {V : Type}

/-- What the integer in front announces, and where it ends. -/
def announced (codec : Codec V) (visible : Bytes) : Option (RpcResponseKind × Nat) :=
  match codec.decodeInt visible 0 with
  | (none, _) => none
  | (some typeData, offset) => (rpcResponseKind (rpcResponseType typeData)).map fun kind => (kind, offset)

/-- The type is in the body, and so is the object it announces, if it does. -/
def BodyDecoded (codec : Codec V) (header : Header) (visible : Bytes) : Prop :=
  ∃ kind offset, announced codec visible = some (kind, offset) ∧ offset ≤ header.bodySize ∧
    (kind ≠ .nullValue → (codec.decodeObject visible offset).1 ≠ none ∧ (codec.decodeObject visible offset).2 ≤ header.bodySize)

/-- An OK response with a value or a null value. -/
def Succeeds (codec : Codec V) (header : Header) (visible : Bytes) : Prop :=
  header.messageType = .response ∧ header.responseStatus = statusOk ∧ BodyDecoded codec header visible ∧
    ∃ kind offset, announced codec visible = some (kind, offset) ∧ kind ≠ .withException

/-- The status tells success from failure. -/
def Honest (codec : Codec V) (protocolErrorCode : Nat) (header : Header) (visible : Bytes) (code : Nat) : Prop :=
  (code = 200 → Succeeds codec header visible) ∧ (¬ BodyDecoded codec header visible → code = protocolErrorCode)

/-- An OK response whose null value is announced past the end of the body, or
whose object the decoder gives up on inside the body. -/
def Unnoticed (codec : Codec V) (protocolErrorCode respExceptionCode : Nat) (header : Header) (visible : Bytes) : Prop :=
  header.messageType = .response ∧ header.responseStatus = statusOk ∧
    ∃ kind offset, announced codec visible = some (kind, offset) ∧
      match kind with
      | .nullValue => header.bodySize < offset
      | .withValue => (codec.decodeObject visible offset).1 = none ∧ (codec.decodeObject visible offset).2 ≤ header.bodySize
      | .withException => (codec.decodeObject visible offset).1 = none ∧
          (codec.decodeObject visible offset).2 ≤ header.bodySize ∧ respExceptionCode ≠ protocolErrorCode

section Frame
variable {codec : Codec V} {pe re : Nat} {header : Header} {visible : Bytes}

/-- The reply to an unnoticed body: no object, and a status that is not the
one of a protocol error. -/
theorem frameReply_unnoticed (hpe : pe ≠ 200) (h : Unnoticed codec pe re header visible) :
    ∃ code type, frameReply codec pe re header visible = .ok ⟨code, type, .object none, false⟩ ∧ code ≠ pe := by
  obtain ⟨hm, hs, kind, offset, hannounced, hkind⟩ := h
  unfold announced at hannounced
  unfold frameReply
  rw [if_neg (not_not.2 hm), if_neg (not_not.2 hs)]
  rcases hi : codec.decodeInt visible 0 with ⟨_ | typeData, o⟩
  · rw [hi] at hannounced
    cases hannounced
  · rw [hi] at hannounced
    obtain ⟨kind', hk, heq⟩ := Option.map_eq_some_iff.1 hannounced
    cases heq
    simp only [hk]
    cases kind with
    | nullValue => exact ⟨200, .value, rfl, hpe.symm⟩
    | withValue =>
      obtain ⟨hnone, hle⟩ := hkind
      simp only [if_neg (not_lt.2 hle), hnone]
      exact ⟨200, .value, rfl, hpe.symm⟩
    | withException =>
      obtain ⟨hnone, hle, hre⟩ := hkind
      simp only [if_neg (not_lt.2 hle), hnone]
      exact ⟨re, .exception, rfl, hre⟩

theorem not_bodyDecoded_of_unnoticed (h : Unnoticed codec pe re header visible) :
    ¬ BodyDecoded codec header visible := by
  obtain ⟨-, -, kind, offset, hannounced, hkind⟩ := h
  rintro ⟨kind', offset', hannounced', hle, hobject⟩
  obtain ⟨rfl, rfl⟩ := Prod.mk.inj (Option.some.inj (hannounced.symm.trans hannounced'))
  cases kind with
  | nullValue => exact absurd hkind (not_lt.2 hle)
  | withValue => exact (hobject (by decide)).1 hkind.1
  | withException => exact (hobject (by decide)).1 hkind.1

/-- Any other body gets an honest status. -/
theorem frameReply_honest (hforward : ∀ b o, o ≤ (codec.decodeObject b o).2) (hpe : pe ≠ 200) (hre : re ≠ 200)
    (h : ¬ Unnoticed codec pe re header visible) {reply : Reply V}
    (hreply : frameReply codec pe re header visible = .ok reply) :
    Honest codec pe header visible reply.code := by
  have herror : Honest codec pe header visible pe := ⟨fun h => absurd h hpe, fun _ => rfl⟩
  unfold frameReply at hreply
  by_cases hm : header.messageType = .response
  case neg =>
    rw [if_pos hm] at hreply
    cases hreply
    exact herror
  rw [if_neg (not_not.2 hm)] at hreply
  by_cases hs : header.responseStatus = statusOk
  case neg =>
    rw [if_pos hs] at hreply
    dsimp only at hreply
    split_ifs at hreply <;> cases hreply <;> exact herror
  rw [if_neg (not_not.2 hs)] at hreply
  rcases hi : codec.decodeInt visible 0 with ⟨_ | typeData, offset⟩
  · rw [hi] at hreply
    cases hreply
    exact herror
  rw [hi] at hreply
  dsimp only at hreply
  cases hk : rpcResponseKind (rpcResponseType typeData) with
  | none =>
    rw [hk] at hreply
    cases hreply
  | some kind =>
    have hannounced : announced codec visible = some (kind, offset) := by simp [announced, hi, hk]
    have hunnoticed := fun hkind => h ⟨hm, hs, kind, offset, hannounced, hkind⟩
    rw [hk] at hreply
    cases kind with
    | nullValue =>
      cases hreply
      have hdecoded : BodyDecoded codec header visible :=
        ⟨_, offset, hannounced, not_lt.1 hunnoticed, fun hne => absurd rfl hne⟩
      exact ⟨fun _ => ⟨hm, hs, hdecoded, _, offset, hannounced, by decide⟩, fun hnot => absurd hdecoded hnot⟩
    | withValue =>
      dsimp only at hreply
      split_ifs at hreply with hpast hexception
      · cases hreply
        exact herror
      · cases hexception
      · cases hreply
        have hobject := fun hnone => hunnoticed ⟨hnone, not_lt.1 hpast⟩
        have hdecoded : BodyDecoded codec header visible :=
          ⟨_, offset, hannounced, (hforward _ _).trans (not_lt.1 hpast), fun _ => ⟨hobject, not_lt.1 hpast⟩⟩
        exact ⟨fun _ => ⟨hm, hs, hdecoded, _, offset, hannounced, by decide⟩, fun hnot => absurd hdecoded hnot⟩
    | withException =>
      dsimp only at hreply
      split_ifs at hreply with hpast hexception
      · cases hreply
        exact herror
      · cases hreply
        refine ⟨fun hcode => absurd hcode hre, fun hnot => ?_⟩
        by_contra hne
        refine hnot ⟨_, offset, hannounced, (hforward _ _).trans (not_lt.1 hpast), fun _ =>
          ⟨fun hnone => ?_, not_lt.1 hpast⟩⟩
        exact hunnoticed ⟨hnone, not_lt.1 hpast, hne⟩
      · exact absurd rfl hexception

end Frame

/-! ## What is delivered -/

section Deliver
variable (env : Env V)

/-- The simple getter leaves the status alone. -/
theorem respond_code {s : DubboUpstream V}
    (hgetter : s.responseGetter = some (simpleResponseGetter env.codec)) {reply : Reply V}
    {r : Response} (h : respond env s (.ok reply) = .ok r) : r.1 = reply.code := by
  unfold respond renderReply at h
  rw [hgetter] at h
  obtain ⟨_, ⟨⟩, h⟩ := bind_eq_ok h
  obtain ⟨⟨code, body⟩, hrender, h⟩ := bind_eq_ok h
  cases h
  obtain ⟨⟨value, code'⟩, hvalue, hrender⟩ := bind_eq_ok hrender
  cases hrender
  obtain ⟨_, -, hvalue⟩ := bind_eq_ok hvalue
  cases hvalue
  rfl

/-- The status of a response is the one of its reply, or the one of a protocol
error. -/
theorem respondOrError_code {s : DubboUpstream V}
    (hgetter : s.responseGetter = some (simpleResponseGetter env.codec))
    {reply : Except Bytes (Reply V)} {r : Response} (h : respondOrError env s reply = .ok r) :
    (∃ x, reply = .ok x ∧ r.1 = x.code) ∨ r.1 = s.protocolErrorCode := by
  unfold respondOrError at h
  cases hr : respond env s reply with
  | error what =>
    rw [hr] at h
    exact .inr (respond_code env hgetter h)
  | ok r' =>
    rw [hr] at h
    cases h
    cases reply with
    | error what => cases hr
    | ok x => exact .inl ⟨x, rfl, respond_code env hgetter hr⟩

/-- A router sees the status of a response. -/
theorem deliveries_code {r r' : Response} (h : deliveries env r = deliveries env r') : r.1 = r'.1 := by
  have hhead : ∀ r : Response, (deliveries env r).head? = some (.headers r.1 r.2.1.length r.2.2 r.2.1.isEmpty) := by
    intro r
    unfold deliveries
    dsimp only
    split_ifs <;> rfl
  have := (hhead r).symm.trans ((congrArg List.head? h).trans (hhead r'))
  injection this with this
  injection this

/-- Bytes that complete a frame are answered with an honest status, unless its
body is one of the unnoticed ones. Bytes that do not are answered with a
protocol error, if at all. -/
theorem success_iff {s : DubboUpstream V} (hs : Live s) (hgetter : s.responseGetter = some (simpleResponseGetter env.codec))
    (hnull : env.codec.hessianValueToJsonString none = .ok (ascii "null"))
    (htext : ∀ what, env.codec.hessianValueToJsonString (some (env.codec.stringObject what)) = .ok (quote what))
    (hforward : ∀ b o, o ≤ (env.codec.decodeObject b o).2) (hpe : s.protocolErrorCode ≠ 200) (hre : s.respExceptionCode ≠ 200)
    {data : Bytes} (hdata : data ≠ []) (endStream : Bool) :
    (∀ frame header, awaitWith env s data = .ready frame header →
      ∃ r, outcome (onUpstreamData env data endStream s) = .ok (s.delivered ++ deliveries env r) ∧
        (Honest env.codec s.protocolErrorCode header (frame.drop 16) r.1 ↔
          ¬ Unnoticed env.codec s.protocolErrorCode s.respExceptionCode header (frame.drop 16))) ∧
    ((∀ frame header, awaitWith env s data ≠ .ready frame header) → ∀ r,
      outcome (onUpstreamData env data endStream s) = .ok (s.delivered ++ deliveries env r) → r.1 = s.protocolErrorCode) := by
  have htexts : TextsRender env s.responseGetter := by
    intro reply what hcontent
    refine ⟨(reply.code, quote what), ?_⟩
    simp only [renderReply, hgetter, hcontent, simpleResponseGetter, htext]
    rfl
  have houtcome : ∀ reply r, reaction env s endStream (awaitWith env s data) = some (respondOrError env s reply) →
      respondOrError env s reply = .ok r → outcome (onUpstreamData env data endStream s) = .ok
        (s.delivered ++ deliveries env r) := by
    intro reply r hreaction hr
    have hfeed := feed_reaction env hs hdata [] endStream (r := respondOrError env s reply)
      (by simpa using hreaction)
    rw [hr] at hfeed
    exact hfeed
  constructor
  · intro frame header hready
    have hreaction : reaction env s endStream (awaitWith env s data) = some (respondOrError env s
        (frameReply env.codec s.protocolErrorCode s.respExceptionCode header (frame.drop 16))) := by rw [hready]; rfl
    obtain ⟨r, hr⟩ := respondOrError_ok env htexts
      (frameReply env.codec s.protocolErrorCode s.respExceptionCode header (frame.drop 16))
    refine ⟨r, houtcome _ r hreaction hr, ?_⟩
    constructor
    · -- JSON null goes out under a status that is not the one of an error
      rintro ⟨hsuccess, herror⟩ hunnoticed
      obtain ⟨code, type, hreply, hcode⟩ := frameReply_unnoticed hpe hunnoticed
      have hrespond : respond env s (.ok ⟨code, type, .object none, false⟩) = .ok (code, ascii "null", false) := by
        simp only [respond, renderReply, hgetter, simpleResponseGetter, hnull, ok_bind, pure_ok]
        rfl
      rw [hreply, respondOrError_of_ok env hrespond] at hr
      cases hr
      exact hcode (herror (not_bodyDecoded_of_unnoticed hunnoticed))
    · intro hnot
      rcases respondOrError_code env hgetter hr with ⟨x, hx, hcode⟩ | hcode
      · rw [hcode]
        exact frameReply_honest hforward hpe hre hnot hx
      · exact ⟨fun h => absurd (hcode.symm.trans h) hpe, fun _ => hcode⟩
  · intro hnot r hr
    -- what is not a whole frame is answered with a text
    have hcode : ∀ reply : Except Bytes (Reply V), (∀ x, reply = .ok x → x.code = s.protocolErrorCode) →
        reaction env s endStream (awaitWith env s data) = some (respondOrError env s reply) →
          r.1 = s.protocolErrorCode := by
      intro reply hreply hreaction
      obtain ⟨r', hr'⟩ := respondOrError_ok env htexts reply
      have hsame := (houtcome reply r' hreaction hr').symm.trans hr
      rw [← deliveries_code env (List.append_cancel_left (Except.ok.inj hsame))]
      rcases respondOrError_code env hgetter hr' with ⟨x, hx, hcode⟩ | hcode
      · rw [hcode, hreply x hx]
      · exact hcode
    cases ha : awaitWith env s data with
    | ready frame header => exact absurd ha (hnot frame header)
    | thrown what buffer =>
      refine hcode (.error what) (by simp) ?_
      rw [ha]
      rfl
    | waiting buffer context =>
      cases endStream with
      | true =>
        refine hcode (.ok (errorReply s moreDataText)) (fun x hx => by cases hx; rfl) ?_
        rw [ha]
        rfl
      | false =>
        -- nothing is delivered yet
        rw [onUpstreamData_eq env hs hdata, ha] at hr
        have hdelivered : (advance s (.waiting buffer context)).delivered = s.delivered ++
            deliveries env r := Except.ok.inj hr
        rw [advance_delivered, List.self_eq_append_right] at hdelivered
        unfold deliveries at hdelivered
        dsimp only at hdelivered
        split_ifs at hdelivered

end Deliver

end Success

/-- An OK response with the value 7. -/
theorem seven_success :
    ∃ r, outcome (onUpstreamData scalarEnv (responseFrame statusOk 1 [0x91, 0x97]) false writtenUpstream) =
        .ok (writtenUpstream.delivered ++ deliveries scalarEnv r) ∧
      Honest scalarCodec 501 ⟨.response, statusOk, 1, 2⟩ [0x91, 0x97] r.1 := by
  have hready : awaitWith scalarEnv writtenUpstream (responseFrame statusOk 1 [0x91, 0x97]) =
      .ready (responseFrame statusOk 1 [0x91, 0x97]) ⟨.response, statusOk, 1, 2⟩ := by decide
  obtain ⟨r, hr, hiff⟩ := (success_iff scalarEnv (s := writtenUpstream) ⟨rfl, rfl⟩ rfl rfl (fun _ => rfl)
    (fun b o => (decodeScalar_bounds b o).1) (by decide) (by decide) (by decide) false).1 _ _ hready
  refine ⟨r, hr, hiff.2 ?_⟩
  rintro ⟨-, -, kind, offset, hannounced, hkind⟩
  have hvalue : announced scalarCodec ((responseFrame statusOk 1 [0x91, 0x97]).drop 16) =
      some (.withValue, 1) := by decide
  obtain ⟨rfl, rfl⟩ := Prod.mk.inj (Option.some.inj (hvalue.symm.trans hannounced))
  exact absurd hkind.1 (by decide)

/-- The body ends before the value it announces: the answer is a success with
the body `null`. -/
theorem missing_value_success :
    awaitWith scalarEnv writtenUpstream (responseFrame statusOk 1 [0x91]) =
        .ready (responseFrame statusOk 1 [0x91]) ⟨.response, statusOk, 1, 1⟩ ∧
      outcome (onUpstreamData scalarEnv (responseFrame statusOk 1 [0x91]) false writtenUpstream) =
        .ok [.headers 200 4 false false, .data (ascii "null")] ∧
      ¬ Succeeds scalarCodec ⟨.response, statusOk, 1, 1⟩ ((responseFrame statusOk 1 [0x91]).drop 16) := by
  refine ⟨by decide, by decide, ?_⟩
  rintro ⟨-, -, ⟨kind, offset, hannounced, -, hobject⟩, -⟩
  have hvalue : announced scalarCodec ((responseFrame statusOk 1 [0x91]).drop 16) = some (.withValue, 1) := by decide
  obtain ⟨rfl, rfl⟩ := Prod.mk.inj (Option.some.inj (hvalue.symm.trans hannounced))
  exact (hobject (by decide)).1 (by decide)

end EnvoyProxy.Dubbo
