import EnvoyProxy.Dubbo.Pool
/-!
# Requests and their responses

The id of a request goes into its frame, and the header of a response carries
an id, but the code never compares the two. `correlated_of_ownAnswers`: what
the peer answers decides, so a response reaches the right request exactly as
far as the peer sends it on the right connection, while its request waits.
-/

namespace EnvoyProxy.Dubbo
open Json

section Correlation
variable {V : Type} (env : Env V)

/-! ## The id of a frame -/

/-- The id in the header of a request frame. -/
def requestIdOf (frame : Bytes) : UInt64 := UInt64.ofNat (beNat ((frame.drop 4).take 8))

theorem writeDubboRequest_eq {encoder : Encoder} {id : Int64} {context : DubboBridgeContext}
    {source : SrcsRequestContext}
    {getter : ArgumentGetter} {frame : Bytes} (h : writeDubboRequest encoder id context source getter = .ok frame) :
    ∃ body, writeRequestBody encoder context source getter = .ok body ∧
      frame = [0xda, 0xbb, 0xc2, 0x00] ++ beBytes 8 id.toUInt64.toNat ++ beBytes 4 body.length ++ body := by
  obtain ⟨body, hb, h⟩ := bind_eq_ok h
  cases h
  exact ⟨body, hb, rfl⟩

/-- A request frame carries the id it was written with. -/
theorem requestIdOf_written {encoder : Encoder} {id : Int64} {context : DubboBridgeContext}
    {source : SrcsRequestContext}
    {getter : ArgumentGetter} {frame : Bytes} (h : writeDubboRequest encoder id context source getter = .ok frame) :
    requestIdOf frame = id.toUInt64 ∧ frame ≠ [] := by
  obtain ⟨body, -, rfl⟩ := writeDubboRequest_eq h
  constructor
  · have hid :
        (([0xda, 0xbb, 0xc2, 0x00] ++ beBytes 8 id.toUInt64.toNat ++ beBytes 4 body.length ++ body).drop 4).take 8 =
          beBytes 8 id.toUInt64.toNat := by
      simp only [List.append_assoc]
      exact List.take_left' (beBytes_length _ _)
    have hlt : id.toUInt64.toNat < 256 ^ 8 := id.toUInt64.toNat_lt
    rw [requestIdOf, hid, beNat_beBytes, Nat.mod_eq_of_lt hlt]
    simp
  · simp

/-! ## The property and its condition -/

/-- A success made from a response frame is made from one with the id of the
user's own request. -/
def Correlated (user : User V) : Prop :=
  ∀ header contentLength close endStream, user.answeredBy = some header → header.messageType = .response →
    .headers 200 contentLength close endStream ∈ user.upstream.delivered →
    ∃ id, user.requestId = some id ∧ id.toUInt64 = header.requestId

/-- When a response frame is complete, the upstream it is given to has written
its request, and the frame carries the id of the last request the peer got on
the connection. -/
def OwnAnswers (p : Pool V) : PoolEvent V → Prop
  | .onPoolReady _ _ => True
  | .call i e => ∀ user header, (p.connections i).user = some user →
      answeredFrom env user.upstream ((p.connections i).presented e) = some header → header.messageType = .response →
      user.upstream.written ≠ [] ∧
        ∃ frame, (p.connections i).sent.getLast? = some frame ∧ requestIdOf frame = header.requestId

/-! ## The invariant -/

/-- A user with the requests its connection has sent. -/
structure SentInv (sent : List Bytes) (user : User V) : Prop where
  unwritten : user.upstream.requestComplete = false → user.upstream.written = []
  noId : user.upstream.written = [] → user.requestId = none
  last : user.upstream.written ≠ [] → ∃ id, user.requestId = some id ∧
    sent.getLast? = some user.upstream.written ∧ requestIdOf user.upstream.written = id.toUInt64
  answered : ∀ header, user.answeredBy = some header → header.messageType = .response →
    ∃ id, user.requestId = some id ∧ id.toUInt64 = header.requestId

theorem SentInv.correlated {sent : List Bytes} {user : User V} (hi : SentInv sent user) : Correlated user := by
  intro header _ _ _ ha hm _
  exact hi.answered header ha hm

variable {env}

theorem handleRawResponse_request (env : Env V) (r : Response) (s : DubboUpstream V) :
    (handleRawResponse env r.1 r.2.1 r.2.2 s).written = s.written ∧
      (handleRawResponse env r.1 r.2.1 r.2.2 s).requestComplete = s.requestComplete := by
  unfold handleRawResponse decodeHeaders resetStream cleanup
  simp only
  constructor <;> split_ifs <;> rfl

theorem advance_request (s : DubboUpstream V) (a : Await) :
    (advance s a).written = s.written ∧ (advance s a).requestComplete = s.requestComplete := by
  cases a <;> exact ⟨rfl, rfl⟩

/-- A call writes nothing, or the one frame of the request. -/
theorem Effect.written {s t : DubboUpstream V} {id : Int64} {e : Event} (h : Effect env s id e t) :
    (t.written = s.written ∧ (t.requestComplete = false → s.requestComplete = false)) ∨
    (s.requestComplete = false ∧ t.requestComplete = true ∧ e.completes s ≠ none ∧
      ∃ frame, t.written = s.written ++ frame ∧ requestIdOf frame = id.toUInt64 ∧ frame ≠ []) := by
  cases h with
  | stores _ _ _ _ _ hc hw => exact .inl ⟨hw, fun h => hc ▸ h⟩
  | writes _ frame _ _ _ hframe he _ hopen hc _ hw =>
    obtain ⟨hid, hne⟩ := requestIdOf_written hframe
    exact .inr ⟨hopen, hc, he, frame, hw, hid, hne⟩
  | posts _ _ _ _ _ _ _ hopen _ _ hw => exact .inl ⟨hw, fun _ => hopen⟩
  | drops => exact .inl ⟨rfl, fun h => h⟩
  | answersLocal what rest resets r =>
    obtain ⟨hw, hc⟩ := handleRawResponse_request (env.withResets resets) r { s with posted := rest }
    exact .inl ⟨hw, fun h => hc ▸ h⟩
  | waits data resets b c => exact .inl ⟨rfl, fun h => h⟩
  | answers data endStream resets r =>
    obtain ⟨hw, hc⟩ := handleRawResponse_request (env.withResets resets) r (advance s (awaitWith env s data))
    obtain ⟨hw', hc'⟩ := advance_request s (awaitWith env s data)
    exact .inl ⟨hw.trans hw', fun h => (hc.trans hc') ▸ h⟩
  | closes => exact .inl ⟨rfl, fun h => h⟩
  | cleans => exact .inl ⟨rfl, fun h => h⟩

theorem answeredFrom_none {s : DubboUpstream V} {e : Event} (h : e.completes s ≠ none) :
    answeredFrom env s e = none := by
  cases e with
  | upstreamData => exact absurd rfl h
  | _ => rfl

/-- One call of the user of a connection. -/
theorem SentInv.effect {c : Connection V} {user : User V} {id : Int64} {e : Event} {t : DubboUpstream V}
    (hi : SentInv c.sent user)
    (hown : ∀ header, answeredFrom env user.upstream (c.presented e) = some header → header.messageType = .response →
      user.upstream.written ≠ [] ∧ ∃ frame, c.sent.getLast? = some frame ∧ requestIdOf frame = header.requestId)
    (h : Effect (env.withBridge user.bridge) user.upstream id (c.presented e) t) {user' : User V}
    (hu' : (c.after env user id e t).user = some user') : SentInv (c.after env user id e t).sent user' := by
  have hdestroy : ¬ e.isDestroy = true := by
    intro hd
    rw [Connection.after, if_pos hd] at hu'
    cases hu'
  simp only [Connection.after, if_neg hdestroy, Option.some.injEq] at hu'
  subst hu'
  rcases h.written with ⟨hw, hc⟩ | ⟨hopen, hc, he, frame, hw, hid, hne⟩
  · -- nothing is written
    have hframe : writtenFrame user.upstream t = [] := by simp [writtenFrame, hw]
    simp only [Connection.after, hframe, if_true]
    refine ⟨fun h => hw.trans (hi.unwritten (hc h)), fun h => hi.noId (hw ▸ h), fun h => ?_, ?_⟩
    · simp only [hw] at h ⊢
      exact hi.last h
    · intro header ha hm
      cases hfrom : answeredFrom env user.upstream (c.presented e) with
      | none =>
        rw [hfrom] at ha
        exact hi.answered header ha hm
      | some header' =>
        rw [hfrom] at ha
        cases ha
        obtain ⟨hwritten, frame, hlast, hresp⟩ := hown header hfrom hm
        obtain ⟨id', hid', hlast', hown'⟩ := hi.last hwritten
        rw [hlast] at hlast'
        cases hlast'
        exact ⟨id', hid', hown'.symm.trans hresp⟩
  · -- the request is written, so there was no answer before
    have hnil := hi.unwritten hopen
    have hwt : t.written = frame := by rw [hw, hnil, List.nil_append]
    have hframe : writtenFrame user.upstream t = frame := by simp [writtenFrame, hnil, hwt]
    simp only [Connection.after, hframe, if_neg hne]
    refine ⟨fun h => ?_, fun h => absurd (hwt.symm.trans h) hne, fun _ => ?_, ?_⟩
    · rw [hc] at h
      cases h
    · exact ⟨id, rfl, by simp [hwt], by rw [hwt, hid]⟩
    · intro header ha hm
      have hnone : answeredFrom env user.upstream (c.presented e) = none := answeredFrom_none he
      rw [hnone, Option.none_or] at ha
      obtain ⟨id', hid', -⟩ := hi.answered header ha hm
      rw [hi.noId hnil] at hid'
      cases hid'

/-- In every run whose responses answer the last request of their connection,
no response frame of another request becomes a success. -/
theorem correlated_of_ownAnswers (id : Int64) {p : Pool V}
    (h : Reach (Pool.step env) (OwnAnswers env) ⟨fun _ => {}, id⟩ p) (i : Nat) (user : User V)
    (hu : (p.connections i).user = some user) : Correlated user := by
  suffices hi : ∀ i user, (p.connections i).user = some user → SentInv (p.connections i).sent user from
    (hi i user hu).correlated
  clear hu
  refine h.invariant (fun p => ∀ i user, (p.connections i).user = some user →
    SentInv (p.connections i).sent user) ?_ ?_
  · rintro i user ⟨⟩
  · intro p e q hi hown hstep i user'
    have hc := Pool.step_change env hstep i
    generalize q.connections i = c' at hc
    cases hc with
    | same => exact hi i user'
    | attaches bridge hu hopen =>
      rintro ⟨⟩
      exact ⟨fun _ => rfl, fun _ => rfl, fun h => absurd rfl h, by rintro header ⟨⟩⟩
    | idles e hu =>
      intro hu'
      rw [Connection.idle, hu] at hu'
      cases hu'
    | calls e user t hu heffect =>
      intro hu'
      exact (hi i user hu).effect (fun header => hown user header hu) heffect hu'

end Correlation

/-- A request and the response with its id. -/
theorem ownAnswer_correlated :
    ∃ p user, [PoolEvent.onPoolReady 0 (some pingBridge), .call 0 (.encodeHeaders plainRequest true),
        .call 0 (.upstreamData (responseFrame statusOk 9 [0x91, 0x97]) false false)].foldlM
          (Pool.step scalarEnv) ⟨fun _ => {}, 9⟩ = .ok p ∧
      (p.connections 0).user = some user ∧ Correlated user ∧ user.requestId = some 9 ∧
      user.upstream.delivered = [.headers 200 1 false false, .data (ascii "7")] := by
  have h1 : Reach (Pool.step scalarEnv) (OwnAnswers scalarEnv) ⟨fun _ => {}, 9⟩ _ :=
    .next .start (e := .onPoolReady 0 (some pingBridge)) trivial rfl
  have h2 := h1.next (e := .call 0 (.encodeHeaders plainRequest true)) (by rintro user header - ⟨⟩) rfl
  have h3 := h2.next (e := .call 0 (.upstreamData (responseFrame statusOk 9 [0x91, 0x97]) false false)) (by
    rintro user header ⟨⟩ hfrom -
    cases hfrom
    exact ⟨by decide, _, rfl, by decide⟩) rfl
  exact ⟨_, _, rfl, rfl, correlated_of_ownAnswers 9 h3 0 _ rfl, rfl, by decide⟩

/-- The response to the request 0 arrives twice. The second one is the answer
to the request 1, which uses the connection next. -/
theorem duplicate_answers_next :
    ∃ p user, [PoolEvent.onPoolReady 0 (some pingBridge), .call 0 (.encodeHeaders plainRequest true),
        .call 0 (.upstreamData (responseFrame statusOk 0 [0x91, 0x97]) false false), .call 0 .destroy,
        .onPoolReady 0 (some pingBridge), .call 0 (.encodeHeaders plainRequest true),
        .call 0 (.upstreamData (responseFrame statusOk 0 [0x91, 0x97]) false false)].foldlM
          (Pool.step scalarEnv) ⟨fun _ => {}, 0⟩ = .ok p ∧
      (p.connections 0).user = some user ∧ ¬ Correlated user := by
  refine ⟨_, _, rfl, rfl, ?_⟩
  intro h
  obtain ⟨id, hid, heq⟩ := h _ 1 false false rfl rfl (by decide)
  cases hid
  exact absurd heq (by decide)

end EnvoyProxy.Dubbo
