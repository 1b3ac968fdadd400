import EnvoyProxy.Dubbo.Pool
/-!
# Frames on a reused connection

An upstream moves all bytes that have arrived to its private buffer, and gives
the connection back once it has answered a frame. Bytes behind that frame are
lost with the upstream, and the next user starts in the middle of a frame.
`framing_of_wholeFrames` shows that this is the only way, together with a
local reply that is sent while a part of a frame is buffered.
-/

namespace EnvoyProxy.Dubbo
open Json

section Frames
variable {V : Type} (codec : Codec V)

/-- Whole frames, one after the other. -/
inductive Frames : Bytes → Prop
  | nil : Frames []
  | frame {f rest : Bytes} {h : Header} : codec.decodeHeader f = .ok (some h) → f.length = h.bodySize + 16 →
      Frames rest → Frames (f ++ rest)

variable {codec}

theorem Frames.append {a b : Bytes} (ha : Frames codec a) (hb : Frames codec b) : Frames codec (a ++ b) := by
  induction ha with
  | nil => exact hb
  | frame hh hlen _ ih =>
    rw [List.append_assoc]
    exact .frame hh hlen ih

theorem Frames.snoc {a f : Bytes} {h : Header} (ha : Frames codec a) (hh : codec.decodeHeader f = .ok (some h))
    (hlen : f.length = h.bodySize + 16) : Frames codec (a ++ f) := by
  have hf : Frames codec (f ++ []) := .frame hh hlen .nil
  rw [List.append_nil] at hf
  exact ha.append hf

/-- The first frame can be read off, and whole frames are behind it. -/
theorem Frames.first {b : Bytes} (hb : Frames codec b) (hne : b ≠ []) :
    ∃ h, codec.decodeHeader b = .ok (some h) ∧ Frames codec (b.drop (h.bodySize + 16)) := by
  cases hb with
  | nil => exact absurd rfl hne
  | @frame f rest h hh hlen hrest =>
    refine ⟨h, ?_, ?_⟩
    · rw [codec.header_local f rest (by omega), hh]
    · rwa [← hlen, List.drop_left]

theorem header_length {b : Bytes} {h : Header} (hh : codec.decodeHeader b = .ok (some h)) : 16 ≤ b.length := by
  by_contra hshort
  rw [codec.header_short b (by omega)] at hh
  cases hh

variable (codec)

/-- The context that is kept is the one at the front of the buffer. -/
def ContextOf (buffer : Bytes) (context : Option Header) : Prop :=
  ∀ h, context = some h → codec.decodeHeader buffer = .ok (some h)

/-- The bytes taken are whole frames and then the bytes in the buffer. -/
def Aligned (taken buffer : Bytes) (context : Option Header) : Prop :=
  ∃ frames, Frames codec frames ∧ taken = frames ++ buffer ∧ ContextOf codec buffer context

/-- The buffer and the context behind the heartbeats. -/
def Await.rest : Await → Bytes × Option Header
  | .waiting buffer context => (buffer, context)
  | .thrown _ buffer => (buffer, none)
  | .ready buffer header => (buffer, some header)

variable {codec}

theorem ContextOf.append {b : Bytes} {c : Option Header} (hc : ContextOf codec b c) (x : Bytes) :
    ContextOf codec (b ++ x) c := by
  intro h hch
  have hb := hc h hch
  rw [codec.header_local b x (header_length hb), hb]

theorem headerOf_context {b : Bytes} {c : Option Header} (hc : ContextOf codec b c) {h : Header}
    (hh : headerOf codec b c = .ok (some h)) : codec.decodeHeader b = .ok (some h) := by
  cases c with
  | none => exact hh
  | some c =>
    cases hh
    exact hc h rfl

/-- The decoder loop drains whole frames. -/
theorem await_frames {b : Bytes} {c : Option Header} (hc : ContextOf codec b c) :
    ∃ drained, Frames codec drained ∧ b = drained ++ (await codec b c).rest.1 ∧
      ContextOf codec (await codec b c).rest.1 (await codec b c).rest.2 := by
  induction b, c using await_induction codec with
  | step b c ih =>
    rw [await_eq]
    cases hh : headerOf codec b c with
    | error what => exact ⟨[], .nil, rfl, by rintro h ⟨⟩⟩
    | ok o =>
      cases o with
      | none => exact ⟨[], .nil, rfl, by rintro h ⟨⟩⟩
      | some h =>
        have hb := headerOf_context hc hh
        simp only
        split_ifs with hlen hbeat
        · refine ⟨[], .nil, rfl, ?_⟩
          rintro h' ⟨⟩
          exact hb
        · -- a heartbeat: its frame is drained, and the loop goes on behind it
          obtain ⟨drained, hframes, hrest, hctx⟩ := ih h hh hlen (by rintro h' ⟨⟩)
          have hheader : codec.decodeHeader (b.take (h.bodySize + 16)) = .ok (some h) := by
            rw [← hb, ← codec.header_local (b.take (h.bodySize + 16)) (b.drop (h.bodySize + 16))
              (by simp only [List.length_take]; omega), List.take_append_drop]
          refine ⟨b.take (h.bodySize + 16) ++ drained, ?_, ?_, hctx⟩
          · exact .frame hheader (by simp only [List.length_take]; omega) hframes
          · rw [List.append_assoc, ← hrest, List.take_append_drop]
        · refine ⟨[], .nil, rfl, ?_⟩
          rintro h' ⟨⟩
          exact hb

theorem Aligned.receive {taken buffer : Bytes} {context : Option Header} (h : Aligned codec taken buffer context)
    (data : Bytes) :
    Aligned codec (taken ++ data) (await codec (buffer ++ data) context).rest.1
      (await codec (buffer ++ data) context).rest.2 := by
  obtain ⟨frames, hframes, rfl, hctx⟩ := h
  obtain ⟨drained, hdrained, hrest, hctx'⟩ := await_frames (hctx.append data)
  refine ⟨frames ++ drained, hframes.append hdrained, ?_, hctx'⟩
  rw [List.append_assoc, List.append_assoc, ← hrest]

end Frames

/-! ## The property and its condition -/

section Framing
variable {V : Type} (env : Env V)

/-- The upstream is destroyed without closing the connection. -/
def GivesBack (s : DubboUpstream V) : Prop := s.responded = true ∧ s.toCloseUpstreamConnection = false

/-- The bytes taken are whole frames, and the private buffer holds the body of
the last one and nothing else, or nothing at all. -/
structure Consumed (codec : Codec V) (taken buffer : Bytes) : Prop where
  frames : Frames codec taken
  body : buffer = [] ∨ ∃ prior header h, Frames codec prior ∧ taken = prior ++ header ++ buffer ∧
    codec.decodeHeader header = .ok (some h) ∧ header.length = 16 ∧ buffer.length = h.bodySize

/-- No byte is lost, and the users of the connection stop at the end of a
frame. -/
structure KeepsFraming (codec : Codec V) (c : Connection V) : Prop where
  lossless : c.received = c.taken ++ c.readBuffer
  idle : c.user = none → c.closed = false → Frames codec c.taken
  givenBack : ∀ user, c.user = some user → c.closed = false → GivesBack user.upstream →
    Consumed codec c.taken user.upstream.dubboResponseBuffer

/-- Nothing has arrived behind a frame whose reply keeps the connection, and
nothing of a frame when a local reply is sent. -/
structure TakesWholeFrames (s : DubboUpstream V) (e : Event) : Prop where
  frame : ∀ data endStream resets f h reply, e = .upstreamData data endStream resets → data ≠ [] →
    awaitWith env s data = .ready f h →
    frameReply env.codec s.protocolErrorCode s.respExceptionCode h (f.drop 16) = .ok reply → reply.close = false →
    f.length = h.bodySize + 16
  localReply : ∀ resets, e = .runPosted resets → s.posted ≠ [] → s.dubboResponseBuffer = []

def WholeFrames (p : Pool V) : PoolEvent V → Prop
  | .onPoolReady _ _ => True
  | .call i e => ∀ user, (p.connections i).user = some user → Live user.upstream →
      TakesWholeFrames env user.upstream ((p.connections i).presented e)

/-! ## The invariant -/

/-- A user of an open connection. -/
structure UserInv (codec : Codec V) (taken : Bytes) (s : DubboUpstream V) : Prop where
  upstreamRequest : s.upstreamRequest = true
  upstreamConnData : s.upstreamConnData = true
  waiting : s.responded = false → Aligned codec taken s.dubboResponseBuffer s.responseContext
  consumed : GivesBack s → Consumed codec taken s.dubboResponseBuffer

variable {env} {taken : Bytes} {s t : DubboUpstream V}

theorem UserInv.sameResponse (hi : UserInv env.codec taken s) (h : SameResponse s t) :
    UserInv env.codec taken t where
  upstreamRequest := h.upstreamRequest.trans hi.upstreamRequest
  upstreamConnData := h.upstreamConnData.trans hi.upstreamConnData
  waiting hr := by
    rw [h.buffer, h.context]
    exact hi.waiting (h.responded ▸ hr)
  consumed hg := by
    rw [h.buffer]
    exact hi.consumed ⟨h.responded ▸ hg.1, h.toClose ▸ hg.2⟩

theorem frameReply_keeps {codec : Codec V} {pe re : Nat} {h : Header} {visible : Bytes} {reply : Reply V}
    (hr : frameReply codec pe re h visible = .ok reply) (hclose : reply.close = false) :
    h.messageType = .response := by
  by_contra hm
  unfold frameReply at hr
  rw [if_pos hm] at hr
  cases hr
  cases hclose

/-- A frame that keeps the connection, when nothing is behind it. -/
theorem consumed_of_ready {codec : Codec V} {f : Bytes} {h : Header} (ha : Aligned codec taken f (some h))
    (hlen : f.length = h.bodySize + 16) : Consumed codec taken (f.drop 16) := by
  obtain ⟨frames, hframes, rfl, hctx⟩ := ha
  have hheader := hctx h rfl
  refine ⟨hframes.snoc hheader hlen, .inr ⟨frames, f.take 16, h, hframes, ?_, ?_, ?_, ?_⟩⟩
  · rw [List.append_assoc, List.take_append_drop]
  · rw [← hheader, ← codec.header_local (f.take 16) (f.drop 16) (by simp only [List.length_take]; omega),
      List.take_append_drop]
  · simp only [List.length_take]; omega
  · simp only [List.length_drop]; omega

theorem UserInv.answers (hi : UserInv env.codec taken s) (hs : Live s) {data : Bytes} {endStream resets : Bool}
    {r : Response} (hd : data ≠ []) (hr : reaction env s endStream (awaitWith env s data) = some (.ok r))
    (hw : TakesWholeFrames env s (.upstreamData data endStream resets)) :
    UserInv env.codec (taken ++ data) (answered (env.withResets resets) r (advance s (awaitWith env s data))) := by
  have hreceived := (hi.waiting hs.2).receive data
  change Aligned _ _ (awaitWith env s data).rest.1 (awaitWith env s data).rest.2 at hreceived
  have hlive := live_advance hs (awaitWith env s data)
  refine ⟨hlive.1, ?_, (fun h => by cases h), fun hgives => ?_⟩
  · rw [← hi.upstreamConnData]
    cases awaitWith env s data <;> rfl
  · -- the response keeps the connection, so it comes from a frame
    have hkeeps : r.2.2 = false := by
      have := hgives.2
      simp only [answered, Bool.or_eq_false_iff] at this
      exact this.2
    cases ha : awaitWith env s data with
    | waiting b c =>
      rw [ha, reaction] at hr
      split_ifs at hr
      obtain ⟨x, hx, hclose⟩ := respondOrError_keeps env (Option.some.inj hr) hkeeps
      cases hx
      cases hclose
    | thrown what b =>
      rw [ha] at hr
      obtain ⟨x, hx, hclose⟩ := respondOrError_keeps env (Option.some.inj hr) hkeeps
      cases hx
    | ready f h =>
      rw [ha] at hr hreceived
      obtain ⟨x, hx, hclose⟩ := respondOrError_keeps env (Option.some.inj hr) hkeeps
      have hlen := hw.frame data endStream resets f h x rfl hd ha hx hclose
      have hbuffer : (advance s (.ready f h)).dubboResponseBuffer = f.drop 16 := by
        simp only [advance, frameReply_keeps hx hclose, if_true]
      change Consumed _ _ (advance s (.ready f h)).dubboResponseBuffer
      rw [hbuffer]
      exact consumed_of_ready hreceived hlen

/-- One call on an open connection that stays open keeps the invariant. -/
theorem UserInv.effect {id : Int64} {e : Event} (hi : UserInv env.codec taken s)
    (hw : Live s → TakesWholeFrames env s e) (h : Effect env s id e t) (hopen : t.connectionClosed = false)
    (hclose : e.isClose = false) (hdestroy : e.isDestroy = false) : UserInv env.codec (taken ++ moved s e) t := by
  have hidle : ∀ {u}, moved s e = [] → UserInv env.codec taken u → UserInv env.codec (taken ++ moved s e) u := by
    intro u hm hu
    rw [hm, List.append_nil]
    exact hu
  cases h with
  | stores _ hm _ hs => exact hidle hm (hi.sameResponse hs)
  | writes _ _ _ _ _ _ he hs => exact hidle (moved_of_completes he) (hi.sameResponse hs)
  | posts _ _ _ _ he _ hs => exact hidle (moved_of_completes (by rw [he]; simp)) (hi.sameResponse hs)
  | drops what rest resets hp hg =>
    exact hidle (ite_self []) (hi.sameResponse ⟨rfl, rfl, rfl, rfl, rfl, rfl, rfl, rfl, rfl, rfl⟩)
  | answersLocal what rest resets r hp hg hr =>
    refine hidle (ite_self []) ?_
    have hpopped : UserInv env.codec taken { s with posted := rest } :=
      hi.sameResponse ⟨rfl, rfl, rfl, rfl, rfl, rfl, rfl, rfl, rfl, rfl⟩
    rw [handleRawResponse_open _ hpopped.1 hpopped.2 hopen]
    refine ⟨hpopped.1, hpopped.2, (fun h => by cases h), fun hgives => ?_⟩
    change Consumed _ _ s.dubboResponseBuffer
    cases hresp : s.responded with
    | true =>
      -- an answer was there before
      refine hi.consumed ⟨hresp, ?_⟩
      have := hgives.2
      simp only [answered, Bool.or_eq_false_iff] at this
      exact this.1
    | false =>
      have hempty := (hw ⟨hi.upstreamRequest, hresp⟩).localReply resets rfl (by rw [hp]; simp)
      obtain ⟨frames, hframes, htaken, -⟩ := hi.waiting hresp
      rw [hempty, List.append_nil] at htaken
      exact ⟨htaken ▸ hframes, .inl hempty⟩
  | waits data resets b c hs hd ha =>
    have hreceived := (hi.waiting hs.2).receive data
    change Aligned _ _ (awaitWith env s data).rest.1 (awaitWith env s data).rest.2 at hreceived
    rw [ha] at hreceived
    have hmoved : moved s (.upstreamData data false resets) = data := if_pos hs
    rw [hmoved]
    refine ⟨hi.upstreamRequest, hi.upstreamConnData, fun _ => hreceived, fun hgives => ?_⟩
    rw [GivesBack, advance, hs.2] at hgives
    cases hgives.1
  | answers data endStream resets r hs hd hr =>
    have hmoved : moved s (.upstreamData data endStream resets) = data := if_pos hs
    have hadvanced : (advance s (awaitWith env s data)).upstreamConnData = true := by
      rw [← hi.upstreamConnData]
      cases awaitWith env s data <;> rfl
    rw [hmoved, handleRawResponse_open _ (live_advance hs _).1 hadvanced hopen]
    exact hi.answers hs hd hr (hw hs)
  | closes => cases hclose
  | cleans _ b hb =>
    cases e with
    | close => cases hclose
    | destroy => cases hdestroy
    | resetStream =>
      cases hb
      simp [cleanup, hi.upstreamConnData] at hopen
    | _ => cases hb

/-- A connection: whole frames while it has no user. -/
structure ConnectionInv (codec : Codec V) (c : Connection V) : Prop where
  lossless : c.received = c.taken ++ c.readBuffer
  idle : c.user = none → c.closed = false → Frames codec c.taken
  user : ∀ user, c.user = some user → c.closed = false → UserInv codec c.taken user.upstream

theorem ConnectionInv.keepsFraming {codec : Codec V} {c : Connection V} (hi : ConnectionInv codec c) :
    KeepsFraming codec c :=
  ⟨hi.lossless, hi.idle, fun user hu hopen hg => (hi.user user hu hopen).consumed hg⟩

/-- The end of a user that gives its connection back. -/
theorem UserInv.destroy {id : Int64} (hi : UserInv env.codec taken s) (h : Effect env s id .destroy t)
    (hopen : t.connectionClosed = false) : Frames env.codec taken := by
  cases h with
  | stores _ _ hkeep =>
    rcases hkeep with hkeep | hkeep
    · cases hkeep
    · rw [hi.upstreamRequest] at hkeep
      cases hkeep
  | writes _ _ _ _ _ _ he => exact absurd rfl he
  | posts _ _ _ _ he => cases he
  | cleans _ b hb =>
    cases hb
    simp only [cleanup, hi.upstreamConnData, Bool.and_true, Bool.or_eq_false_iff] at hopen
    refine (hi.consumed ⟨?_, hopen.2.1⟩).frames
    simpa using hopen.2.2

theorem ConnectionInv.after {c : Connection V} (hi : ConnectionInv env.codec c) {id : Int64}
    {e : Event} {user : User V}
    (hu : c.user = some user)
    (hw : Live user.upstream → TakesWholeFrames env user.upstream (c.presented e))
    (h : Effect (env.withBridge user.bridge) user.upstream id (c.presented e) t) :
    ConnectionInv env.codec (c.after env user id e t) := by
  have hopen : (c.after env user id e t).closed = false →
      c.closed = false ∧ e.isClose = false ∧ t.connectionClosed = false := by
    intro hclosed
    simpa [Connection.after, and_assoc] using hclosed
  have hevent : (c.presented e).isClose = e.isClose ∧ (c.presented e).isDestroy = e.isDestroy := by
    cases e <;> exact ⟨rfl, rfl⟩
  have harrived : (c.presented e).arrived = [] ∨ (c.presented e).arrived = c.readBuffer ++ e.arrived := by
    cases e <;> simp [Connection.presented, Event.arrived]
  refine ⟨?_, ?_, ?_⟩
  · simp only [Connection.after, hi.lossless, List.append_assoc]
    by_cases hmoved : moved user.upstream (c.presented e) = []
    · rw [if_pos hmoved, hmoved, List.nil_append]
    · rw [if_neg hmoved, List.append_nil]
      unfold moved at hmoved ⊢
      split_ifs at hmoved ⊢
      · rw [harrived.resolve_left hmoved]
      · exact absurd rfl hmoved
  · intro hnone hclosed
    obtain ⟨hc, -, ht⟩ := hopen hclosed
    cases e with
    | destroy =>
      have hmoved : moved user.upstream (c.presented .destroy) = [] := ite_self []
      simp only [Connection.after, hmoved, List.append_nil]
      have huser : UserInv (env.withBridge user.bridge).codec c.taken user.upstream := hi.user user hu hc
      exact huser.destroy h ht
    | _ => cases hnone
  · intro user' hu' hclosed
    obtain ⟨hc, hclose, ht⟩ := hopen hclosed
    have hdestroy : e.isDestroy = false := by
      by_contra hd
      rw [Connection.after, if_pos (by simpa using hd)] at hu'
      cases hu'
    simp only [Connection.after, hdestroy, Bool.false_eq_true, if_false] at hu'
    cases hu'
    have hw' : Live user.upstream → TakesWholeFrames (env.withBridge user.bridge) user.upstream (c.presented e) :=
      fun hl => ⟨(hw hl).frame, (hw hl).localReply⟩
    have huser : UserInv (env.withBridge user.bridge).codec c.taken user.upstream := hi.user user hu hc
    exact huser.effect hw' h ht (hevent.1.trans hclose) (hevent.2.trans hdestroy)

/-- In every run whose steps take whole frames, every connection keeps its
framing. -/
theorem framing_of_wholeFrames (id : Int64) {p : Pool V}
    (h : Reach (Pool.step env) (WholeFrames env) ⟨fun _ => {}, id⟩ p) (i : Nat) :
    KeepsFraming env.codec (p.connections i) := by
  suffices hi : ∀ i, ConnectionInv env.codec (p.connections i) from (hi i).keepsFraming
  refine h.invariant (fun p => ∀ i, ConnectionInv env.codec (p.connections i)) ?_ ?_
  · intro i
    exact ⟨rfl, fun _ _ => .nil, by rintro user ⟨⟩⟩
  · intro p e q hi hw hstep i
    have hc := Pool.step_change env hstep i
    generalize q.connections i = c' at hc
    have hic := hi i
    cases hc with
    | same => exact hic
    | attaches bridge hu hopen =>
      refine ⟨hic.lossless, by rintro ⟨⟩, ?_⟩
      rintro user ⟨⟩ _
      refine ⟨rfl, rfl, fun _ => ⟨_, hic.idle hu hopen, by simp, by rintro h ⟨⟩⟩, ?_⟩
      rintro ⟨⟨⟩, -⟩
    | idles e hu =>
      refine ⟨?_, fun _ hclosed => hic.idle hu ?_, ?_⟩
      · simp only [Connection.idle]
        rw [hic.lossless, List.append_assoc]
      · simp only [Connection.idle, Bool.or_eq_false_iff] at hclosed
        exact hclosed.1
      · intro user hu'
        rw [Connection.idle, hu] at hu'
        cases hu'
    | calls e user t hu heffect => exact hic.after hu (hw user hu) heffect

end Framing

/-- A request, a heartbeat with a part of the response behind it, the rest of
the response, and the end of the upstream. -/
def pingRun : List (PoolEvent Scalar) :=
  [.onPoolReady 0 (some pingBridge), .call 0 (.encodeHeaders plainRequest true),
    .call 0 (.upstreamData (heartbeatFrame ++ (responseFrame statusOk 0 [0x91, 0x97]).take 5) false false),
    .call 0 (.upstreamData ((responseFrame statusOk 0 [0x91, 0x97]).drop 5) false false), .call 0 .destroy]

theorem ping_framing :
    ∃ p, pingRun.foldlM (Pool.step scalarEnv) ⟨fun _ => {}, 0⟩ = .ok p ∧ KeepsFraming scalarCodec (p.connections 0) ∧
      (p.connections 0).closed = false ∧
      (p.connections 0).taken = heartbeatFrame ++ responseFrame statusOk 0 [0x91, 0x97] := by
  have h1 : Reach (Pool.step scalarEnv) (WholeFrames scalarEnv) ⟨fun _ => {}, 0⟩ _ :=
    .next .start (e := .onPoolReady 0 (some pingBridge)) trivial rfl
  have h2 := h1.next (e := .call 0 (.encodeHeaders plainRequest true)) (by
      rintro user ⟨⟩ -
      constructor
      · rintro _ _ _ _ _ _ ⟨⟩
      · rintro _ ⟨⟩) rfl
  have h3 := h2.next
    (e := .call 0 (.upstreamData (heartbeatFrame ++ (responseFrame statusOk 0 [0x91, 0x97]).take 5) false false)) (by
      rintro user ⟨⟩ -
      constructor
      · rintro _ _ _ f h reply ⟨⟩ - hready
        cases hready
      · rintro _ ⟨⟩) rfl
  have h4 := h3.next
    (e := .call 0 (.upstreamData ((responseFrame statusOk 0 [0x91, 0x97]).drop 5) false false)) (by
      rintro user ⟨⟩ -
      constructor
      · rintro _ _ _ f h reply ⟨⟩ - hready - -
        cases hready
        rfl
      · rintro _ ⟨⟩) rfl
  have h5 := h4.next (e := .call 0 .destroy) (by
      rintro user ⟨⟩ -
      constructor
      · rintro _ _ _ _ _ _ ⟨⟩
      · rintro _ ⟨⟩) rfl
  exact ⟨_, rfl, framing_of_wholeFrames 0 h5 0, rfl, rfl⟩

/-- The response and the first byte of a frame behind it in one chunk: the
connection is given back, and the byte is lost. -/
theorem nextFrame_lost :
    ∃ p, [PoolEvent.onPoolReady 0 (some pingBridge), .call 0 (.encodeHeaders plainRequest true),
      .call 0 (.upstreamData (responseFrame statusOk 0 [0x91, 0x97] ++ [0xda]) false false),
      .call 0 .destroy].foldlM (Pool.step scalarEnv) ⟨fun _ => {}, 0⟩ = .ok p ∧
    (p.connections 0).user.isNone = true ∧ (p.connections 0).closed = false ∧
    ¬ Frames scalarCodec (p.connections 0).taken := by
  refine ⟨_, rfl, rfl, rfl, ?_⟩
  change ¬ Frames scalarCodec (responseFrame statusOk 0 [0x91, 0x97] ++ [0xda])
  intro hframes
  obtain ⟨h, hh, hrest⟩ := hframes.first (by decide)
  have hheader : scalarCodec.decodeHeader (responseFrame statusOk 0 [0x91, 0x97] ++ [0xda]) =
      .ok (some ⟨.response, statusOk, 0, 2⟩) := by decide
  rw [hheader] at hh
  cases hh
  -- one byte is left, and it is no header
  obtain ⟨h, hh, -⟩ := hrest.first (by decide)
  exact absurd (header_length hh) (by decide)

end EnvoyProxy.Dubbo
