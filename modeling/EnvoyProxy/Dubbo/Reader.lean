import EnvoyProxy.Lib.Fuel
import EnvoyProxy.Dubbo.Upstream
/-!
# What one call of onUpstreamData does

`await` is the loop of the response decoder with enough fuel, and
`await_append` says how it goes on when more bytes arrive: waiting resumes
where it stopped, and a frame or an exception that was found stays found.
`onUpstreamData_eq` then describes the whole call by the reaction to the
frame: nothing, or one response handed to `handleRawResponse`.
-/

namespace EnvoyProxy.Dubbo
open Json

section Await
variable {V : Type} (codec : Codec V)

/-- The decoder loop, from a buffer and a context. -/
def await (buffer : Bytes) (context : Option Header) : Await := awaitFrame codec (buffer.length + 1) buffer context

/-- A round drains a header and a body, so fuel above the length is enough. -/
theorem awaitFrame_fuel {f g : Nat} {b : Bytes} (hf : b.length < f) (hg : b.length < g) (c : Option Header) :
    awaitFrame codec f b c = awaitFrame codec g b c := by
  induction f generalizing g b c with
  | zero => omega
  | succ f ih =>
    obtain ⟨g, rfl⟩ : ∃ k, g = k + 1 := ⟨g - 1, by omega⟩
    unfold awaitFrame
    split
    · rfl
    · rfl
    · rename_i h _
      split_ifs with hlen
      · rfl
      · apply ih <;> simp only [List.length_drop] <;> omega
      · rfl

theorem await_eq (b : Bytes) (c : Option Header) :
    await codec b c =
      match headerOf codec b c with
      | .error what => .thrown what b
      | .ok none => .waiting b none
      | .ok (some h) =>
        if b.length < h.bodySize + 16 then .waiting b (some h)
        else if h.messageType.isHeartbeat then await codec (b.drop (h.bodySize + 16)) none
        else .ready b h := by
  rw [await, awaitFrame]
  cases headerOf codec b c with
  | error what => rfl
  | ok o =>
    cases o with
    | none => rfl
    | some h =>
      simp only
      split_ifs with hlen
      · rfl
      · apply awaitFrame_fuel <;> simp only [List.length_drop] <;> omega
      · rfl

/-- Induction along the rounds of the decoder loop. -/
theorem await_induction {C : Bytes → Option Header → Prop}
    (step : ∀ b c, (∀ h, headerOf codec b c = .ok (some h) → ¬ b.length < h.bodySize + 16 →
      C (b.drop (h.bodySize + 16)) none) → C b c) (b : Bytes) (c : Option Header) : C b c := by
  induction hn : b.length using Nat.strong_induction_on generalizing b c with
  | _ n ih =>
    apply step
    intro h _ hlen
    exact ih _ (by simp only [List.length_drop]; omega) _ _ rfl

theorem headerOf_short {b : Bytes} {c : Option Header} (h : headerOf codec b c = .ok none) :
    c = none ∧ b.length < 16 := by
  cases c with
  | some c => cases h
  | none => exact ⟨rfl, not_le.1 fun hb => codec.header_long b hb h⟩

/-- Bytes behind a header that was found or refused change nothing. -/
theorem headerOf_append {b : Bytes} {c : Option Header} (h : headerOf codec b c ≠ .ok none) (x : Bytes) :
    headerOf codec (b ++ x) c = headerOf codec b c := by
  cases c with
  | some c => rfl
  | none =>
    refine codec.header_local b x (not_lt.1 fun hb => h ?_)
    exact codec.header_short b hb

/-- More bytes: the state to go on from, with the bytes at its end. -/
def Await.append (codec : Codec V) (x : Bytes) : Await → Await
  | .waiting b c => await codec (b ++ x) c
  | .thrown what b => .thrown what (b ++ x)
  | .ready b h => .ready (b ++ x) h

theorem await_append (b : Bytes) (c : Option Header) (x : Bytes) :
    await codec (b ++ x) c = (await codec b c).append codec x := by
  induction b, c using await_induction codec with
  | step b c ih =>
    rw [await_eq codec b c]
    cases hh : headerOf codec b c with
    | error what =>
      have hx := headerOf_append codec (by rw [hh]; simp) x
      rw [await_eq, hx, hh]
      rfl
    | ok o =>
      cases o with
      | none =>
        obtain ⟨rfl, _⟩ := headerOf_short codec hh
        rfl
      | some h =>
        have hx := headerOf_append codec (by rw [hh]; simp) x
        by_cases hlen : b.length < h.bodySize + 16
        · -- the header is kept, and found again in the longer buffer
          simp only [hlen, if_true, Await.append]
          rw [await_eq codec (b ++ x) c, await_eq codec (b ++ x) (some h), hx, hh]
          rfl
        · have hlen' : ¬ (b ++ x).length < h.bodySize + 16 := by simp only [List.length_append]; omega
          rw [await_eq, hx, hh]
          simp only [hlen, hlen', if_false]
          split_ifs
          · rw [List.drop_append_of_le_length (by omega)]
            exact ih h hh hlen
          · rfl

/-- A frame that is ready has its whole body in the buffer. -/
theorem await_ready {b : Bytes} {c : Option Header} {f : Bytes} {h : Header} (hr : await codec b c = .ready f h) :
    h.bodySize + 16 ≤ f.length ∧ ¬ h.messageType.isHeartbeat ∧ ∃ drained, b = drained ++ f := by
  induction b, c using await_induction codec with
  | step b c ih =>
    rw [await_eq] at hr
    split at hr
    · cases hr
    · cases hr
    · rename_i h' hh
      split_ifs at hr with hlen hbeat
      · obtain ⟨h1, h2, drained, hd⟩ := ih h' hh hlen hr
        refine ⟨h1, h2, b.take (h'.bodySize + 16) ++ drained, ?_⟩
        rw [List.append_assoc, ← hd, List.take_append_drop]
      · cases hr
        exact ⟨by omega, by simpa using hbeat, [], rfl⟩

/-- Bytes behind a frame that is ready can be taken away again. -/
theorem await_ready_of_append {b : Bytes} {c : Option Header} {x y : Bytes} {h : Header}
    (hr : await codec (b ++ y) c = .ready (x ++ y) h) (hx : h.bodySize + 16 ≤ x.length) :
    await codec b c = .ready x h := by
  induction b, c using await_induction codec with
  | step b c ih =>
    have hlong : x.length ≤ b.length := by
      obtain ⟨-, -, drained, hd⟩ := await_ready codec hr
      have := congrArg List.length hd
      simp only [List.length_append] at this
      omega
    have hheader : headerOf codec (b ++ y) c = headerOf codec b c := by
      apply headerOf_append
      intro h0
      have := (headerOf_short codec h0).2
      omega
    rw [await_eq, hheader] at hr
    rw [await_eq]
    cases hh : headerOf codec b c with
    | error what => rw [hh] at hr; cases hr
    | ok o =>
      cases o with
      | none => rw [hh] at hr; cases hr
      | some h' =>
        rw [hh] at hr
        simp only at hr ⊢
        split_ifs at hr with hlen hbeat
        · -- a heartbeat: the frame that is ready lies behind it
          have hready := await_ready codec hr
          obtain ⟨drained, hd⟩ := hready.2.2
          have hdrop := congrArg List.length hd
          simp only [List.length_append, List.length_drop] at hdrop hlen
          have hb : ¬ b.length < h'.bodySize + 16 := by omega
          rw [if_neg hb, if_pos hbeat]
          rw [List.drop_append_of_le_length (by omega)] at hr
          exact ih h' hh hb hr
        · injection hr with hbx hh'
          have hbx' : b = x := List.append_cancel_right hbx
          subst hbx' hh'
          rw [if_neg (by omega), if_neg hbeat]

end Await

section Call
variable {V : Type} (env : Env V)

/-- Status, body and close flag of a response. -/
abbrev Response := Nat × Bytes × Bool

/-- The response a reply becomes. -/
def respond (s : DubboUpstream V) (reply : Except Bytes (Reply V)) : Except Bytes Response := do
  let reply ← reply
  let (code, body) ← renderReply env.codec s.responseGetter reply
  return (code, body, reply.close)

theorem respond_close {s : DubboUpstream V} {reply : Reply V} {r : Response}
    (h : respond env s (.ok reply) = .ok r) :
    r.2.2 = reply.close := by
  obtain ⟨_, ⟨⟩, h⟩ := bind_eq_ok h
  obtain ⟨x, -, h⟩ := bind_eq_ok h
  cases h
  rfl

/-- The response when an exception becomes an error reply. -/
def respondOrError (s : DubboUpstream V) (reply : Except Bytes (Reply V)) : Except Bytes Response :=
  match respond env s reply with
  | .ok r => .ok r
  | .error what => respond env s (.ok (errorReply s what))

theorem respondOrError_of_ok {s : DubboUpstream V} {reply : Except Bytes (Reply V)} {r : Response}
    (h : respond env s reply = .ok r) : respondOrError env s reply = .ok r := by
  unfold respondOrError
  rw [h]

/-- A response that keeps the connection comes from a reply that does. -/
theorem respondOrError_keeps {s : DubboUpstream V} {reply : Except Bytes (Reply V)} {r : Response}
    (h : respondOrError env s reply = .ok r) (hr : r.2.2 = false) : ∃ x, reply = .ok x ∧ x.close = false := by
  unfold respondOrError at h
  cases hx : respond env s reply with
  | error what =>
    rw [hx] at h
    have hclose := respond_close env h
    rw [hr] at hclose
    cases hclose
  | ok r' =>
    rw [hx] at h
    cases h
    cases reply with
    | error what => cases hx
    | ok x => exact ⟨x, rfl, (respond_close env hx).symm.trans hr⟩

/-- The response to what the decoder found, if there is one. -/
def reaction (s : DubboUpstream V) (endStream : Bool) : Await → Option (Except Bytes Response)
  | .waiting _ _ => if endStream then some (respondOrError env s (.ok (errorReply s moreDataText))) else none
  | .thrown what _ => some (respondOrError env s (.error what))
  | .ready frame header =>
    some (respondOrError env s
      (frameReply env.codec s.protocolErrorCode s.respExceptionCode header (frame.drop 16)))

/-- The buffer and the context the decoder leaves. -/
def advance (s : DubboUpstream V) : Await → DubboUpstream V
  | .waiting buffer context => { s with dubboResponseBuffer := buffer, responseContext := context }
  | .thrown _ buffer => { s with dubboResponseBuffer := buffer, responseContext := none }
  | .ready buffer header =>
    { s with
      dubboResponseBuffer := if header.messageType = .response then buffer.drop 16 else buffer
      responseContext := some header }

/-- The upstream is there and waits for its response. -/
def Live (s : DubboUpstream V) : Prop := s.upstreamRequest = true ∧ s.responded = false

/-- What the decoder finds when `data` arrives. -/
def awaitWith (s : DubboUpstream V) (data : Bytes) : Await :=
  await env.codec (s.dubboResponseBuffer ++ data) s.responseContext

theorem handleResponse_eq (s t : DubboUpstream V) (reply : Reply V) (hg : t.responseGetter = s.responseGetter) :
    handleResponse env reply t = respond env s (.ok reply) >>= fun r =>
    .ok (handleRawResponse env r.1 r.2.1 r.2.2 t) := by
  simp only [handleResponse, respond, hg, ok_bind]
  cases renderReply env.codec s.responseGetter reply <;> rfl

/-- A reply in the `try` block, and the reply of the `catch` block. -/
theorem catch_eq (s t : DubboUpstream V) (reply : Except Bytes (Reply V)) (hg : t.responseGetter = s.responseGetter)
    (hp : t.protocolErrorCode = s.protocolErrorCode) :
    (match reply >>= fun r => handleResponse env r t with
      | .ok u => .ok u
      | .error what => handleResponse env (errorReply t what) t) =
    respondOrError env s reply >>= fun r => .ok (handleRawResponse env r.1 r.2.1 r.2.2 t) := by
  have he : ∀ what, errorReply t what = errorReply s what := fun what => by simp only [errorReply, hp]
  unfold respondOrError
  cases reply with
  | error what =>
    simp only [error_bind, he]
    exact handleResponse_eq env s t _ hg
  | ok r =>
    simp only [ok_bind, handleResponse_eq env s t r hg]
    cases hr : respond env s (.ok r) with
    | ok x => rfl
    | error what =>
      simp only [error_bind, he]
      exact handleResponse_eq env s t _ hg

/-- The whole call on an upstream that waits. -/
theorem onUpstreamData_eq {s : DubboUpstream V} (hs : Live s) {data : Bytes} (hd : data ≠ []) (endStream : Bool) :
    onUpstreamData env data endStream s =
      match reaction env s endStream (awaitWith env s data) with
      | none => .ok (advance s (awaitWith env s data))
      | some r => r >>= fun r => .ok (handleRawResponse env r.1 r.2.1 r.2.2 (advance s (awaitWith env s data))) := by
  obtain ⟨hu, hr⟩ := hs
  have hemp : data.isEmpty = false := by simpa using hd
  unfold onUpstreamData
  rw [if_neg (by simp [hu, hr, hemp])]
  simp only [readOrEnd, readRespnoseFromUpstream]
  have ha : awaitFrame env.codec ((s.dubboResponseBuffer ++ data).length + 1) (s.dubboResponseBuffer ++ data)
      s.responseContext = awaitWith env s data := rfl
  rw [ha]
  cases awaitWith env s data with
  | waiting b c =>
    cases endStream with
    | false => rfl
    | true =>
      have := catch_eq env s (advance s (.waiting b c)) (.ok (errorReply s moreDataText)) rfl rfl
      simp only [ok_bind] at this
      simp only [reaction, if_true]
      rw [← this]
      simp only [advance, errorReply]
      cases handleResponse env _ _ <;> rfl
  | thrown what b =>
    have := catch_eq env s (advance s (.thrown what b)) (.error what) rfl rfl
    simp only [reaction]
    rw [← this]
    rfl
  | ready f h =>
    have := catch_eq env s (advance s (.ready f h))
      (frameReply env.codec s.protocolErrorCode s.respExceptionCode h (f.drop 16)) rfl rfl
    simp only [reaction]
    rw [← this]
    simp only [advance]
    cases (frameReply env.codec s.protocolErrorCode s.respExceptionCode h (f.drop 16)) >>= _ <;> rfl

/-- A call on an upstream that does not wait, or without data, does nothing. -/
theorem onUpstreamData_idle {s : DubboUpstream V} {data : Bytes} (h : ¬ Live s ∨ data = []) (endStream : Bool) :
    onUpstreamData env data endStream s = .ok s := by
  unfold onUpstreamData
  rw [if_pos]
  rcases h with h | rfl
  · cases hu : s.upstreamRequest
    · rfl
    · cases hr : s.responded
      · exact absurd ⟨hu, hr⟩ h
      · simp
  · simp

/-! ## What handleRawResponse leaves -/

/-- What the downstream gets of a response. -/
def deliveries (r : Response) : List Delivery :=
  let headers := Delivery.headers r.1 r.2.1.length r.2.2 r.2.1.isEmpty
  if r.2.1.isEmpty || env.resets headers then [headers] else [headers, .data r.2.1]

/-- The state once a response is delivered. -/
def answered (r : Response) (s : DubboUpstream V) : DubboUpstream V :=
  { s with
    asserted := s.asserted && !s.responded
    responded := true
    toCloseUpstreamConnection := s.toCloseUpstreamConnection || r.2.2
    delivered := s.delivered ++ deliveries env r }

/-- The router resets the stream, or not, and then it gets no body. -/
theorem handleRawResponse_eq {s : DubboUpstream V} (hs : s.upstreamRequest = true) (r : Response) :
    handleRawResponse env r.1 r.2.1 r.2.2 s =
      if env.resets (.headers r.1 r.2.1.length r.2.2 r.2.1.isEmpty) then cleanup true (answered env r s)
      else answered env r s := by
  unfold handleRawResponse decodeHeaders answered deliveries
  cases hb : r.2.1.isEmpty with
  | true => split_ifs <;> simp_all [resetStream, cleanup]
  | false =>
    cases hr : env.resets (.headers r.1 r.2.1.length r.2.2 false) <;> simp [hr, resetStream, cleanup, hs]

/-- A response that leaves the connection open is not reset. -/
theorem handleRawResponse_open {s : DubboUpstream V} (hs : s.upstreamRequest = true) (hc : s.upstreamConnData = true)
    {r : Response} (h : (handleRawResponse env r.1 r.2.1 r.2.2 s).connectionClosed = false) :
    handleRawResponse env r.1 r.2.1 r.2.2 s = answered env r s := by
  rw [handleRawResponse_eq env hs] at h ⊢
  split_ifs at h ⊢
  · simp [cleanup, answered, hc] at h
  · rfl

theorem handleRawResponse_delivered {s : DubboUpstream V} (hs : s.upstreamRequest = true) (r : Response) :
    (handleRawResponse env r.1 r.2.1 r.2.2 s).delivered = s.delivered ++ deliveries env r := by
  rw [handleRawResponse_eq env hs]
  split_ifs <;> rfl

theorem handleRawResponse_responded (s : DubboUpstream V) (code : Nat) (body : Bytes) (close : Bool) :
    (handleRawResponse env code body close s).responded = true := by
  unfold handleRawResponse decodeHeaders resetStream cleanup
  simp only
  split_ifs <;> rfl

end Call

end EnvoyProxy.Dubbo
