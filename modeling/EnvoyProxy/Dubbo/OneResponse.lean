import EnvoyProxy.Lib.Runs
import EnvoyProxy.Dubbo.Lifecycle
/-!
# One response for a request

A posted local reply checks the guard but not whether a response was
delivered, so bytes of the upstream can get in its way: either they were
answered before the request was complete, or they are answered while the
reply waits in the dispatcher. `one_response_of_orderly` shows that nothing
else does, in any order of the calls.
-/

namespace EnvoyProxy.Dubbo
open Json

section OneResponse
variable {V : Type} (env : Env V)

/-! ## Orderly runs -/

/-- Bytes that are answered, and do not only wait for more. -/
def Completes (s : DubboUpstream V) (data : Bytes) (endStream : Bool) : Prop :=
  endStream = true ∨ ∀ buffer context, awaitWith env s data ≠ .waiting buffer context

/-- Upstream bytes and a local reply keep out of each other's way. -/
structure Orderly (p : Process V) (e : Event) : Prop where
  /-- A request that cannot be converted is not complete before it is answered. -/
  noLateLocalReply : ∀ headers body, e.completes p.upstream = some (headers, body) →
    p.upstream.requestComplete = false → localReply env headers body p.globalRequestId → p.upstream.responded = false
  /-- While a local reply is posted, no bytes arrive that would be answered. -/
  noEarlyAnswer : ∀ data endStream resets, e = .upstreamData data endStream resets → p.upstream.posted ≠ [] →
    Live p.upstream → data ≠ [] → ¬ Completes env p.upstream data endStream

/-! ## What the downstream got -/

/-- The deliveries that belong to a response. -/
def responses (s : DubboUpstream V) : List Delivery := s.delivered.filter (· ≠ .resetStream)

/-- No assertion has failed, and the downstream got the headers, and then the
body, of at most one response. -/
structure OneResponse (s : DubboUpstream V) : Prop where
  asserted : s.asserted = true
  once : responses s = [] ∨ ∃ r resets, responses s = deliveries (env.withResets resets) r

/-- A call delivers nothing once `cleanup` has run, be it before the call or
while the router was handed the headers. -/
structure QuietAfterCleanup (s t : DubboUpstream V) : Prop where
  before : s.upstreamRequest = false → t.delivered = s.delivered
  within : ∃ new, t.delivered = s.delivered ++ new ∧ ∀ body, .data body ∈ new → t.upstreamRequest = true

theorem responses_deliveries {s : DubboUpstream V} (r : Response) (h : responses s = []) {t : DubboUpstream V}
    (ht : t.delivered = s.delivered ++ deliveries env r) : responses t = deliveries env r := by
  unfold responses at h ⊢
  rw [ht, List.filter_append, h, List.nil_append, List.filter_eq_self]
  intro d hd
  unfold deliveries at hd
  simp only at hd
  split_ifs at hd <;> simp only [List.mem_cons, List.not_mem_nil, or_false] at hd
  · subst hd; rfl
  · rcases hd with rfl | rfl <;> rfl

theorem responses_reset (s : DubboUpstream V) :
    responses { s with delivered := s.delivered ++ [.resetStream] } = responses s := by
  simp only [responses, List.filter_append]
  exact List.append_nil _

/-! ## The invariant -/

structure Inv (s : DubboUpstream V) : Prop extends OneResponse env s where
  /-- The guard is down exactly when `cleanup` has run. -/
  guard : s.upstreamResetGuard = s.upstreamRequest
  /-- A local reply is posted when the request is complete, and only once. -/
  open_ : s.requestComplete = false → s.posted = []
  single : s.posted.length ≤ 1
  /-- A local reply that will run is the first answer. -/
  pending : s.posted ≠ [] → s.upstreamRequest = true → s.responded = false
  unanswered : s.responded = false → responses s = []

theorem inv_start : Inv env ({} : DubboUpstream V) where
  asserted := rfl
  once := .inl rfl
  guard := rfl
  open_ _ := rfl
  single := by simp
  pending h := absurd rfl h
  unanswered _ := rfl

variable {env}

theorem Inv.sameResponse {s t : DubboUpstream V} (hi : Inv env s) (h : SameResponse s t)
    (hopen : t.requestComplete = false → t.posted = []) (hsingle : t.posted.length ≤ 1)
    (hpending : t.posted ≠ [] → s.posted ≠ [] ∨ s.responded = false) : Inv env t := by
  have hresp : responses t = responses s := by simp only [responses, h.delivered]
  constructor
  · exact ⟨h.asserted.trans hi.asserted, by rw [hresp]; exact hi.once⟩
  · rw [h.guard, h.upstreamRequest, hi.guard]
  · exact hopen
  · exact hsingle
  · intro hp hu
    rw [h.upstreamRequest] at hu
    rw [h.responded]
    rcases hpending hp with hs | hs
    · exact hi.pending hs hu
    · exact hs
  · intro hr
    rw [h.responded] at hr
    rw [hresp]
    exact hi.unanswered hr

theorem Inv.cleanup {s : DubboUpstream V} (hi : Inv env s) (closeConnection : Bool) :
    Inv env (Dubbo.cleanup closeConnection s) where
  asserted := hi.asserted
  once := hi.once
  guard := rfl
  open_ := hi.open_
  single := hi.single
  pending _ hu := by cases hu
  unanswered := hi.unanswered

/-- The first response, when no local reply is left behind it. -/
theorem Inv.answered {s : DubboUpstream V} (hi : Inv env s) (hs : Live s) (hp : s.posted = []) (resets : Bool)
    (r : Response) : Inv env (handleRawResponse (env.withResets resets) r.1 r.2.1 r.2.2 s) := by
  have hresp := responses_deliveries (env.withResets resets) r (hi.unanswered hs.2)
    (t := Dubbo.answered (env.withResets resets) r s) rfl
  have hanswered : Inv env (Dubbo.answered (env.withResets resets) r s) := by
    constructor
    · exact ⟨by simp [Dubbo.answered, hi.asserted, hs.2], .inr ⟨r, resets, hresp⟩⟩
    · exact hi.guard
    · exact hi.open_
    · exact hi.single
    · intro hposted
      exact absurd hp hposted
    · intro h
      cases h
  rw [handleRawResponse_eq _ hs.1]
  split_ifs
  · exact hanswered.cleanup true
  · exact hanswered

theorem Inv.advance {s : DubboUpstream V} (hi : Inv env s) (a : Await) : Inv env (Dubbo.advance s a) := by
  cases a <;> exact ⟨⟨hi.asserted, hi.once⟩, hi.guard, hi.open_, hi.single, hi.pending, hi.unanswered⟩

theorem Inv.reset {s : DubboUpstream V} (hi : Inv env s) :
    Inv env { s with delivered := s.delivered ++ [.resetStream] } := by
  refine ⟨⟨hi.asserted, ?_⟩, hi.guard, hi.open_, hi.single, hi.pending, ?_⟩
  · rw [responses_reset]
    exact hi.once
  · rw [responses_reset]
    exact hi.unanswered

theorem completes_of_reaction {s : DubboUpstream V} {data : Bytes} {endStream : Bool} {r : Except Bytes Response}
    (h : reaction env s endStream (awaitWith env s data) = some r) : Completes env s data endStream := by
  cases endStream with
  | true => exact .inl rfl
  | false =>
    refine .inr fun b c hw => ?_
    rw [hw] at h
    cases h

/-- One call of an orderly run keeps the invariant. -/
theorem Inv.effect {p : Process V} {e : Event} {t : DubboUpstream V} (hi : Inv env p.upstream) (ho : Orderly env p e)
    (h : Effect env p.upstream p.globalRequestId e t) : Inv env t := by
  cases h with
  | stores _ _ _ hs hp hc hw =>
    refine hi.sameResponse hs ?_ (hp ▸ hi.single) fun h => .inl (hp ▸ h)
    rw [hp, hc]
    exact hi.open_
  | writes _ frame _ _ _ _ _ hs hopen hc hp hw =>
    have hnone : t.posted = [] := hp.trans (hi.open_ hopen)
    exact hi.sameResponse hs (fun _ => hnone) (by simp [hnone]) fun h => absurd hnone h
  | posts _ what headers body hreq hlocal hs hopen hc hp hw =>
    have hone : t.posted = [what] := by rw [hp, hi.open_ hopen]; rfl
    have hfirst := ho.noLateLocalReply headers body hreq hopen hlocal
    exact hi.sameResponse hs (fun h => by rw [hc] at h; cases h) (by simp [hone]) fun _ => .inr hfirst
  | drops what rest resets hp hg =>
    have hrest : rest = [] := by simpa [hp] using hi.single
    subst hrest
    exact hi.sameResponse ⟨rfl, rfl, rfl, rfl, rfl, rfl, rfl, rfl, rfl, rfl⟩ (fun _ => rfl)
      (by simp) fun h => absurd rfl h
  | answersLocal what rest resets r hp hg _ =>
    -- the guard is up, so the reply is the first answer
    have hrest : rest = [] := by simpa [hp] using hi.single
    subst hrest
    have hu : p.upstream.upstreamRequest = true := hi.guard ▸ hg
    have hlive : Live { p.upstream with posted := [] } := ⟨hu, hi.pending (by simp [hp]) hu⟩
    have hpopped : Inv env { p.upstream with posted := [] } :=
      hi.sameResponse ⟨rfl, rfl, rfl, rfl, rfl, rfl, rfl, rfl, rfl, rfl⟩ (fun _ => rfl)
        (by simp) fun h => absurd rfl h
    exact hpopped.answered hlive rfl resets r
  | waits data resets b c hs hd ha => exact hi.advance _
  | answers data endStream resets r hs hd hr =>
    have hnone : p.upstream.posted = [] := by
      by_contra hposted
      exact ho.noEarlyAnswer data endStream resets rfl hposted hs hd (completes_of_reaction hr)
    refine (hi.advance _).answered (live_advance hs _) ?_ resets r
    rw [advance_posted, hnone]
  | closes hu hr => exact (hi.cleanup false).reset
  | cleans _ closeConnection _ => exact hi.cleanup closeConnection

theorem handleRawResponse_quiet {s : DubboUpstream V} (hs : s.upstreamRequest = true) (r : Response) :
    QuietAfterCleanup s (handleRawResponse env r.1 r.2.1 r.2.2 s) where
  before h := by rw [hs] at h; cases h
  within := by
    refine ⟨deliveries env r, handleRawResponse_delivered env hs r, fun body hbody => ?_⟩
    rw [handleRawResponse_eq env hs]
    unfold deliveries at hbody
    simp only at hbody
    split_ifs at hbody with hstop
    · simp at hbody
    · simp only [Bool.or_eq_true, not_or] at hstop
      rw [if_neg hstop.2]
      exact hs

theorem quiet_of_delivered {s t : DubboUpstream V} (h : t.delivered = s.delivered) : QuietAfterCleanup s t :=
  ⟨fun _ => h, [], by simpa using h, by simp⟩

theorem QuietAfterCleanup.of_eq {s s' t : DubboUpstream V} (h : QuietAfterCleanup s t)
    (hd : s.delivered = s'.delivered) (hu : s.upstreamRequest = s'.upstreamRequest) : QuietAfterCleanup s' t := by
  obtain ⟨hbefore, hwithin⟩ := h
  rw [hd] at hbefore hwithin
  rw [hu] at hbefore
  exact ⟨hbefore, hwithin⟩

/-- One call of any run delivers nothing once `cleanup` has run. -/
theorem quiet_effect {p : Process V} {e : Event} {t : DubboUpstream V}
    (hguard : p.upstream.upstreamResetGuard = p.upstream.upstreamRequest)
    (h : Effect env p.upstream p.globalRequestId e t) : QuietAfterCleanup p.upstream t := by
  cases h with
  | stores _ _ _ hs | writes _ _ _ _ _ _ _ hs | posts _ _ _ _ _ _ hs => exact quiet_of_delivered hs.delivered
  | drops | cleans => exact quiet_of_delivered rfl
  | waits => exact quiet_of_delivered (advance_delivered _ _)
  | answersLocal what rest resets r hp hg _ =>
    exact (handleRawResponse_quiet (hguard ▸ hg) r).of_eq rfl rfl
  | answers data endStream resets r hs hd hr =>
    have hadvance := live_advance hs (awaitWith env p.upstream data)
    exact (handleRawResponse_quiet hadvance.1 r).of_eq (advance_delivered _ _) (hadvance.1.trans hs.1.symm)
  | closes hu hr =>
    refine ⟨fun h => ?_, [.resetStream], rfl, by simp⟩
    rw [hu] at h
    cases h

/-- In every state an orderly run reaches, at most one response was delivered
and no assertion has failed; whatever is called next, nothing is delivered
once `cleanup` has run. -/
theorem one_response_of_orderly (id : Int64) {p : Process V} (h : Reach (step env) (Orderly env) ⟨{}, id⟩ p) :
    OneResponse env p.upstream ∧ ∀ e q, step env p e = .ok q → QuietAfterCleanup p.upstream q.upstream := by
  have hi : Inv env p.upstream := by
    refine h.invariant (fun p => Inv env p.upstream) (inv_start env) ?_
    intro p e q hi ho hstep
    exact hi.effect ho (step_effect env hstep)
  refine ⟨hi.toOneResponse, ?_⟩
  intro e q hstep
  exact quiet_effect hi.guard (step_effect env hstep)

end OneResponse

/-- A request on a route without a bridge: two bytes of the upstream arrive
before the local reply runs, and a whole response behind it. -/
def localReplyRun : List Event :=
  [.encodeHeaders plainRequest true, .upstreamData [0xda, 0xbb] false false, .runPosted false,
    .upstreamData (responseFrame statusOk 0 [0x91, 0x97]) false false]

theorem localReply_oneResponse :
    ∃ p, localReplyRun.foldlM (step scalarEnv) ⟨{}, 0⟩ = .ok p ∧ OneResponse scalarEnv p.upstream ∧
      responses p.upstream ≠ [] := by
  have h1 : Reach (step scalarEnv) (Orderly scalarEnv) ⟨{}, 0⟩ _ :=
    .next .start (e := .encodeHeaders plainRequest true) ⟨fun _ _ _ _ _ => rfl, by simp⟩ rfl
  have h2 := h1.next (e := .upstreamData [0xda, 0xbb] false false) ⟨by simp, by
    -- two bytes are no header yet
    rintro _ _ _ ⟨⟩ - - - (h | h)
    · cases h
    · exact h [0xda, 0xbb] none rfl⟩ rfl
  have h3 := h2.next (e := .runPosted false) ⟨by rintro _ _ ⟨⟩, by simp⟩ rfl
  have h4 := h3.next (e := .upstreamData (responseFrame statusOk 0 [0x91, 0x97]) false false) ⟨by rintro _ _ ⟨⟩, by
    rintro _ _ _ ⟨⟩ hposted
    exact absurd rfl hposted⟩ rfl
  exact ⟨_, rfl, (one_response_of_orderly 0 h4).1, by decide⟩

/-- The same route, and a response that arrives before the local reply runs:
the downstream gets both. -/
theorem unsolicited_twoResponses :
    ∃ p, [Event.encodeHeaders plainRequest true, .upstreamData (responseFrame statusOk 0 [0x91, 0x97]) false false,
      .runPosted false].foldlM (step scalarEnv) ⟨{}, 0⟩ = .ok p ∧ p.upstream.asserted = false ∧
      responses p.upstream = [.headers 200 1 false false, .data (ascii "7"), .headers 400 64 false false,
        .data (quote noContextText)] := by
  refine ⟨_, rfl, ?_, ?_⟩
  · rfl
  · decide

end EnvoyProxy.Dubbo
