import EnvoyProxy.CircuitBreaker.Filter
import EnvoyProxy.CircuitBreaker.Trace
import EnvoyProxy.Lib.Runs
/-!
# Breakers and traffic

Any number of streams over the breakers of one filter configuration
(filter.cc, impl.cc). What a breaker has heard of is written down with the
stream it came from: the requests of its route, and the responses to those of
them that got no local reply (`calls_of_stream`). `stopped_iff_heard`: these
calls alone decide whether the next request of the route is stopped.
-/

namespace EnvoyProxy.CircuitBreaker
open Http

/-! ## Streams -/

/-- A call of a breaker, with the stream that it is made for. -/
structure Heard where
  stream : Nat
  uuid : Bytes
  time : SystemTime
  call : Call
  deriving DecidableEq

structure Session (D H : Type) where
  filter : CircuitBreakerFilter D := {}
  replies : List (LocalReply H) := []
  /-- When the request came, and the configuration of its route. -/
  requested : Option (SystemTime × Option (RouteConfig D)) := none
  responded : Bool := false

structure Traffic (D H : Type) where
  sessions : Nat → Session D H := fun _ => {}
  manager : CircuitBreakerManager D := fun _ => none
  /-- The latest call first. -/
  heard : List Heard := []

inductive TrafficEvent (D H : Type)
  | decodeHeaders (stream : Nat) (now : SystemTime) (route : Option (RouteConfig D)) (headers : H) (endStream : Bool)
  | decodeData (stream : Nat) (endStream : Bool)
  | encodeHeaders (stream : Nat) (now : SystemTime) (route : Option (RouteConfig D))
      (upstream : Option (Option SystemTime × Option SystemTime)) (headers : H)

/-- The calls of one breaker. -/
def callsTo (uuid : Bytes) (heard : List Heard) : History :=
  (heard.filter (·.uuid = uuid)).map fun e => (e.time, e.call)

namespace Session
variable {D H : Type} [Doubles D] [HeaderMap H] (env : StreamEnv H) (s : Session D H)

/-- What a response tells the breaker. -/
def measured (now start : SystemTime) (config : RouteConfig D) (upstream : Option (Option SystemTime × Option SystemTime))
    (headers : H) : Call :=
  let status := env.getResponseStatus headers
  let error := decide (500 ≤ status ∧ status < 600)
  let rt : Int := match upstream, config.settings.averageResponseTimeThreshold with
    | some (some received, some sent), some _ => (received - sent).tdiv 1000000
    | some _, some threshold => if error then threshold + 1 else (now - start).tdiv 1000000
    | _, _ => 0
  .updateMetrics error rt

/-- What the breakers hear of a response: something if its request was let
through or is still held, on a route with a configuration then and now. -/
def hears (i : Nat) (now : SystemTime) (route : Option (RouteConfig D)) (upstream : Option (Option SystemTime × Option SystemTime))
    (headers : H) : List Heard :=
  match s.requested, route with
  | some (start, some requested), some config =>
    if s.replies.isEmpty then [⟨i, requested.uuid, now, measured env now start config upstream headers⟩] else []
  | _, _ => []

end Session

namespace Traffic
variable {D H : Type} [Doubles D] [HeaderMap H] (env : StreamEnv H) (settingsOf : Bytes → CircuitBreakerSettings D)

/-- The filter of a stream with the breakers. -/
def stream (w : Traffic D H) (i : Nat) : Stream D H where
  filter := (w.sessions i).filter
  manager := w.manager
  replies := (w.sessions i).replies

/-- A stream and the breakers after one of its callbacks. -/
def put (w : Traffic D H) (i : Nat) (s : Stream D H) (session : Session D H) (heard : List Heard) : Traffic D H where
  sessions := Function.update w.sessions i { session with filter := s.filter, replies := s.replies }
  manager := s.manager
  heard := heard ++ w.heard

def step (w : Traffic D H) : TrafficEvent D H → Except Empty (Traffic D H)
  | .decodeHeaders i now route headers endStream =>
    let heard := match route with
      | some config => [⟨i, config.uuid, now, .isOpen⟩]
      | none => []
    .ok (w.put i ((w.stream i).decodeHeaders env now route headers endStream).1
      { w.sessions i with requested := some (now, route) } heard)
  | .decodeData i endStream => .ok (w.put i ((w.stream i).decodeData endStream).1 (w.sessions i) [])
  | .encodeHeaders i now route upstream headers =>
    .ok (w.put i ((w.stream i).encodeHeaders env now route upstream headers).1 { w.sessions i with responded := true }
      ((w.sessions i).hears env i now route upstream headers))

/-- A stream has one request and one response, time does not go back, and an
id belongs to one configuration. -/
def Scheduled (w : Traffic D H) : TrafficEvent D H → Prop
  | .decodeHeaders i now route _ _ => (w.sessions i).requested = none ∧ (w.sessions i).responded = false ∧
      (∀ e ∈ w.heard, e.time ≤ now) ∧ ∀ config, route = some config → config.uuid ≠ [] ∧ config.settings = settingsOf config.uuid
  | .decodeData .. => True
  | .encodeHeaders i now _ _ _ => (w.sessions i).responded = false ∧ ∀ e ∈ w.heard, e.time ≤ now

end Traffic

/-! ## One callback -/

/-- A call that measures a response. -/
def CircuitBreakerManager.hear {D : Type} [Doubles D] (m : CircuitBreakerManager D) (uuid : Bytes) (now : SystemTime) :
    Call → CircuitBreakerManager D
  | .updateMetrics error rt => m.updateMetrics uuid now error rt
  | .isOpen => m

namespace Stream
variable {D H : Type} [Doubles D] [HeaderMap H] (env : StreamEnv H) {s : Stream D H}

/-- The filter remembers its local replies. -/
def Marked (s : Stream D H) : Prop := s.filter.localReplied = !s.replies.isEmpty

omit [Doubles D] in
theorem marked_abort (settings : CircuitBreakerSettings D) : (s.abortWithHTTPStatus settings).Marked := by
  simp [Marked, abortWithHTTPStatus]

/-- A request asks the breaker of its route. -/
theorem decodeHeaders_route (hs : s.Marked) (huuid : s.filter.routeUuid = []) (config : RouteConfig D) (now : SystemTime)
    (headers : H) (endStream : Bool) :
    (s.decodeHeaders env now (some config) headers endStream).1.manager =
        (s.manager.isOpen config.uuid config.settings now).2 ∧
      (s.decodeHeaders env now (some config) headers endStream).1.filter.routeUuid = config.uuid ∧
      (s.decodeHeaders env now (some config) headers endStream).1.filter.startTime = now ∧
      (s.decodeHeaders env now (some config) headers endStream).1.Marked ∧
      ((s.decodeHeaders env now (some config) headers endStream).2 = .StopIteration ↔
        (s.manager.isOpen config.uuid config.settings now).1 = true) := by
  unfold decodeHeaders
  simp only [huuid, List.isEmpty_nil, if_true]
  split
  · rename_i hopen
    split
    · exact ⟨rfl, rfl, rfl, hs, iff_of_true rfl hopen⟩
    · exact ⟨rfl, rfl, rfl, marked_abort _, iff_of_true rfl hopen⟩
  · rename_i hopen
    exact ⟨rfl, rfl, rfl, hs, iff_of_false (by simp) hopen⟩

omit [HeaderMap H] in
/-- What of a stream the breakers depend on. -/
structure Same (s s' : Stream D H) : Prop where
  manager : s'.manager = s.manager
  routeUuid : s'.filter.routeUuid = s.filter.routeUuid
  startTime : s'.filter.startTime = s.filter.startTime

omit [Doubles D] in
theorem decodeData_same (hs : s.Marked) (endStream : Bool) :
    Same s (s.decodeData endStream).1 ∧ (s.decodeData endStream).1.Marked := by
  unfold decodeData
  split
  · split
    · split
      · exact ⟨⟨rfl, rfl, rfl⟩, marked_abort _⟩
      · exact ⟨⟨rfl, rfl, rfl⟩, hs⟩
    · exact ⟨⟨rfl, rfl, rfl⟩, hs⟩
  · exact ⟨⟨rfl, rfl, rfl⟩, hs⟩

omit [HeaderMap H] in
/-- A response tells the breaker that its request has asked. -/
theorem encodeHeaders_eq (hs : s.Marked) (now : SystemTime) (route : Option (RouteConfig D))
    (upstream : Option (Option SystemTime × Option SystemTime)) (headers : H) :
    (s.encodeHeaders env now route upstream headers).1 =
      { s with manager := match route with
        | none => s.manager
        | some config =>
          if s.replies.isEmpty then
            s.manager.hear s.filter.routeUuid now (Session.measured env now s.filter.startTime config upstream headers)
          else s.manager } := by
  unfold encodeHeaders
  rw [hs]
  cases route with
  | none => cases s.replies.isEmpty <;> rfl
  | some config => cases s.replies.isEmpty <;> rfl

end Stream

/-! ## The breakers -/

section Breakers
variable {D : Type} [Doubles D] {settingsOf : Bytes → CircuitBreakerSettings D} {m : CircuitBreakerManager D}
  {heard : List Heard} {uuid : Bytes}
  {now : SystemTime} {c : Call}

/-- A breaker after its calls; the first call makes it. -/
def breakerOf (settings : CircuitBreakerSettings D) (h : History) : Option (Breaker D) :=
  if h = [] then none else some ⟨settings, after settings h⟩

/-- Every breaker is the one that its own calls give. -/
def Kept (settingsOf : Bytes → CircuitBreakerSettings D) (m : CircuitBreakerManager D) (heard : List Heard) : Prop :=
  ∀ uuid, m uuid = breakerOf (settingsOf uuid) (callsTo uuid heard)

theorem callsTo_self (i : Nat) : callsTo uuid (⟨i, uuid, now, c⟩ :: heard) = (now, c) :: callsTo uuid heard := by
  simp [callsTo]

theorem callsTo_of_ne {uuid' : Bytes} (h : uuid' ≠ uuid) (i : Nat) : callsTo uuid' (⟨i, uuid, now, c⟩ :: heard) = callsTo uuid' heard := by
  simp [callsTo, Ne.symm h]

theorem Kept.isOpen (h : Kept settingsOf m heard) (i : Nat) (uuid : Bytes) (now : SystemTime) :
    Kept settingsOf (m.isOpen uuid (settingsOf uuid) now).2 (⟨i, uuid, now, .isOpen⟩ :: heard) ∧
      (m.isOpen uuid (settingsOf uuid) now).1 = ((after (settingsOf uuid) (callsTo uuid heard)).isOpen now).1 := by
  have hbreaker : (m uuid).getD ⟨settingsOf uuid, .create (settingsOf uuid)⟩ =
      ⟨settingsOf uuid, after (settingsOf uuid) (callsTo uuid heard)⟩ := by
    rw [h uuid, breakerOf]
    split
    · rename_i hnil
      rw [hnil]
      rfl
    · rfl
  unfold CircuitBreakerManager.isOpen
  rw [hbreaker]
  refine ⟨?_, rfl⟩
  intro uuid'
  by_cases huuid : uuid' = uuid
  · subst huuid
    rw [callsTo_self, breakerOf, if_neg (by simp)]
    simp [after]
  · rw [callsTo_of_ne huuid]
    simp only [Function.update_of_ne huuid]
    exact h uuid'

theorem Kept.hear (h : Kept settingsOf m heard) (hcalls : callsTo uuid heard ≠ []) (hc : c.isUpdate = true) (i : Nat) :
    Kept settingsOf (m.hear uuid now c) (⟨i, uuid, now, c⟩ :: heard) := by
  cases c with
  | isOpen => cases hc
  | updateMetrics error rt =>
    have hbreaker : m uuid = some ⟨settingsOf uuid, after (settingsOf uuid) (callsTo uuid heard)⟩ := by
      rw [h uuid, breakerOf, if_neg hcalls]
    unfold CircuitBreakerManager.hear CircuitBreakerManager.updateMetrics
    simp only [hbreaker]
    intro uuid'
    by_cases huuid : uuid' = uuid
    · subst huuid
      rw [callsTo_self, breakerOf, if_neg (by simp)]
      simp [after]
    · rw [callsTo_of_ne huuid, Function.update_of_ne huuid]
      exact h uuid'

theorem hear_none (h : m uuid = none) (now : SystemTime) (c : Call) : m.hear uuid now c = m := by
  cases c with
  | isOpen => rfl
  | updateMetrics error rt =>
    unfold CircuitBreakerManager.hear CircuitBreakerManager.updateMetrics
    simp only [h]

end Breakers

/-! ## What holds in every state -/

/-- The calls of one stream: its request, and the response to it. -/
def OwnCalls {D H : Type} (i : Nat) (s : Session D H) (own : List Heard) : Prop :=
  match s.requested with
  | some (start, some config) => own = [⟨i, config.uuid, start, .isOpen⟩] ∨
      s.responded = true ∧ ∃ now c, c.isUpdate = true ∧ own = [⟨i, config.uuid, now, c⟩, ⟨i, config.uuid, start, .isOpen⟩]
  | _ => own = []

/-- The id that a stream has from its request. -/
def Session.routeUuid {D H : Type} (s : Session D H) : Bytes :=
  match s.requested with
  | some (_, some config) => config.uuid
  | _ => []

namespace Traffic
variable {D H : Type} [Doubles D] [HeaderMap H] {env : StreamEnv H} {settingsOf : Bytes → CircuitBreakerSettings D}
  {w w' : Traffic D H}

structure Orderly (settingsOf : Bytes → CircuitBreakerSettings D) (w : Traffic D H) : Prop where
  kept : Kept settingsOf w.manager w.heard
  ordered : w.heard.Pairwise fun later earlier => earlier.time ≤ later.time
  marked : ∀ i, (w.stream i).Marked
  routeUuid : ∀ i, (w.sessions i).filter.routeUuid = (w.sessions i).routeUuid
  startTime : ∀ i start config, (w.sessions i).requested = some (start, some config) → (w.sessions i).filter.startTime = start
  own : ∀ i, OwnCalls i (w.sessions i) (w.heard.filter (·.stream = i))
  named : ∀ e ∈ w.heard, e.uuid ≠ []

omit [HeaderMap H] in
/-- A request has called the breaker of its route. -/
theorem Orderly.asked (h : w.Orderly settingsOf) {i : Nat} {start : SystemTime} {config : RouteConfig D}
    (hrequested : (w.sessions i).requested = some (start, some config)) : callsTo config.uuid w.heard ≠ [] := by
  have hown := h.own i
  unfold OwnCalls at hown
  rw [hrequested] at hown
  have hmem : (⟨i, config.uuid, start, .isOpen⟩ : Heard) ∈ w.heard.filter (·.stream = i) := by
    rcases hown with hown | ⟨-, now, c, -, hown⟩ <;> simp [hown]
  intro hnil
  unfold callsTo at hnil
  rw [List.map_eq_nil_iff, List.filter_eq_nil_iff] at hnil
  exact hnil _ (List.mem_of_mem_filter hmem) (by simp)

omit [HeaderMap H] in
/-- One stream goes on, with what it tells the breakers. -/
theorem Orderly.put (h : w.Orderly settingsOf) {i : Nat} {s : Stream D H} {session : Session D H} {heard : List Heard}
    (hkept : Kept settingsOf s.manager (heard ++ w.heard))
    (hordered : (heard ++ w.heard).Pairwise fun later earlier => earlier.time ≤ later.time)
    (hmarked : s.Marked) (huuid : s.filter.routeUuid = session.routeUuid)
    (hstart : ∀ start config, session.requested = some (start, some config) → s.filter.startTime = start)
    (hstream : ∀ e ∈ heard, e.stream = i ∧ e.uuid ≠ []) (hown : OwnCalls i session (heard ++ w.heard.filter (·.stream = i))) :
    (w.put i s session heard).Orderly settingsOf where
  kept := hkept
  ordered := hordered
  marked k := by
    unfold Traffic.put Traffic.stream Stream.Marked
    by_cases hk : k = i
    · subst hk
      simp only [Function.update_self]
      exact hmarked
    · simp only [Function.update_of_ne hk]
      exact h.marked k
  routeUuid k := by
    unfold Traffic.put
    by_cases hk : k = i
    · subst hk
      simp only [Function.update_self]
      exact huuid
    · simp only [Function.update_of_ne hk]
      exact h.routeUuid k
  startTime k := by
    unfold Traffic.put
    by_cases hk : k = i
    · subst hk
      simp only [Function.update_self]
      exact hstart
    · simp only [Function.update_of_ne hk]
      exact h.startTime k
  own k := by
    unfold Traffic.put
    rw [List.filter_append]
    by_cases hk : k = i
    · subst hk
      have hall : heard.filter (·.stream = k) = heard := List.filter_eq_self.2 fun e he => by simp [(hstream e he).1]
      rw [hall]
      simp only [Function.update_self]
      exact hown
    · have hnone : heard.filter (·.stream = k) = [] := by
        refine List.filter_eq_nil_iff.2 fun e he => ?_
        simp [(hstream e he).1, Ne.symm hk]
      rw [hnone, List.nil_append]
      simp only [Function.update_of_ne hk]
      exact h.own k
  named e he := (List.mem_append.1 he).elim (fun he => (hstream e he).2) (h.named e)

theorem Orderly.decodeHeaders (h : w.Orderly settingsOf) {i : Nat} {now : SystemTime} {route : Option (RouteConfig D)} {headers : H}
    {endStream : Bool} (hsched : w.Scheduled settingsOf (.decodeHeaders i now route headers endStream))
    (hstep : w.step env (.decodeHeaders i now route headers endStream) = .ok w') : w'.Orderly settingsOf := by
  obtain ⟨hrequested, -, hlast, hconfig⟩ := hsched
  have huuid : (w.stream i).filter.routeUuid = [] := by
    show (w.sessions i).filter.routeUuid = []
    rw [h.routeUuid i, Session.routeUuid, hrequested]
  have hown : w.heard.filter (·.stream = i) = [] := by
    have hown := h.own i
    unfold OwnCalls at hown
    rwa [hrequested] at hown
  cases route with
  | none =>
    cases hstep
    exact h.put h.kept h.ordered (h.marked i) huuid (by simp) (by simp) hown
  | some config =>
    obtain ⟨hname, hsettings⟩ := hconfig config rfl
    obtain ⟨hmanager, huuid', hstart, hmarked, -⟩ :=
      Stream.decodeHeaders_route env (h.marked i) huuid config now headers endStream
    cases hstep
    refine h.put ?_ ?_ hmarked huuid' ?_ (by simpa using hname) (.inl ?_)
    · rw [hmanager, hsettings]
      exact (h.kept.isOpen i config.uuid now).1
    · exact List.pairwise_cons.2 ⟨hlast, h.ordered⟩
    · rintro start config' ⟨⟩
      exact hstart
    · rw [hown]
      rfl

omit [HeaderMap H] in
/-- There is no breaker without an id. -/
theorem Orderly.unnamed (h : w.Orderly settingsOf) : w.manager [] = none := by
  have hnil : callsTo [] w.heard = [] := by
    unfold callsTo
    rw [List.map_eq_nil_iff, List.filter_eq_nil_iff]
    intro e he
    simpa using h.named e he
  rw [h.kept [], hnil]
  rfl

theorem Orderly.encodeHeaders (h : w.Orderly settingsOf) {i : Nat} {now : SystemTime} {route : Option (RouteConfig D)} {headers : H}
    {upstream : Option (Option SystemTime × Option SystemTime)}
    (hsched : w.Scheduled settingsOf (.encodeHeaders i now route upstream headers))
    (hstep : w.step env (.encodeHeaders i now route upstream headers) = .ok w') : w'.Orderly settingsOf := by
  obtain ⟨hresponded, hlast⟩ := hsched
  have heq := Stream.encodeHeaders_eq env (h.marked i) now route upstream headers
  have hown := h.own i
  have hput : ∀ heard, (w.sessions i).hears env i now route upstream headers = heard →
      Kept settingsOf ((w.stream i).encodeHeaders env now route upstream headers).1.manager (heard ++ w.heard) →
      (∀ e ∈ heard, e.stream = i ∧ e.uuid ≠ [] ∧ e.time = now) → heard.length ≤ 1 →
      OwnCalls i { w.sessions i with responded := true } (heard ++ w.heard.filter (·.stream = i)) → w'.Orderly settingsOf := by
    intro heard hhears hkept hheard hlength hcalls
    cases hstep
    rw [hhears]
    refine h.put hkept ?_ ?_ ?_ ?_ (fun e he => ⟨(hheard e he).1, (hheard e he).2.1⟩) hcalls
    · refine List.pairwise_append.2 ⟨?_, h.ordered, fun e he e' he' => (hheard e he).2.2 ▸ hlast e' he'⟩
      rcases heard with _ | ⟨e, _ | ⟨e', rest⟩⟩
      · exact .nil
      · exact List.pairwise_singleton _ _
      · simp at hlength
    · rw [heq]
      exact h.marked i
    · rw [heq]
      exact h.routeUuid i
    · rw [heq]
      exact h.startTime i
  -- a stream that has asked no breaker is not heard
  have hunasked : (w.sessions i).routeUuid = [] →
      ((w.stream i).encodeHeaders env now route upstream headers).1.manager = w.manager := by
    intro huuid
    rw [heq]
    dsimp only
    cases route with
    | none => rfl
    | some config =>
      dsimp only
      split
      · rw [show (w.stream i).filter.routeUuid = [] from (h.routeUuid i).trans huuid]
        exact hear_none h.unnamed now _
      · rfl
  rcases hrequested : (w.sessions i).requested with _ | ⟨start, _ | requested⟩
  · have hquiet := hunasked (by simp [Session.routeUuid, hrequested])
    refine hput [] (by simp [Session.hears, hrequested]) (by rw [hquiet]; exact h.kept) (by simp) (by simp) ?_
    simpa [OwnCalls, hrequested] using hown
  · have hquiet := hunasked (by simp [Session.routeUuid, hrequested])
    refine hput [] (by simp [Session.hears, hrequested]) (by rw [hquiet]; exact h.kept) (by simp) (by simp) ?_
    simpa [OwnCalls, hrequested] using hown
  · have huuid : (w.stream i).filter.routeUuid = requested.uuid := by
      show (w.sessions i).filter.routeUuid = _
      rw [h.routeUuid i, Session.routeUuid, hrequested]
    have hfirst : w.heard.filter (·.stream = i) = [⟨i, requested.uuid, start, .isOpen⟩] := by
      simpa [OwnCalls, hrequested, hresponded] using hown
    have hsilent : (w.sessions i).hears env i now route upstream headers = [] →
        ((w.stream i).encodeHeaders env now route upstream headers).1.manager = w.manager → w'.Orderly settingsOf := by
      intro hhears hquiet
      refine hput [] hhears (by rw [hquiet]; exact h.kept) (by simp) (by simp) ?_
      unfold OwnCalls
      simp only [hrequested]
      exact .inl hfirst
    cases route with
    | none => exact hsilent (by simp [Session.hears, hrequested]) (by rw [heq]; rfl)
    | some config =>
      by_cases hreplies : (w.sessions i).replies.isEmpty = true
      · refine hput [⟨i, requested.uuid, now, Session.measured env now start config upstream headers⟩]
          (by simp [Session.hears, hrequested, hreplies]) ?_ ?_ (by simp) ?_
        · rw [heq, huuid, show (w.stream i).filter.startTime = start from h.startTime i start requested hrequested]
          dsimp only
          rw [if_pos (show (w.stream i).replies.isEmpty = true from hreplies)]
          exact h.kept.hear (h.asked hrequested) rfl i
        · intro e he
          rw [List.mem_singleton.1 he]
          have hmem : (⟨i, requested.uuid, start, .isOpen⟩ : Heard) ∈ w.heard.filter (·.stream = i) := by simp [hfirst]
          have hname : requested.uuid ≠ [] := h.named _ (List.mem_of_mem_filter hmem)
          exact ⟨rfl, hname, rfl⟩
        · unfold OwnCalls
          simp only [hrequested]
          exact .inr ⟨trivial, now, _, rfl, by rw [hfirst]; rfl⟩
      · refine hsilent (by simp [Session.hears, hrequested, hreplies]) ?_
        rw [heq]
        exact if_neg hreplies

theorem Orderly.decodeData (h : w.Orderly settingsOf) {i : Nat} {endStream : Bool}
    (hstep : w.step env (.decodeData i endStream) = .ok w') : w'.Orderly settingsOf := by
  obtain ⟨hsame, hmarked⟩ := Stream.decodeData_same (h.marked i) endStream
  cases hstep
  refine h.put ?_ h.ordered hmarked ?_ ?_ (by simp) (h.own i)
  · rw [hsame.manager]
    exact h.kept
  · rw [hsame.routeUuid]
    exact h.routeUuid i
  · rw [hsame.startTime]
    exact h.startTime i

omit [HeaderMap H] in
theorem start_orderly : Orderly settingsOf ({} : Traffic D H) where
  kept _ := rfl
  ordered := .nil
  marked _ := by simp [Stream.Marked, stream]
  routeUuid _ := rfl
  startTime _ _ _ hrequested := by cases hrequested
  own _ := rfl
  named _ he := by cases he

theorem orderly_of_reach (h : Reach (step env) (Scheduled settingsOf) ({} : Traffic D H) w) : w.Orderly settingsOf := by
  refine h.invariant (Orderly settingsOf) start_orderly ?_
  intro w e w' hw hsched hstep
  cases e with
  | decodeHeaders => exact hw.decodeHeaders hsched hstep
  | decodeData => exact hw.decodeData hstep
  | encodeHeaders => exact hw.encodeHeaders hsched hstep

end Traffic

/-! ## What the breakers hear, and what they say -/

theorem slowInARow_le_length (p : Policy) (h : History) : slowInARow p h ≤ h.length := by
  induction h with
  | nil => exact le_rfl
  | cons e h ih =>
    obtain ⟨now, _ | _⟩ := e
    · rw [slowInARow, List.length_cons]
      split_ifs <;> omega
    · rw [slowInARow, List.length_cons]
      split_ifs <;> omega

theorem fewSlow_of_length (p : Policy) {h : History} (hlength : h.length < 2 ^ 32) : FewSlow p h := by
  induction h with
  | nil => trivial
  | cons e h ih =>
    refine ⟨(slowInARow_le_length p _).trans_lt hlength, ih ?_⟩
    rw [List.length_cons] at hlength
    omega

namespace Traffic
variable {D H : Type} [Doubles D] [HeaderMap H] {env : StreamEnv H} {settingsOf : Bytes → CircuitBreakerSettings D}
  {w : Traffic D H}

/-- In every run of any number of streams, each breaker is in the state that
its own calls give, and these are: each request on its route when it comes,
and once the response to it, under the id that the route had for the request.
Streams without such a route are not heard. -/
theorem calls_of_stream (h : Reach (step env) (Scheduled settingsOf) ({} : Traffic D H) w) :
    (∀ uuid, w.manager uuid = breakerOf (settingsOf uuid) (callsTo uuid w.heard)) ∧
    ∀ i, (∀ start config, (w.sessions i).requested = some (start, some config) →
      w.heard.filter (·.stream = i) = [⟨i, config.uuid, start, .isOpen⟩] ∨
      (w.sessions i).responded = true ∧ ∃ now c, c.isUpdate = true ∧
        w.heard.filter (·.stream = i) = [⟨i, config.uuid, now, c⟩, ⟨i, config.uuid, start, .isOpen⟩]) ∧
    ((∀ start config, (w.sessions i).requested ≠ some (start, some config)) → w.heard.filter (·.stream = i) = []) := by
  have horderly := orderly_of_reach h
  refine ⟨horderly.kept, fun i => ?_⟩
  have hown := horderly.own i
  unfold OwnCalls at hown
  constructor
  · intro start config hrequested
    simpa only [hrequested] using hown
  · intro hnot
    split at hown
    · rename_i start config hrequested
      exact absurd hrequested (hnot start config)
    · exact hown

/-- In every run with fewer than 2^32 calls, and for any doubles that count
them without rounding: the next request on a route is stopped exactly when,
among the requests and responses of this route alone, some call has opened the
breaker, no call has seen the end of that break, and it is not over. Ratios and
times are those that the code computes. What other routes do does not matter. -/
theorem stopped_iff_heard (hcount : Window.Exact (count D) (· < 2 ^ 53))
    (h : Reach (step env) (Scheduled settingsOf) ({} : Traffic D H) w) (hfew : w.heard.length < 2 ^ 32)
    {i : Nat} {now : SystemTime} {config : RouteConfig D} {headers : H} {endStream : Bool}
    (hsched : w.Scheduled settingsOf (.decodeHeaders i now (some config) headers endStream)) :
    ((w.stream i).decodeHeaders env now (some config) headers endStream).2 = .StopIteration ↔
      ∃ start, Latest config.settings.computed (callsTo config.uuid w.heard) start ∧
        now ≤ config.settings.computed.breakEnd start := by
  have horderly := orderly_of_reach h
  obtain ⟨hrequested, -, -, hconfig⟩ := hsched
  obtain ⟨-, hsettings⟩ := hconfig config rfl
  have huuid : (w.stream i).filter.routeUuid = [] := by
    show (w.sessions i).filter.routeUuid = []
    rw [horderly.routeUuid i, Session.routeUuid, hrequested]
  obtain ⟨-, -, -, -, hstop⟩ := Stream.decodeHeaders_route env (horderly.marked i) huuid config now headers endStream
  have hordered : Ordered (callsTo config.uuid w.heard) := by
    unfold Ordered callsTo
    rw [List.pairwise_map]
    exact horderly.ordered.filter _
  have hlength : (callsTo config.uuid w.heard).length < 2 ^ 32 := by
    unfold callsTo
    rw [List.length_map]
    exact (List.length_filter_le _ _).trans_lt hfew
  have hagrees : Agrees (settingsOf config.uuid) _ _ :=
    after_agrees hcount hordered (fun n hn => (hn.trans_lt hlength).trans (by norm_num)) (fewSlow_of_length _ hlength)
  rw [hstop, hsettings]
  show (w.manager.isOpen config.uuid (settingsOf config.uuid) now).1 = true ↔ _
  rw [(horderly.kept.isOpen i config.uuid now).2]
  exact hagrees.isOpen now

end Traffic

/-! ## Two routes -/

def routeA : RouteConfig ℚ := ⟨ascii "a", oneSlow⟩

def routeB : RouteConfig ℚ := ⟨ascii "b", oneSlow⟩

/-- A request on the first route, and its response after five milliseconds. -/
def afterSlow : Traffic ℚ HeaderList where
  sessions := Function.update (Function.update (fun _ => {}) 0
      { filter := { routeUuid := ascii "a" }, requested := some (0, some routeA) }) 0
    { filter := { routeUuid := ascii "a" }, requested := some (0, some routeA), responded := true }
  manager := CircuitBreakerManager.hear (CircuitBreakerManager.isOpen (fun _ => none) (ascii "a") oneSlow 0).2 (ascii "a") 6000000
    (.updateMetrics false 5)
  heard := [⟨0, ascii "a", 6000000, .updateMetrics false 5⟩, ⟨0, ascii "a", 0, .isOpen⟩]

theorem afterSlow_reached :
    Reach (Traffic.step plainStream) (Traffic.Scheduled fun _ => oneSlow) ({} : Traffic ℚ HeaderList) afterSlow := by
  have h₁ := (reach_start (Traffic.step plainStream) (Traffic.Scheduled fun _ => oneSlow) ({} : Traffic ℚ HeaderList)).next
    (e := .decodeHeaders 0 0 (some routeA) (plainRequest "GET" "h" "/").headers true) (by
      refine ⟨rfl, rfl, by simp, ?_⟩
      rintro config ⟨⟩
      exact ⟨by decide, rfl⟩) rfl
  exact h₁.next (e := .encodeHeaders 0 6000000 (some routeA) (some (some 5000000, some 0)) []) (by
    refine ⟨rfl, ?_⟩
    intro e he
    rw [List.mem_singleton.1 he]
    decide) rfl

/-- The breaker of the first route has heard of both. -/
theorem slow_heard : ∃ now c, c.isUpdate = true ∧
    afterSlow.heard.filter (·.stream = 0) = [⟨0, ascii "a", now, c⟩, ⟨0, ascii "a", 0, .isOpen⟩] :=
  ((((Traffic.calls_of_stream afterSlow_reached).2 0).1 0 routeA rfl).resolve_left (by decide)).2

/-- It stops the next request on its route, and the other route goes on. -/
theorem other_route_goes_on :
    ((afterSlow.stream 1).decodeHeaders plainStream 7000000 (some routeA) (plainRequest "GET" "h" "/").headers true).2 =
        .StopIteration ∧
      ((afterSlow.stream 1).decodeHeaders plainStream 7000000 (some routeB) (plainRequest "GET" "h" "/").headers true).2 ≠
        .StopIteration := by
  have hlast : ∀ e ∈ afterSlow.heard, e.time ≤ 7000000 := by decide
  have hcount : Window.Exact (count ℚ) (· < 2 ^ 53) :=
    ⟨exact_count.zero, fun m n _ => exact_count.add m n trivial, fun m n hle => (Nat.le_add_right m n).trans_lt hle⟩
  constructor
  · refine (Traffic.stopped_iff_heard hcount afterSlow_reached (by decide) ⟨rfl, rfl, hlast, ?_⟩).2 ⟨6000000, ?_, by decide⟩
    · rintro config ⟨⟩
      exact ⟨by decide, rfl⟩
    · exact inForce_eq_some.1 (by decide)
  · refine (Traffic.stopped_iff_heard hcount afterSlow_reached (by decide) ⟨rfl, rfl, hlast, ?_⟩).not.2 ?_
    · rintro config ⟨⟩
      exact ⟨by decide, rfl⟩
    · rintro ⟨start, hlatest, -⟩
      cases inForce_eq_some.2 hlatest

end EnvoyProxy.CircuitBreaker
