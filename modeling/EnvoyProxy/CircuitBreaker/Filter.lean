import EnvoyProxy.CircuitBreaker.Impl
import EnvoyProxy.Http.Iteration
/-!
# The circuit breaker filter

`CircuitBreakerFilter` (filter.cc) with the breakers of the process. A local
reply ends the request: what comes after it does not reach the filter.
-/

namespace EnvoyProxy.CircuitBreaker
open Http

variable {D : Type}

/-! ## The manager -/

structure Breaker (D : Type) where
  settings : CircuitBreakerSettings D
  impl : CircuitBreakerImpl D

/-- `CircuitBreakerManagerImpl`: the breakers by their ids. -/
abbrev CircuitBreakerManager (D : Type) := Bytes → Option (Breaker D)

/-- A breaker that is not there yet is made first. -/
def CircuitBreakerManager.isOpen [Doubles D] (m : CircuitBreakerManager D) (uuid : Bytes) (settings : CircuitBreakerSettings D)
    (now : SystemTime) : Bool × CircuitBreakerManager D :=
  let breaker := (m uuid).getD ⟨settings, .create settings⟩
  let (isOpen, impl) := breaker.impl.isOpen now
  (isOpen, Function.update m uuid (some { breaker with impl }))

def CircuitBreakerManager.updateMetrics [Doubles D] (m : CircuitBreakerManager D) (uuid : Bytes) (now : SystemTime) (error : Bool) (rt : Int) :
    CircuitBreakerManager D :=
  match m uuid with
  | none => m
  | some breaker =>
    Function.update m uuid (some { breaker with impl := breaker.impl.updateMetrics breaker.settings now error rt })

/-! ## The filter -/

structure RouteConfig (D : Type) where
  uuid : Bytes
  settings : CircuitBreakerSettings D

/-- What Envoy tells about headers. -/
structure StreamEnv (H : Type) where
  isWebSocketUpgradeRequest : H → Bool
  isH2UpgradeRequest : H → Bool
  /-- `Utility::getResponseStatus` -/
  getResponseStatus : H → Nat

/-- `sendLocalReply`; `modifyHeaders` is done to the headers of the reply. -/
structure LocalReply (H : Type) where
  code : Nat
  body : Bytes
  modifyHeaders : H → H

structure CircuitBreakerFilter (D : Type) where
  routeUuid : Bytes := []
  startTime : SystemTime := 0
  localReplied : Bool := false
  waitBody : Bool := false
  routeConfig : Option (RouteConfig D) := none

/-- The filter of a stream with the breakers and its local replies. -/
structure Stream (D H : Type) where
  filter : CircuitBreakerFilter D := {}
  manager : CircuitBreakerManager D
  replies : List (LocalReply H) := []

namespace Stream
variable {D H : Type} [Doubles D] [HeaderMap H] (env : StreamEnv H)

def abortWithHTTPStatus (settings : CircuitBreakerSettings D) (s : Stream D H) : Stream D H :=
  let body := if settings.httpBody.isEmpty then ascii "circuit breaker filter abort" else settings.httpBody
  let modifyHeaders (headers : H) : H :=
    HeaderMap.set (settings.httpHeaders.foldl (fun h e => HeaderMap.addCopy h (.ofCString e.1.bytes) e.2) headers)
      (headerName "x-envoy-circuitbreaking") (headerValue "true")
  { s with
    filter := { s.filter with localReplied := true }
    replies := s.replies ++ [⟨settings.httpStatus, body, modifyHeaders⟩] }

/-- `route` is the configuration of the route, if there is one. -/
def decodeHeaders (now : SystemTime) (route : Option (RouteConfig D)) (s : Stream D H) (headers : H) (endStream : Bool) :
    Stream D H × FilterHeadersStatus :=
  match route with
  | none => (s, .Continue)
  | some config =>
    let uuid := if s.filter.routeUuid.isEmpty then config.uuid else s.filter.routeUuid
    let (isOpen, manager) := s.manager.isOpen uuid config.settings now
    let s := { s with filter := { s.filter with startTime := now, routeUuid := uuid }, manager }
    if isOpen then
      let waitBody := config.settings.waitBody &&
        !(endStream || env.isWebSocketUpgradeRequest headers || env.isH2UpgradeRequest headers)
      let s := { s with filter := { s.filter with waitBody } }
      if waitBody then ({ s with filter := { s.filter with routeConfig := some config } }, .StopIteration)
      else (s.abortWithHTTPStatus config.settings, .StopIteration)
    else (s, .Continue)

/-- Where the source asserts that there is a configuration, nothing is sent
without one. -/
def decodeData (s : Stream D H) (endStream : Bool) : Stream D H × FilterDataStatus :=
  if s.filter.waitBody then
    if endStream then
      match s.filter.routeConfig with
      | some config => (s.abortWithHTTPStatus config.settings, .StopIterationNoBuffer)
      | none => (s, .StopIterationNoBuffer)
    else (s, .StopIterationNoBuffer)
  else (s, .Continue)

/-- When a response passes; `upstream` has the times of the first byte
received from the upstream and of the first byte sent to it. -/
def encodeHeaders (now : SystemTime) (route : Option (RouteConfig D)) (upstream : Option (Option SystemTime × Option SystemTime))
    (s : Stream D H) (headers : H) : Stream D H × FilterHeadersStatus :=
  if s.filter.localReplied then (s, .Continue)
  else
    match route with
    | none => (s, .Continue)
    | some config =>
      let status := env.getResponseStatus headers
      let error := decide (500 ≤ status ∧ status < 600)
      let rt : Int := match upstream, config.settings.averageResponseTimeThreshold with
        | some (some received, some sent), some _ => (received - sent).tdiv 1000000
        | some _, some threshold => if error then threshold + 1 else (now - s.filter.startTime).tdiv 1000000
        | _, _ => 0
      ({ s with manager := s.manager.updateMetrics s.filter.routeUuid now error rt }, .Continue)

/-- The filter on the way of the request; it neither changes headers nor
data. -/
def decoder (now : SystemTime) (route : Option (RouteConfig D)) : StreamFilter (Stream D H) H where
  onHeaders s headers endStream :=
    let (s, status) := s.decodeHeaders env now route headers endStream
    (s, headers, none, status)
  onData s v endStream :=
    let (s, status) := s.decodeData endStream
    (s, v, status)

/-- A whole request and the response that passes after it: the local reply or
that of the upstream. -/
structure Exchange (D H : Type) where
  /-- When the headers of the request pass, and the route then. -/
  now : SystemTime
  route : Option (RouteConfig D)
  request : H
  data : List Bytes
  trailers : Bool
  /-- When those of the response pass, and the route then. -/
  later : SystemTime
  routeLater : Option (RouteConfig D)
  upstream : Option (Option SystemTime × Option SystemTime)
  response : H

def exchange (x : Exchange D H) (manager : CircuitBreakerManager D) : Stream D H × Pipe H :=
  let (s, p) := (decoder env x.now x.route).run (fun s => !s.replies.isEmpty) { manager } {} (message x.request x.data x.trailers)
  ((s.encodeHeaders env x.later x.routeLater x.upstream x.response).1, p)

/-- Nothing of the request goes on, there is one local reply, and the breakers
do not hear of it. -/
structure Rejected (manager : CircuitBreakerManager D) (s : Stream D H) (p : Pipe H) : Prop where
  held : p.passed = []
  replied : s.replies.length = 1
  unseen : s.manager = manager

/-- The request is held until its end. -/
def waitsForBody (x : Exchange D H) (config : RouteConfig D) : Bool :=
  config.settings.waitBody && !((x.data.isEmpty && !x.trailers) || env.isWebSocketUpgradeRequest x.request ||
    env.isH2UpgradeRequest x.request)

end Stream

namespace CircuitBreakerManager
variable {D : Type} [Doubles D]

/-- The breaker of an id is there and open. -/
def Open (m : CircuitBreakerManager D) (uuid : Bytes) (now : SystemTime) : Prop :=
  ∃ breaker, m uuid = some breaker ∧ (breaker.impl.isOpen now).1 = true

theorem isOpen_open {m : CircuitBreakerManager D} {uuid : Bytes} {now : SystemTime} (h : m.Open uuid now)
    (settings : CircuitBreakerSettings D) : m.isOpen uuid settings now = (true, m) := by
  obtain ⟨breaker, hbreaker, hopen⟩ := h
  have hsame : (breaker.impl.isOpen now).2 = breaker.impl := by
    unfold CircuitBreakerImpl.isOpen at hopen ⊢
    split at hopen
    · rfl
    · split_ifs at hopen ⊢
      rfl
  unfold CircuitBreakerManager.isOpen
  simp only [hbreaker, Option.getD_some, hopen, hsame]
  rw [Function.update_eq_self_iff.2 hbreaker.symm]

end CircuitBreakerManager

namespace Stream
variable {D H : Type} [Doubles D] [HeaderMap H] {env : StreamEnv H} {now : SystemTime} {route : Option (RouteConfig D)}
  {manager : CircuitBreakerManager D}

/-- A request that is held for its end. -/
structure Waiting (config : RouteConfig D) (manager : CircuitBreakerManager D) (s : Stream D H) (p : Pipe H) : Prop where
  waitBody : s.filter.waitBody = true
  routeConfig : s.filter.routeConfig = some config
  manager : s.manager = manager
  replies : s.replies = []
  headers : p.headers.isSome = true
  headersContinued : p.headersContinued = false
  iteration : p.iteration = .StopSingleIteration
  passed : p.passed = []

theorem waiting_data (env : StreamEnv H) (now : SystemTime) (route : Option (RouteConfig D))
    {config : RouteConfig D} {s : Stream D H} {p : Pipe H} (h : Waiting config manager s p) (bytes : Bytes) :
    Waiting config manager ((decoder env now route).receive s p (.data bytes false)).1
      ((decoder env now route).receive s p (.data bytes false)).2 := by
  have hdecode : s.decodeData false = (s, .StopIterationNoBuffer) := by simp [decodeData, h.waitBody]
  have hrun : (decoder env now route).receive s p (.data bytes false) =
      (s, { p with complete := false, iteration := .StopSingleIteration, buffer := p.buffer }) := by
    simp [StreamFilter.receive, decoder, h.iteration, hdecode, Pipe.afterData]
  rw [hrun]
  exact ⟨h.waitBody, h.routeConfig, h.manager, h.replies, h.headers, h.headersContinued, rfl, h.passed⟩

/-- A request that has got its local reply. -/
structure Replied (manager : CircuitBreakerManager D) (s : Stream D H) (p : Pipe H) : Prop where
  passed : p.passed = []
  replies : s.replies.length = 1
  localReplied : s.filter.localReplied = true
  manager : s.manager = manager

theorem replied_run {s : Stream D H} {p : Pipe H} (h : Replied manager s p) (rest : List (Arrival H)) :
    (decoder env now route).run (fun s => !s.replies.isEmpty) s p rest = (s, p) := by
  have hover : (!s.replies.isEmpty) = true := by
    have hlength := h.replies
    rcases hreplies : s.replies with _ | ⟨r, rest⟩
    · simp [hreplies] at hlength
    · rfl
  cases rest with
  | nil => rfl
  | cons a rest => rw [StreamFilter.run, if_pos hover]

theorem waiting_end (env : StreamEnv H) (now : SystemTime) (route : Option (RouteConfig D))
    {config : RouteConfig D} {s : Stream D H} {p : Pipe H} (h : Waiting config manager s p) (bytes : Bytes) :
    Replied manager ((decoder env now route).receive s p (.data bytes true)).1
      ((decoder env now route).receive s p (.data bytes true)).2 := by
  have hdecode : s.decodeData true = (s.abortWithHTTPStatus config.settings, .StopIterationNoBuffer) := by
    simp [decodeData, h.waitBody, h.routeConfig]
  simp only [StreamFilter.receive, decoder, h.iteration, reduceCtorEq, if_false, hdecode]
  refine ⟨h.passed, ?_, rfl, h.manager⟩
  simp [abortWithHTTPStatus, h.replies]

/-- The callback for trailers lets the headers go. -/
theorem waiting_trailers {config : RouteConfig D} {s : Stream D H} {p : Pipe H} (h : Waiting config manager s p) :
    ((decoder env now route).receive s p .trailers).2.passed ≠ [] := by
  obtain ⟨headers, hheaders⟩ := Option.isSome_iff_exists.1 h.headers
  have hpass : ((decoder env now route).receive s p .trailers).2 =
      { p with complete := true, trailers := true }.commonContinue := by
    simp [StreamFilter.receive, Pipe.afterTrailers, h.iteration]
  rw [hpass, Pipe.passed_commonContinue]
  simp [Pipe.held, hheaders]

variable (env now route) in
theorem waiting_frames {config : RouteConfig D} {s : Stream D H} {p : Pipe H} (h : Waiting config manager s p)
    (trailers : Bool) (data : List Bytes) :
    (trailers = true →
        ((decoder env now route).run (fun s => !s.replies.isEmpty) s p (frames trailers data)).2.passed ≠ []) ∧
      (trailers = false → data ≠ [] →
        Replied manager ((decoder env now route).run (fun s => !s.replies.isEmpty) s p (frames trailers data)).1
          ((decoder env now route).run (fun s => !s.replies.isEmpty) s p (frames trailers data)).2) := by
  -- by induction on the frames; only the last can end the wait
  induction data generalizing s p with
  | nil =>
    refine ⟨?_, fun _ hne => absurd rfl hne⟩
    rintro rfl
    simp only [frames, if_true, StreamFilter.run, h.replies, List.isEmpty_nil, Bool.not_true,
      Bool.false_eq_true, if_false]
    exact waiting_trailers h
  | cons bytes rest ih =>
    have hopen : (!s.replies.isEmpty) = false := by simp [h.replies]
    rw [frames, StreamFilter.run, if_neg (by simp [hopen])]
    by_cases hlast : rest = [] ∧ trailers = false
    · obtain ⟨rfl, rfl⟩ := hlast
      refine ⟨by simp, fun _ _ => ?_⟩
      have hreplied := waiting_end env now route h bytes
      simp only [List.isEmpty_nil, Bool.not_false, Bool.and_self]
      rw [replied_run hreplied]
      exact hreplied
    · rw [endStream_eq_false hlast]
      obtain ⟨hreleased, hreplied⟩ := ih (waiting_data env now route h bytes)
      refine ⟨hreleased, fun hno _ => hreplied hno ?_⟩
      intro hempty
      exact hlast ⟨hempty, hno⟩

/-- For every request and every open breaker: the request is rejected, unless
it is held for its body and ends with trailers. -/
theorem rejected_iff (env : StreamEnv H) (x : Exchange D H) (manager : CircuitBreakerManager D) (config : RouteConfig D)
    (hroute : x.route = some config) (hopen : manager.Open config.uuid x.now) :
    Rejected manager (exchange env x manager).1 (exchange env x manager).2 ↔
      ¬ (waitsForBody env x config = true ∧ x.trailers = true) := by
  unfold exchange message
  rw [StreamFilter.run, if_neg (by simp)]
  have hisOpen := CircuitBreakerManager.isOpen_open hopen config.settings
  set endStream := x.data.isEmpty && !x.trailers with hend
  have hwaits : (config.settings.waitBody && !(endStream || env.isWebSocketUpgradeRequest x.request ||
      env.isH2UpgradeRequest x.request)) = waitsForBody env x config := rfl
  cases hwait : waitsForBody env x config with
  | false =>
    have hreplied : Replied manager
      ((decoder env x.now x.route).receive { manager } {} (.headers x.request endStream)).1
        ((decoder env x.now x.route).receive { manager } {} (.headers x.request endStream)).2 := by
      simp only [StreamFilter.receive, decoder, decodeHeaders, hroute, List.isEmpty_nil, if_true,
        hisOpen, hwaits, hwait]
      exact ⟨rfl, rfl, rfl, rfl⟩
    dsimp only
    rw [replied_run hreplied]
    refine iff_of_true ⟨?_, ?_, ?_⟩ (by simp)
    · exact hreplied.passed
    · simpa [encodeHeaders, hreplied.localReplied] using hreplied.replies
    · simpa [encodeHeaders, hreplied.localReplied] using hreplied.manager
  | true =>
    have hwaiting : Waiting config manager
      ((decoder env x.now x.route).receive { manager } {} (.headers x.request endStream)).1
        ((decoder env x.now x.route).receive { manager } {} (.headers x.request endStream)).2 := by
      simp only [StreamFilter.receive, decoder, decodeHeaders, hroute, List.isEmpty_nil, if_true,
        hisOpen, hwaits, hwait]
      exact ⟨rfl, rfl, rfl, rfl, rfl, rfl, rfl, rfl⟩
    obtain ⟨hreleased, hreplied⟩ := waiting_frames env x.now x.route hwaiting x.trailers x.data
    dsimp only
    cases htrailers : x.trailers with
    | true =>
      rw [htrailers] at hreleased
      refine iff_of_false ?_ (by simp)
      intro hrejected
      exact hreleased rfl hrejected.held
    | false =>
      have hdata : x.data ≠ [] := by
        intro hempty
        simp [← hwaits, hend, hempty, htrailers] at hwait
      rw [htrailers] at hreplied
      obtain ⟨hpassed, hreplies, hlocal, hmanager⟩ := hreplied rfl hdata
      refine iff_of_true ⟨hpassed, ?_, ?_⟩ (by simp)
      · simpa [encodeHeaders, hlocal] using hreplies
      · simpa [encodeHeaders, hlocal] using hmanager

end Stream

/-! ## Runs -/

/-- No upgrades, and every response is a success. -/
def plainStream : StreamEnv HeaderList where
  isWebSocketUpgradeRequest _ := false
  isH2UpgradeRequest _ := false
  getResponseStatus _ := 200

/-- A route that waits for bodies. -/
def waitingRoute : RouteConfig ℚ where
  uuid := ascii "goods"
  settings :=
    { consecutiveSlowRequests := 1, averageResponseTimeThreshold := none, errorPercentThreshold := 0, minRequestAmount := 0,
      breakDuration := 1000, httpStatus := 419, waitBody := true }

/-- Its breaker, open for a second. -/
def openBreaker : CircuitBreakerManager ℚ := fun _ =>
  some ⟨waitingRoute.settings, { CircuitBreakerImpl.create waitingRoute.settings with validTime := some 1000000000 }⟩

/-- A request in two frames. -/
def upload (trailers : Bool) : Stream.Exchange ℚ HeaderList where
  now := 0
  route := some waitingRoute
  request := (plainRequest "POST" "foo.com" "/goods").headers
  data := [ascii "aaaaaa", ascii "bbbbbb"]
  trailers := trailers
  later := 1
  routeLater := some waitingRoute
  upstream := none
  response := [⟨headerName ":status", headerValue "200"⟩]

theorem upload_rejected :
    Stream.Rejected openBreaker (Stream.exchange plainStream (upload false) openBreaker).1
      (Stream.exchange plainStream (upload false) openBreaker).2 :=
  (Stream.rejected_iff plainStream (upload false) openBreaker waitingRoute rfl ⟨_, rfl, rfl⟩).2 (by decide)

/-- With trailers the same request goes on, and nothing is replied. -/
theorem upload_with_trailers_released :
    (openBreaker).Open waitingRoute.uuid (upload true).now ∧
      ¬ Stream.Rejected openBreaker (Stream.exchange plainStream (upload true) openBreaker).1
        (Stream.exchange plainStream (upload true) openBreaker).2 := by
  refine ⟨⟨_, rfl, rfl⟩, ?_⟩
  intro hrejected
  have hreplies : (Stream.exchange plainStream (upload true) openBreaker).1.replies.length = 0 := rfl
  rw [hrejected.replied] at hreplies
  cases hreplies

end EnvoyProxy.CircuitBreaker
