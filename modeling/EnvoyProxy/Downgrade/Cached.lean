import EnvoyProxy.Cache.Insertion
import EnvoyProxy.Cache.Streams
import EnvoyProxy.Downgrade.Streams
/-!
# Downgrade from a cache

Any number of streams with the dynamic filter (dynamic_downgrade_filter.cc)
over the caches of one configuration. A stream whose response is good may
store it, a stream whose response is not asks the caches for another one.
`Collected` says what a stream has stored at any time, and `Moves` what a
step does to it.
-/

namespace EnvoyProxy.Downgrade
open Json Http HeaderMap DowngradeFilter Cache HttpCacheEntry

/-! ## Streams and caches -/

/-- `DynamicDowngradeRouteConfig` -/
structure DynamicRouteConfig (H : Type) extends RouteConfig H where
  keyMaker : KeyMakerConfig := {}
  cacheTtls : List (Bytes × CacheTTL) := []

structure DynamicStream (H : Type) where
  stream : Stream H := { filter := {} }
  /-- The request and its route, as they were when the filter saw them. -/
  decoded : Option (H × Option (DynamicRouteConfig H)) := none
  /-- The key that the response is stored under, or is looked up. -/
  cacheKey : Option CacheKeyType := none
  sender : Option CacheRequestSender := none
  /-- The levels that have not called their callback. -/
  waiting : List Nat := []
  /-- The response so far. -/
  arrived : List (Arrival H) := []

structure DynamicWorld (H : Type) where
  streams : Nat → DynamicStream H := fun _ => {}
  /-- What was inserted: under a key, at a level. -/
  stored : List (CacheKeyType × Nat × HttpCacheEntry H) := []
  /-- What the caches gave to a stream. -/
  given : List (Nat × ResponseMessage H) := []

inductive DynamicEvent (H : Type)
  | decodeHeaders (stream : Nat) (headers : H) (route : Option (DynamicRouteConfig H))
  | decodeData (stream : Nat) (data : Bytes)
  /-- A filter behind this one changes the request. -/
  | setHeaders (stream : Nat) (headers : H)
  /-- `answer` is what another sender than that of the caches does. -/
  | arrival (stream : Nat) (a : Arrival H) (answer : Answer H) (now : UInt64)
  /-- A level calls its callback. -/
  | answer (stream level : Nat) (entry : Option (HttpCacheEntry H))
  /-- The other sender calls back. -/
  | remote (stream : Nat) (response : Option (ResponseMessage H))
  | onDestroy (stream : Nat)

/-- Whether a part of a response ends it. -/
def Arrival.ends {H : Type} : Arrival H → Bool
  | .headers _ endStream | .data _ endStream => endStream
  | .trailers => true

/-- What the next part of a response has before it. -/
def Follows {H : Type} (arrived : List (Arrival H)) : Arrival H → Prop
  | .headers .. => arrived = []
  | _ => arrived ≠ [] ∧ ∀ b ∈ arrived, Arrival.ends b = false

section Steps
variable {H : Type} [HeaderMap H] (env : FilterEnv) (json : Rapidjson) (caches : Option (List CacheType))

/-- The names of the levels; there may be none. -/
def usedCaches : List Bytes := (caches.getD []).map CacheType.name

/-- What `CacheRequestSender::sendRequest` returns; it calls nothing back
before that. -/
def lookupAnswer : Answer H := ⟨if usedCaches caches = [] then .FAILED else .ONCALL, none⟩

/-- What a sender tells the filter. -/
def tells (sender : CacheRequestSender) : List (Ask (HttpCacheEntry H)) → CacheRequestSender × Option (Told H)
  | [.onSuccess entry] => ((sender.onSuccess entry).1, some (sender.onSuccess entry).2)
  | [.onFailure] => ((sender.onFailure (H := H)).1, some (sender.onFailure (H := H)).2)
  | _ => (sender, none)

namespace DynamicStream
variable (s : DynamicStream H)

def cachedRoute : Option (DynamicRouteConfig H) :=
  (s.decoded.bind (·.2)).filter (·.downgradeWithCache)

/-- `cacheConfig()->cacheKey(*rqx_headers_)` -/
def keyOf (route : DynamicRouteConfig H) : Except FilterFault CacheKeyType :=
  match s.stream.filter.rqxHeaders.bind requestOf with
  | none => .error .nullPointer
  | some request => .ok (Cache.cacheKey env.hash env.util route.keyMaker (ascii "downgrade") request)

/-- What the caches get of the responses that the filter has inserted since. -/
def insertions (route : DynamicRouteConfig H) (before : DowngradeFilter H) (now : UInt64) :
    List (CacheKeyType × Nat × HttpCacheEntry H) :=
  match s.cacheKey with
  | none => []
  | some key =>
    (s.stream.filter.inserted.drop before.inserted.length).flatMap fun message =>
      (CacheRequestSender.insertResponse (usedCaches caches) route.cacheTtls {} key message now).2.map (key, ·)

end DynamicStream

namespace DynamicWorld

def setStream (w : DynamicWorld H) (i : Nat) (s : DynamicStream H) : DynamicWorld H :=
  { w with streams := Function.update w.streams i s }

/-- A stream goes on, without the caches. -/
def advance (w : DynamicWorld H) (i : Nat) (answer : Answer H) (event : Event H) : DynamicWorld H :=
  w.setStream i { w.streams i with stream := (w.streams i).stream.step dynamicDowngrade answer event }

/-- A part of a response, on a route with the caches. -/
def arriveCached (w : DynamicWorld H) (i : Nat) (route : DynamicRouteConfig H) (a : Arrival H) (now : UInt64) :
    Except FilterFault (DynamicWorld H) :=
  let before := (w.streams i).stream.filter
  let stream := (w.streams i).stream.step dynamicDowngrade (lookupAnswer caches) (.arrival a)
  let s := { w.streams i with stream, arrived := (w.streams i).arrived ++ [a] }
  match a with
  | .headers .. =>
    if stream.filter.shouldDowngrade || stream.filter.shouldCacheRpx then
      match caches with
      | none => .error .nullPointer
      | some _ => do
        let key ← (w.streams i).keyOf env route
        let s := { s with cacheKey := some key }
        if stream.filter.shouldDowngrade then
          match CacheRequestSender.sendRequest (usedCaches caches) {} key with
          | .error fault => .error (.sender fault)
          | .ok (_, sender, asks) =>
            return w.setStream i
              { s with
                sender := some sender
                waiting := (asks : List (Ask (HttpCacheEntry H))).filterMap Ask.level }
        else return { w.setStream i s with stored := s.insertions caches route before now ++ w.stored }
    else .ok (w.setStream i s)
  | _ => .ok { w.setStream i s with stored := s.insertions caches route before now ++ w.stored }

def step (w : DynamicWorld H) : DynamicEvent H → Except FilterFault (DynamicWorld H)
  | .decodeHeaders i headers route =>
    let s := w.streams i
    let filter := (s.stream.filter.decodeHeaders (route.map (·.toRouteConfig)) headers).1
    .ok (w.setStream i { s with stream := { s.stream with filter }, decoded := some (headers, route) })
  | .decodeData i data =>
    let s := w.streams i
    .ok (w.setStream i { s with stream := { s.stream with filter := (s.stream.filter.decodeData dynamicDowngrade data).1 } })
  | .setHeaders i headers =>
    let s := w.streams i
    .ok (w.setStream i { s with stream := { s.stream with filter := { s.stream.filter with rqxHeaders := some headers } } })
  | .arrival i a answer now =>
    if (w.streams i).stream.destroyed then .ok w
    else
      match (w.streams i).cachedRoute with
      | some route => w.arriveCached env caches i route a now
      | none =>
        let w := w.advance i answer (.arrival a)
        .ok (w.setStream i { w.streams i with arrived := (w.streams i).arrived ++ [a] })
  | .answer i level entry =>
    match (w.streams i).sender with
    | none => .error .nullPointer
    | some sender =>
      match sender.cacheLookupCallback (usedCaches caches) entry with
      | .error fault => .error (.sender fault)
      | .ok (getter, asks) =>
        let (sender, told) := tells { sender with toCacheGetterSetter := getter } asks
        let waiting := (w.streams i).waiting.erase level ++ asks.filterMap Ask.level
        let w := w.setStream i { w.streams i with sender := some sender, waiting }
        match told with
        | none => .ok w
        | some .onFailure => .ok (w.advance i (lookupAnswer caches) .onFailure)
        | some (.onSuccess response) =>
          .ok { w.advance i (lookupAnswer caches) (.onSuccess response) with given := (i, response) :: w.given }
  | .remote i none => .ok (w.advance i (lookupAnswer caches) .onFailure)
  | .remote i (some response) => .ok (w.advance i (lookupAnswer caches) (.onSuccess response))
  | .onDestroy i =>
    let s := w.streams i
    -- a lookup that is on its way is cancelled
    let sender := if s.stream.filter.isSendingRequest then
        s.sender.map fun sender => { sender with toCacheGetterSetter := sender.cancelLookup }
      else s.sender
    .ok ((w.setStream i { s with sender }).advance i (lookupAnswer caches) .onDestroy)

/-- A response comes in order, a stream has one request, a level calls its
callback once, and it has what was inserted there. -/
def Scheduled (w : DynamicWorld H) : DynamicEvent H → Prop
  | .decodeHeaders i _ _ => (w.streams i).decoded = none ∧ (w.streams i).arrived = []
  | .arrival i a _ _ => Follows (w.streams i).arrived a
  | .answer i level entry => level ∈ (w.streams i).waiting ∧ ∀ e, entry = some e → ∃ sender type kept,
      (w.streams i).sender = some sender ∧ (caches.getD [])[level]? = some type ∧
      (sender.cacheKey, level, kept) ∈ w.stored ∧ type.found json kept = .ok (some e)
  | .remote i _ => (w.streams i).cachedRoute = none
  | _ => True

end DynamicWorld

/-! ## What the filter leaves alone -/

/-- Nothing is kept for the caches, and nothing more is inserted. -/
structure Settled (inserted : List (ResponseMessage H)) (f : DowngradeFilter H) : Prop where
  responseToCache : f.responseToCache = none
  inserted : f.inserted = inserted

namespace Settled
variable {inserted : List (ResponseMessage H)} {f : DowngradeFilter H}

theorem onSuccess (h : Settled inserted f) (response : ResponseMessage H) :
    Settled inserted (f.onSuccess dynamicDowngrade response).1 := by
  unfold DowngradeFilter.onSuccess
  dsimp only
  split_ifs <;> exact ⟨h.responseToCache, h.inserted⟩

omit [HeaderMap H] in
theorem onFailure (h : Settled inserted f) : Settled inserted f.onFailure.1 := by
  unfold DowngradeFilter.onFailure
  split_ifs <;> exact ⟨h.responseToCache, h.inserted⟩

theorem sendRequest (h : Settled inserted f) (config : RouteConfig H) (answer : Answer H) :
    Settled inserted (f.sendRequest dynamicDowngrade config answer) := by
  unfold DowngradeFilter.sendRequest
  dsimp only
  split
  · exact ⟨h.responseToCache, h.inserted⟩
  · exact onFailure ⟨h.responseToCache, h.inserted⟩
  · refine onSuccess ?_ _
    exact ⟨h.responseToCache, h.inserted⟩

omit [HeaderMap H] in
theorem encodeData (h : Settled inserted f) (v : DataView) (endStream : Bool) :
    Settled inserted (f.encodeData v endStream).1 := by
  unfold DowngradeFilter.encodeData
  split
  · exact h
  split
  · dsimp only
    rw [h.responseToCache]
    exact ⟨rfl, h.inserted⟩
  · dsimp only
    split
    · exact ⟨h.responseToCache, h.inserted⟩
    · exact h

variable {s : Stream H} {answer : Answer H}

theorem continueEncoding (h : Settled inserted s.filter) :
    Settled inserted (s.continueEncoding dynamicDowngrade answer).filter := by
  unfold Stream.continueEncoding StreamFilter.resume
  dsimp only
  split
  · split
    · exact h
    · exact h.encodeData _ _
  · exact h

/-- Whatever comes but headers. -/
theorem step (h : Settled inserted s.filter) {e : Event H} (he : e.isHeaders = false) :
    Settled inserted (s.step dynamicDowngrade answer e).filter := by
  unfold Stream.step
  cases e with
  | arrival a =>
    dsimp only
    split
    · exact h
    cases a with
    | headers => cases he
    | data bytes endStream =>
      unfold Stream.arrive StreamFilter.receive
      dsimp only
      split
      · exact h
      · exact h.encodeData _ _
    | trailers => exact h
  | onSuccess response =>
    dsimp only
    split
    · split
      · exact h.onSuccess response
      · refine continueEncoding ?_
        exact h.onSuccess response
    · exact h
  | onFailure =>
    dsimp only
    split
    · split
      · refine continueEncoding ?_
        exact h.onFailure
      · exact h.onFailure
    · exact h
  | onDestroy =>
    dsimp only
    split
    · exact h
    · exact h

end Settled

/-! ## What a stream stores -/

/-- The response is good, and the caches are to have it. -/
def DynamicStream.Cacheable (s : DynamicStream H) (headers : H) : Prop :=
  ∃ request route, s.decoded = some (request, some route) ∧ route.shouldDowngrade request .DECODE = true ∧
    route.shouldDowngrade headers .ENCODE = false ∧ route.checkEnableCache headers = true

/-- No response has come. -/
structure Fresh (s : DynamicStream H) : Prop where
  arrived : s.arrived = []
  routerConfig : s.stream.filter.routerConfig = (s.decoded.bind (·.2)).map (·.toRouteConfig)
  shouldDowngrade : s.stream.filter.shouldDowngrade = true ↔
    ∃ request route, s.decoded = some (request, some route) ∧ route.shouldDowngrade request .DECODE = true
  shouldCacheRpx : s.stream.filter.shouldCacheRpx = false
  bufferedRpxBody : s.stream.filter.bufferedRpxBody = []
  downgradeComplete : s.stream.filter.downgradeComplete = false
  downgradeSuspend : s.stream.filter.downgradeSuspend = false
  isSendingRequest : s.stream.filter.isSendingRequest = false
  settled : Settled [] s.stream.filter
  iteration : s.stream.pipe.iteration = .Continue
  pending : s.stream.pending = false

/-- The frames so far, of a response that goes on. -/
def underway (headers : H) (data : List Bytes) : List (Arrival H) :=
  .headers headers false :: data.map (.data · false)

/-- A response is kept for the caches. -/
structure Collecting (headers : H) (data : List Bytes) (s : DynamicStream H) : Prop where
  arrived : s.arrived = underway headers data
  cacheable : s.Cacheable headers
  shouldDowngrade : s.stream.filter.shouldDowngrade = false
  shouldCacheRpx : s.stream.filter.shouldCacheRpx = true
  responseToCache : s.stream.filter.responseToCache = some ⟨headers, []⟩
  bufferedRpxBody : s.stream.filter.bufferedRpxBody = data.flatten
  downgradeComplete : s.stream.filter.downgradeComplete = false
  downgradeSuspend : s.stream.filter.downgradeSuspend = false
  inserted : s.stream.filter.inserted = []
  iteration : s.stream.pipe.iteration = .Continue
  pending : s.stream.pending = false

/-- What can be said of a stream at any time. -/
inductive Collected (s : DynamicStream H) : Prop
  | fresh : Fresh s → Collected s
  | collecting {headers : H} {data : List Bytes} : Collecting headers data s → Collected s
  | stored {headers : H} {data : List Bytes} : s.arrived = message headers data false → s.Cacheable headers →
      Settled [⟨headers, data.flatten⟩] s.stream.filter → Collected s
  /-- The filter waits for an end that is data. -/
  | trailers {headers : H} {data : List Bytes} : s.arrived = message headers data true →
      s.stream.filter.inserted = [] → s.stream.pending = false → Collected s
  | other {headers : H} {endStream : Bool} {rest : List (Arrival H)} : s.arrived = .headers headers endStream :: rest →
      ¬ s.Cacheable headers → Settled [] s.stream.filter → Collected s

omit [HeaderMap H] in
theorem frames_snoc (data : List Bytes) (bytes : Bytes) :
    (frames false (data ++ [bytes]) : List (Arrival H)) = data.map (.data · false) ++ [.data bytes true] := by
  induction data with
  | nil => rfl
  | cons b data ih =>
    rw [List.cons_append, frames, ih]
    simp

omit [HeaderMap H] in
theorem frames_trailers (data : List Bytes) :
    (frames true data : List (Arrival H)) = data.map (.data · false) ++ [.trailers] := by
  induction data with
  | nil => rfl
  | cons b data ih =>
    rw [frames, ih]
    simp

omit [HeaderMap H] in
/-- A message has an end. -/
theorem message_ends (headers : H) (data : List Bytes) (trailers : Bool) :
    ∃ a ∈ message headers data trailers, Arrival.ends a = true := by
  cases trailers with
  | true => exact ⟨.trailers, by simp [message, frames_trailers], rfl⟩
  | false =>
    rcases List.eq_nil_or_concat data with rfl | ⟨data, bytes, rfl⟩
    · exact ⟨.headers headers true, by simp [message, frames], rfl⟩
    · exact ⟨.data bytes true, by simp [message, List.concat_eq_append, frames_snoc], rfl⟩

omit [HeaderMap H] in
theorem underway_open {headers : H} {data : List Bytes} : ∀ a ∈ underway headers data, Arrival.ends a = false := by
  intro a ha
  rcases List.mem_cons.1 ha with rfl | ha
  · rfl
  · obtain ⟨bytes, -, rfl⟩ := List.mem_map.1 ha
    rfl

/-! ### Steps of one stream -/

variable {s : DynamicStream H} {answer : Answer H}

/-- Headers that are not for the caches. -/
theorem encodeHeaders_settled {f : DowngradeFilter H} (h : Settled [] f) {headers : H} {endStream : Bool}
    (hnot : ∀ config, f.shouldDowngrade = true → f.routerConfig = some config →
      config.shouldDowngrade headers .ENCODE = false → config.checkEnableCache headers = false) :
    Settled [] (f.encodeHeaders dynamicDowngrade answer headers endStream).1 := by
  unfold DowngradeFilter.encodeHeaders
  split
  · exact h
  rename_i hshould
  split
  · exact h
  rename_i config hconfig
  have hcheck := hnot config (by simpa using hshould) hconfig
  cases hencode : config.shouldDowngrade headers .ENCODE with
  | true =>
    -- the other response is asked for
    have hf : Settled [] { f with shouldDowngrade := true, headersOnlyResp := endStream } := ⟨h.responseToCache, h.inserted⟩
    have hsend := hf.sendRequest config answer
    simp only [Bool.not_true, Bool.false_and, Bool.false_eq_true, if_false, if_true]
    split
    · exact ⟨hsend.responseToCache, hsend.inserted⟩
    · exact ⟨hsend.responseToCache, hsend.inserted⟩
  | false =>
    have hfalse : dynamicDowngrade.checkEnableCache config headers = false := hcheck hencode
    simp only [hfalse, Bool.false_eq_true, if_false, Bool.not_false, Bool.and_self, if_true]
    exact ⟨h.responseToCache, h.inserted⟩

/-- One step, as a stream sees it. -/
inductive Moves (s s' : DynamicStream H) : Prop
  | decoded {headers : H} {route : Option (DynamicRouteConfig H)} : s.decoded = none → s.arrived = [] →
      s'.decoded = some (headers, route) → s'.arrived = [] →
      s'.stream = { s.stream with filter := (s.stream.filter.decodeHeaders (route.map (·.toRouteConfig)) headers).1 } →
      Moves s s'
  | request {rqxHeaders : Option H} {bufferedRqxBody : Bytes} : s'.decoded = s.decoded → s'.arrived = s.arrived →
      s'.cacheKey = s.cacheKey →
      s'.stream = { s.stream with filter := { s.stream.filter with rqxHeaders, bufferedRqxBody } } → Moves s s'
  | arrival {a : Arrival H} {answer : Answer H} : s.stream.destroyed = false → Follows s.arrived a →
      s'.decoded = s.decoded → s'.arrived = s.arrived ++ [a] → (s.arrived ≠ [] → s'.cacheKey = s.cacheKey) →
      s'.stream = s.stream.step dynamicDowngrade answer (.arrival a) → Moves s s'
  | event {e : Event H} {answer : Answer H} : (∀ a, e ≠ .arrival a) → s'.decoded = s.decoded → s'.arrived = s.arrived →
      s'.cacheKey = s.cacheKey → s'.stream = s.stream.step dynamicDowngrade answer e → Moves s s'

variable {s' : DynamicStream H}

omit [HeaderMap H] in
theorem DynamicStream.Cacheable.congr {headers : H} (h : s.Cacheable headers) (hdecoded : s'.decoded = s.decoded) :
    s'.Cacheable headers := by
  unfold Cacheable
  rw [hdecoded]
  exact h

omit [HeaderMap H] in
/-- A filter that has seen the request knows whether headers are for the
caches. -/
theorem Fresh.cacheable_iff (h : Fresh s) (headers : H) :
    s.Cacheable headers ↔ s.stream.filter.shouldDowngrade = true ∧ ∃ config, s.stream.filter.routerConfig = some config ∧
      config.shouldDowngrade headers .ENCODE = false ∧ config.checkEnableCache headers = true := by
  rw [h.shouldDowngrade, h.routerConfig]
  constructor
  · rintro ⟨request, route, hdecoded, hshould, hencode, hcheck⟩
    exact ⟨⟨request, route, hdecoded, hshould⟩, route.toRouteConfig, by simp [hdecoded], hencode, hcheck⟩
  · rintro ⟨⟨request, route, hdecoded, hshould⟩, config, hconfig, hencode, hcheck⟩
    obtain rfl : route.toRouteConfig = config := by simpa [hdecoded] using hconfig
    exact ⟨request, route, hdecoded, hshould, hencode, hcheck⟩

variable (answer) in
/-- What the filter does with headers for the caches. -/
theorem encodeHeaders_cacheable {f : DowngradeFilter H} {config : RouteConfig H} {headers : H} (endStream : Bool)
    (hshould : f.shouldDowngrade = true) (hconfig : f.routerConfig = some config)
    (hencode : config.shouldDowngrade headers .ENCODE = false) (hcheck : config.checkEnableCache headers = true) :
    f.encodeHeaders dynamicDowngrade answer headers endStream =
      ({ f with
          shouldDowngrade := false
          shouldCacheRpx := true
          headersOnlyResp := endStream
          responseToCache := if endStream then f.responseToCache else some ⟨headers, []⟩
          inserted := if endStream then f.inserted ++ [⟨headers, []⟩] else f.inserted },
        headers, none, .Continue) := by
  have hcheck' : dynamicDowngrade.checkEnableCache config headers = true := hcheck
  unfold DowngradeFilter.encodeHeaders
  cases endStream <;> simp [hshould, hconfig, hencode, hcheck']

/-- The headers of a response. -/
theorem Fresh.headers (h : Fresh s) (hd : s.stream.destroyed = false) {headers : H} {endStream : Bool}
    (hdecoded : s'.decoded = s.decoded) (harrived : s'.arrived = s.arrived ++ [.headers headers endStream])
    (hstream : s'.stream = s.stream.step dynamicDowngrade answer (.arrival (.headers headers endStream))) : Collected s' := by
  have hstep : s'.stream = s.stream.arrive dynamicDowngrade answer (.headers headers endStream) := by
    rw [hstream, Stream.step]
    exact if_neg (by simp [hd])
  rw [h.arrived, List.nil_append] at harrived
  by_cases hcacheable : s.Cacheable headers
  · obtain ⟨hshould, config, hconfig, hencode, hcheck⟩ := (h.cacheable_iff headers).1 hcacheable
    have hheaders := encodeHeaders_cacheable answer endStream hshould hconfig hencode hcheck
    unfold Stream.arrive StreamFilter.receive at hstep
    simp only [encoder, hheaders] at hstep
    cases endStream with
    | true =>
      refine .stored (show s'.arrived = message headers [] false from harrived) (hcacheable.congr hdecoded) ?_
      rw [hstep]
      exact ⟨h.settled.responseToCache, by simp [h.settled.inserted]⟩
    | false =>
      refine .collecting (show Collecting headers [] s' from
        ⟨harrived, hcacheable.congr hdecoded, ?_, ?_, ?_, ?_, ?_, ?_, ?_, ?_, ?_⟩)
      all_goals rw [hstep]
      · rfl
      · exact h.bufferedRpxBody
      · exact h.downgradeComplete
      · exact h.downgradeSuspend
      · exact h.settled.inserted
      · simp only [Pipe.afterHeaders, Bool.false_eq_true, if_false, Pipe.doHeaders]
        split <;> exact h.iteration
      · exact h.isSendingRequest
  · refine .other harrived (fun hcacheable' => hcacheable (hcacheable'.congr hdecoded.symm)) ?_
    have hsettled : Settled [] (s.stream.filter.encodeHeaders dynamicDowngrade answer headers endStream).1 := by
      apply encodeHeaders_settled h.settled
      intro config hshould hconfig hencode
      by_contra hcheck
      exact hcacheable ((h.cacheable_iff headers).2 ⟨hshould, config, hconfig, hencode, by simpa using hcheck⟩)
    rw [hstep]
    exact hsettled

/-- Data of a response that is kept for the caches. -/
theorem Collecting.data {headers : H} {data : List Bytes} (h : Collecting headers data s) (hd : s.stream.destroyed = false)
    {bytes : Bytes} {endStream : Bool} (hdecoded : s'.decoded = s.decoded)
    (harrived : s'.arrived = s.arrived ++ [.data bytes endStream])
    (hstream : s'.stream = s.stream.step dynamicDowngrade answer (.arrival (.data bytes endStream))) : Collected s' := by
  have hencode : ∀ v, s.stream.filter.encodeData v endStream =
      (if endStream then { s.stream.filter with
          inserted := [⟨headers, data.flatten ++ v.data⟩]
          responseToCache := none
          bufferedRpxBody := [] }
        else { s.stream.filter with bufferedRpxBody := data.flatten ++ v.data }, v, .Continue) := by
    intro v
    unfold DowngradeFilter.encodeData
    simp only [h.downgradeComplete, h.downgradeSuspend, h.shouldDowngrade, h.shouldCacheRpx, h.responseToCache,
      h.bufferedRpxBody, h.inserted]
    cases endStream <;> simp
  have hstep : s'.stream = s.stream.arrive dynamicDowngrade answer (.data bytes endStream) := by
    rw [hstream, Stream.step]
    exact if_neg (by simp [hd])
  unfold Stream.arrive StreamFilter.receive at hstep
  simp only [h.iteration, reduceCtorEq, if_false, encoder, hencode, Pipe.afterData] at hstep
  rw [h.arrived] at harrived
  cases endStream with
  | true =>
    refine .stored (show s'.arrived = message headers (data ++ [bytes]) false from ?_) (h.cacheable.congr hdecoded) ?_
    · rw [harrived, message, frames_snoc, List.isEmpty_eq_false_iff.2 (by simp)]
      rfl
    · rw [hstep]
      exact ⟨rfl, by simp [DataView.data]⟩
  | false =>
    refine .collecting (show Collecting headers (data ++ [bytes]) s' from
      ⟨?_, h.cacheable.congr hdecoded, ?_, ?_, ?_, ?_, ?_, ?_, ?_, ?_, ?_⟩)
    · rw [harrived]
      simp [underway]
    all_goals rw [hstep]
    · exact h.shouldDowngrade
    · exact h.shouldCacheRpx
    · exact h.responseToCache
    · simp [DataView.data]
    · exact h.downgradeComplete
    · exact h.downgradeSuspend
    · exact h.inserted
    · simp [Pipe.pass]
    · exact h.pending

omit [HeaderMap H] in
/-- A response that has ended gets nothing more. -/
theorem not_follows_message {headers : H} {data : List Bytes} {trailers : Bool} {a : Arrival H}
    (harrived : s.arrived = message headers data trailers) : ¬ Follows s.arrived a := by
  intro hfollows
  obtain ⟨b, hb, hends⟩ := message_ends headers data trailers
  rw [harrived] at hfollows
  cases a with
  | headers => cases hfollows
  | data =>
    rw [hfollows.2 b hb] at hends
    cases hends
  | trailers =>
    rw [hfollows.2 b hb] at hends
    cases hends

/-- Nothing changes that the caches depend on. -/
structure Keeps (s s' : DynamicStream H) : Prop where
  decoded : s'.decoded = s.decoded
  arrived : s'.arrived = s.arrived
  filter : ∃ rqxHeaders bufferedRqxBody, s'.stream.filter = { s.stream.filter with rqxHeaders, bufferedRqxBody }
  pipe : s'.stream.pipe = s.stream.pipe
  pending : s'.stream.pending = s.stream.pending

/-- Without a request on its way, only arrivals matter. -/
theorem keeps_of_not_pending (h : s.stream.pending = false) {e : Event H} (he : ∀ a, e ≠ .arrival a)
    (hdecoded : s'.decoded = s.decoded) (harrived : s'.arrived = s.arrived)
    (hstream : s'.stream = s.stream.step dynamicDowngrade answer e) : Keeps s s' := by
  have hstep : (s.stream.step dynamicDowngrade answer e).filter = s.stream.filter ∧
      (s.stream.step dynamicDowngrade answer e).pipe = s.stream.pipe ∧
      (s.stream.step dynamicDowngrade answer e).pending = false := by
    unfold Stream.step
    cases e with
    | arrival a => exact absurd rfl (he a)
    | onDestroy =>
      dsimp only
      split
      · exact ⟨rfl, rfl, h⟩
      · exact ⟨rfl, rfl, by simp [h]⟩
    | _ =>
      dsimp only
      rw [if_neg (by simp [h])]
      exact ⟨rfl, rfl, h⟩
  rw [← hstream] at hstep
  exact ⟨hdecoded, harrived, ⟨_, _, hstep.1⟩, hstep.2.1, hstep.2.2.trans h.symm⟩

omit [HeaderMap H] in
theorem Fresh.keeps (h : Fresh s) (hkeeps : Keeps s s') : Fresh s' := by
  obtain ⟨hdecoded, harrived, ⟨_, _, hfilter⟩, hpipe, hpending⟩ := hkeeps
  refine ⟨harrived.trans h.arrived, ?_, ?_, ?_, ?_, ?_, ?_, ?_, ?_, hpipe ▸ h.iteration, hpending.trans h.pending⟩
  all_goals rw [hfilter]
  · rw [hdecoded]
    exact h.routerConfig
  · rw [hdecoded]
    exact h.shouldDowngrade
  · exact h.shouldCacheRpx
  · exact h.bufferedRpxBody
  · exact h.downgradeComplete
  · exact h.downgradeSuspend
  · exact h.isSendingRequest
  · exact ⟨h.settled.responseToCache, h.settled.inserted⟩

omit [HeaderMap H] in
theorem Collecting.keeps {headers : H} {data : List Bytes} (h : Collecting headers data s) (hkeeps : Keeps s s') :
    Collecting headers data s' := by
  obtain ⟨hdecoded, harrived, ⟨_, _, hfilter⟩, hpipe, hpending⟩ := hkeeps
  refine ⟨harrived.trans h.arrived, h.cacheable.congr hdecoded, ?_, ?_, ?_, ?_, ?_, ?_, ?_, hpipe ▸ h.iteration,
    hpending.trans h.pending⟩
  all_goals rw [hfilter]
  · exact h.shouldDowngrade
  · exact h.shouldCacheRpx
  · exact h.responseToCache
  · exact h.bufferedRpxBody
  · exact h.downgradeComplete
  · exact h.downgradeSuspend
  · exact h.inserted

omit [HeaderMap H] in
/-- The filter sees the request. -/
theorem Fresh.decoded (h : Fresh s) {headers : H} {route : Option (DynamicRouteConfig H)} (hnone : s.decoded = none)
    (hdecoded : s'.decoded = some (headers, route)) (harrived : s'.arrived = [])
    (hstream : s'.stream = { s.stream with filter := (s.stream.filter.decodeHeaders (route.map (·.toRouteConfig)) headers).1 }) :
    Fresh s' := by
  have hshould : s.stream.filter.shouldDowngrade = false := by
    rw [← Bool.not_eq_true, h.shouldDowngrade]
    simp [hnone]
  have hfilter : s'.stream.filter = { s.stream.filter with
      rqxHeaders := some headers
      routerConfig := route.map (·.toRouteConfig)
      shouldDowngrade := route.elim false (·.shouldDowngrade headers .DECODE) } := by
    rw [hstream]
    cases route <;> simp [DowngradeFilter.decodeHeaders, hshould]
  refine ⟨harrived, ?_, ?_, ?_, ?_, ?_, ?_, ?_, ?_, ?_, ?_⟩
  all_goals first | rw [hfilter] | rw [hstream]
  · rw [hdecoded]
    rfl
  · rw [hdecoded]
    cases route <;> simp
  · exact h.shouldCacheRpx
  · exact h.bufferedRpxBody
  · exact h.downgradeComplete
  · exact h.downgradeSuspend
  · exact h.isSendingRequest
  · exact ⟨h.settled.responseToCache, h.settled.inserted⟩
  · exact h.iteration
  · exact h.pending

/-- A response that is kept for the caches gets trailers. -/
theorem Collecting.trailers {headers : H} {data : List Bytes} (h : Collecting headers data s)
    (hd : s.stream.destroyed = false) (harrived : s'.arrived = s.arrived ++ [.trailers])
    (hstream : s'.stream = s.stream.step dynamicDowngrade answer (.arrival .trailers)) : Collected s' := by
  have hstep : s'.stream = s.stream.arrive dynamicDowngrade answer .trailers := by
    rw [hstream, Stream.step]
    exact if_neg (by simp [hd])
  refine .trailers (show s'.arrived = message headers data true from ?_) ?_ ?_
  · rw [harrived, h.arrived, underway, message, frames_trailers]
    simp
  · rw [hstep]
    exact h.inserted
  · rw [hstep]
    exact h.pending

theorem Collected.moves (h : Collected s) (hmoves : Moves s s') : Collected s' := by
  cases h with
  | fresh h =>
    cases hmoves with
    | decoded hnone _ hdecoded harrived hstream => exact .fresh (h.decoded hnone hdecoded harrived hstream)
    | request hdecoded harrived _ hstream =>
      exact .fresh (h.keeps ⟨hdecoded, harrived, ⟨_, _, by rw [hstream]⟩, by rw [hstream], by rw [hstream]⟩)
    | @arrival a answer hd hfollows hdecoded harrived _ hstream =>
      cases a with
      | headers => exact h.headers hd hdecoded harrived hstream
      | data => exact absurd h.arrived hfollows.1
      | trailers => exact absurd h.arrived hfollows.1
    | event he hdecoded harrived _ hstream =>
      exact .fresh (h.keeps (keeps_of_not_pending h.pending he hdecoded harrived hstream))
  | collecting h =>
    cases hmoves with
    | decoded _ harrived =>
      rw [h.arrived] at harrived
      cases harrived
    | request hdecoded harrived _ hstream =>
      exact .collecting (h.keeps ⟨hdecoded, harrived, ⟨_, _, by rw [hstream]⟩, by rw [hstream], by rw [hstream]⟩)
    | @arrival a answer hd hfollows hdecoded harrived _ hstream =>
      cases a with
      | headers =>
        rw [h.arrived] at hfollows
        cases hfollows
      | data bytes endStream => exact h.data hd hdecoded harrived hstream
      | trailers => exact h.trailers hd harrived hstream
    | event he hdecoded harrived _ hstream =>
      exact .collecting (h.keeps (keeps_of_not_pending h.pending he hdecoded harrived hstream))
  | stored hmessage hcacheable hsettled =>
    cases hmoves with
    | decoded _ harrived =>
      rw [hmessage] at harrived
      cases harrived
    | request hdecoded harrived _ hstream =>
      refine .stored (harrived.trans hmessage) (hcacheable.congr hdecoded) ?_
      rw [hstream]
      exact ⟨hsettled.responseToCache, hsettled.inserted⟩
    | arrival _ hfollows => exact absurd hfollows (not_follows_message hmessage)
    | @event e answer he hdecoded harrived _ hstream =>
      refine .stored (harrived.trans hmessage) (hcacheable.congr hdecoded) ?_
      rw [hstream]
      apply hsettled.step
      cases e with
      | arrival a => exact absurd rfl (he a)
      | _ => rfl
  | trailers hmessage hinserted hpending =>
    cases hmoves with
    | decoded _ harrived =>
      rw [hmessage] at harrived
      cases harrived
    | request _ harrived _ hstream =>
      refine .trailers (harrived.trans hmessage) ?_ ?_
      · rw [hstream]
        exact hinserted
      · rw [hstream]
        exact hpending
    | arrival _ hfollows => exact absurd hfollows (not_follows_message hmessage)
    | event he hdecoded harrived _ hstream =>
      obtain ⟨-, -, ⟨_, _, hfilter⟩, -, hsame⟩ := keeps_of_not_pending hpending he hdecoded harrived hstream
      refine .trailers (harrived.trans hmessage) ?_ (hsame.trans hpending)
      rw [hfilter]
      exact hinserted
  | @other headers endStream rest hstart hnot hsettled =>
    cases hmoves with
    | decoded _ harrived =>
      rw [hstart] at harrived
      cases harrived
    | request hdecoded harrived _ hstream =>
      refine .other (harrived.trans hstart) (fun h => hnot (h.congr hdecoded.symm)) ?_
      rw [hstream]
      exact ⟨hsettled.responseToCache, hsettled.inserted⟩
    | @arrival a answer _ hfollows hdecoded harrived _ hstream =>
      have hmore : s'.arrived = .headers headers endStream :: (rest ++ [a]) := by rw [harrived, hstart]; rfl
      refine .other hmore (fun h => hnot (h.congr hdecoded.symm)) ?_
      rw [hstream]
      apply hsettled.step
      cases a with
      | headers =>
        rw [hstart] at hfollows
        cases hfollows
      | _ => rfl
    | @event e answer he hdecoded harrived _ hstream =>
      refine .other (harrived.trans hstart) (fun h => hnot (h.congr hdecoded.symm)) ?_
      rw [hstream]
      apply hsettled.step
      cases e with
      | arrival a => exact absurd rfl (he a)
      | _ => rfl

omit [HeaderMap H] in
/-- The parts of a message give it back. -/
theorem message_inj {headers headers' : H} {data data' : List Bytes} {trailers trailers' : Bool}
    (h : message headers data trailers = message headers' data' trailers') :
    headers' = headers ∧ data'.flatten = data.flatten ∧ trailers' = trailers := by
  have hdelivered : Delivered (· = headers) data.flatten trailers ((message headers data trailers).map Arrival.passed) :=
    (delivered_iff headers data).2 ⟨rfl, rfl, rfl⟩
  rw [h] at hdelivered
  exact (delivered_iff headers' data').1 hdelivered

/-- A stream has a whole response for the caches. -/
def DynamicStream.Whole (s : DynamicStream H) (response : ResponseMessage H) : Prop :=
  ∃ headers data, s.arrived = message headers data false ∧ s.Cacheable headers ∧ response = ⟨headers, data.flatten⟩

omit [HeaderMap H] in
/-- It stores this response and nothing else. -/
theorem Collected.inserted (h : Collected s) :
    (∀ response, response ∈ s.stream.filter.inserted ↔ s.Whole response) ∧ s.stream.filter.inserted.length ≤ 1 := by
  have hnone : s.stream.filter.inserted = [] → (∀ headers data, s.arrived = message headers data false → ¬ s.Cacheable headers) →
      (∀ response, response ∈ s.stream.filter.inserted ↔ s.Whole response) ∧ s.stream.filter.inserted.length ≤ 1 := by
    intro hinserted hnot
    rw [hinserted]
    refine ⟨fun response => ⟨by simp, ?_⟩, by simp⟩
    rintro ⟨headers, data, harrived, hcacheable, -⟩
    exact absurd hcacheable (hnot headers data harrived)
  cases h with
  | fresh h =>
    refine hnone h.settled.inserted ?_
    intro headers data harrived
    rw [h.arrived] at harrived
    cases harrived
  | collecting h =>
    refine hnone h.inserted ?_
    intro headers data harrived
    obtain ⟨a, ha, hends⟩ := message_ends headers data false
    rw [← harrived, h.arrived] at ha
    rw [underway_open a ha] at hends
    cases hends
  | @stored headers data hmessage hcacheable hsettled =>
    rw [hsettled.inserted]
    refine ⟨fun response => ?_, by simp⟩
    rw [List.mem_singleton]
    constructor
    · intro hresponse
      exact ⟨headers, data, hmessage, hcacheable, hresponse⟩
    · rintro ⟨headers', data', hmessage', -, rfl⟩
      obtain ⟨rfl, hdata, -⟩ := message_inj (hmessage.symm.trans hmessage')
      rw [hdata]
  | trailers hmessage hinserted _ =>
    refine hnone hinserted ?_
    intro headers' data' hmessage'
    cases (message_inj (hmessage.symm.trans hmessage')).2.2
  | other hstart hnot hsettled =>
    refine hnone hsettled.inserted ?_
    intro headers' data' hmessage'
    rw [hstart] at hmessage'
    cases (List.cons.inj hmessage').1
    exact hnot

omit [HeaderMap H] in
theorem collected_start : Collected ({} : DynamicStream H) := by
  refine .fresh ⟨rfl, rfl, ?_, rfl, rfl, rfl, rfl, rfl, ⟨rfl, rfl⟩, rfl, rfl⟩
  simp

/-- A whole response stays what it is. -/
theorem DynamicStream.Whole.moves {response : ResponseMessage H} (h : s.Whole response) (hmoves : Moves s s') :
    s'.Whole response ∧ s'.cacheKey = s.cacheKey := by
  obtain ⟨headers, data, hmessage, hcacheable, rfl⟩ := h
  cases hmoves with
  | decoded _ harrived =>
    rw [hmessage] at harrived
    cases harrived
  | request hdecoded harrived hkey _ =>
    exact ⟨⟨headers, data, harrived.trans hmessage, hcacheable.congr hdecoded, rfl⟩, hkey⟩
  | arrival _ hfollows => exact absurd hfollows (not_follows_message hmessage)
  | event _ hdecoded harrived hkey _ =>
    exact ⟨⟨headers, data, harrived.trans hmessage, hcacheable.congr hdecoded, rfl⟩, hkey⟩

end Steps

end EnvoyProxy.Downgrade
