import EnvoyProxy.Cache.Key
import EnvoyProxy.Cache.Sender
import EnvoyProxy.Http.Filter
/-!
# The cache filter

`HttpCacheFilter` (super_cache/cache_filter.cc), one for each stream. A
response is copied on its way out and the copy is inserted when the response
has ended. A cached response is sent through the same `encodeHeaders` and
`encodeData`, with headers added that say where it comes from.
-/

namespace EnvoyProxy.Cache
open Http HeaderMap

/-- The route's configuration. A header matcher is given by what it matches. -/
structure RouteCacheConfig (H : Type) where
  enableRqx : List (H → Bool) := []
  enableRpx : List (H → Bool) := []
  lowLevelFill : Bool := false
  keyMaker : KeyMakerConfig := {}
  cacheTtls : List (Bytes × CacheTTL) := []

inductive RouteCacheConfig.Type
  | RQ
  | RP
  deriving DecidableEq, Repr

def RouteCacheConfig.checkEnable {H : Type} (c : RouteCacheConfig H) (headers : H) (type : RouteCacheConfig.Type) : Bool :=
  let enable := if type = .RQ then c.enableRqx else c.enableRpx
  -- without conditions everything is enabled
  if enable.length = 0 then true else enable.all (· headers)

/-- What the filter uses of others: the digest of a key, Envoy's reading of
paths and of lists of tokens. -/
structure FilterEnv where
  hash : Bytes → CacheKeyType
  util : PathUtil
  caseFindToken : (source delimiters token : Bytes) → Bool

/-- A null pointer that is followed, or a level that does not exist. -/
inductive FilterFault
  | nullPointer
  | sender (fault : SenderFault)
  deriving DecidableEq, Repr

section Model
variable {H : Type} [HeaderMap H]

/-- The request, when it has a method, a host and a path. -/
def requestOf (headers : H) : Option (RequestHeaders H) :=
  match hmethod : (HeaderMap.get headers (headerName ":method")).head?.map (·.value),
    hhost : (HeaderMap.get headers (headerName ":authority")).head?.map (·.value),
    hpath : (HeaderMap.get headers (headerName ":path")).head?.map (·.value) with
  | some method, some host, some path => some ⟨headers, method, host, path, hmethod, hhost, hpath⟩
  | _, _, _ => none

/-- `isCacheableRequest`, with the request it has found. -/
def cacheableRequest (headers : H) : Option (RequestHeaders H) :=
  (requestOf headers).filter fun request => request.method = headerValue "GET" || request.method = headerValue "HEAD"

def isCacheableResponse (env : FilterEnv) (headers : H) : Bool :=
  match HeaderMap.get headers (headerName "cache-control") with
  | [] => true
  | e :: _ => !env.caseFindToken e.value.bytes (ascii ",") (ascii "private")

/-- `sendRequest`, called by the filter with itself as callback. -/
def CacheRequestSender.sendRequest {E : Type} (usedCaches : List Bytes) (s : CacheRequestSender) (key : CacheKeyType) :
    Except SenderFault (CacheLookupStatus × CacheRequestSender × List (Ask E)) := do
  let s := { s with originCallback := true, toCacheGetterSetter := s.setCacheKey key }
  let (status, getter, asks) ← s.lookupCache usedCaches true
  return (status, { s with toCacheGetterSetter := getter }, asks)

/-- `reqeustHitInCache` -/
def CacheGetterSetter.requestHitInCache (usedCaches : List Bytes) (s : CacheGetterSetter) : Bytes :=
  if s.hitInCache = -1 then [] else usedCaches.getD s.hitInCache.toNat []

structure HttpCacheFilter (H : Type) where
  responseToCache : Option (ResponseMessage H) := none
  cacheSuspend : Bool := false
  enableCaches : Bool := false
  hitInCaches : Bool := false
  routeConfig : Option (RouteCacheConfig H) := none
  requestSender : Option CacheRequestSender := none

/-- What comes out of an encode call: the headers as they go on, and the
insertions, each under its key and at its level. -/
structure Encoded (H : Type) where
  filter : HttpCacheFilter H
  headers : H
  inserted : List (CacheKeyType × Nat × HttpCacheEntry H) := []

namespace HttpCacheFilter

/-- `route` is absent when there is none; it may have no configuration. -/
def decodeHeaders (env : FilterEnv) (usedCaches : List Bytes) (f : HttpCacheFilter H) (headers : H) (endStream : Bool)
    (route : Option (Option (RouteCacheConfig H))) :
    Except FilterFault (FilterHeadersStatus × HttpCacheFilter H × List (Ask (HttpCacheEntry H))) :=
  match cacheableRequest headers, route with
  | none, _ | _, none => .ok (.Continue, f, [])
  | some _, some none => .ok (.Continue, { f with routeConfig := none }, [])
  | some request, some (some config) =>
    let f := { f with routeConfig := some config }
    if config.checkEnable headers .RQ = false then .ok (.Continue, f, [])
    else
      let key := cacheKey env.hash env.util config.keyMaker (ascii "v1") request
      match CacheRequestSender.sendRequest usedCaches {} key with
      | .error fault => .error (.sender fault)
      | .ok (.ONCALL, sender, asks) =>
        .ok (if endStream then .StopIteration else .StopAllIterationAndWatermark,
          { f with enableCaches := true, requestSender := some sender }, asks)
      | .ok (.FAILED, sender, asks) =>
        -- the caches stay enabled: the response is still stored
        .ok (.Continue, { f with enableCaches := true, requestSender := some sender, cacheSuspend := true }, asks)

/-- `request_sender_->insertResponse("", …)` -/
def insertResponse (usedCaches : List Bytes) (f : HttpCacheFilter H) (config : RouteCacheConfig H)
    (sender : CacheRequestSender) (message : ResponseMessage H) (now : UInt64) :
    HttpCacheFilter H × List (CacheKeyType × Nat × HttpCacheEntry H) :=
  let (sender, insertions) := sender.insertResponse usedCaches config.cacheTtls [] message now
  ({ f with requestSender := some sender, responseToCache := none }, insertions.map (sender.cacheKey, ·))

/-- `copyFrom` and `removeEnvoyUpstreamServiceTime`. -/
def headersCopy (headers : H) : H := removeEnvoyUpstreamServiceTime (copyFrom (iterate headers))

/-- The headers that are added on the way out. -/
def addCacheHeaders (f : HttpCacheFilter H) (sender : CacheRequestSender) (headers : H) : H :=
  let headers := addCopy headers (headerName "x-cache-key") (.ofCString sender.cacheKey)
  if f.hitInCaches then headers else addCopy headers (headerName "x-cache-status") (headerValue "MISS")

def encodeHeaders (env : FilterEnv) (usedCaches : List Bytes) (f : HttpCacheFilter H) (headers : H) (endStream : Bool)
    (now : UInt64) : Except FilterFault (Encoded H) :=
  if f.enableCaches = false ∨ isCacheableResponse env headers = false then .ok ⟨{ f with enableCaches := false }, headers, []⟩
  else
    match f.routeConfig with
    | none => .error .nullPointer
    | some config =>
      if config.checkEnable headers .RP = false then .ok ⟨{ f with enableCaches := false }, headers, []⟩
      else
        match f.requestSender with
        | none => .error .nullPointer
        | some sender =>
          -- a hit is copied too, to fill the levels before the one that had it
          if config.lowLevelFill ∨ f.hitInCaches = false then
            let f := { f with responseToCache := some ⟨headersCopy headers, []⟩ }
            if endStream then
              let (f, inserted) := f.insertResponse usedCaches config sender ⟨headersCopy headers, []⟩ now
              .ok ⟨f, f.addCacheHeaders sender headers, inserted⟩
            else .ok ⟨f, f.addCacheHeaders sender headers, []⟩
          else .ok ⟨f, f.addCacheHeaders sender headers, []⟩

/-- The response is one that may be cached. -/
def Cacheable (env : FilterEnv) (f : HttpCacheFilter H) (headers : H) (config : RouteCacheConfig H)
    (sender : CacheRequestSender) : Prop :=
  f.enableCaches = true ∧ isCacheableResponse env headers = true ∧ f.routeConfig = some config ∧
    config.checkEnable headers .RP = true ∧ f.requestSender = some sender

/-- The filter with a copy of the response so far. -/
def copied (f : HttpCacheFilter H) (headers : H) : HttpCacheFilter H :=
  { f with responseToCache := some ⟨headersCopy headers, []⟩ }

/-- The response is refused, let through, inserted, or kept for its data. -/
theorem encodeHeaders_cases {env : FilterEnv} {usedCaches : List Bytes} {f : HttpCacheFilter H} {headers : H}
    {endStream : Bool} {now : UInt64} {out : Encoded H}
    (h : f.encodeHeaders env usedCaches headers endStream now = .ok out) :
    out = ⟨{ f with enableCaches := false }, headers, []⟩ ∨
    ∃ config sender, f.Cacheable env headers config sender ∧
      ((config.lowLevelFill = false ∧ f.hitInCaches = true ∧ out = ⟨f, f.addCacheHeaders sender headers, []⟩) ∨
      ((config.lowLevelFill = true ∨ f.hitInCaches = false) ∧ endStream = true ∧
        out = ⟨((f.copied headers).insertResponse usedCaches config sender ⟨headersCopy headers, []⟩ now).1,
          f.addCacheHeaders sender headers,
          ((f.copied headers).insertResponse usedCaches config sender ⟨headersCopy headers, []⟩ now).2⟩) ∨
      ((config.lowLevelFill = true ∨ f.hitInCaches = false) ∧ endStream = false ∧
        out = ⟨f.copied headers, f.addCacheHeaders sender headers, []⟩)) := by
  unfold encodeHeaders at h
  split at h
  · cases h
    exact .inl rfl
  rename_i hopen
  rw [not_or, Bool.not_eq_false, Bool.not_eq_false] at hopen
  split at h
  · cases h
  rename_i config hconfig
  split at h
  · cases h
    exact .inl rfl
  rename_i hcheck
  split at h
  · cases h
  rename_i sender hsender
  refine .inr ⟨config, sender, ⟨hopen.1, hopen.2, hconfig, by simpa using hcheck, hsender⟩, ?_⟩
  split at h
  · rename_i hfill
    dsimp only at h
    split at h
    · rename_i hend
      cases h
      exact .inr (.inl ⟨hfill, hend, rfl⟩)
    · rename_i hend
      cases h
      exact .inr (.inr ⟨hfill, by simpa using hend, rfl⟩)
  · rename_i hfill
    cases h
    rw [not_or, Bool.not_eq_true, Bool.not_eq_false] at hfill
    exact .inl ⟨hfill.1, hfill.2, rfl⟩

/-- The filter and the insertions; the data goes on as it is. -/
def encodeData (usedCaches : List Bytes) (f : HttpCacheFilter H) (data : Bytes) (endStream : Bool) (now : UInt64) :
    Except FilterFault (HttpCacheFilter H × List (CacheKeyType × Nat × HttpCacheEntry H)) :=
  match f.enableCaches, f.responseToCache with
  | false, _ | _, none => .ok (f, [])
  | true, some message =>
    let message := { message with body := message.body ++ data }
    if endStream then
      match f.routeConfig, f.requestSender with
      | some config, some sender => .ok (f.insertResponse usedCaches config sender message now)
      | _, _ => .error .nullPointer
    else .ok ({ f with responseToCache := some message }, [])

theorem encodeData_end (usedCaches : List Bytes) {f : HttpCacheFilter H} {config : RouteCacheConfig H}
    {sender : CacheRequestSender} {message : ResponseMessage H} (henable : f.enableCaches = true)
    (hconfig : f.routeConfig = some config) (hsender : f.requestSender = some sender)
    (hmessage : f.responseToCache = some message) (data : Bytes) (now : UInt64) :
    f.encodeData usedCaches data true now =
      .ok (f.insertResponse usedCaches config sender ⟨message.headers, message.body ++ data⟩ now) := by
  simp [encodeData, henable, hconfig, hsender, hmessage]

/-- The headers of a cached response, with its origin added. -/
def hitHeaders (usedCaches : List Bytes) (sender : CacheRequestSender) (headers : H) : H :=
  let headers : H := copyFrom (iterate headers)
  let headers := addCopy headers (headerName "x-cache-status") (headerValue "HIT")
  addCopy headers (headerName "x-cache-hit") (.ofCString (sender.requestHitInCache usedCaches))

/-- The response goes through the encode calls of this filter. -/
def onSuccess (env : FilterEnv) (usedCaches : List Bytes) (f : HttpCacheFilter H) (sender : CacheRequestSender)
    (response : ResponseMessage H) (now : UInt64) : Except FilterFault (Encoded H) := do
  let f := { f with hitInCaches := true }
  -- `encodeHeaders` sees `x-cache-status` and `x-cache-hit` already added
  let endStream := decide (response.body.length = 0)
  let encoded ← f.encodeHeaders env usedCaches (hitHeaders usedCaches sender response.headers) endStream now
  if endStream then return encoded
  else do
    let (f, inserted) ← encoded.filter.encodeData usedCaches response.body true now
    return { encoded with filter := f, inserted := inserted ++ encoded.inserted }

/-- Headers only, or headers and one piece of data. -/
theorem onSuccess_cases {env : FilterEnv} {usedCaches : List Bytes} {f : HttpCacheFilter H}
    {sender : CacheRequestSender}
    {response : ResponseMessage H} {now : UInt64} {out : Encoded H}
    (h : f.onSuccess env usedCaches sender response now = .ok out) :
    ∃ encoded, encodeHeaders env usedCaches { f with hitInCaches := true } (hitHeaders usedCaches sender response.headers)
        (decide (response.body.length = 0)) now = .ok encoded ∧
      ((response.body.length = 0 ∧ out = encoded) ∨
        (response.body.length ≠ 0 ∧ ∃ g inserted,
          encoded.filter.encodeData usedCaches response.body true now = .ok (g, inserted) ∧
            out = ⟨g, encoded.headers, inserted ++ encoded.inserted⟩)) := by
  obtain ⟨encoded, hencode, h⟩ := bind_eq_ok h
  refine ⟨encoded, hencode, ?_⟩
  by_cases hbody : response.body.length = 0
  · rw [if_pos (by simpa using hbody)] at h
    cases h
    exact .inl ⟨hbody, rfl⟩
  · rw [if_neg (by simpa using hbody)] at h
    obtain ⟨⟨g, inserted⟩, hdata, h⟩ := bind_eq_ok h
    cases h
    exact .inr ⟨hbody, g, inserted, hdata, rfl⟩

def onDestroy (f : HttpCacheFilter H) : HttpCacheFilter H :=
  { f with requestSender := f.requestSender.map fun s => { s with toCacheGetterSetter := s.cancelLookup } }

end HttpCacheFilter

end Model

end EnvoyProxy.Cache
