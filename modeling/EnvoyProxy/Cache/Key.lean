import EnvoyProxy.Cache.Entry
/-!
# Cache keys

`HttpCacheUtil::cacheKey` (cache_request_sender.cc) hashes the parts of a
request that a configuration includes, written one after the other with
nothing between them: method, host and path (`keyBase`), then the listed
parameters and headers, each with its name (`keyNames`).
-/

namespace EnvoyProxy.Cache
open Http HeaderMap

/-- `HttpCacheKeyMaker` -/
structure KeyMakerConfig where
  excludePath : Bool := false
  excludeHost : Bool := false
  queryParams : List Bytes := []
  headersKeys : List Bytes := []
  ignoreCase : Bool := false

/-- What Envoy reads from the path of a request. A `QueryParams` map is given
by what is found under a name. -/
structure PathUtil where
  removeQueryAndFragment : Bytes → Bytes
  parseQueryString : Bytes → Bytes → Option Bytes

/-- Parameters stand behind a `?` and have `&` between them; the first of a
name counts. -/
def plainPathUtil : PathUtil where
  removeQueryAndFragment path := path.takeWhile fun b => b ≠ 63 ∧ b ≠ 35
  parseQueryString path query :=
    match (path.dropWhile (· ≠ 63)).drop 1 with
    | [] => none
    | params => (params.splitOn 38).findSome? fun param =>
        if param.takeWhile (· ≠ 61) = query then some ((param.dropWhile (· ≠ 61)).drop 1) else none

section Key
variable {H : Type} [HeaderMap H]

/-- `headers.get(LowerCaseString(name))` for a configured name. -/
def configuredHeader (request : RequestHeaders H) (name : Bytes) : List HeaderEntry :=
  (iterate request.headers).filter (·.key.bytes = toLower name)

def addQuery (util : PathUtil) (request : RequestHeaders H) (raw query : Bytes) : Bytes :=
  match util.parseQueryString request.path.bytes query with
  | some value => raw ++ query ++ value
  | none => raw

/-- Of the values of a header the first is added. -/
def addHeader (request : RequestHeaders H) (raw header : Bytes) : Bytes :=
  match configuredHeader request header with
  | [] => raw
  | e :: _ => raw ++ e.key.bytes ++ e.value.bytes

/-- The bytes that `cacheKey` hashes. -/
def rawKey (util : PathUtil) (config : KeyMakerConfig) (cacheKeyPrefix : Bytes) (request : RequestHeaders H) : Bytes :=
  let raw := cacheKeyPrefix
  -- the method is left out with the path
  let raw := if config.excludePath then raw else raw ++ request.method.bytes
  let raw := if config.excludeHost then raw else raw ++ request.host.bytes
  let raw := if config.excludePath then raw else raw ++ util.removeQueryAndFragment request.path.bytes
  let raw := config.queryParams.foldl (addQuery util request) raw
  let raw := config.headersKeys.foldl (addHeader request) raw
  if config.ignoreCase then toLower raw else raw

/-- `hash` is the MD5 digest in hexadecimal. -/
def cacheKey (hash : Bytes → CacheKeyType) (util : PathUtil) (config : KeyMakerConfig) (cacheKeyPrefix : Bytes)
    (request : RequestHeaders H) : CacheKeyType := hash (rawKey util config cacheKeyPrefix request)

/-! ## What a configuration includes -/

/-- The parts of a request that a configuration includes. `excludePath`
leaves out the method as well. -/
structure KeyParts where
  method : Option Bytes
  host : Option Bytes
  path : Option Bytes
  queries : List (Option Bytes)
  headers : List (List Bytes)
  deriving DecidableEq

def keyParts (util : PathUtil) (config : KeyMakerConfig) (request : RequestHeaders H) : KeyParts where
  method := if config.excludePath then none else some request.method.bytes
  host := if config.excludeHost then none else some request.host.bytes
  path := if config.excludePath then none else some (util.removeQueryAndFragment request.path.bytes)
  queries := config.queryParams.map (util.parseQueryString request.path.bytes)
  headers := config.headersKeys.map fun header => (configuredHeader request header).map (·.value.bytes)

/-! ## The names, as they are written -/

/-- A parameter or header that a configuration lists; header names are read in
lower case. -/
inductive KeyName
  | query (name : Bytes)
  | header (name : Bytes)
  deriving DecidableEq

namespace KeyName

def text : KeyName → Bytes
  | .query name | .header name => name

/-- What a request has under the name, of a header the first value. -/
def value (util : PathUtil) (request : RequestHeaders H) : KeyName → Option Bytes
  | .query name => util.parseQueryString request.path.bytes name
  | .header name => ((iterate request.headers).filter (·.key.bytes = name)).head?.map (·.value.bytes)

/-- The name and its value, or nothing. -/
def written (util : PathUtil) (request : RequestHeaders H) (name : KeyName) : Bytes :=
  ((name.value util request).map (name.text ++ ·)).getD []

end KeyName

/-- The names in the order in which they are written. -/
def KeyMakerConfig.names (config : KeyMakerConfig) : List KeyName :=
  config.queryParams.map .query ++ config.headersKeys.map fun header => .header (toLower header)

/-- What is written before the names. -/
def keyBase (util : PathUtil) (config : KeyMakerConfig) (request : RequestHeaders H) : Bytes :=
  (if config.excludePath then [] else request.method.bytes) ++
    (if config.excludeHost then [] else request.host.bytes) ++
      if config.excludePath then [] else util.removeQueryAndFragment request.path.bytes

/-- What is written for the names. -/
def keyNames (util : PathUtil) (config : KeyMakerConfig) (request : RequestHeaders H) : Bytes :=
  config.names.flatMap (KeyName.written util request)

variable {util : PathUtil} {config : KeyMakerConfig}

theorem foldl_addQuery (request : RequestHeaders H) (queries : List Bytes) (raw : Bytes) :
    queries.foldl (addQuery util request) raw = raw ++ (queries.map .query).flatMap (KeyName.written util request) := by
  induction queries generalizing raw with
  | nil => simp
  | cons query queries ih =>
    have hadd : addQuery util request raw query = raw ++ (KeyName.query query).written util request := by
      cases h : util.parseQueryString request.path.bytes query <;>
        simp [addQuery, KeyName.written, KeyName.value, KeyName.text, h]
    rw [List.foldl_cons, ih, hadd]
    simp

theorem foldl_addHeader (util : PathUtil) (request : RequestHeaders H) (headers : List Bytes) (raw : Bytes) :
    headers.foldl (addHeader request) raw =
      raw ++ (headers.map fun header => .header (toLower header)).flatMap (KeyName.written util request) := by
  induction headers generalizing raw with
  | nil => simp
  | cons header headers ih =>
    have hadd : addHeader request raw header = raw ++ (KeyName.header (toLower header)).written util request := by
      rcases h : configuredHeader request header with _ | ⟨e, es⟩
      · simp only [configuredHeader] at h
        simp [addHeader, configuredHeader, KeyName.written, KeyName.value, h]
      · have hkey : e.key.bytes = toLower header := by
          have hmem : e ∈ configuredHeader request header := h ▸ List.mem_cons_self
          simpa using (List.mem_filter.1 hmem).2
        simp only [configuredHeader] at h
        simp [addHeader, configuredHeader, KeyName.written, KeyName.value, KeyName.text, h, hkey]
    rw [List.foldl_cons, ih, hadd]
    simp

/-- The hashed bytes, without letters put in lower case. -/
theorem rawKey_eq (hcase : config.ignoreCase = false) (cacheKeyPrefix : Bytes) (request : RequestHeaders H) :
    rawKey util config cacheKeyPrefix request =
      cacheKeyPrefix ++ (keyBase util config request ++ keyNames util config request) := by
  simp only [rawKey, hcase, Bool.false_eq_true, if_false, foldl_addHeader util, foldl_addQuery]
  cases hpath : config.excludePath <;> cases hhost : config.excludeHost <;>
    simp [keyBase, keyNames, KeyMakerConfig.names, hpath, hhost]

theorem mem_names_query {query : Bytes} (h : query ∈ config.queryParams) : .query query ∈ config.names :=
  List.mem_append_left _ (List.mem_map_of_mem h)

theorem mem_names_header {header : Bytes} (h : header ∈ config.headersKeys) :
    .header (toLower header) ∈ config.names :=
  List.mem_append_right _ (List.mem_map.2 ⟨header, h, rfl⟩)

/-- Requests that agree in every part agree under every name. -/
theorem value_of_keyParts {r₁ r₂ : RequestHeaders H} (h : keyParts util config r₁ = keyParts util config r₂)
    {name : KeyName} (hname : name ∈ config.names) : name.value util r₁ = name.value util r₂ := by
  simp only [keyParts, KeyParts.mk.injEq] at h
  obtain ⟨-, -, -, hqueries, hheaders⟩ := h
  rcases List.mem_append.1 hname with hname | hname
  · obtain ⟨query, hquery, rfl⟩ := List.mem_map.1 hname
    exact List.map_inj_left.1 hqueries query hquery
  · obtain ⟨header, hheader, rfl⟩ := List.mem_map.1 hname
    have hvalues := congrArg List.head? (List.map_inj_left.1 hheaders header hheader)
    simpa [KeyName.value, configuredHeader, List.head?_map] using hvalues

end Key

end EnvoyProxy.Cache
