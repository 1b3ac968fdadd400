import EnvoyProxy.Cache.Filter
import EnvoyProxy.Lib.Runs
/-!
# Where stored responses come from

Streams of one filter configuration over shared levels. A stored response
should have the headers of a response from upstream, but for
`x-envoy-upstream-service-time` and the two headers that say how long the
body is (`Origin`). With `low_level_fill` a hit is copied into the levels
before it (`WritesBack`) together with the headers that mark it as a hit; in
a run without that, every stored response has such an origin.
-/

namespace EnvoyProxy.Cache
open Json Http HeaderMap HttpCacheEntry

section Origin
variable {H : Type} [HeaderMap H]

def isServiceTime (e : HeaderEntry) : Bool := e.key = headerName "x-envoy-upstream-service-time"

/-- The headers are those of the response `o` from upstream. -/
def ComesFrom (headers o : H) : Prop := (iterate headers).filter isKept = ((iterate o).filter (!isServiceTime ·)).filter isKept

/-- The headers of a response that came from upstream. -/
def Origin (upstream : List H) (headers : H) : Prop := ∃ o ∈ upstream, ComesFrom headers o

/-- A stored response has an origin. -/
def StoredOrigin (upstream : List H) (entry : HttpCacheEntry H) : Prop :=
  ∃ message, entry.cacheMessage = some message ∧ Origin upstream message.headers

theorem Origin.mono {upstream : List H} {headers : H} (h : Origin upstream headers) (o : H) :
    Origin (o :: upstream) headers := by
  obtain ⟨o', ho', heq⟩ := h
  exact ⟨o', List.mem_cons_of_mem _ ho', heq⟩

theorem StoredOrigin.mono {upstream : List H} {entry : HttpCacheEntry H} (h : StoredOrigin upstream entry) (o : H) :
    StoredOrigin (o :: upstream) entry := by
  obtain ⟨message, hmessage, horigin⟩ := h
  exact ⟨message, hmessage, horigin.mono o⟩

theorem iterate_headersCopy (headers : H) :
    iterate (HttpCacheFilter.headersCopy headers) = (iterate headers).filter (!isServiceTime ·) := by
  rw [HttpCacheFilter.headersCopy, removeEnvoyUpstreamServiceTime, iterate_remove, iterate_copyFrom]
  simp [isServiceTime]

/-- The copy made of a response from upstream. -/
theorem origin_headersCopy (upstream : List H) (headers : H) :
    Origin (headers :: upstream) (HttpCacheFilter.headersCopy headers) :=
  ⟨headers, List.mem_cons_self, by rw [ComesFrom, iterate_headersCopy]⟩

theorem Origin.copy {upstream : List H} {message : ResponseMessage H} (h : Origin upstream message.headers) :
    Origin upstream (makeMessageCopy message).headers := by
  obtain ⟨o, ho, heq⟩ := h
  exact ⟨o, ho, (filter_makeMessageCopy message).trans heq⟩

/-- Headers that neither normalising nor copying touches are those of the
origin. -/
theorem ComesFrom.get {headers o : H} (h : ComesFrom headers o) {k : LowerCaseString}
    (hk : k ≠ headerName "transfer-encoding" ∧ k ≠ headerName "content-length" ∧ k ≠ headerName "x-envoy-upstream-service-time") :
    HeaderMap.get headers k = HeaderMap.get o k := by
  have hkept : ∀ e : HeaderEntry, e.key = k → isKept e = true := by
    rintro e rfl
    simp [isKept, hk]
  have hservice : ∀ e : HeaderEntry, e.key = k → (!isServiceTime e) = true := by
    rintro e rfl
    simp [isServiceTime, hk]
  unfold ComesFrom at h
  rw [HeaderMap.get, HeaderMap.get, ← filter_key_filter hkept, h, filter_key_filter hkept, filter_key_filter hservice]

/-! ## What the encode calls store -/

variable {env : FilterEnv} {usedCaches : List Bytes} {upstream : List H} {f : HttpCacheFilter H}

namespace HttpCacheFilter

theorem insertResponse_origin {config : RouteCacheConfig H} {sender : CacheRequestSender}
    {message : ResponseMessage H}
    {now : UInt64} (h : Origin upstream message.headers) :
    ∀ x ∈ (f.insertResponse usedCaches config sender message now).2, StoredOrigin upstream x.2.2 := by
  rintro ⟨key, i, e⟩ hx
  simp only [insertResponse, List.mem_map, Prod.mk.injEq] at hx
  obtain ⟨⟨i', e'⟩, hmem, -, rfl, rfl⟩ := hx
  simp only [CacheRequestSender.insertResponse] at hmem
  split at hmem
  · cases hmem
  · obtain ⟨_, -, -, -, copy, hcopy, rfl⟩ := CacheGetterSetter.mem_insertCache hmem
    rcases hcopy with rfl | hcopy
    · exact ⟨message, rfl, h⟩
    · cases hcopy
      exact ⟨makeMessageCopy message, rfl, h.copy⟩

/-- Nothing is inserted when the response is too large, or no level below
the hit has a lifetime for it. -/
theorem insertResponse_nil {config : RouteCacheConfig H} {sender : CacheRequestSender} {message : ResponseMessage H}
    {now : UInt64} {j : Nat} (hhit : sender.hitInCache = j)
    (h : ¬ (byteSize message.headers + message.body.length ≤ maxCacheEntrySize ∧ ∃ i name, i < j ∧
      usedCaches[i]? = some name ∧ cacheTTL config.cacheTtls name (getStatusValue message.headers) ≠ 0)) :
    (f.insertResponse usedCaches config sender message now).2 = [] := by
  simp only [insertResponse, List.map_eq_nil_iff, CacheRequestSender.insertResponse]
  split
  · rfl
  · rename_i hsize
    refine List.eq_nil_iff_forall_not_mem.2 ?_
    rintro ⟨i, e⟩ hmem
    obtain ⟨name, hname, hlt, httl, -⟩ := CacheGetterSetter.mem_insertCache hmem
    have hhit' : (sender.setCacheKey []).hitInCache = j := by
      unfold CacheGetterSetter.setCacheKey
      split_ifs <;> exact hhit
    rw [hhit'] at hlt
    exact h ⟨not_lt.1 hsize, i, name, hlt (by omega), hname, httl⟩

theorem encodeData_origin {f' : HttpCacheFilter H} {data : Bytes} {endStream : Bool} {now : UInt64}
    {inserted : List (CacheKeyType × Nat × HttpCacheEntry H)}
    (hf : ∀ message, f.responseToCache = some message → Origin upstream message.headers)
    (h : f.encodeData usedCaches data endStream now = .ok (f', inserted)) :
    (∀ message, f'.responseToCache = some message → Origin upstream message.headers) ∧
      ∀ x ∈ inserted, StoredOrigin upstream x.2.2 := by
  unfold encodeData at h
  split at h
  · cases h
    exact ⟨hf, by simp⟩
  · cases h
    exact ⟨hf, by simp⟩
  · rename_i message _ hmessage
    dsimp only at h
    split at h
    · split at h
      · rename_i config sender _ _
        cases h
        exact ⟨by simp, insertResponse_origin (f := f) (hf message hmessage)⟩
      · cases h
    · cases h
      refine ⟨?_, by simp⟩
      rintro _ ⟨⟩
      exact hf message hmessage

theorem encodeHeaders_origin {headers : H} {endStream : Bool} {now : UInt64} {out : Encoded H}
    (hf : ∀ message, f.responseToCache = some message → Origin upstream message.headers)
    (hcopy : Origin upstream (headersCopy headers))
    (h : f.encodeHeaders env usedCaches headers endStream now = .ok out) :
    (∀ message, out.filter.responseToCache = some message → Origin upstream message.headers) ∧
      ∀ x ∈ out.inserted, StoredOrigin upstream x.2.2 := by
  obtain rfl | ⟨config, sender, -, ⟨-, -, rfl⟩ | ⟨-, -, rfl⟩ | ⟨-, -, rfl⟩⟩ := encodeHeaders_cases h
  · exact ⟨hf, by simp⟩
  · exact ⟨hf, by simp⟩
  · exact ⟨by simp [insertResponse], insertResponse_origin (f := f.copied headers) hcopy⟩
  · refine ⟨?_, by simp⟩
    rintro _ ⟨⟩
    exact hcopy

/-! ## Hits -/

/-- A hit that is copied into a level before the one it was found in. -/
def WritesBack (env : FilterEnv) (usedCaches : List Bytes) (f : HttpCacheFilter H) (sender : CacheRequestSender)
    (response : ResponseMessage H) : Prop :=
  ∃ config, f.Cacheable env (hitHeaders usedCaches sender response.headers) config sender ∧ config.lowLevelFill = true ∧
    byteSize (headersCopy (hitHeaders usedCaches sender response.headers)) + response.body.length ≤ maxCacheEntrySize ∧
    ∃ i name, i < sender.currentCache ∧ usedCaches[i]? = some name ∧
      cacheTTL config.cacheTtls name (getStatusValue (headersCopy (hitHeaders usedCaches sender response.headers))) ≠ 0

/-- A hit that is not copied leaves what is to be stored as it was. -/
theorem onSuccess_origin {sender : CacheRequestSender} {response : ResponseMessage H} {now : UInt64}
    {out : Encoded H}
    (hf : ∀ message, f.responseToCache = some message → Origin upstream message.headers)
    (hsender : f.requestSender = some sender) (hhit : sender.hitInCache = sender.currentCache)
    (hnot : ¬ WritesBack env usedCaches f sender response)
    (h : f.onSuccess env usedCaches sender response now = .ok out) :
    (∀ message, out.filter.responseToCache = some message → Origin upstream message.headers) ∧
      ∀ x ∈ out.inserted, StoredOrigin upstream x.2.2 := by
  obtain ⟨encoded, hencode, hout⟩ := onSuccess_cases h
  -- with `low_level_fill` the copy is made, and dropped
  have hdrop : ∀ {config sender'} {g : HttpCacheFilter H} (body : Bytes),
      ({ f with hitInCaches := true } : HttpCacheFilter H).Cacheable env
        (hitHeaders usedCaches sender response.headers)
        config sender' → config.lowLevelFill = true → body.length = response.body.length →
      (g.insertResponse usedCaches config sender'
        ⟨headersCopy (hitHeaders usedCaches sender response.headers), body⟩ now).2 = [] := by
    rintro config sender' g body ⟨henable, hresponse, hconfig, hcheck, hsender'⟩ hfill hbody
    obtain rfl : sender = sender' := Option.some.inj (hsender.symm.trans hsender')
    refine insertResponse_nil hhit fun hsize => hnot
      ⟨config, ⟨henable, hresponse, hconfig, hcheck, hsender⟩, hfill, ?_, hsize.2⟩
    simpa only [hbody] using hsize.1
  have hdata : (∀ message, encoded.filter.responseToCache = some message → Origin upstream message.headers) →
      (∀ x ∈ encoded.inserted, StoredOrigin upstream x.2.2) →
      (∀ message, out.filter.responseToCache = some message → Origin upstream message.headers) ∧
        ∀ x ∈ out.inserted, StoredOrigin upstream x.2.2 := by
    intro hmessage hinserted
    obtain ⟨-, rfl⟩ | ⟨-, g, inserted, hg, rfl⟩ := hout
    · exact ⟨hmessage, hinserted⟩
    · obtain ⟨hmessage', hinserted'⟩ := encodeData_origin hmessage hg
      refine ⟨hmessage', fun x hx => ?_⟩
      rcases List.mem_append.1 hx with hx | hx
      · exact hinserted' x hx
      · exact hinserted x hx
  obtain rfl | ⟨config, sender', hcacheable,
      ⟨-, -, rfl⟩ | ⟨hfill, hend, rfl⟩ | ⟨hfill, hend, rfl⟩⟩ := encodeHeaders_cases hencode
  · exact hdata hf (by simp)
  · exact hdata hf (by simp)
  · have hfill' : config.lowLevelFill = true := by simpa using hfill
    have hbody : ([] : Bytes).length = response.body.length := by simpa using (of_decide_eq_true hend).symm
    refine hdata (by simp [insertResponse]) ?_
    simp [hdrop [] hcacheable hfill' hbody]
  · have hfill' : config.lowLevelFill = true := by simpa using hfill
    obtain ⟨hbody, -⟩ | ⟨-, g, inserted, hg, rfl⟩ := hout
    · exact absurd hbody (of_decide_eq_false hend)
    · have hinsert := hdrop
        (g := copied { f with hitInCaches := true } (hitHeaders usedCaches sender response.headers))
        response.body hcacheable hfill' rfl
      obtain ⟨henable, -, hconfig, -, hsender'⟩ := hcacheable
      have hlast := encodeData_end usedCaches
        (f := copied { f with hitInCaches := true } (hitHeaders usedCaches sender response.headers))
        henable hconfig hsender' rfl response.body now
      obtain ⟨rfl, rfl⟩ := Prod.ext_iff.1 (Except.ok.inj (hlast.symm.trans hg))
      refine ⟨by simp [insertResponse], ?_⟩
      rw [List.append_nil]
      exact fun x hx => absurd (hinsert ▸ hx) (by simp)

theorem iterate_hitHeaders (sender : CacheRequestSender) (headers : H) :
    iterate (hitHeaders usedCaches sender headers) = iterate headers ++ [⟨headerName "x-cache-status", headerValue "HIT"⟩,
      ⟨headerName "x-cache-hit", .ofCString (sender.requestHitInCache usedCaches)⟩] := by
  rw [hitHeaders, iterate_addCopy _ _ _ (isInline_xCache (H := H) _ (by simp)),
    iterate_addCopy _ _ _ (isInline_xCache (H := H) _ (by simp)), iterate_copyFrom]
  simp

/-- A hit goes on with one more `x-cache-status`. -/
theorem onSuccess_status {sender : CacheRequestSender} {response : ResponseMessage H} {now : UInt64}
    {out : Encoded H}
    (h : f.onSuccess env usedCaches sender response now = .ok out) :
    HeaderMap.get out.headers (headerName "x-cache-status") =
      HeaderMap.get response.headers (headerName "x-cache-status") ++ [⟨headerName "x-cache-status", headerValue "HIT"⟩] := by
  have hnames : headerName "x-cache-hit" ≠ headerName "x-cache-status" ∧ headerName "x-cache-key" ≠ headerName "x-cache-status" := by
    decide
  have hhit : HeaderMap.get (hitHeaders usedCaches sender response.headers) (headerName "x-cache-status") =
      HeaderMap.get response.headers (headerName "x-cache-status") ++ [⟨headerName "x-cache-status", headerValue "HIT"⟩] := by
    rw [HeaderMap.get, iterate_hitHeaders, List.filter_append, ← HeaderMap.get]
    simp [hnames]
  have hkey : ∀ sender', HeaderMap.get (addCacheHeaders { f with hitInCaches := true } sender'
      (hitHeaders usedCaches sender response.headers)) (headerName "x-cache-status") =
      HeaderMap.get (hitHeaders usedCaches sender response.headers) (headerName "x-cache-status") := by
    intro sender'
    rw [HeaderMap.get, addCacheHeaders, if_pos rfl, iterate_addCopy _ _ _ (isInline_xCache (H := H) _ (by simp)),
      List.filter_append, ← HeaderMap.get]
    simp [hnames]
  obtain ⟨encoded, hencode, hout⟩ := onSuccess_cases h
  have hsame : out.headers = encoded.headers := by
    obtain ⟨-, rfl⟩ | ⟨-, g, inserted, -, rfl⟩ := hout <;> rfl
  rw [hsame]
  obtain rfl | ⟨config, sender', -, ⟨-, -, rfl⟩ | ⟨-, -, rfl⟩ | ⟨-, -, rfl⟩⟩ := encodeHeaders_cases hencode
  · exact hhit
  · exact (hkey sender').trans hhit
  · exact (hkey sender').trans hhit
  · exact (hkey sender').trans hhit

end HttpCacheFilter

/-! ## The levels -/

/-- What a level finds of an entry that was inserted. -/
def CacheType.found (json : Rapidjson) (type : CacheType) (entry : HttpCacheEntry H) :
    Except LoadFault (Option (HttpCacheEntry H)) :=
  match type with
  | .kLocal => .ok (createCopy entry)
  | .kRedis =>
    match entry.serializeAsString with
    | none => .ok none
    | some raw => do return some (← loadFromString json raw)

/-- A text without a status is not used. -/
theorem loadFromString_noStatus (json : Rapidjson) (message : ResponseMessage H)
    (hstatus : status message.headers = none) :
    loadFromString (H := H) json ((document message).text json.dtoa) = .ok {} := by
  have hraw : (document message).text json.dtoa ≠ [] := by simp [document, Value.text, objectText]
  have hheaders : loadHeaders [(ascii "headers", .object ((iterate message.headers).map fun e =>
      (e.key.bytes, .string e.value.bytes))), (ascii "rawbody", .string message.body)] =
      .ok (copyFrom (iterate message.headers) : H) := loadHeaders_document (iterate message.headers) create
  have hstatus' : (status (copyFrom (iterate message.headers) : H)).isNone := by
    rw [status_congr (iterate_copyFrom message.headers), hstatus]
    rfl
  rw [loadFromString, if_neg hraw, json.parse_text (document message) (noDoubles_document message)]
  simp only [document, hheaders, ok_bind, pure_ok, if_pos (Or.inr hstatus')]

/-- Both levels find the copy of a message. -/
theorem found_local (json : Rapidjson) {entry : HttpCacheEntry H} {message : ResponseMessage H}
    (hmessage : entry.cacheMessage = some message) :
    CacheType.kLocal.found json entry = .ok (some (.new (makeMessageCopy message) 0)) := by
  simp [CacheType.found, createCopy, hmessage]

theorem found_redis (json : Rapidjson) {entry : HttpCacheEntry H} {message : ResponseMessage H}
    (hmessage : entry.cacheMessage = some message) (hstatus : (status message.headers).isSome) :
    CacheType.kRedis.found json entry = .ok (some { cacheMessage := some (makeMessageCopy message) }) := by
  simp only [CacheType.found, serializeAsString_eq json.dtoa, hmessage, Option.map_some]
  rw [loadFromString_document json message hstatus]
  rfl

theorem found_origin {json : Rapidjson} {type : CacheType} {entry e : HttpCacheEntry H}
    {response : ResponseMessage H}
    (hentry : StoredOrigin upstream entry) (h : type.found json entry = .ok (some e))
    (he : e.cacheMessage = some response) :
    Origin upstream response.headers := by
  obtain ⟨message, hmessage, horigin⟩ := hentry
  cases type with
  | kLocal =>
    rw [found_local json hmessage] at h
    cases h
    cases he
    exact horigin.copy
  | kRedis =>
    by_cases hstatus : (status message.headers).isSome
    · rw [found_redis json hmessage hstatus] at h
      cases h
      cases he
      exact horigin.copy
    · simp only [CacheType.found, serializeAsString_eq json.dtoa, hmessage, Option.map_some] at h
      rw [loadFromString_noStatus json message (by simpa using hstatus)] at h
      cases h
      cases he

end Origin

end EnvoyProxy.Cache
