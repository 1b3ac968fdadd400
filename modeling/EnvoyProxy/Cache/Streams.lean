import EnvoyProxy.Cache.Lookup
import EnvoyProxy.Cache.Origin
/-!
# Runs of the cache filter

Any number of streams over the levels of one configuration. A level answers a
lookup with nothing, or with an entry that was inserted there under the key.
`stored_have_origin`: as long as no hit is written back or comes from a
response that was marked already, stored responses have the headers of upstream
responses, and a hit is marked once.
-/

namespace EnvoyProxy.Cache
open Json Http HeaderMap HttpCacheEntry

structure CacheStream (H : Type) where
  filter : HttpCacheFilter H := {}
  /-- The levels that have not called their callback. -/
  waiting : List Nat := []

structure CacheWorld (H : Type) where
  streams : Nat → CacheStream H := fun _ => {}
  /-- What was inserted: under a key, at a level. -/
  stored : List (CacheKeyType × Nat × HttpCacheEntry H) := []
  /-- The headers of the responses that came from upstream. -/
  upstream : List H := []
  /-- The headers of the hits, as they went on. -/
  served : List H := []

inductive CacheEvent (H : Type)
  | decodeHeaders (stream : Nat) (headers : H) (endStream : Bool) (route : Option (Option (RouteCacheConfig H)))
  /-- A level calls its callback. -/
  | answer (stream level : Nat) (entry : Option (HttpCacheEntry H)) (now : UInt64)
  /-- Headers and data of a response from upstream. -/
  | encodeHeaders (stream : Nat) (headers : H) (endStream : Bool) (now : UInt64)
  | encodeData (stream : Nat) (data : Bytes) (endStream : Bool) (now : UInt64)
  | onDestroy (stream : Nat)

section Steps
variable {H : Type} [HeaderMap H] (env : FilterEnv) (json : Rapidjson) (caches : List CacheType)

/-- The client's side of what a lookup asks for: the filter, the headers of a
hit, and what was inserted. -/
def HttpCacheFilter.react (usedCaches : List Bytes) (f : HttpCacheFilter H) (sender : CacheRequestSender)
    (asks : List (Ask (HttpCacheEntry H))) (now : UInt64) :
    Except FilterFault (HttpCacheFilter H × List H × List (CacheKeyType × Nat × HttpCacheEntry H)) :=
  match asks with
  | [.onSuccess entry] =>
    match sender.onSuccess entry with
    | (sender, .onFailure) => .ok ({ f with requestSender := some sender }, [], [])
    | (sender, .onSuccess response) => do
      let out ← HttpCacheFilter.onSuccess env usedCaches { f with requestSender := some sender } sender response now
      return (out.filter, [out.headers], out.inserted)
  | [.onFailure] => .ok ({ f with requestSender := some (sender.onFailure (H := H)).1 }, [], [])
  | _ => .ok ({ f with requestSender := some sender }, [], [])

namespace CacheWorld

def setStream (w : CacheWorld H) (i : Nat) (s : CacheStream H) : CacheWorld H :=
  { w with streams := Function.update w.streams i s }

def step (w : CacheWorld H) : CacheEvent H → Except FilterFault (CacheWorld H)
  | .decodeHeaders i headers endStream route => do
    let (_, f, asks) ← (w.streams i).filter.decodeHeaders env (caches.map CacheType.name) headers endStream route
    return w.setStream i ⟨f, (w.streams i).waiting ++ asks.filterMap Ask.level⟩
  | .answer i level entry now =>
    match (w.streams i).filter.requestSender with
    | none => .error .nullPointer
    | some sender =>
      match sender.cacheLookupCallback (caches.map CacheType.name) entry with
      | .error fault => .error (.sender fault)
      | .ok (getter, asks) => do
        let sender := { sender with toCacheGetterSetter := getter }
        let (f, served, inserted) ← (w.streams i).filter.react env (caches.map CacheType.name) sender asks now
        let w := w.setStream i ⟨f, (w.streams i).waiting.erase level ++ asks.filterMap Ask.level⟩
        return { w with stored := inserted ++ w.stored, served := served ++ w.served }
  | .encodeHeaders i headers endStream now => do
    let out ← (w.streams i).filter.encodeHeaders env (caches.map CacheType.name) headers endStream now
    let w := w.setStream i { w.streams i with filter := out.filter }
    return { w with stored := out.inserted ++ w.stored, upstream := headers :: w.upstream }
  | .encodeData i data endStream now => do
    let (f, inserted) ← (w.streams i).filter.encodeData (caches.map CacheType.name) data endStream now
    let w := w.setStream i { w.streams i with filter := f }
    return { w with stored := inserted ++ w.stored }
  | .onDestroy i => .ok (w.setStream i { w.streams i with filter := (w.streams i).filter.onDestroy })

/-- A stream has one request, a level calls its callback once, and it has
what was inserted there. -/
def Scheduled (w : CacheWorld H) : CacheEvent H → Prop
  | .decodeHeaders i _ _ _ => (w.streams i).filter.requestSender = none
  | .answer i level entry _ => level ∈ (w.streams i).waiting ∧ ∀ e, entry = some e → ∃ sender type kept,
      (w.streams i).filter.requestSender = some sender ∧ caches[level]? = some type ∧
      (sender.cacheKey, level, kept) ∈ w.stored ∧ type.found json kept = .ok (some e)
  | _ => True

/-- The event does not copy a hit into a level before it, and the response
that the hit comes from had no `x-cache-status`. -/
def KeepsHits (w : CacheWorld H) : CacheEvent H → Prop
  | .answer i _ (some entry) _ => ∀ sender response, (w.streams i).filter.requestSender = some sender →
      sender.finished = false → entry.cacheMessage = some response →
      ¬ HttpCacheFilter.WritesBack env (caches.map CacheType.name)
          { (w.streams i).filter with requestSender := some { sender with toCacheGetterSetter := sender.hit } }
          { sender with toCacheGetterSetter := sender.hit } response ∧
        ∀ o ∈ w.upstream, ComesFrom response.headers o → HeaderMap.get o (headerName "x-cache-status") = []
  | _ => True

/-- What holds in every state of a run without write-backs. -/
structure Clean (w : CacheWorld H) : Prop where
  /-- What waits for the end of its response will be stored so. -/
  pending : ∀ i message, (w.streams i).filter.responseToCache = some message → Origin w.upstream message.headers
  stored : ∀ x ∈ w.stored, StoredOrigin w.upstream x.2.2
  served : ∀ headers ∈ w.served,
    HeaderMap.get headers (headerName "x-cache-status") = [⟨headerName "x-cache-status", headerValue "HIT"⟩]

variable {env json caches} {w : CacheWorld H}

/-- One stream goes on, and something may be inserted and served. -/
theorem Clean.next (h : w.Clean) {i : Nat} {s : CacheStream H}
    (inserted : List (CacheKeyType × Nat × HttpCacheEntry H)) (served : List H)
    (hpending : ∀ message, s.filter.responseToCache = some message → Origin w.upstream message.headers)
    (hinserted : ∀ x ∈ inserted, StoredOrigin w.upstream x.2.2)
    (hserved : ∀ headers ∈ served,
      HeaderMap.get headers (headerName "x-cache-status") = [⟨headerName "x-cache-status", headerValue "HIT"⟩]) :
    Clean { w.setStream i s with stored := inserted ++ w.stored, served := served ++ w.served } where
  pending k message hmessage := by
    by_cases hk : k = i
    · subst hk
      rw [setStream] at hmessage
      simp only [Function.update_self] at hmessage
      exact hpending message hmessage
    · rw [setStream] at hmessage
      simp only [Function.update_of_ne hk] at hmessage
      exact h.pending k message hmessage
  stored x hx := (List.mem_append.1 hx).elim (hinserted x) (h.stored x)
  served headers hx := (List.mem_append.1 hx).elim (hserved headers) (h.served headers)

/-- Another response from upstream. -/
theorem Clean.upstream (h : w.Clean) (o : H) : Clean { w with upstream := o :: w.upstream } where
  pending i message hmessage := (h.pending i message hmessage).mono o
  stored x hx := (h.stored x hx).mono o
  served := h.served

theorem start_clean : Clean ({} : CacheWorld H) where
  pending _ _ h := by cases h
  stored _ h := by cases h
  served _ h := by cases h

theorem decodeHeaders_pending {usedCaches : List Bytes} {f f' : HttpCacheFilter H} {headers : H} {endStream : Bool}
    {route : Option (Option (RouteCacheConfig H))} {status : FilterHeadersStatus}
    {asks : List (Ask (HttpCacheEntry H))}
    (h : f.decodeHeaders env usedCaches headers endStream route = .ok (status, f', asks)) :
    f'.responseToCache = f.responseToCache := by
  unfold HttpCacheFilter.decodeHeaders at h
  split at h
  · cases h; rfl
  · cases h; rfl
  · cases h; rfl
  · dsimp only at h
    split at h
    · cases h; rfl
    · split at h
      · cases h
      · cases h; rfl
      · cases h; rfl

/-- Without a hit nothing is inserted. -/
theorem react_pending {usedCaches : List Bytes} {f f' : HttpCacheFilter H} {sender : CacheRequestSender}
    {asks : List (Ask (HttpCacheEntry H))} {now : UInt64} {served : List H}
    {inserted : List (CacheKeyType × Nat × HttpCacheEntry H)} (hasks : ∀ e, asks ≠ [.onSuccess e])
    (h : f.react env usedCaches sender asks now = .ok (f', served, inserted)) :
    f'.responseToCache = f.responseToCache ∧ served = [] ∧ inserted = [] := by
  unfold HttpCacheFilter.react at h
  split at h
  · exact absurd rfl (hasks _)
  · cases h
    exact ⟨rfl, rfl, rfl⟩
  · cases h
    exact ⟨rfl, rfl, rfl⟩

theorem Clean.answer (h : w.Clean) {i level : Nat} {entry : Option (HttpCacheEntry H)}
    {now : UInt64} {w' : CacheWorld H}
    (hsched : w.Scheduled json caches (.answer i level entry now))
    (hkeeps : w.KeepsHits env caches (.answer i level entry now))
    (hstep : w.step env caches (.answer i level entry now) = .ok w') : w'.Clean := by
  simp only [step] at hstep
  split at hstep
  · cases hstep
  rename_i sender hsender
  split at hstep
  · cases hstep
  rename_i getter asks hcall
  obtain ⟨⟨f, served, inserted⟩, hreact, hstep⟩ := bind_eq_ok hstep
  cases hstep
  obtain ⟨e, rfl, hfin, rfl, rfl⟩ | hasks := CacheGetterSetter.cacheLookupCallback_cases hcall
  · -- a hit
    obtain ⟨-, hentry⟩ := hsched
    obtain ⟨sender', type, kept, -, -, hkept, hfound⟩ := hentry e rfl
    rcases hmessage : e.cacheMessage with _ | response
    · simp only [HttpCacheFilter.react, CacheRequestSender.onSuccess, hmessage] at hreact
      cases hreact
      exact h.next _ _ (h.pending i) (by simp) (by simp)
    · simp only [HttpCacheFilter.react, CacheRequestSender.onSuccess, hmessage] at hreact
      obtain ⟨out, hout, hreact⟩ := bind_eq_ok hreact
      cases hreact
      obtain ⟨o, ho, horigin⟩ := found_origin (h.stored _ hkept) hfound hmessage
      obtain ⟨hnot, hunmarked⟩ := hkeeps sender response hsender hfin hmessage
      obtain ⟨hpending, hinserted⟩ := HttpCacheFilter.onSuccess_origin
        (f := { (w.streams i).filter with requestSender := some { sender with toCacheGetterSetter := sender.hit } })
        (h.pending i) rfl rfl hnot hout
      apply h.next _ _ hpending hinserted
      intro headers hheaders
      rw [List.mem_singleton.1 hheaders, HttpCacheFilter.onSuccess_status hout, horigin.get (by decide), hunmarked o ho horigin,
        List.nil_append]
  · obtain ⟨hf, rfl, rfl⟩ := react_pending hasks hreact
    exact h.next _ _ (fun message hmessage => h.pending i message (hf ▸ hmessage)) (by simp) (by simp)

theorem Clean.step (h : w.Clean) {event : CacheEvent H} {w' : CacheWorld H} (hsched : w.Scheduled json caches event)
    (hkeeps : w.KeepsHits env caches event) (hstep : w.step env caches event = .ok w') : w'.Clean := by
  cases event with
  | decodeHeaders i headers endStream route =>
    obtain ⟨⟨status, f, asks⟩, hdecode, hstep⟩ := bind_eq_ok hstep
    cases hstep
    have hf := decodeHeaders_pending hdecode
    exact h.next [] [] (fun message hmessage => h.pending i message (hf ▸ hmessage))
      (by simp) (by simp)
  | answer i level entry now => exact h.answer hsched hkeeps hstep
  | encodeHeaders i headers endStream now =>
    obtain ⟨out, hencode, hstep⟩ := bind_eq_ok hstep
    cases hstep
    have h' := h.upstream headers
    obtain ⟨hpending, hinserted⟩ := HttpCacheFilter.encodeHeaders_origin (h'.pending i)
      (origin_headersCopy w.upstream headers) hencode
    exact h'.next _ [] hpending hinserted (by simp)
  | encodeData i data endStream now =>
    obtain ⟨⟨f, inserted⟩, hencode, hstep⟩ := bind_eq_ok hstep
    cases hstep
    obtain ⟨hpending, hinserted⟩ := HttpCacheFilter.encodeData_origin (h.pending i) hencode
    exact h.next _ [] hpending hinserted (by simp)
  | onDestroy i =>
    cases hstep
    exact h.next [] [] (h.pending i) (by simp) (by simp)

/-- In every run in which no hit is written back and none comes from a response
that was marked already, for any levels, routes, requests and responses: a
stored response has the headers of a response from upstream, in their order,
but for `x-envoy-upstream-service-time` and the two that say how long the body
is; and a hit goes on with exactly one `x-cache-status`. -/
theorem stored_have_origin
    (h : Reach (step env caches) (fun w e => w.Scheduled json caches e ∧ w.KeepsHits env caches e) ({} : CacheWorld H) w) :
    (∀ x ∈ w.stored, ∃ message, x.2.2.cacheMessage = some message ∧ ∃ o ∈ w.upstream,
      (iterate message.headers).filter isKept = ((iterate o).filter (!isServiceTime ·)).filter isKept) ∧
    ∀ headers ∈ w.served,
      HeaderMap.get headers (headerName "x-cache-status") = [⟨headerName "x-cache-status", headerValue "HIT"⟩] := by
  have hclean := h.invariant Clean start_clean fun w event w' hw hevent hstep => hw.step hevent.1 hevent.2 hstep
  exact ⟨hclean.stored, hclean.served⟩

end CacheWorld

end Steps

/-! ## Two levels -/

def plainEnv : FilterEnv where
  hash := id
  util := plainPathUtil
  caseFindToken source _ token := source = token

def fillConfig : RouteCacheConfig HeaderList where
  lowLevelFill := true
  cacheTtls := [(ascii "LocalCache", ⟨60, []⟩), (ascii "RedisCache", ⟨60, []⟩)]

/-- A response of upstream is stored in both levels and then found in the
first one. -/
theorem first_level_hit :
    ∃ w, Reach (CacheWorld.step plainEnv [.kLocal, .kRedis])
        (fun w e => w.Scheduled bitsJson [.kLocal, .kRedis] e ∧ w.KeepsHits plainEnv [.kLocal, .kRedis] e)
        ({} : CacheWorld HeaderList) w ∧ w.stored.length = 2 ∧
      ∀ headers ∈ w.served, HeaderMap.get headers (headerName "x-cache-status") =
        [⟨headerName "x-cache-status", headerValue "HIT"⟩] := by
  have h₁ := reach_start (CacheWorld.step plainEnv [.kLocal, .kRedis])
    (fun w e => w.Scheduled bitsJson [.kLocal, .kRedis] e ∧ w.KeepsHits plainEnv [.kLocal, .kRedis] e)
    ({} : CacheWorld HeaderList)
  have h₂ := h₁.next (e := .decodeHeaders 0 (plainRequest "GET" "h" "/").headers true (some (some fillConfig)))
    (by exact ⟨rfl, trivial⟩) rfl
  have h₃ := h₂.next (e := .answer 0 0 none 1000) (by exact ⟨⟨List.mem_singleton.2 rfl, by simp⟩, trivial⟩) rfl
  have h₄ := h₃.next (e := .answer 0 1 none 1000) (by exact ⟨⟨List.mem_singleton.2 rfl, by simp⟩, trivial⟩) rfl
  have h₅ := h₄.next (e := .encodeHeaders 0 [⟨headerName ":status", headerValue "200"⟩] true 1000)
    (by exact ⟨trivial, trivial⟩) rfl
  have h₆ := h₅.next (e := .decodeHeaders 1 (plainRequest "GET" "h" "/").headers true (some (some fillConfig)))
    (by exact ⟨rfl, trivial⟩) rfl
  have h₇ := h₆.next (e := .answer 1 0 (some (.new (makeMessageCopy (makeMessageCopy
      ⟨[⟨headerName ":status", headerValue "200"⟩], []⟩)) 0)) 1000) (by
    refine ⟨⟨List.mem_singleton.2 rfl, ?_⟩, ?_⟩
    · rintro e ⟨⟩
      exact ⟨_, .kLocal, _, rfl, rfl, List.mem_cons_self, rfl⟩
    · rintro sender response ⟨⟩ - ⟨⟩
      refine ⟨?_, fun o ho _ => ?_⟩
      · rintro ⟨config, -, -, -, i, name, hi, -⟩
        exact absurd hi (Nat.not_lt_zero i)
      · rw [List.mem_singleton.1 ho]
        decide) rfl
  exact ⟨_, h₇, rfl, (CacheWorld.stored_have_origin h₇).2⟩

/-- A hit in the second level is stored in the first one as a hit. -/
theorem hit_is_stored :
    ∃ w, Reach (CacheWorld.step plainEnv [.kLocal, .kRedis]) (CacheWorld.Scheduled bitsJson [.kLocal, .kRedis])
        ({} : CacheWorld HeaderList) w ∧
      ∃ x ∈ w.stored, ∃ message, x.2.2.cacheMessage = some message ∧
        HeaderMap.get message.headers (headerName "x-cache-status") = [⟨headerName "x-cache-status", headerValue "HIT"⟩] ∧
        ∀ o ∈ w.upstream, (iterate message.headers).filter isKept ≠ ((iterate o).filter (!isServiceTime ·)).filter isKept := by
  have h₁ := reach_start (CacheWorld.step plainEnv [.kLocal, .kRedis])
    (CacheWorld.Scheduled bitsJson [.kLocal, .kRedis]) ({} : CacheWorld HeaderList)
  have h₂ := h₁.next (e := .decodeHeaders 0 (plainRequest "GET" "h" "/").headers true (some (some fillConfig)))
    (by exact rfl) rfl
  have h₃ := h₂.next (e := .answer 0 0 none 1000) (by exact ⟨List.mem_singleton.2 rfl, by simp⟩) rfl
  have h₄ := h₃.next (e := .answer 0 1 none 1000) (by exact ⟨List.mem_singleton.2 rfl, by simp⟩) rfl
  have h₅ := h₄.next (e := .encodeHeaders 0 [⟨headerName ":status", headerValue "200"⟩] true 1000) (by exact trivial) rfl
  have h₆ := h₅.next (e := .decodeHeaders 1 (plainRequest "GET" "h" "/").headers true (some (some fillConfig)))
    (by exact rfl) rfl
  have h₇ := h₆.next (e := .answer 1 0 none 1000) (by exact ⟨List.mem_singleton.2 rfl, by simp⟩) rfl
  have h₈ := h₇.next (e := .answer 1 1 (some { cacheMessage := some (makeMessageCopy
      ⟨[⟨headerName ":status", headerValue "200"⟩], []⟩) }) 1000) (by
    refine ⟨List.mem_singleton.2 rfl, ?_⟩
    rintro e ⟨⟩
    exact ⟨_, .kRedis, _, rfl, rfl, List.mem_cons_of_mem _ List.mem_cons_self, found_redis bitsJson
    rfl (by decide)⟩) rfl
  refine ⟨_, h₈, _, List.mem_cons_self, _, rfl, by decide, ?_⟩
  intro o ho
  rw [List.mem_singleton.1 ho]
  decide

end EnvoyProxy.Cache
