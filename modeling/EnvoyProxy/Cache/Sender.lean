import EnvoyProxy.Cache.Entry
/-!
# Lookup and insertion through the levels

`CacheGetterSetter` and `CacheRequestSender` (cache_request_sender.cc). A
level answers a lookup later, through the callback it was given; the callback
reads the members as they are by then. A call returns the state after it and
what it asks of others: lookups at levels, calls of the client, insertions.
Levels are identified by their index in `used_caches_`, which holds their
names.
-/

namespace EnvoyProxy.Cache
open Http HeaderMap

structure CacheGetterSetter where
  hasCacheKey : Bool := false
  cacheKey : CacheKeyType := []
  lookupCacheOver : Bool := false
  lookupCacheStop : Bool := false
  hitInCache : Int := -1
  currentCache : Nat := 0
  /-- `callback_` is not null. -/
  callback : Bool := false
  deriving DecidableEq, Repr

inductive CacheLookupStatus
  | FAILED
  | ONCALL
  deriving DecidableEq, Repr

/-- What a call asks of a level or of its callback. -/
inductive Ask (E : Type)
  | lookupCache (level : Nat)
  | onSuccess (entry : E)
  | onFailure
  deriving DecidableEq, Repr

/-- `used_caches_[i]` with `i` out of range. -/
inductive SenderFault
  | outOfRange
  deriving DecidableEq, Repr

namespace CacheGetterSetter
variable {E : Type}

def setCacheKey (s : CacheGetterSetter) (key : CacheKeyType) : CacheGetterSetter :=
  if s.hasCacheKey then s else { s with cacheKey := key, hasCacheKey := true }

def cancelLookup (s : CacheGetterSetter) : CacheGetterSetter := { s with lookupCacheStop := true, callback := false }

/-- Nobody waits for the lookup any more. -/
def finished (s : CacheGetterSetter) : Bool := s.lookupCacheOver || s.lookupCacheStop || !s.callback

/-- The state once `onFailure` has been called. -/
def missed (s : CacheGetterSetter) : CacheGetterSetter := { s with lookupCacheStop := true, callback := false }

/-- The state once `onSuccess` has been called. -/
def hit (s : CacheGetterSetter) : CacheGetterSetter :=
  { s with hitInCache := s.currentCache, lookupCacheOver := true, callback := false }

def advance (s : CacheGetterSetter) : CacheGetterSetter := { s with currentCache := s.currentCache + 1 }

def setCallback (s : CacheGetterSetter) : CacheGetterSetter := { s with callback := true }

section Lookup
variable (usedCaches : List Bytes)

def lookupCacheOnce (s : CacheGetterSetter) : Except SenderFault (CacheGetterSetter × List (Ask E)) :=
  if s.finished then .ok (s, [])
  -- the last level has answered
  else if usedCaches.length ≤ s.currentCache then .ok (s.missed, [.onFailure])
  else
    match usedCaches[s.currentCache]? with
    | none => .error .outOfRange
    | some _ => .ok (s, [.lookupCache s.currentCache])

/-- `cache_lookup_callback`, called with what a level has found. -/
def cacheLookupCallback (s : CacheGetterSetter) (entry : Option E) :
    Except SenderFault (CacheGetterSetter × List (Ask E)) :=
  if s.finished then .ok (s, [])
  else
    match entry with
    | none => lookupCacheOnce usedCaches s.advance
    | some entry => .ok (s.hit, [.onSuccess entry])

/-- `callback` says whether the pointer is not null. -/
def lookupCache (s : CacheGetterSetter) (callback : Bool) :
    Except SenderFault (CacheLookupStatus × CacheGetterSetter × List (Ask E)) :=
  if usedCaches = [] ∨ callback = false ∨ s.hasCacheKey = false then .ok (.FAILED, s, [])
  else do
    let (s, asks) ← lookupCacheOnce usedCaches s.setCallback
    return (.ONCALL, s, asks)

variable {usedCaches} {s : CacheGetterSetter}

theorem lookupCacheOnce_finished (h : s.finished = true) : lookupCacheOnce (E := E) usedCaches s = .ok (s, []) :=
  if_pos h

theorem lookupCacheOnce_end (h : s.finished = false) (hend : usedCaches.length ≤ s.currentCache) :
    lookupCacheOnce (E := E) usedCaches s = .ok (s.missed, [.onFailure]) := by
  simp [lookupCacheOnce, h, hend]

theorem lookupCacheOnce_query (h : s.finished = false) (hlt : s.currentCache < usedCaches.length) :
    lookupCacheOnce (E := E) usedCaches s = .ok (s, [.lookupCache s.currentCache]) := by
  simp [lookupCacheOnce, h, hlt]

theorem cacheLookupCallback_finished (h : s.finished = true) (entry : Option E) :
    cacheLookupCallback usedCaches s entry = .ok (s, []) := by
  cases entry <;> simp [cacheLookupCallback, h]

theorem cacheLookupCallback_none (usedCaches : List Bytes) (h : s.finished = false) :
    cacheLookupCallback (E := E) usedCaches s none = lookupCacheOnce usedCaches s.advance := by
  simp [cacheLookupCallback, h]

theorem cacheLookupCallback_some (h : s.finished = false) (entry : E) :
    cacheLookupCallback usedCaches s (some entry) = .ok (s.hit, [.onSuccess entry]) := by
  simp [cacheLookupCallback, h]

/-- A hit asks for `onSuccess`, and nothing else does. -/
theorem cacheLookupCallback_cases {entry : Option E} {g : CacheGetterSetter} {asks : List (Ask E)}
    (h : cacheLookupCallback usedCaches s entry = .ok (g, asks)) :
    (∃ e, entry = some e ∧ s.finished = false ∧ g = s.hit ∧ asks = [.onSuccess e]) ∨ ∀ e, asks ≠ [.onSuccess e] := by
  by_cases hfin : s.finished = true
  · rw [cacheLookupCallback_finished hfin] at h
    cases h
    exact .inr (by simp)
  rw [Bool.not_eq_true] at hfin
  cases entry with
  | some e =>
    rw [cacheLookupCallback_some hfin] at h
    cases h
    exact .inl ⟨e, rfl, hfin, rfl, rfl⟩
  | none =>
    have hfin' : s.advance.finished = false := hfin
    rw [cacheLookupCallback_none usedCaches hfin] at h
    by_cases hend : usedCaches.length ≤ s.advance.currentCache
    · rw [lookupCacheOnce_end hfin' hend] at h
      cases h
      exact .inr (by simp)
    · rw [lookupCacheOnce_query hfin' (not_le.1 hend)] at h
      cases h
      exact .inr (by simp)

end Lookup

end CacheGetterSetter

/-! ## The levels -/

/-- `CacheTypeCase` -/
inductive CacheType
  | kRedis
  | kLocal
  deriving DecidableEq, Repr

def CacheType.name : CacheType → Bytes
  | .kRedis => ascii "RedisCache"
  | .kLocal => ascii "LocalCache"

/-- One step of the constructor of `CacheGetterSetterConfig`: the names seen
and the levels so far. `create` says whether there is an implementation. -/
def addCache (create : CacheType → Bool) (s : List Bytes × List Bytes) (type : CacheType) : List Bytes × List Bytes :=
  if type.name ∈ s.1 then s
  else (type.name :: s.1, if create type then s.2 ++ [type.name] else s.2)

/-- The names of `used_caches_`. -/
def usedCachesOf (create : CacheType → Bool) (caches : List CacheType) : List Bytes :=
  (caches.foldl (addCache create) ([], [])).2

/-- A kind of level is used once, so the 32-bit indices do not wrap. -/
theorem usedCachesOf_length (create : CacheType → Bool) (caches : List CacheType) :
    (usedCachesOf create caches).length ≤ 2 := by
  have hinv : ∀ (caches : List CacheType) (s : List Bytes × List Bytes), s.2.length ≤ s.1.length → s.1.Nodup →
      s.1 ⊆ [ascii "RedisCache", ascii "LocalCache"] →
      (caches.foldl (addCache create) s).2.length ≤ 2 := by
    intro caches
    induction caches with
    | nil =>
      intro s hle hnodup hsub
      exact hle.trans (hnodup.subperm hsub).length_le
    | cons type caches ih =>
      intro s hle hnodup hsub
      rw [List.foldl_cons]
      by_cases hseen : type.name ∈ s.1
      · rw [addCache, if_pos hseen]
        exact ih s hle hnodup hsub
      · rw [addCache, if_neg hseen]
        refine ih _ ?_ (List.nodup_cons.2 ⟨hseen, hnodup⟩) (List.cons_subset.2 ⟨?_, hsub⟩)
        · dsimp only
          split_ifs
          · simpa using hle
          · exact hle.trans (Nat.le_succ _)
        · cases type <;> simp [CacheType.name]
  exact hinv caches ([], []) le_rfl List.nodup_nil (List.nil_subset _)

/-! ## Insertion -/

/-- The lifetimes of one level: by status, and otherwise. A regular
expression is given by what it matches. -/
structure CacheTTL where
  default_ : UInt64
  customs : List ((Bytes → Bool) × UInt64) := []

/-- `SpecificCacheConfig::cacheTTL`, from the lifetimes by level name. -/
def cacheTTL (cacheTtls : List (Bytes × CacheTTL)) (name code : Bytes) : UInt64 :=
  match cacheTtls.lookup name with
  | none => 0
  | some ttl => ((ttl.customs.find? (·.1 code)).map (·.2)).getD ttl.default_

section Insert
variable {H : Type} [HeaderMap H]

/-- The insertions, level by level. The last level gets the entry itself,
the others a copy. -/
def CacheGetterSetter.insertCache (usedCaches : List Bytes) (cacheTtls : List (Bytes × CacheTTL))
    (s : CacheGetterSetter) (entry : HttpCacheEntry H) (keyForTtl : Bytes) (now : UInt64) :
    List (Nat × HttpCacheEntry H) :=
  let insertNumber := if s.hitInCache = -1 then usedCaches.length else s.hitInCache.toNat
  (usedCaches.zipIdx.take insertNumber).filterMap fun (name, i) =>
    let entryCopy := if i = insertNumber - 1 then some entry else createCopy entry
    let lifetime := cacheTTL cacheTtls name keyForTtl
    if lifetime = 0 then none
    else entryCopy.map fun entryCopy => (i, { entryCopy with cacheExpire := now + lifetime })

/-- What is inserted: below the hit, for a lifetime that is not zero, the
entry or a copy of it. -/
theorem CacheGetterSetter.mem_insertCache {usedCaches : List Bytes} {cacheTtls : List (Bytes × CacheTTL)}
    {s : CacheGetterSetter} {entry : HttpCacheEntry H} {keyForTtl : Bytes} {now : UInt64} {i : Nat}
    {e : HttpCacheEntry H}
    (h : (i, e) ∈ s.insertCache usedCaches cacheTtls entry keyForTtl now) :
    ∃ name, usedCaches[i]? = some name ∧ (s.hitInCache ≠ -1 → i < s.hitInCache.toNat) ∧
      cacheTTL cacheTtls name keyForTtl ≠ 0 ∧
      ∃ copy, (copy = entry ∨ createCopy entry = some copy) ∧
        e = { copy with cacheExpire := now + cacheTTL cacheTtls name keyForTtl } := by
  obtain ⟨⟨name, k⟩, hk, hsome⟩ := List.mem_filterMap.1 h
  obtain ⟨m, hm, heq⟩ := List.mem_take_iff_getElem.1 hk
  rw [List.getElem_zipIdx, Nat.zero_add] at heq
  cases heq
  rw [lt_inf_iff, List.length_zipIdx] at hm
  dsimp only at hsome
  split at hsome
  · cases hsome
  · rename_i httl
    obtain ⟨copy, hcopy, heq⟩ := Option.map_eq_some_iff.1 hsome
    cases heq
    refine ⟨_, List.getElem?_eq_getElem hm.2, ?_, httl, copy, ?_, rfl⟩
    · intro hhit
      simpa [hhit] using hm.1
    · generalize (if s.hitInCache = -1 then usedCaches.length else s.hitInCache.toNat) = number at hcopy
      split at hcopy
      · exact .inl (Option.some.inj hcopy).symm
      · exact .inr hcopy

/-- `MAX_CACHE_ENTRY_SIZE` -/
def maxCacheEntrySize : Nat := 512 * 1024

structure CacheRequestSender extends CacheGetterSetter where
  /-- `origin_callback_` is not null. -/
  originCallback : Bool := false
  deriving DecidableEq, Repr

/-- What the client of a `CacheRequestSender` is told. -/
inductive Told (H : Type)
  | onSuccess (response : ResponseMessage H)
  | onFailure

namespace CacheRequestSender

/-- A hit without a message is told as a failure. -/
def onSuccess (s : CacheRequestSender) (entry : HttpCacheEntry H) : CacheRequestSender × Told H :=
  match entry.cacheMessage with
  | none => ({ s with originCallback := false }, .onFailure)
  | some message => ({ s with callback := false }, .onSuccess message)

omit [HeaderMap H] in
def onFailure (s : CacheRequestSender) : CacheRequestSender × Told H :=
  ({ s with originCallback := false }, .onFailure)

/-- The insertions of a response, and the state with its key set. -/
def insertResponse (usedCaches : List Bytes) (cacheTtls : List (Bytes × CacheTTL)) (s : CacheRequestSender)
    (cacheKey : CacheKeyType) (message : ResponseMessage H) (now : UInt64) :
    CacheRequestSender × List (Nat × HttpCacheEntry H) :=
  let s := { s with toCacheGetterSetter := s.setCacheKey cacheKey }
  let messageSize := byteSize message.headers + message.body.length
  if maxCacheEntrySize < messageSize then (s, [])
  else (s, s.insertCache usedCaches cacheTtls (.new message 0) (getStatusValue message.headers) now)

end CacheRequestSender

end Insert

end EnvoyProxy.Cache
