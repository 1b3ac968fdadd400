import EnvoyProxy.Cache.Lookup
/-!
# Refilling after a failed lookup

A request whose lookup failed goes upstream, and its response is inserted. A
lookup also fails when a level has found something that holds no message, as
a text in Redis that cannot be loaded. `hit_in_cache_` is set before the
entry is looked into, so that level counts as a hit and is left out, with the
levels behind it. `refill_iff` says when the response gets everywhere.
-/

namespace EnvoyProxy.Cache
open Json Http HeaderMap

section Refill
variable {H : Type} [HeaderMap H]

/-- What the lookup in Redis finds: nothing, or an entry loaded from the
text of the reply. -/
def redisLookup (json : Json.Rapidjson) (reply : Option Bytes) :
    Except HttpCacheEntry.LoadFault (Option (HttpCacheEntry H)) :=
  match reply with
  | none => .ok none
  | some raw => do return some (← HttpCacheEntry.loadFromString json raw)

/-- What the client is told when something happens in its lookup. -/
def Happening.told (sender : CacheRequestSender) : Happening (HttpCacheEntry H) → Option (Told H)
  | .succeeded entry => some (sender.onSuccess entry).2
  | .failed => some sender.onFailure.2
  | _ => none

/-- The client of a lookup was told of a failure. -/
def ToldFailure (sender : CacheRequestSender) (log : List (Happening (HttpCacheEntry H))) : Prop :=
  .onFailure ∈ log.filterMap (Happening.told sender)

/-- A level has answered with an entry, and was heard. -/
def Heard {E : Type} (log : List (Happening E)) (j : Nat) (entry : E) : Prop :=
  ∃ pre post, log = pre ++ .answered j (some entry) :: post ∧ .cancelled ∉ pre

/-- A level has answered with an entry that holds no message. -/
def Unusable (log : List (Happening (HttpCacheEntry H))) (j : Nat) : Prop :=
  ∃ entry, Heard log j entry ∧ entry.cacheMessage = none

/-- The insertion of `message` at a level, with its expiry there. -/
def Stores (insertions : List (Nat × HttpCacheEntry H)) (i : Nat) (message : ResponseMessage H) (expire : UInt64) : Prop :=
  ∃ entry, (i, entry) ∈ insertions ∧ entry.cacheExpire = expire ∧
    (entry.cacheMessage = some message ∨ entry.cacheMessage = some (makeMessageCopy message))

section Insert
variable {usedCaches : List Bytes} {cacheTtls : List (Bytes × CacheTTL)} {message : ResponseMessage H} {now : UInt64}
  {i : Nat} {name : Bytes}

/-- A level with a lifetime gets the response when it is below the hit. -/
theorem insertCache_stores {s : CacheGetterSetter} {code : Bytes} (hname : usedCaches[i]? = some name)
    (httl : cacheTTL cacheTtls name code ≠ 0) :
    Stores (s.insertCache usedCaches cacheTtls (.new message 0) code now) i message (now + cacheTTL cacheTtls name code) ↔
      (s.hitInCache ≠ -1 → i < s.hitInCache.toNat) := by
  obtain ⟨hi, rfl⟩ := List.getElem?_eq_some_iff.1 hname
  have hnumber : (i < if s.hitInCache = -1 then usedCaches.length else s.hitInCache.toNat) ↔
      (s.hitInCache ≠ -1 → i < s.hitInCache.toNat) := by
    by_cases hhit : s.hitInCache = -1
    · simp [hhit, hi]
    · simp [hhit]
  constructor
  · rintro ⟨entry, hmem, -⟩
    obtain ⟨_, -, hlt, -⟩ := CacheGetterSetter.mem_insertCache hmem
    exact hlt
  · rw [← hnumber]
    unfold CacheGetterSetter.insertCache
    set number := if s.hitInCache = -1 then usedCaches.length else s.hitInCache.toNat
    intro hlt
    have hmem : (usedCaches[i], i) ∈ usedCaches.zipIdx.take number :=
      List.mem_take_iff_getElem.2 ⟨i, by simp; omega, by simp⟩
    by_cases hlast : i = number - 1
    · refine ⟨.new message (now + cacheTTL cacheTtls usedCaches[i] code), List.mem_filterMap.2
        ⟨_, hmem, ?_⟩, rfl, .inl rfl⟩
      simp only [if_neg httl, if_pos hlast, Option.map_some]
      rfl
    · refine ⟨.new (makeMessageCopy message) (now + cacheTTL cacheTtls usedCaches[i] code),
        List.mem_filterMap.2 ⟨_, hmem, ?_⟩, rfl, .inr rfl⟩
      simp only [if_neg httl, if_neg hlast]
      rfl

theorem insertResponse_stores {sender : CacheRequestSender} {cacheKey : CacheKeyType}
    (hname : usedCaches[i]? = some name)
    (httl : cacheTTL cacheTtls name (getStatusValue message.headers) ≠ 0) :
    Stores (sender.insertResponse usedCaches cacheTtls cacheKey message now).2 i message
        (now + cacheTTL cacheTtls name (getStatusValue message.headers)) ↔
      byteSize message.headers + message.body.length ≤ maxCacheEntrySize ∧
        (sender.hitInCache ≠ -1 → i < sender.hitInCache.toNat) := by
  have hhit : (sender.setCacheKey cacheKey).hitInCache = sender.hitInCache := by
    unfold CacheGetterSetter.setCacheKey
    split_ifs <;> rfl
  by_cases hbig : maxCacheEntrySize < byteSize message.headers + message.body.length
  · simp [CacheRequestSender.insertResponse, hbig, Stores]
  · simp only [CacheRequestSender.insertResponse, if_neg hbig]
    rw [insertCache_stores hname httl, hhit]
    simp [not_lt.1 hbig]

end Insert

/-! ## Which levels are left out -/

/-- An answer that is heard stands in the course: one behind it comes after
a cancellation. -/
theorem Heard.mem_course {E : Type} {course tail : List (Happening E)} {j : Nat} {entry : E}
    (h : Heard (course ++ tail) j entry) (hquiet : Quiet tail) : .answered j (some entry) ∈ course := by
  obtain ⟨pre, post, hsplit, hnot⟩ := h
  obtain ⟨rest, hc, -⟩ | ⟨rest, rfl, htail⟩ := split_append hsplit
  · rw [hc]
    exact List.mem_append_right _ List.mem_cons_self
  · exact absurd (List.mem_append_right _ (hquiet.cancelled_mem (by simp) htail)) hnot

omit [HeaderMap H] in
/-- A failure that is told after a hit is about an entry without a message. -/
theorem ToldFailure.unusable {sender : CacheRequestSender} {k : Nat} {entry : HttpCacheEntry H}
    {tail : List (Happening (HttpCacheEntry H))} (hquiet : Quiet tail)
    (h : ToldFailure sender (walked k ++ [.queried k, .answered k (some entry), .succeeded entry] ++ tail)) :
    entry.cacheMessage = none := by
  obtain ⟨x, hx, htold⟩ := List.mem_filterMap.1 h
  rcases List.mem_append.1 hx with hx | hx
  · rcases List.mem_append.1 hx with hx | hx
    · obtain ⟨i, -, rfl | rfl⟩ := mem_walked.1 hx <;> cases htold
    · simp only [List.mem_cons, List.not_mem_nil, or_false] at hx
      obtain rfl | rfl | rfl := hx
      · cases htold
      · cases htold
      · simp only [Happening.told, CacheRequestSender.onSuccess] at htold
        split at htold
        · assumption
        · cases htold
  · obtain rfl | ⟨i, entry, rfl⟩ := hquiet.2 x hx <;> cases htold

omit [HeaderMap H] in
/-- When a lookup has failed, `hit_in_cache_` is the level whose entry could
not be used. -/
theorem Course.below_hit_iff {usedCaches : List Bytes} {hit : Int}
    {course tail : List (Happening (HttpCacheEntry H))}
    (h : Course usedCaches hit course) (hquiet : Quiet tail) {sender : CacheRequestSender}
    (hfail : ToldFailure sender (course ++ tail)) (i : Nat) :
    (hit ≠ -1 → i < hit.toNat) ↔ ∀ j, Unusable (course ++ tail) j → i < j := by
  have hnone : (∀ j entry, .answered j (some entry) ∉ course) → ∀ j, Unusable (course ++ tail) j → i < j := by
    rintro hnot j ⟨entry, hheard, -⟩
    exact absurd (hheard.mem_course hquiet) (hnot j entry)
  cases h with
  | idle => exact iff_of_true (fun hne => absurd rfl hne) (hnone (by simp))
  | waiting _ => exact iff_of_true (fun hne => absurd rfl hne) (hnone (by simp [mem_walked]))
  | failed => exact iff_of_true (fun hne => absurd rfl hne) (hnone (by simp [mem_walked]))
  | @succeeded k entry hk =>
    have hheard : Heard (walked k ++ [.queried k, .answered k (some entry), .succeeded entry] ++ tail) k entry := by
      refine ⟨walked k ++ [.queried k], .succeeded entry :: tail, by simp, ?_⟩
      have hcourse : Course usedCaches k
          (walked k ++ [.queried k, .answered k (some entry), .succeeded entry]) := .succeeded hk
      have hnot := hcourse.not_cancelled
      simp only [List.mem_append, not_or] at hnot
      simp [hnot.1]
    constructor
    · rintro hlt j ⟨entry', hheard', -⟩
      have hmem := hheard'.mem_course hquiet
      simp only [List.mem_append, mem_walked, List.mem_cons, reduceCtorEq, List.not_mem_nil, or_false, false_or,
        Happening.answered.injEq, and_false, exists_const] at hmem
      rw [hmem.1]
      exact hlt (by omega)
    · intro hall _
      exact hall k ⟨entry, hheard, hfail.unusable hquiet⟩

/-- After a failed lookup, for any answers of the levels: the response is
stored at every level with a lifetime for its status when it is not too
large and no level up to that one has answered with an unusable entry. -/
theorem refill_iff {usedCaches : List Bytes} {key : Option CacheKeyType} {r : LookupRun (HttpCacheEntry H)}
    (h : Reach (LookupRun.step usedCaches) LookupRun.Scheduled (LookupRun.start key) r) {sender : CacheRequestSender}
    (hsender : sender.toCacheGetterSetter = r.getter) (hfail : ToldFailure sender r.log)
    (cacheTtls : List (Bytes × CacheTTL)) (cacheKey : CacheKeyType) (message : ResponseMessage H) (now : UInt64) :
    (∀ i name, usedCaches[i]? = some name → cacheTTL cacheTtls name (getStatusValue message.headers) ≠ 0 →
      Stores (sender.insertResponse usedCaches cacheTtls cacheKey message now).2 i message
        (now + cacheTTL cacheTtls name (getStatusValue message.headers))) ↔
    (∀ i name, usedCaches[i]? = some name → cacheTTL cacheTtls name (getStatusValue message.headers) ≠ 0 →
      byteSize message.headers + message.body.length ≤ maxCacheEntrySize ∧ ∀ j, Unusable r.log j → i < j) := by
  obtain ⟨course, tail, hcourse, hquiet, hlog⟩ := (Phase.of_reach h).course
  rw [hlog] at hfail
  refine forall_congr' fun i => forall_congr' fun name => forall_congr' fun hname => forall_congr' fun httl => ?_
  rw [insertResponse_stores hname httl, hsender, hcourse.below_hit_iff hquiet hfail, hlog]

/-- Two empty levels, both filled. -/
theorem empty_levels_filled :
    ∃ (r : LookupRun (HttpCacheEntry HeaderList)) (sender : CacheRequestSender),
      ToldFailure sender r.log ∧ ∀ i name, [ascii "LocalCache", ascii "RedisCache"][i]? = some name →
        cacheTTL [(ascii "LocalCache", ⟨60, []⟩), (ascii "RedisCache", ⟨60, []⟩)] name
          (getStatusValue ([⟨headerName ":status", headerValue "200"⟩] : HeaderList)) ≠ 0 →
        Stores (sender.insertResponse (H := HeaderList) [ascii "LocalCache", ascii "RedisCache"]
          [(ascii "LocalCache", ⟨60, []⟩), (ascii "RedisCache", ⟨60, []⟩)] []
          ⟨[⟨headerName ":status", headerValue "200"⟩], ascii "ok"⟩ 1000).2 i
          ⟨[⟨headerName ":status", headerValue "200"⟩], ascii "ok"⟩
          (1000 + cacheTTL [(ascii "LocalCache", ⟨60, []⟩), (ascii "RedisCache", ⟨60, []⟩)] name
            (getStatusValue ([⟨headerName ":status", headerValue "200"⟩] : HeaderList))) := by
  have h₁ := reach_start (LookupRun.step [ascii "LocalCache", ascii "RedisCache"]) LookupRun.Scheduled
    (LookupRun.start (some (ascii "k")) : LookupRun (HttpCacheEntry HeaderList))
  have h₂ := h₁.next (e := .lookupCache true) (by exact rfl) rfl
  have h₃ := h₂.next (e := .answer 0 none) (by exact List.mem_singleton.2 rfl) rfl
  have h₄ := h₃.next (e := .answer 1 none) (by exact List.mem_singleton.2 rfl) rfl
  obtain ⟨r, hr, hlog⟩ : ∃ r, Reach (LookupRun.step [ascii "LocalCache", ascii "RedisCache"]) LookupRun.Scheduled
      (LookupRun.start (some (ascii "k"))) r ∧ r.log = ([.queried 0, .answered 0 none, .queried 1, .answered 1 none, .failed] :
      List (Happening (HttpCacheEntry HeaderList))) := ⟨_, h₄, rfl⟩
  have hfail : ToldFailure ⟨r.getter, false⟩ r.log := hlog ▸ List.mem_filterMap.2 ⟨.failed, by simp, rfl⟩
  refine ⟨r, ⟨r.getter, false⟩, hfail, (refill_iff hr rfl hfail _ _
    ⟨[⟨headerName ":status", headerValue "200"⟩], ascii "ok"⟩ _).2 ?_⟩
  intro i name _ _
  refine ⟨by decide, ?_⟩
  rintro j ⟨entry, hheard, -⟩
  rw [← List.append_nil r.log] at hheard
  have hmem := hheard.mem_course quiet_nil
  simp [hlog] at hmem

end Refill

/-- Two levels, of which the second keeps a broken text: it is not
overwritten. -/
theorem broken_text_stays :
    ∃ (entry : HttpCacheEntry HeaderList) (r : LookupRun (HttpCacheEntry HeaderList)) (sender : CacheRequestSender),
      redisLookup bitsJson (some []) = .ok (some entry) ∧
      Reach (LookupRun.step [ascii "LocalCache", ascii "RedisCache"]) LookupRun.Scheduled
        (LookupRun.start (some (ascii "k"))) r ∧
      .answered 1 (some entry) ∈ r.log ∧ sender.toCacheGetterSetter = r.getter ∧ ToldFailure sender r.log ∧
      ¬ ∀ i name, [ascii "LocalCache", ascii "RedisCache"][i]? = some name →
        cacheTTL [(ascii "LocalCache", ⟨60, []⟩), (ascii "RedisCache", ⟨60, []⟩)] name
          (getStatusValue ([⟨headerName ":status", headerValue "200"⟩] : HeaderList)) ≠ 0 →
        Stores (sender.insertResponse (H := HeaderList) [ascii "LocalCache", ascii "RedisCache"]
          [(ascii "LocalCache", ⟨60, []⟩), (ascii "RedisCache", ⟨60, []⟩)] []
          ⟨[⟨headerName ":status", headerValue "200"⟩], ascii "ok"⟩ 1000).2 i
          ⟨[⟨headerName ":status", headerValue "200"⟩], ascii "ok"⟩
          (1000 + cacheTTL [(ascii "LocalCache", ⟨60, []⟩), (ascii "RedisCache", ⟨60, []⟩)] name
            (getStatusValue ([⟨headerName ":status", headerValue "200"⟩] : HeaderList))) := by
  have h₁ := reach_start (LookupRun.step [ascii "LocalCache", ascii "RedisCache"]) LookupRun.Scheduled
    (LookupRun.start (some (ascii "k")) : LookupRun (HttpCacheEntry HeaderList))
  have h₂ := h₁.next (e := .lookupCache true) (by exact rfl) rfl
  have h₃ := h₂.next (e := .answer 0 none) (by exact List.mem_singleton.2 rfl) rfl
  have h₄ := h₃.next (e := .answer 1 (some {})) (by exact List.mem_singleton.2 rfl) rfl
  refine ⟨{}, _, { toCacheGetterSetter := _ }, rfl, h₄, ?_, rfl, ?_, ?_⟩
  · simp [LookupRun.after]
  · exact List.mem_filterMap.2 ⟨.succeeded {}, by simp [LookupRun.after, Ask.happening], rfl⟩
  · intro hall
    have hstores := hall 1 (ascii "RedisCache") rfl (by decide)
    rw [insertResponse_stores rfl (by decide)] at hstores
    exact absurd (hstores.2 (by decide)) (by decide)

end EnvoyProxy.Cache
