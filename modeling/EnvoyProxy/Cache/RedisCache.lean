import EnvoyProxy.Cache.Sender
import EnvoyProxy.Redis.AsyncClient
/-!
# Lifetimes in Redis

`RedisCache::insertCache` (redis_cache_impl.cc) and the SET it asks for. The
time an entry has left is a difference of two clock readings without a sign,
so an entry that is past its time has very much of it left.
`insertCache_timely_iff` says when the difference is what it is meant to be.
-/

namespace EnvoyProxy.Redis
open Http

/-- `SET %s %b PX %lld` -/
structure SetCommand where
  key : Bytes
  value : Bytes
  px : Int
  deriving DecidableEq

/-- `set`, with the command it hands to hiredis. -/
def AsyncClient.set (client : AsyncClient) (key value : Bytes) (expireMs : UInt64) : Option SetCommand :=
  match client.redisAsyncContext with
  | none => none
  | some _ =>
    if client.clientStatus ≠ .WORKING ∨ expireMs = 0 then none
    else
      -- the key is read as a C string, and the time as a `long long`
      some ⟨cString key, value, expireMs.toInt64.toInt⟩

/-- The worker queues a command if there is one. -/
theorem Worker.set_eq (w : Worker) (key value : Bytes) (expireMs : UInt64) (accepted : Bool) :
    w.set expireMs accepted =
      match w.client.redisAsyncContext, w.client.set key value expireMs with
      | some i, some _ => w.redisAsyncCommand i .other accepted
      | _, _ => w := by
  unfold Worker.set AsyncClient.set
  cases w.client.redisAsyncContext with
  | none => rfl
  | some i =>
    dsimp only
    split_ifs <;> rfl

end EnvoyProxy.Redis

namespace EnvoyProxy.Cache
open Http HeaderMap Redis

section Insert
variable {H : Type} [HeaderMap H]

/-- `now` is the reading of the clock inside the call. -/
def RedisCache.insertCache (client : AsyncClient) (key : CacheKeyType) (value : HttpCacheEntry H) (now : UInt64) : Option SetCommand :=
  if client.clientStatus ≠ .WORKING then none
  else
    let ttlCount := value.cacheExpire - now
    if ttlCount ≤ 0 then none
    else
      match value.serializeAsString with
      | none => none
      | some stringValue => client.set key stringValue ttlCount

/-- A SET of the entry can be sent. -/
def Sends (client : AsyncClient) (value : HttpCacheEntry H) : Prop :=
  client.clientStatus = .WORKING ∧ client.redisAsyncContext ≠ none ∧ value.cacheMessage ≠ none

/-- The entry is not past its time, and the SET gives it the rest of its
lifetime. -/
structure Timely (expire now lifetime : UInt64) (command : SetCommand) : Prop where
  alive : now < expire
  px : command.px = expire.toNat - now.toNat
  bounded : command.px ≤ lifetime.toNat

/-! ## What is sent -/

namespace RedisCache
variable {client : AsyncClient} {value : HttpCacheEntry H} {now : UInt64}

theorem ttlCount_le_zero {expire : UInt64} : expire - now ≤ 0 ↔ expire = now := by
  rw [UInt64.le_zero_iff, sub_eq_zero]

/-- Nothing is sent of an entry that is to expire right now. -/
theorem insertCache_none (key : CacheKeyType) (h : ¬ Sends client value ∨ value.cacheExpire = now) :
    insertCache client key value now = none := by
  unfold insertCache
  by_cases hworking : client.clientStatus = .WORKING
  · rw [if_neg (not_not.2 hworking)]
    dsimp only
    by_cases hexpire : value.cacheExpire = now
    · rw [if_pos (ttlCount_le_zero.2 hexpire)]
    · rw [if_neg (ttlCount_le_zero.not.2 hexpire)]
      have hsends := h.resolve_right hexpire
      unfold Sends at hsends
      unfold HttpCacheEntry.serializeAsString AsyncClient.set
      cases hmessage : value.cacheMessage with
      | none => rfl
      | some message =>
        cases hcontext : client.redisAsyncContext with
        | none => rfl
        | some i => exact absurd ⟨hworking, by simp [hcontext], by simp [hmessage]⟩ hsends
  · rw [if_pos hworking]

/-- What is sent otherwise. -/
theorem insertCache_some (key : CacheKeyType) (hsends : Sends client value) (hexpire : value.cacheExpire ≠ now) :
    ∃ text, insertCache client key value now =
      some ⟨cString key, text, (value.cacheExpire - now).toInt64.toInt⟩ := by
  obtain ⟨hworking, hcontext, hmessage⟩ := hsends
  obtain ⟨message, hmessage⟩ := Option.ne_none_iff_exists'.1 hmessage
  obtain ⟨i, hcontext⟩ := Option.ne_none_iff_exists'.1 hcontext
  have hzero : value.cacheExpire - now ≠ 0 := sub_ne_zero.2 hexpire
  unfold insertCache AsyncClient.set HttpCacheEntry.serializeAsString
  rw [if_neg (not_not.2 hworking), hcontext, hmessage]
  dsimp only
  rw [if_neg (ttlCount_le_zero.not.2 hexpire), Option.map_some]
  dsimp only
  rw [if_neg (by simp [hworking, hzero])]
  exact ⟨_, rfl⟩

/-! ## The difference -/

theorem toNat_sub_of_lt {expire : UInt64} (h : now < expire) : (expire - now).toNat = expire.toNat - now.toNat :=
  UInt64.toNat_sub_of_le _ _ (UInt64.le_of_lt h)

/-- A `long long` of a number below `2 ^ 63` is the number. -/
theorem toInt_toInt64 (x : UInt64) :
    x.toInt64.toInt = if x.toNat < 2 ^ 63 then (x.toNat : Int) else x.toNat - 2 ^ 64 := by
  have hbits : x.toInt64.toInt = if 2 * x.toNat < 2 ^ 64 then (x.toNat : Int) else x.toNat - (2 ^ 64 : Nat) :=
    BitVec.toInt_eq_toNat_cond x.toBitVec
  rw [hbits]
  by_cases hsmall : x.toNat < 2 ^ 63
  · rw [if_pos hsmall, if_pos (by omega)]
  · rw [if_neg hsmall, if_neg (by omega)]
    rfl

/-- The rest of a lifetime that began before `now` is at most the lifetime. -/
theorem rest_le {expire t0 lifetime : UInt64} (hexpire : expire = t0 + lifetime) (hlater : t0 ≤ now)
    (halive : now < expire) :
    expire.toNat - now.toNat ≤ lifetime.toNat := by
  subst hexpire
  have hlater' : t0.toNat ≤ now.toNat := hlater
  have halive' : now.toNat < (t0 + lifetime).toNat := halive
  rw [UInt64.toNat_add] at halive' ⊢
  have hmod := Nat.mod_le (t0.toNat + lifetime.toNat) (2 ^ 64)
  omega

theorem timely_iff {expire t0 lifetime : UInt64} (hexpire : expire = t0 + lifetime)
    (hlater : t0 ≤ now) (key value : Bytes) :
    Timely expire now lifetime ⟨key, value, (expire - now).toInt64.toInt⟩ ↔ now < expire ∧
    (expire - now).toNat < 2 ^ 63 := by
  constructor
  · rintro ⟨halive, hpx, -⟩
    refine ⟨halive, ?_⟩
    have hlt : now.toNat < expire.toNat := halive
    have hexpire := expire.toNat_lt
    by_contra hbig
    dsimp only at hpx
    rw [toInt_toInt64, if_neg hbig, toNat_sub_of_lt halive] at hpx
    omega
  · rintro ⟨halive, hsmall⟩
    have hlt : now.toNat < expire.toNat := halive
    have hrest := rest_le hexpire hlater halive
    have hpx : (expire - now).toInt64.toInt = expire.toNat - now.toNat := by
      rw [toInt_toInt64, if_pos hsmall, toNat_sub_of_lt halive]
      omega
    exact ⟨halive, hpx, by dsimp only; omega⟩

/-- An entry that lives from `t0` on for its lifetime is stored in time, for
the rest of it, exactly if it is not past its time and the rest is one that a
`long long` can say; an entry to expire right now is not stored. -/
theorem insertCache_timely_iff (client : AsyncClient) (key : CacheKeyType) (value : HttpCacheEntry H) (t0 lifetime now : UInt64)
    (hexpire : value.cacheExpire = t0 + lifetime) (hlater : t0 ≤ now) :
    (∀ command ∈ insertCache client key value now, Timely value.cacheExpire now lifetime command) ↔
      (Sends client value → value.cacheExpire = now ∨ now < value.cacheExpire ∧ (value.cacheExpire - now).toNat < 2 ^ 63) := by
  by_cases hsent : Sends client value ∧ value.cacheExpire ≠ now
  · obtain ⟨hsends, hne⟩ := hsent
    obtain ⟨text, hcommand⟩ := insertCache_some key hsends hne
    have htimely := timely_iff hexpire hlater (cString key) text
    rw [hcommand]
    constructor
    · intro h _
      exact .inr (htimely.1 (h _ rfl))
    · rintro h _ ⟨⟩
      exact htimely.2 ((h hsends).resolve_left hne)
  · have hnot : ¬ Sends client value ∨ value.cacheExpire = now := by
      rwa [not_and_or, not_not] at hsent
    rw [insertCache_none key hnot]
    constructor
    · intro _ hsends
      exact .inl (hnot.resolve_left (not_not.2 hsends))
    · rintro _ _ ⟨⟩

end RedisCache

end Insert

/-- Three of five milliseconds have gone by. -/
theorem RedisCache.insertCache_timely :
    ∃ text, insertCache { clientStatus := .WORKING, password := [], shouldReconnect := true, maxReconnectCount := 3, redisAsyncContext := some 0 }
        [107] { cacheMessage := some (⟨[], [1]⟩ : ResponseMessage HeaderList), cacheExpire := 1005 }
          1003 = some ⟨[107], text, 2⟩ ∧
      Timely 1005 1003 5 ⟨[107], text, 2⟩ := by
  have hiff := insertCache_timely_iff
    { clientStatus := .WORKING, password := [], shouldReconnect := true, maxReconnectCount := 3,
      redisAsyncContext := some 0 } [107]
    { cacheMessage := some (⟨[], [1]⟩ : ResponseMessage HeaderList), cacheExpire := 1005 } 1000 5
      1003 (by decide) (by decide)
  exact ⟨_, rfl, hiff.2 (fun _ => .inr ⟨by decide, by decide⟩) _ rfl⟩

/-- One millisecond too late: the SET says `PX -1`, for `2 ^ 64 - 1`. -/
theorem RedisCache.expired_is_sent :
    ∃ text, insertCache { clientStatus := .WORKING, password := [], shouldReconnect := true, maxReconnectCount := 3, redisAsyncContext := some 0 }
        [107] { cacheMessage := some (⟨[], [1]⟩ : ResponseMessage HeaderList), cacheExpire := 1005 }
          1006 = some ⟨[107], text, -1⟩ ∧
      (1005 - 1006 : UInt64) = 0xffffffffffffffff ∧ ¬ Timely 1005 1006 5 ⟨[107], text, -1⟩ := by
  refine ⟨_, rfl, by decide, ?_⟩
  intro htimely
  exact absurd htimely.alive (by decide)

end EnvoyProxy.Cache
