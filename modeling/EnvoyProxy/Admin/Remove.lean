import EnvoyProxy.Cache.Key
import EnvoyProxy.Cache.LocalCache
import EnvoyProxy.Cache.RedisCache
/-!
# Removal through the admin port

The handler that a configuration adds to the admin port removes cache keys
from every level. The keys are read from a JSON body; what is not a digest in
hexadecimal is left out and the digits may be of either case.
`removed_exactly`: the keys that were asked for are gone from every local
cache, and no other key is touched.
-/

namespace EnvoyProxy.Redis
open Http

/-- `del`, with the key of the command it hands to hiredis. -/
def AsyncClient.del (client : AsyncClient) (key : Bytes) : Option Bytes :=
  if client.clientStatus ≠ .WORKING ∨ client.redisAsyncContext = none then none else some (cString key)

end EnvoyProxy.Redis

namespace EnvoyProxy.Admin
open Http Cache Redis LruCacheImpl
open LocalCache (hexDigits IsDigest)

/-! ## The request -/

/-- `StringUtil::md5StringOrNot` -/
def md5StringOrNot (md5String : Bytes) : Bool :=
  decide (md5String.length = 32) && md5String.all fun ch =>
    (48 ≤ ch && ch ≤ 57) || (97 ≤ ch && ch ≤ 102) || (65 ≤ ch && ch ≤ 70)

/-- `loadCacheKeys` is what the JSON loader finds under `cache_keys`, or
nothing when it throws. A set is its elements in order. -/
def readCacheKeys (loadCacheKeys : Bytes → Option (List Bytes)) (jsonBody : Bytes) : List CacheKeyType :=
  (((((loadCacheKeys jsonBody).getD []).filter md5StringOrNot).map toLower).dedup).mergeSort fun a b => decide (a ≤ b)

structure AdminReply where
  code : Nat
  response : Bytes
  deriving DecidableEq

def unsupportedAction : AdminReply := ⟨400, ascii "\x7b\"error\":\"no action or unsupported action.\"\x7d"⟩

def emptyBody : AdminReply := ⟨400, ascii "\x7b\"error\":\"empty body is unsupported.\"\x7d"⟩

def removedReply : AdminReply := ⟨200, ascii "\x7b\"info\":\"ok\"\x7d"⟩

/-- What the handler answers, and the keys it removes. -/
def handleRequest (util : PathUtil) (loadCacheKeys : Bytes → Option (List Bytes)) (pathAndQuery : Bytes) (requestBody : Option Bytes) :
    AdminReply × List CacheKeyType :=
  let action := (util.parseQueryString pathAndQuery (ascii "action")).getD []
  if action = [] ∨ action ≠ ascii "remove" then (unsupportedAction, [])
  else
    let stringBody := requestBody.getD []
    if stringBody = [] then (emptyBody, []) else (removedReply, readCacheKeys loadCacheKeys stringBody)

/-- The digest is among the keys of the body, in letters of either case. -/
def Requested (util : PathUtil) (loadCacheKeys : Bytes → Option (List Bytes)) (pathAndQuery : Bytes) (requestBody : Option Bytes)
    (digest : CacheKeyType) : Prop :=
  util.parseQueryString pathAndQuery (ascii "action") = some (ascii "remove") ∧
    ∃ body ≠ [], requestBody = some body ∧ ∃ keys, loadCacheKeys body = some keys ∧ ∃ key ∈ keys, toLower key = digest

/-- A digit of either case is one whose lower case is a digit. -/
theorem toLowerByte_hex_iff (b : UInt8) :
    ((48 ≤ b && b ≤ 57) || (97 ≤ b && b ≤ 102) || (65 ≤ b && b ≤ 70)) = true ↔ toLowerByte b ∈ hexDigits := by
  have hall : ∀ b : Fin 256, (((48 ≤ UInt8.ofNat b.val && UInt8.ofNat b.val ≤ 57) || (97 ≤ UInt8.ofNat b.val && UInt8.ofNat b.val ≤ 102) ||
      (65 ≤ UInt8.ofNat b.val && UInt8.ofNat b.val ≤ 70)) = true ↔ toLowerByte (UInt8.ofNat b.val) ∈ hexDigits) := by
    decide +kernel
  simpa using hall ⟨b.toNat, b.toNat_lt⟩

theorem md5StringOrNot_iff (key : Bytes) : md5StringOrNot key = true ↔ IsDigest (toLower key) := by
  unfold md5StringOrNot IsDigest toLower
  rw [Bool.and_eq_true, decide_eq_true_eq, List.length_map, List.all_eq_true]
  simp only [toLowerByte_hex_iff, List.forall_mem_map]

/-- The keys that are read are digests, each once. -/
theorem mem_readCacheKeys {load : Bytes → Option (List Bytes)} {body : Bytes} {digest : CacheKeyType} :
    digest ∈ readCacheKeys load body ↔ IsDigest digest ∧ ∃ keys, load body = some keys ∧ ∃ key ∈ keys, toLower key = digest := by
  unfold readCacheKeys
  rw [List.mem_mergeSort, List.mem_dedup, List.mem_map]
  constructor
  · rintro ⟨key, hkey, rfl⟩
    obtain ⟨hmem, hmd5⟩ := List.mem_filter.1 hkey
    cases hload : load body with
    | none => simp [hload] at hmem
    | some keys =>
      rw [hload] at hmem
      exact ⟨(md5StringOrNot_iff key).1 hmd5, keys, rfl, key, hmem, rfl⟩
  · rintro ⟨hdigest, keys, hload, key, hkey, rfl⟩
    refine ⟨key, List.mem_filter.2 ⟨?_, (md5StringOrNot_iff key).2 hdigest⟩, rfl⟩
    rwa [hload]

theorem nodup_readCacheKeys (load : Bytes → Option (List Bytes)) (body : Bytes) : (readCacheKeys load body).Nodup :=
  (List.mergeSort_perm _ _).nodup_iff.2 (List.nodup_dedup _)

theorem nodup_handleRequest {util : PathUtil} {load : Bytes → Option (List Bytes)} {path : Bytes} {requestBody : Option Bytes} :
    (handleRequest util load path requestBody).2.Nodup := by
  unfold handleRequest
  dsimp only
  split_ifs
  · exact List.nodup_nil
  · exact List.nodup_nil
  · exact nodup_readCacheKeys load _

theorem mem_handleRequest {util : PathUtil} {load : Bytes → Option (List Bytes)} {path : Bytes} {requestBody : Option Bytes}
    {digest : CacheKeyType} :
    digest ∈ (handleRequest util load path requestBody).2 ↔ IsDigest digest ∧ Requested util load path requestBody digest := by
  unfold handleRequest Requested
  dsimp only
  have hremove : ascii "remove" ≠ [] := by decide
  cases haction : util.parseQueryString path (ascii "action") with
  | none => simp
  | some action =>
    by_cases hact : action = ascii "remove"
    · subst hact
      rw [Option.getD_some, if_neg (by simp [hremove])]
      rcases requestBody with _ | body
      · simp
      · by_cases hbody : body = []
        · simp [hbody]
        · simp [hbody, mem_readCacheKeys]
    · simp [hact]

/-! ## The levels -/

/-- An entry of `used_caches_`. -/
inductive Level (E : Type)
  | localCache (cache : LocalCache E)
  /-- A client, and the keys of the DEL commands it has sent. -/
  | redisCache (client : AsyncClient) (deleted : List Bytes)

section Levels
variable {E : Type} [CacheEntry E]

def Level.removeCache (fuel : Nat) (key : CacheKeyType) : Level E → Except (Stop Fault) (Level E)
  | .localCache cache => do
    let (_, cache) ← cache.call fuel (.remove key)
    return .localCache cache
  | .redisCache client deleted =>
    if client.clientStatus ≠ .WORKING then .ok (.redisCache client deleted) else .ok (.redisCache client (deleted ++ (client.del key).toList))

/-- `CacheGetterSetter::removeCache`, for the key of a new sender. -/
def removeResponse (fuel : Nat) (levels : List (Level E)) (key : CacheKeyType) : Except (Stop Fault) (List (Level E)) :=
  levels.mapM (Level.removeCache fuel key)

/-- The handler. -/
def handler (fuel : Nat) (util : PathUtil) (loadCacheKeys : Bytes → Option (List Bytes)) (levels : List (Level E))
    (pathAndQuery : Bytes) (requestBody : Option Bytes) : Except (Stop Fault) (AdminReply × List (Level E)) := do
  let (reply, cacheKeys) := handleRequest util loadCacheKeys pathAndQuery requestBody
  return (reply, ← cacheKeys.foldlM (removeResponse fuel) levels)

/-- A local cache that has been called from the start on. -/
def Used (cache : LocalCache E) : Prop :=
  ∃ (config : LocalConfig) (fuel : Nat) (log : List (LruCall E × Option E)),
    Reach (LocalCache.logged fuel) (fun p c => SumsFit (p.1 (shardOf c.key)) c) (LocalCache.new config, []) (cache, log)

/-- A local cache without some keys, a Redis that was told to delete them. -/
def Level.Without (keys : List CacheKeyType) : Level E → Level E → Prop
  | .localCache cache, .localCache cache' => Used cache' ∧ ∀ key, cache'.stored key = if key ∈ keys then none else cache.stored key
  | .redisCache client deleted, .redisCache client' deleted' => client' = client ∧ deleted' = deleted ++ keys.filterMap client.del
  | _, _ => False

/-- The local caches among the levels are in use. -/
def Level.Ready : Level E → Prop
  | .localCache cache => Used cache
  | .redisCache _ _ => True

/-- A removal always returns: the key is gone, and nothing else is. -/
theorem Used.remove {cache : LocalCache E} (h : Used cache) (fuel : Nat) (key : CacheKeyType) :
    ∃ cache', cache.call fuel (.remove key) = .ok (none, cache') ∧ Used cache' ∧
      ∀ k, cache'.stored k = if k = key then none else cache.stored k := by
  obtain ⟨config, fuel₀, log, hrun⟩ := h
  obtain ⟨past, hsim⟩ := LocalCache.exists_simulates hrun
  obtain ⟨out, cache', N, hN⟩ := hsim.returns (c := .remove key) trivial
  have hcall : cache.call fuel (.remove key) = .ok (out, cache') := hN N le_rfl
  have hlogged : LocalCache.logged fuel₀ (cache, log) (.remove key) = .ok (cache', (.remove key, out) :: log) := by
    have hcall₀ : cache.call fuel₀ (.remove key) = .ok (out, cache') := hcall
    simp [LocalCache.logged, hcall₀]
  obtain ⟨evicted, hnext⟩ := hsim.call (c := .remove key) trivial hcall
  obtain rfl : out = none := (hnext.conforms).1
  refine ⟨cache', hcall, ⟨config, fuel₀, _, hrun.next (e := .remove key) trivial hlogged⟩, fun k => ?_⟩
  rw [hnext.stored_eq, hsim.stored_eq]
  rfl

/-- What is not stored is not found. -/
theorem Used.lookup_none {cache : LocalCache E} (h : Used cache) {key : CacheKeyType} (hnone : cache.stored key = none) (now : UInt64) :
    ∃ cache', EndsWith (fun n => cache.call n (.lookup key now)) (.ok (none, cache')) := by
  obtain ⟨config, fuel, log, hrun⟩ := h
  obtain ⟨past, hsim⟩ := LocalCache.exists_simulates hrun
  obtain ⟨out, cache', N, hN⟩ := hsim.returns (c := .lookup key now) trivial
  obtain ⟨evicted, hnext⟩ := hsim.call (c := .lookup key now) trivial (hN N le_rfl)
  have hout : out = (unexpired now (held (LocalCache.part (shardOf key) past) key)).bind createCopy := (hnext.conforms).1
  rw [← hsim.held_eq key, ← hsim.stored_eq, hnone] at hout
  obtain rfl : out = none := hout
  exact ⟨cache', N, hN⟩

theorem Level.removeCache_without {level : Level E} (h : level.Ready) (fuel : Nat) (key : CacheKeyType) :
    ∃ level', level.removeCache fuel key = .ok level' ∧ level.Without [key] level' := by
  cases level with
  | localCache cache =>
    obtain ⟨cache', hcall, hused, hstored⟩ := h.remove fuel key
    exact ⟨.localCache cache', by simp [removeCache, hcall], hused, by simpa using hstored⟩
  | redisCache client deleted =>
    unfold removeCache
    dsimp only
    split_ifs with hworking
    · have hnone : client.del key = none := if_pos (.inl hworking)
      exact ⟨_, rfl, rfl, by simp [hnone]⟩
    · refine ⟨_, rfl, rfl, ?_⟩
      cases hdel : client.del key <;> simp [hdel]

theorem Level.Without.ready {keys : List CacheKeyType} {level level' : Level E} (h : level.Without keys level') : level'.Ready := by
  cases level <;> cases level'
  · exact h.1
  · trivial
  · exact h.elim
  · trivial

/-- One removal after the other. -/
theorem Level.Without.append {keys keys' : List CacheKeyType} {l l' l'' : Level E} (h : l.Without keys l')
    (h' : l'.Without keys' l'') : l.Without (keys ++ keys') l'' := by
  cases l <;> cases l' <;> cases l'' <;> simp only [Without] at h h' ⊢
  · refine ⟨h'.1, fun key => ?_⟩
    rw [h'.2, h.2]
    by_cases hkey : key ∈ keys <;> by_cases hkey' : key ∈ keys' <;> simp [hkey, hkey']
  · obtain ⟨rfl, rfl⟩ := h
    exact ⟨h'.1, by rw [h'.2, List.filterMap_append, List.append_assoc]⟩

theorem removeResponse_without {levels : List (Level E)} (h : ∀ level ∈ levels, level.Ready) (fuel : Nat) (key : CacheKeyType) :
    ∃ levels', removeResponse fuel levels key = .ok levels' ∧ List.Forall₂ (Level.Without [key]) levels levels' := by
  unfold removeResponse
  induction levels with
  | nil => exact ⟨[], rfl, .nil⟩
  | cons level levels ih =>
    obtain ⟨level', hlevel, hwithout⟩ := level.removeCache_without (h level List.mem_cons_self) fuel key
    obtain ⟨levels', hlevels, hall⟩ := ih fun l hl => h l (List.mem_cons_of_mem _ hl)
    exact ⟨level' :: levels', by simp [List.mapM_cons, hlevel, hlevels], .cons hwithout hall⟩

theorem Level.without_nil {level : Level E} (h : level.Ready) : level.Without [] level := by
  cases level with
  | localCache cache => exact ⟨h, fun key => by simp⟩
  | redisCache client deleted => exact ⟨rfl, by simp⟩

theorem all_ready {keys : List CacheKeyType} {levels levels' : List (Level E)} (h : List.Forall₂ (Level.Without keys) levels levels') :
    ∀ level ∈ levels', level.Ready := by
  induction h with
  | nil => simp
  | cons hlevel _ ih => exact List.forall_mem_cons.2 ⟨hlevel.ready, ih⟩

theorem all_append {keys keys' : List CacheKeyType} {ls ls' ls'' : List (Level E)} (h : List.Forall₂ (Level.Without keys) ls ls')
    (h' : List.Forall₂ (Level.Without keys') ls' ls'') : List.Forall₂ (Level.Without (keys ++ keys')) ls ls'' := by
  induction h generalizing ls'' with
  | nil =>
    cases h'
    exact .nil
  | cons hlevel _ ih =>
    obtain _ | ⟨hlevel', hrest'⟩ := h'
    exact .cons (hlevel.append hlevel') (ih hrest')

/-- In a level without some keys none of them is stored. -/
theorem stored_none {keys : List CacheKeyType} {levels levels' : List (Level E)} (h : List.Forall₂ (Level.Without keys) levels levels')
    {cache : LocalCache E} (hcache : Level.localCache cache ∈ levels') {key : CacheKeyType} (hkey : key ∈ keys) :
    Used cache ∧ cache.stored key = none := by
  induction h with
  | nil => simp at hcache
  | @cons level level' _ _ hlevel _ ih =>
    rcases List.mem_cons.1 hcache with rfl | hcache
    · cases level with
      | localCache cache₀ => exact ⟨hlevel.1, by rw [hlevel.2, if_pos hkey]⟩
      | redisCache => exact hlevel.elim
    · exact ih hcache

/-- All keys, level by level. -/
theorem foldlM_removeResponse {levels : List (Level E)} (h : ∀ level ∈ levels, level.Ready) (fuel : Nat) (keys : List CacheKeyType) :
    ∃ levels', keys.foldlM (removeResponse fuel) levels = .ok levels' ∧ List.Forall₂ (Level.Without keys) levels levels' := by
  induction keys generalizing levels with
  | nil =>
    refine ⟨levels, rfl, List.forall₂_same.2 fun level hlevel => ?_⟩
    exact level.without_nil (h level hlevel)
  | cons key keys ih =>
    obtain ⟨levels₁, hone, hwithout⟩ := removeResponse_without h fuel key
    obtain ⟨levels₂, hrest, hall⟩ := ih (all_ready hwithout)
    exact ⟨levels₂, by simp [List.foldlM_cons, hone, hrest], all_append hwithout hall⟩

/-- The handler always answers. What was asked for is gone from every local
cache and is not found there any more, no other key is touched, and every
working Redis is told to delete what was asked for, each key once. -/
theorem removed_exactly {levels : List (Level E)} (h : ∀ level ∈ levels, level.Ready) (fuel : Nat) (util : PathUtil)
    (load : Bytes → Option (List Bytes)) (pathAndQuery : Bytes) (requestBody : Option Bytes) :
    ∃ reply levels', handler fuel util load levels pathAndQuery requestBody = .ok (reply, levels') ∧
      ∃ keys : List CacheKeyType, keys.Nodup ∧
        (∀ key, key ∈ keys ↔ IsDigest key ∧ Requested util load pathAndQuery requestBody key) ∧
        List.Forall₂ (Level.Without keys) levels levels' ∧
        ∀ cache, Level.localCache cache ∈ levels' → ∀ key ∈ keys, ∀ now,
          ∃ cache', EndsWith (fun n => cache.call n (.lookup key now)) (.ok (none, cache')) := by
  obtain ⟨levels', hfold, hall⟩ := foldlM_removeResponse h fuel (handleRequest util load pathAndQuery requestBody).2
  refine ⟨(handleRequest util load pathAndQuery requestBody).1, levels', by simp [handler, hfold], _, nodup_handleRequest, ?_, hall, ?_⟩
  · exact fun key => mem_handleRequest
  · intro cache hcache key hkey now
    obtain ⟨hused, hnone⟩ := stored_none hall hcache hkey
    exact hused.lookup_none hnone now

end Levels

/-- A digest is asked for in upper case. -/
theorem digest_removed :
    ∃ cache : LocalCache Stamp, cache.stored (ascii "0123456789abcdef0123456789abcdef") = some ⟨9, 100⟩ ∧
      ∃ reply levels', handler 3 ⟨id, fun _ _ => some (ascii "remove")⟩ (fun body => some [body]) [.localCache cache]
          (ascii "/httpfilter/super_cache/a?action=remove") (some (ascii "0123456789ABCDEF0123456789ABCDEF")) = .ok (reply, levels') ∧
        ∃ keys : List CacheKeyType, ascii "0123456789abcdef0123456789abcdef" ∈ keys ∧
          List.Forall₂ (Level.Without keys) [.localCache cache] levels' := by
  have h₁ := reach_start (LocalCache.logged 3) (fun p c => SumsFit (p.1 (shardOf c.key)) c)
    ((LocalCache.new { maxCacheSize := some 160 } : LocalCache Stamp), [])
  have h₂ := h₁.next (e := .insert (ascii "0123456789abcdef0123456789abcdef") ⟨9, 100⟩) (by decide +kernel) rfl
  have hused : Used _ := ⟨_, 3, _, h₂⟩
  have hready : ∀ level ∈ [Level.localCache _], level.Ready := List.forall_mem_singleton.2 hused
  obtain ⟨reply, levels', hhandler, keys, -, hkeys, hall, -⟩ := removed_exactly hready 3 ⟨id, fun _ _ => some (ascii "remove")⟩ (fun body => some [body])
    (ascii "/httpfilter/super_cache/a?action=remove") (some (ascii "0123456789ABCDEF0123456789ABCDEF"))
  refine ⟨_, ?_, reply, levels', hhandler, keys, (hkeys _).2 ⟨by decide +kernel, rfl, ?_⟩, hall⟩
  · decide +kernel
  · exact ⟨_, by decide +kernel, rfl, _, rfl, _, List.mem_singleton_self _, by decide +kernel⟩

end EnvoyProxy.Admin
