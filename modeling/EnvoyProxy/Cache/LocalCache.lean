import EnvoyProxy.Cache.LruHistory
/-!
# The local cache

`LocalCache` (local_cache_impl.cc) spreads its keys over sixteen LRU caches
by their first byte, and each of them gets a sixteenth of the size. Seen from
outside it is one cache: what a key holds is told by the history of all calls
(`one_history`), only that a call evicts nothing outside its own part. Cache
keys are digests in hexadecimal, and these reach ten of the parts
(`hex_keys_bounded`).
-/

namespace EnvoyProxy.Cache
open Recency LruCacheImpl

/-- `cache_list_number_` -/
abbrev cacheListNumber : Nat := 16

/-- `DEFAULT_MAX_CACHE_SIZE`, 128 MB -/
def defaultMaxCacheSize : UInt64 := 128 * 1024 * 1024

structure LocalConfig where
  maxCacheSize : Option UInt64 := none

def LruCall.key {E : Type} : LruCall E → CacheKeyType
  | .insert key _ => key
  | .lookup key _ => key
  | .remove key => key

/-- The part of a key. The first byte of an empty string is zero. -/
def shardOf (key : CacheKeyType) : Fin cacheListNumber := Fin.ofNat cacheListNumber (key.headD 0).toNat

/-- `lru_caches_` -/
abbrev LocalCache (E : Type) := Fin cacheListNumber → LruCacheImpl E

def LocalConfig.singleMaxCacheSize (config : LocalConfig) : UInt64 := config.maxCacheSize.getD defaultMaxCacheSize / 16

namespace LocalCache
variable {E : Type} [CacheEntry E]

omit [CacheEntry E] in
def new (config : LocalConfig) : LocalCache E := fun _ => .new config.singleMaxCacheSize

/-- `lookupCache`, `insertCache` and `removeCache` -/
def call (fuel : Nat) (s : LocalCache E) (c : LruCall E) : Except (Stop Fault) (Option E × LocalCache E) := do
  let (out, lru) ← (s (shardOf c.key)).call fuel c
  return (out, Function.update s (shardOf c.key) lru)

/-- The state after a call. -/
def step (fuel : Nat) : LocalCache E → LruCall E → Except (Stop Fault) (LocalCache E) :=
  stepPart (LruCacheImpl.step fuel) fun c => shardOf c.key

/-- A call, and the record of what it returned. -/
def logged (fuel : Nat) (p : LocalCache E × List (LruCall E × Option E)) (c : LruCall E) :
    Except (Stop Fault) (LocalCache E × List (LruCall E × Option E)) := do
  let (out, s) ← p.1.call fuel c
  return (s, (c, out) :: p.2)

/-- What is stored under a key. -/
def stored (s : LocalCache E) (key : CacheKeyType) : Option E := ((s (shardOf key)).dict.lookup key).map (·.2)

/-- The lengths that are stored. -/
def storedLength (s : LocalCache E) : Nat := ∑ i, entriesLength (s i).dict

/-! ## One history -/

/-- The records of one part. -/
def part (i : Fin cacheListNumber) (past : List (Record E)) : List (Record E) := past.filter fun r => shardOf r.call.key = i

omit [CacheEntry E] in
theorem part_cons_self (r : Record E) (past : List (Record E)) :
    part (shardOf r.call.key) (r :: past) = r :: part (shardOf r.call.key) past := by
  simp [part]

omit [CacheEntry E] in
theorem part_cons_of_ne {i : Fin cacheListNumber} {r : Record E} (h : shardOf r.call.key ≠ i) (past : List (Record E)) :
    part i (r :: past) = part i past := by
  simp [part, h]

/-- The keys that are held have been called. -/
theorem recency_subset (past : List (Record E)) : recency past ⊆ past.map (·.call.key) := by
  induction past with
  | nil => simp [recency]
  | cons r past ih =>
    have herase : ∀ k, (recency past).erase k ⊆ (r :: past).map (·.call.key) := fun k x hx =>
      List.mem_cons_of_mem _ (ih (List.mem_of_mem_erase hx))
    obtain ⟨c, out, evicted⟩ := r
    cases c with
    | insert key value =>
      intro x hx
      rcases List.mem_cons.1 (List.mem_filter.1 hx).1 with rfl | hx
      · exact List.mem_cons_self
      · exact herase key hx
    | remove key => exact herase key
    | lookup key now =>
      simp only [recency]
      split_ifs
      · exact List.cons_subset.2 ⟨List.mem_cons_self, herase key⟩
      · exact herase key

/-- A call evicts only keys that have been called, or its own. -/
theorem evicted_subset {limit : Nat} {past : List (Record E)} {r : Record E} (h : Conforms limit past r) :
    r.evicted ⊆ (r :: past).map (·.call.key) := by
  obtain ⟨c, out, evicted⟩ := r
  cases c with
  | insert key value =>
    obtain ⟨-, kept, hsplit, -⟩ := h
    intro x hx
    have hmem : x ∈ key :: (recency past).erase key := hsplit ▸ List.mem_append_right kept hx
    rcases List.mem_cons.1 hmem with rfl | hmem
    · exact List.mem_cons_self
    · exact List.mem_cons_of_mem _ (recency_subset past (List.mem_of_mem_erase hmem))
  | remove key | lookup key now =>
    rw [show evicted = [] from h.2]
    exact List.nil_subset _

omit [CacheEntry E] in
theorem shardOf_of_mem_part {i : Fin cacheListNumber} {past : List (Record E)} {k : CacheKeyType}
    (h : k ∈ (part i past).map (·.call.key)) : shardOf k = i := by
  obtain ⟨r, hr, rfl⟩ := List.mem_map.1 h
  exact of_decide_eq_true (List.mem_filter.1 hr).2

/-- A call evicts nothing outside its own part. -/
theorem evicted_shard {limit : Nat} {past : List (Record E)} {r : Record E} (h : Conforms limit (part (shardOf r.call.key) past) r)
    {k : CacheKeyType} (hk : k ∈ r.evicted) : shardOf k = shardOf r.call.key := by
  rcases List.mem_cons.1 (evicted_subset h hk) with rfl | hk
  · rfl
  · exact shardOf_of_mem_part hk

/-- A call of another part does not change what a key holds. -/
theorem held_cons_of_ne {limit : Nat} {past : List (Record E)} {r : Record E}
    (h : Conforms limit (part (shardOf r.call.key) past) r) {k : CacheKeyType} (hk : shardOf r.call.key ≠ shardOf k) :
    held (r :: past) k = held past k := by
  have hevicted : k ∉ r.evicted := fun hmem => hk (evicted_shard h hmem).symm
  have hne : k ≠ r.call.key := fun heq => hk (congrArg shardOf heq).symm
  obtain ⟨c, out, evicted⟩ := r
  cases c with
  | insert key value => simp only [held, if_neg hevicted, if_neg (show k ≠ key from hne)]
  | remove key => simp only [held, if_neg (show k ≠ key from hne)]
  | lookup key now => simp only [held, if_neg (show k ≠ key from hne)]

/-- What a call does to its own key and part it does by the history of the part. -/
theorem held_cons_congr {past past' : List (Record E)} {k : CacheKeyType} (h : held past k = held past' k) (r : Record E) :
    held (r :: past) k = held (r :: past') k := by
  obtain ⟨c, out, evicted⟩ := r
  cases c <;> simp only [held, h]

/-- What every part holds is told by the history of all parts. -/
structure Simulates (config : LocalConfig) (s : LocalCache E) (log : List (LruCall E × Option E)) (past : List (Record E)) : Prop where
  log_eq : past.map (fun r => (r.call, r.out)) = log
  parts : ∀ i, LruCacheImpl.Simulates config.singleMaxCacheSize (s i) ((part i past).map fun r => (r.call, r.out)) (part i past)
  held_eq : ∀ k, held past k = held (part (shardOf k) past) k

variable {config : LocalConfig} {s : LocalCache E} {log : List (LruCall E × Option E)} {past : List (Record E)}

theorem Simulates.new (config : LocalConfig) : Simulates config (LocalCache.new config : LocalCache E) [] [] :=
  ⟨rfl, fun _ => ⟨rfl, trivial, rfl, [], represents_new _, fun _ => rfl, rfl⟩, fun _ => rfl⟩

/-- The history goes on with every call that returns. -/
theorem Simulates.call {fuel : Nat} {c : LruCall E} {out : Option E} {s' : LocalCache E} (h : Simulates config s log past)
    (hfit : SumsFit (s (shardOf c.key)) c) (hcall : s.call fuel c = .ok (out, s')) :
    ∃ evicted, Simulates config s' ((c, out) :: log) (⟨c, out, evicted⟩ :: past) := by
  obtain ⟨⟨out', lru⟩, hlru, heq⟩ := bind_eq_ok hcall
  cases heq
  obtain ⟨evicted, hpart⟩ := (h.parts (shardOf c.key)).call hfit hlru
  have hself := part_cons_self ⟨c, out, evicted⟩ past
  refine ⟨evicted, by rw [List.map_cons, h.log_eq], ?_, ?_⟩
  · intro i
    by_cases hi : shardOf c.key = i
    · subst hi
      rw [Function.update_self, hself]
      exact hpart
    · rw [Function.update_of_ne (Ne.symm hi), part_cons_of_ne hi]
      exact h.parts i
  · intro k
    by_cases hk : shardOf c.key = shardOf k
    · rw [← hk, hself]
      exact held_cons_congr (hk ▸ h.held_eq k) _
    · rw [part_cons_of_ne hk, held_cons_of_ne hpart.conformant.1 hk]
      exact h.held_eq k

/-- The last call conforms to the calls of its part. -/
theorem Simulates.conforms {r : Record E} (h : Simulates config s log (r :: past)) :
    Conforms config.singleMaxCacheSize.toNat (part (shardOf r.call.key) past) r := by
  have hpart := (h.parts (shardOf r.call.key)).conformant
  rw [part_cons_self] at hpart
  exact hpart.1

/-- What is stored is what the history holds. -/
theorem Simulates.stored_eq (h : Simulates config s log past) (k : CacheKeyType) : s.stored k = held past k := by
  obtain ⟨ts, hrep, htells⟩ := (h.parts (shardOf k)).slots
  rw [h.held_eq, htells.held, stored]
  rcases hrep.find k with ⟨hnone, hk⟩ | ⟨t, ht, rfl, hsome⟩
  · rw [hnone, find_of_notMem hk]
    rfl
  · rw [hsome, find_of_mem hrep.keys_nodup ht]
    rfl

/-- A call ends, as the call of its part does. -/
theorem Simulates.returns (h : Simulates config s log past) {c : LruCall E} (hfit : SumsFit (s (shardOf c.key)) c) :
    ∃ out s', EndsWith (fun n => s.call n c) (.ok (out, s')) := by
  obtain ⟨ts, hrep, -⟩ := (h.parts (shardOf c.key)).slots
  obtain ⟨out, lru, -, hends, -⟩ := hrep.call hfit
  refine ⟨out, Function.update s (shardOf c.key) lru, ?_⟩
  exact hends.bind (k := fun _ (r : Option E × LruCacheImpl E) => .ok (r.1, Function.update s (shardOf c.key) r.2)) (EndsWith.const _)

theorem exists_simulates {fuel : Nat} {p : LocalCache E × List (LruCall E × Option E)}
    (h : Reach (logged fuel) (fun p c => SumsFit (p.1 (shardOf c.key)) c) (LocalCache.new config, []) p) :
    ∃ past, Simulates config p.1 p.2 past := by
  refine h.invariant (fun p => ∃ past, Simulates config p.1 p.2 past) ⟨[], .new config⟩ ?_
  rintro ⟨s, log⟩ c p' ⟨past, hsim⟩ hfit hstep
  obtain ⟨⟨out, s'⟩, hcall, hp'⟩ := bind_eq_ok hstep
  cases hp'
  obtain ⟨evicted, hnext⟩ := hsim.call hfit hcall
  exact ⟨⟨c, out, evicted⟩ :: past, hnext⟩

/-- Whatever is called, the cache has one history: it tells what is stored
under every key, in each part every call conforms to the calls of the part
before it, and the next call returns, conforms, and leaves every other key
that it does not evict from its own part as it was. -/
theorem one_history {fuel : Nat} (h : Reach (logged fuel) (fun p c => SumsFit (p.1 (shardOf c.key)) c)
      (LocalCache.new config, []) (s, log)) :
    ∃ past : List (Record E), past.map (fun r => (r.call, r.out)) = log ∧ (∀ k, s.stored k = held past k) ∧
      (∀ i, Conformant config.singleMaxCacheSize.toNat (part i past)) ∧
      ∀ c, SumsFit (s (shardOf c.key)) c → ∃ r s', EndsWith (fun n => s.call n c) (.ok (r.out, s')) ∧ r.call = c ∧
        Conforms config.singleMaxCacheSize.toNat (part (shardOf c.key) past) r ∧ (∀ k, s'.stored k = held (r :: past) k) ∧
        (∀ k ∈ r.evicted, shardOf k = shardOf c.key) ∧ ∀ k, k ≠ c.key → k ∉ r.evicted → s'.stored k = s.stored k := by
  obtain ⟨past, hsim⟩ := exists_simulates h
  refine ⟨past, hsim.log_eq, hsim.stored_eq, fun i => (hsim.parts i).conformant, fun c hfit => ?_⟩
  obtain ⟨out, s', hends⟩ := hsim.returns hfit
  obtain ⟨N, hN⟩ := hends
  obtain ⟨evicted, hnext⟩ := hsim.call hfit (hN N le_rfl)
  have hconf := hnext.conforms
  refine ⟨⟨c, out, evicted⟩, s', ⟨N, hN⟩, rfl, hconf, hnext.stored_eq, fun k => evicted_shard hconf, ?_⟩
  intro k hk hkept
  rw [hnext.stored_eq, hsim.stored_eq]
  cases c with
  | insert key value => simp only [held, if_neg hkept, if_neg (show k ≠ key from hk)]
  | remove key | lookup key now => simp only [held, if_neg (show k ≠ key from hk)]

/-- Two keys of one part: the older one is evicted, a key of another part is not. -/
theorem one_history_two_parts :
    ∃ (s : LocalCache Stamp) (log : List (LruCall Stamp × Option Stamp)),
      Reach (logged 3) (fun p c => SumsFit (p.1 (shardOf c.key)) c) (LocalCache.new { maxCacheSize := some 160 }, []) (s, log) ∧
      s.stored (ascii "a") = none ∧ s.stored (ascii "b") = some ⟨9, 100⟩ ∧ s.stored (ascii "q") = some ⟨6, 100⟩ ∧
      ∃ past : List (Record Stamp), past.map (fun r => (r.call, r.out)) = log ∧ held past (ascii "b") = some ⟨9, 100⟩ := by
  have h₁ := reach_start (logged 3) (fun p c => SumsFit (p.1 (shardOf c.key)) c)
    ((LocalCache.new { maxCacheSize := some 160 } : LocalCache Stamp), [])
  have h₂ := h₁.next (e := .insert (ascii "a") ⟨6, 100⟩) (by decide) rfl
  have h₃ := h₂.next (e := .insert (ascii "b") ⟨9, 100⟩) (by decide) rfl
  have h₄ := h₃.next (e := .insert (ascii "q") ⟨6, 100⟩) (by decide) rfl
  obtain ⟨past, hlog, hheld, -⟩ := one_history h₄
  refine ⟨_, _, h₄, ?_, ?_, ?_, past, hlog, ?_⟩
  · rfl
  · rfl
  · rfl
  · rw [← hheld]
    rfl

/-! ## How much is stored -/

/-- Parts of which no key is called stay as they are. -/
theorem part_untouched {fuel : Nat} {s₀ : LocalCache E} {parts : Finset (Fin cacheListNumber)}
    (h : Reach (step fuel) (fun s c => SumsFit (s (shardOf c.key)) c ∧ shardOf c.key ∈ parts) s₀ s) {i : Fin cacheListNumber}
    (hi : i ∉ parts) : s i = s₀ i := by
  refine h.invariant (fun s => s i = s₀ i) rfl ?_
  rintro s c s' hs ⟨-, hpart⟩ hstep
  obtain ⟨t, -, rfl⟩ := stepPart_eq_ok hstep
  have hne : i ≠ shardOf c.key := by
    rintro rfl
    exact hi hpart
  rw [Function.update_of_ne hne, hs]

/-- What is stored fits in the parts of which keys are called. -/
theorem storedLength_le {fuel : Nat} {parts : Finset (Fin cacheListNumber)}
    (h : Reach (step fuel) (fun s c => SumsFit (s (shardOf c.key)) c ∧ shardOf c.key ∈ parts) (LocalCache.new config) s) :
    s.storedLength ≤ parts.card * config.singleMaxCacheSize.toNat := by
  have hpart : ∀ i, entriesLength (s i).dict ≤ if i ∈ parts then config.singleMaxCacheSize.toNat else 0 := by
    intro i
    split_ifs with hi
    · have hrun := h.mono (fun _ _ hc => hc.1)
      obtain ⟨-, ts, hrep, hle⟩ := exists_represents (hrun.project i)
      rwa [hrep.entriesLength_eq]
    · rw [part_untouched h hi]
      exact le_rfl
  calc s.storedLength ≤ ∑ i, if i ∈ parts then config.singleMaxCacheSize.toNat else 0 := Finset.sum_le_sum fun i _ => hpart i
    _ = parts.card * config.singleMaxCacheSize.toNat := by simp

/-- The lower-case hexadecimal digits. -/
def hexDigits : Bytes := ascii "0123456789abcdef"

/-- A digest in hexadecimal, as cache keys are. -/
def IsDigest (key : CacheKeyType) : Prop := key.length = 32 ∧ ∀ b ∈ key, b ∈ hexDigits

instance (key : CacheKeyType) : Decidable (IsDigest key) := inferInstanceAs (Decidable (_ ∧ _))

/-- The digits and the letters reach the parts from zero to nine. -/
theorem shardOf_digest {key : CacheKeyType} (h : IsDigest key) : shardOf key ∈ Finset.univ.filter fun i : Fin cacheListNumber => i < 10 := by
  obtain ⟨hlength, hdigits⟩ := h
  obtain ⟨b, key, rfl⟩ : ∃ b key', key = b :: key' := by
    rcases key with _ | ⟨b, key⟩
    · cases hlength
    · exact ⟨b, key, rfl⟩
  have hall : ∀ b ∈ hexDigits, Fin.ofNat cacheListNumber b.toNat < 10 := by decide +kernel
  exact Finset.mem_filter.2 ⟨Finset.mem_univ _, hall b (hdigits b List.mem_cons_self)⟩

/-- Of a cache that only sees digests six parts stay empty, and the rest of
the size is all that is ever used. -/
theorem hex_keys_bounded {fuel : Nat}
    (h : Reach (step fuel) (fun s c => SumsFit (s (shardOf c.key)) c ∧ IsDigest c.key) (LocalCache.new config) s) :
    s.storedLength ≤ 10 * ((config.maxCacheSize.getD defaultMaxCacheSize).toNat / 16) ∧
      ∀ i : Fin cacheListNumber, 10 ≤ i → (s i).list = [] ∧ (s i).dict = ∅ := by
  have hrun := h.mono (fun _ _ hc => And.intro hc.1 (shardOf_digest hc.2))
  constructor
  · have hle := storedLength_le hrun
    have hsize : config.singleMaxCacheSize.toNat = (config.maxCacheSize.getD defaultMaxCacheSize).toNat / 16 := UInt64.toNat_div _ _
    rwa [hsize] at hle
  · intro i hi
    rw [part_untouched hrun (by simpa using hi)]
    exact ⟨rfl, rfl⟩

/-- A cache of 160 bytes with one digest in it. -/
theorem hex_key_bounded :
    ∃ s : LocalCache Stamp,
      Reach (step 3) (fun s c => SumsFit (s (shardOf c.key)) c ∧ IsDigest c.key) (LocalCache.new { maxCacheSize := some 160 }) s ∧
      s.storedLength = 9 ∧ s.storedLength ≤ 100 := by
  have h₁ := reach_start (step 3) (fun s c => SumsFit (s (shardOf c.key)) c ∧ IsDigest c.key)
    (LocalCache.new { maxCacheSize := some 160 } : LocalCache Stamp)
  have h₂ := h₁.next (e := .insert (ascii "0123456789abcdef0123456789abcdef") ⟨9, 100⟩) (by decide +kernel) rfl
  exact ⟨_, h₂, by decide +kernel, (hex_keys_bounded h₂).1⟩

end LocalCache

end EnvoyProxy.Cache
