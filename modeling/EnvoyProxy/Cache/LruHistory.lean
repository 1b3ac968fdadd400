import EnvoyProxy.Cache.Lru
/-!
# What the LRU cache is for

The cache seen from outside: a history of calls, what they returned and which
keys an insertion evicted. `held` is the value last inserted under a key,
unless it was removed, evicted or found expired since; `recency` is the order
of last use. `Conforms` says what every call of a history has to return and
which keys it may evict. `refines_history`: whatever is called, the cache has
such a history, and its list and dictionary are `recency` and `held` of it.
-/

namespace EnvoyProxy.Cache.LruCacheImpl
open Recency

/-- A call that has returned. -/
structure Record (E : Type) where
  call : LruCall E
  out : Option E
  /-- The keys an insertion evicted. -/
  evicted : List CacheKeyType := []

section History
variable {E : Type} [CacheEntry E]

/-- A value whose expiry time has not come. -/
def unexpired (now : UInt64) (o : Option E) : Option E := o.filter fun v => now < cacheExpire v

@[simp] theorem unexpired_none (now : UInt64) : unexpired now (none : Option E) = none := rfl

theorem unexpired_of_lt {now : UInt64} {v : E} (h : now < cacheExpire v) : unexpired now (some v) = some v := by
  simp [unexpired, h]

theorem unexpired_of_le {now : UInt64} {v : E} (h : cacheExpire v ≤ now) : unexpired now (some v) = none := by
  simp [unexpired, h]

/-- The value last inserted under a key, if it was not removed, evicted or
found expired since. The latest call comes first. -/
def held : List (Record E) → CacheKeyType → Option E
  | [], _ => none
  | r :: past, k =>
    match r.call with
    | .insert key value => if k ∈ r.evicted then none else if k = key then some value else held past k
    | .remove key => if k = key then none else held past k
    | .lookup key now => if k = key then unexpired now (held past k) else held past k

/-- The keys that are held, the most recently used first. -/
def recency : List (Record E) → List CacheKeyType
  | [] => []
  | r :: past =>
    match r.call with
    | .insert key _ => (key :: (recency past).erase key).filter (· ∉ r.evicted)
    | .remove key => (recency past).erase key
    | .lookup key now =>
      if (unexpired now (held past key)).isSome then key :: (recency past).erase key
      else (recency past).erase key

def lengthOf (o : Option E) : Nat := (o.map fun v => (Cache.cacheLength v).toNat).getD 0

/-- The lengths when `value` has just come in. -/
def lengthWith (past : List (Record E)) (key : CacheKeyType) (value : E) (k : CacheKeyType) : Nat :=
  lengthOf (if k = key then some value else held past k)

/-- What a call returns and evicts, after the calls of `past`. -/
def Conforms (limit : Nat) (past : List (Record E)) (r : Record E) : Prop :=
  match r.call with
  | .lookup key now =>
    r.out = (unexpired now (held past key)).bind createCopy ∧ r.evicted = []
  | .remove _ => r.out = none ∧ r.evicted = []
  | .insert key value =>
    r.out = none ∧ ∃ kept, kept ++ r.evicted = key :: (recency past).erase key ∧
      Evicts (lengthWith past key value) batch limit (key :: (recency past).erase key) kept

/-- Every call conforms to the calls before it. -/
def Conformant (limit : Nat) : List (Record E) → Prop
  | [] => True
  | r :: past => Conforms limit past r ∧ Conformant limit past

/-- The slots and the history tell the same. -/
structure Tells (ts : List (Slot E)) (past : List (Record E)) : Prop where
  held : ∀ k, held past k = (ts.find? (·.key = k)).map Slot.entry
  recency : recency past = ts.map Slot.key

variable {ts ts' : List (Slot E)} {past : List (Record E)}

omit [CacheEntry E] in
theorem find_of_mem (h : (ts.map Slot.key).Nodup) {t : Slot E} (ht : t ∈ ts) :
    ts.find? (·.key = t.key) = some t := by
  obtain ⟨l₁, l₂, rfl⟩ := List.append_of_mem ht
  simp only [List.map_append, List.map_cons, List.nodup_middle, List.nodup_cons, List.mem_append, not_or] at h
  have hfirst : l₁.find? (·.key = t.key) = none := by
    simp only [List.find?_eq_none, decide_eq_true_eq]
    exact fun u hu he => h.1.1 (List.mem_map.2 ⟨u, hu, he⟩)
  simp [List.find?_append, hfirst]

omit [CacheEntry E] in
theorem find_of_notMem {k : CacheKeyType} (h : k ∉ ts.map Slot.key) : ts.find? (·.key = k) = none := by
  simp only [List.find?_eq_none, decide_eq_true_eq]
  exact fun t ht he => h (List.mem_map.2 ⟨t, ht, he⟩)

omit [CacheEntry E] in
theorem find_without (k x : CacheKeyType) :
    (without Slot.key k ts).find? (·.key = x) = if x = k then none else ts.find? (·.key = x) := by
  rw [without, List.find?_filter]
  split_ifs with hx
  · subst hx
    simp
  · congr 1
    funext t
    by_cases ht : t.key = x
    · simp [ht, hx]
    · simp [ht]

omit [CacheEntry E] in
theorem keys_erase (h : (ts.map Slot.key).Nodup) (k : CacheKeyType) :
    (without Slot.key k ts).map Slot.key = (ts.map Slot.key).erase k := by
  rw [keys_without, h.erase_eq_filter]
  apply List.filter_congr
  intro x _
  rw [bne, decide_not, beq_eq_decide]

theorem held_of_mem (h : Tells ts past) (hkeys : (ts.map Slot.key).Nodup) {t : Slot E} (ht : t ∈ ts) :
    held past t.key = some t.entry := by
  rw [h.held, find_of_mem hkeys ht, Option.map_some]

/-- An insertion: the keys of the slots are evicted as the slots are. -/
theorem insert_tells {limit : Nat} {id : Nat} {k : CacheKeyType} {v : E} (htells : Tells ts past)
    (hkeys : (ts.map Slot.key).Nodup)
    (hevict : Evicts Slot.length batch limit (⟨id, k, v⟩ :: without Slot.key k ts) ts') :
    ∃ evicted, Conforms limit past ⟨.insert k v, none, evicted⟩ ∧
      Tells ts' (⟨.insert k v, none, evicted⟩ :: past) := by
  have hlength : ∀ t ∈ (⟨id, k, v⟩ :: without Slot.key k ts : List (Slot E)),
      lengthWith past k v t.key = t.length := by
    intro t ht
    rcases List.mem_cons.1 ht with rfl | ht
    · simp [lengthWith, lengthOf, Slot.length]
    · obtain ⟨ht, hne⟩ := List.mem_filter.1 ht
      rw [lengthWith, if_neg (of_decide_eq_true hne), htells.held, find_of_mem hkeys ht]
      rfl
  have horder : (⟨id, k, v⟩ :: without Slot.key k ts : List (Slot E)).map Slot.key = k ::
      (recency past).erase k := by
    rw [List.map_cons, keys_erase hkeys, htells.recency]
  have hnodup : ((⟨id, k, v⟩ :: without Slot.key k ts : List (Slot E)).map Slot.key).Nodup := by
    rw [horder, htells.recency]
    exact List.nodup_cons.2 ⟨hkeys.not_mem_erase, hkeys.erase _⟩
  have hevict' := hevict.map Slot.key hlength
  rw [horder] at hevict'
  obtain ⟨dropped, hdropped⟩ := hevict.isPrefix
  rw [← hdropped, List.map_append] at horder
  rw [← hdropped, List.map_append] at hnodup
  have hdisjoint := List.disjoint_of_nodup_append hnodup
  refine ⟨dropped.map Slot.key, ⟨rfl, ts'.map Slot.key, horder, hevict'⟩, ⟨fun x => ?_, ?_⟩⟩
  · have hfind : (⟨id, k, v⟩ :: without Slot.key k ts : List (Slot E)).find? (·.key = x) =
        if x = k then some ⟨id, k, v⟩ else ts.find? (·.key = x) := by
      by_cases hx : x = k
      · simp [hx]
      · simp [hx, Ne.symm hx, find_without]
    have hkept : x ∉ dropped.map Slot.key → ts'.find? (·.key = x) = (ts' ++ dropped).find? (·.key = x) := by
      intro hx
      rw [List.find?_append, find_of_notMem hx, Option.or_none]
    rw [← hdropped] at hfind
    simp only [held]
    split_ifs with hx hxk
    · rw [find_of_notMem (fun hx' => hdisjoint hx' hx), Option.map_none]
    · rw [hkept hx, hfind, if_pos hxk, Option.map_some]
    · rw [hkept hx, hfind, if_neg hxk, htells.held]
  · have hself : (ts'.map Slot.key).filter (· ∉ dropped.map Slot.key) = ts'.map Slot.key :=
      List.filter_eq_self.2 fun x hx => decide_eq_true (hdisjoint hx)
    have hnil : (dropped.map Slot.key).filter (· ∉ dropped.map Slot.key) = [] :=
      List.filter_eq_nil_iff.2 fun x hx => by simp only [decide_eq_true_eq, not_not]; exact hx
    simp only [recency]
    rw [← horder, List.filter_append, hself, hnil, List.append_nil]

/-- One call: the history goes on as the slots do. -/
theorem Effect.tells {limit : Nat} {c : LruCall E} {out : Option E} (h : Effect limit ts c out ts')
    (hkeys : (ts.map Slot.key).Nodup) (htells : Tells ts past) :
    ∃ evicted, Conforms limit past ⟨c, out, evicted⟩ ∧ Tells ts' (⟨c, out, evicted⟩ :: past) := by
  cases h with
  | @absent k now hk =>
    have hnone : held past k = none := by rw [htells.held, find_of_notMem hk, Option.map_none]
    refine ⟨[], ⟨by simp [hnone], rfl⟩, ⟨fun x => ?_, ?_⟩⟩
    · simp only [held]
      split_ifs with hx
      · subst hx
        rw [hnone, find_of_notMem hk]
        rfl
      · exact htells.held x
    · simp only [recency, hnone, unexpired_none, Option.isSome_none, Bool.false_eq_true, if_false, htells.recency]
      exact List.erase_of_not_mem hk
  | remove =>
    refine ⟨[], ⟨rfl, rfl⟩, ⟨fun x => ?_, ?_⟩⟩
    · simp only [held, find_without]
      split_ifs
      · rfl
      · exact htells.held x
    · rw [keys_erase hkeys, ← htells.recency]
      rfl
  | @expired t now ht hexp =>
    have hnone : unexpired now (held past t.key) = none := by rw [held_of_mem htells hkeys ht, unexpired_of_le hexp]
    refine ⟨[], ⟨by simp [hnone], rfl⟩, ⟨fun x => ?_, ?_⟩⟩
    · simp only [held, find_without]
      split_ifs with hx
      · subst hx
        rw [hnone, Option.map_none]
      · exact htells.held x
    · simp [recency, hnone, keys_erase hkeys, htells.recency]
  | @hit t now id ht hlive =>
    have hlast : unexpired now (held past t.key) = some t.entry :=
      by rw [held_of_mem htells hkeys ht, unexpired_of_lt hlive]
    refine ⟨[], ⟨by simp [hlast], rfl⟩, ⟨fun x => ?_, ?_⟩⟩
    · by_cases hx : x = t.key
      · subst hx
        simp [held, hlast]
      · simp [held, hx, Ne.symm hx, find_without, htells.held]
    · simp [recency, hlast, keys_erase hkeys, htells.recency]
  | insert hevict => exact insert_tells htells hkeys hevict

/-- A batch of two keys or more leaves the newest one. -/
theorem batch_lt {n : Nat} (h : 2 ≤ n) : batch n < n := by
  simp only [batch]
  omega

/-- The newest key outlives its insertion exactly when it fits alone. -/
theorem evicted_iff {limit : Nat} {past : List (Record E)} {k : CacheKeyType} {v : E} {out : Option E}
    {evicted : List CacheKeyType} (hnodup : (recency past).Nodup)
    (h : Conforms limit past ⟨.insert k v, out, evicted⟩) :
    k ∈ recency (⟨.insert k v, out, evicted⟩ :: past) ↔ (Cache.cacheLength v).toNat ≤ limit := by
  obtain ⟨-, kept, hsplit, hevict⟩ := h
  have horder : (k :: (recency past).erase k).Nodup := List.nodup_cons.2 ⟨hnodup.not_mem_erase, hnodup.erase _⟩
  have hhead := hevict.head_mem_iff fun n => batch_lt
  have hlength : lengthWith past k v k = (Cache.cacheLength v).toNat := by simp [lengthWith, lengthOf]
  rw [← hsplit] at horder
  have hdisjoint := List.disjoint_of_nodup_append horder
  have hk : k ∈ kept ++ evicted := by rw [hsplit]; exact List.mem_cons_self
  rw [hlength] at hhead
  rw [← hhead]
  simp only [recency, List.mem_filter, List.mem_cons_self, true_and, decide_eq_true_eq]
  constructor
  · exact fun hnot => (List.mem_append.1 hk).resolve_right hnot
  · exact fun hkept hevicted => hdisjoint hkept hevicted

/-- A call, and the record of what it returned. -/
def logged (fuel : Nat) (p : LruCacheImpl E × List (LruCall E × Option E)) (c : LruCall E) :
    Except (Stop Fault) (LruCacheImpl E × List (LruCall E × Option E)) := do
  let (out, s) ← p.1.call fuel c
  return (s, (c, out) :: p.2)

/-- What a run keeps: slots that represent the state and tell its history. -/
structure Simulates (max : UInt64) (s : LruCacheImpl E) (log : List (LruCall E × Option E))
    (past : List (Record E)) : Prop where
  log_eq : past.map (fun r => (r.call, r.out)) = log
  conformant : Conformant max.toNat past
  max_eq : s.maxCacheLength = max
  slots : ∃ ts, Represents s ts ∧ Tells ts past

/-- A call that returns: the history goes on with it. -/
theorem Simulates.call {max : UInt64} {fuel : Nat} {s s' : LruCacheImpl E} {log : List (LruCall E × Option E)}
    {past : List (Record E)} {c : LruCall E} {out : Option E} (h : Simulates max s log past) (hfit : SumsFit s c)
    (hcall : s.call fuel c = .ok (out, s')) :
    ∃ evicted, Simulates max s' ((c, out) :: log) (⟨c, out, evicted⟩ :: past) := by
  obtain ⟨hlog, hconf, hmax, ts, hrep, htells⟩ := h
  obtain ⟨out', s'', ts', hends, heff, hrep', hmax'⟩ := hrep.call hfit
  cases (call_ends hcall).unique hends
  rw [hmax] at heff
  obtain ⟨evicted, hnext, htells'⟩ := heff.tells hrep.keys_nodup htells
  exact ⟨evicted, by rw [List.map_cons, hlog], ⟨hnext, hconf⟩, hmax'.trans hmax, ts', hrep', htells'⟩

theorem exists_simulates {max : UInt64} {fuel : Nat} {p : LruCacheImpl E × List (LruCall E × Option E)}
    (h : Reach (logged fuel) (fun p c => SumsFit p.1 c) (new max, []) p) : ∃ past, Simulates max p.1 p.2 past := by
  refine h.invariant (fun p => ∃ past, Simulates max p.1 p.2 past) ?_ ?_
  · exact ⟨[], rfl, trivial, rfl, [], represents_new max, fun _ => rfl, rfl⟩
  · rintro ⟨s, log⟩ c p' ⟨past, hsim⟩ hfit hstep
    obtain ⟨⟨out, s'⟩, hcall, hp'⟩ := bind_eq_ok hstep
    cases hp'
    obtain ⟨evicted, hnext⟩ := hsim.call hfit hcall
    exact ⟨⟨c, out, evicted⟩ :: past, hnext⟩

/-- Whatever is called, the cache has a conforming history: the dictionary is
what the history holds, the list is its recency order, an inserted key stays
exactly when it fits alone, and the next call returns. -/
theorem refines_history {max : UInt64} {fuel : Nat} {s : LruCacheImpl E} {log : List (LruCall E × Option E)}
    (h : Reach (logged fuel) (fun p c => SumsFit p.1 c) (new max, []) (s, log)) :
    ∃ past : List (Record E), past.map (fun r => (r.call, r.out)) = log ∧ Conformant max.toNat past ∧
      (∀ k, (s.dict.lookup k).map (·.2) = held past k) ∧ s.list.map (·.key) = recency past ∧
      (∀ c, SumsFit s c → ∃ r s', EndsWith (fun n => s.call n c) (.ok (r.out, s')) ∧ r.call = c ∧
        Conforms max.toNat past r ∧ (∀ k, (s'.dict.lookup k).map (·.2) = held (r :: past) k) ∧
        s'.list.map (·.key) = recency (r :: past) ∧
        ∀ k v, c = .insert k v → (k ∈ recency (r :: past) ↔ (Cache.cacheLength v).toNat ≤ max.toNat)) := by
  have hview : ∀ {s : LruCacheImpl E} {ts : List (Slot E)} {past : List (Record E)},
    Represents s ts → Tells ts past →
      (∀ k, (s.dict.lookup k).map (·.2) = held past k) ∧ s.list.map (·.key) = recency past := by
    intro s ts past hrep htells
    refine ⟨fun k => ?_, ?_⟩
    · rw [htells.held]
      rcases hrep.find k with ⟨hnone, hk⟩ | ⟨t, ht, rfl, hsome⟩
      · rw [hnone, find_of_notMem hk]
        rfl
      · rw [hsome, find_of_mem hrep.keys_nodup ht]
        rfl
    · rw [htells.recency, hrep.list, List.map_map]
      rfl
  obtain ⟨past, hlog, hconf, hmax, ts, hrep, htells⟩ := exists_simulates h
  obtain ⟨hheld, horder⟩ := hview hrep htells
  refine ⟨past, hlog, hconf, hheld, horder, fun c hfit => ?_⟩
  obtain ⟨out, s', ts', hends, heff, hrep', -⟩ := hrep.call hfit
  rw [hmax] at heff
  obtain ⟨evicted, hnext, htells'⟩ := heff.tells hrep.keys_nodup htells
  obtain ⟨hheld', horder'⟩ := hview hrep' htells'
  refine ⟨⟨c, out, evicted⟩, s', hends, rfl, hnext, hheld', horder', ?_⟩
  rintro k v rfl
  exact evicted_iff (htells.recency ▸ hrep.keys_nodup) hnext

end History

/-- A key that was looked up stays, an older one is evicted. -/
theorem looked_up_stays :
    ∃ (s : LruCacheImpl Stamp) (log : List (LruCall Stamp × Option Stamp)),
      Reach (logged 3) (fun p c => SumsFit p.1 c) (new 10, []) (s, log) ∧
      log.map (·.2) = [none, some ⟨6, 100⟩, none, none] ∧
      ∃ past : List (Record Stamp), past.map (fun r => (r.call, r.out)) = log ∧ Conformant 10 past ∧
        recency past = [ascii "c", ascii "a"] := by
  have h₁ := reach_start (logged 3) (fun p c => SumsFit p.1 c) ((new 10 : LruCacheImpl Stamp), [])
  have h₂ := h₁.next (e := .insert (ascii "a") ⟨6, 100⟩) (by decide) rfl
  have h₃ := h₂.next (e := .insert (ascii "b") ⟨4, 100⟩) (by decide) rfl
  have h₄ := h₃.next (e := .lookup (ascii "a") 50) (by trivial) rfl
  have h₅ := h₄.next (e := .insert (ascii "c") ⟨3, 100⟩) (by decide) rfl
  obtain ⟨past, hlog, hconf, -, horder, -⟩ := refines_history h₅
  refine ⟨_, _, h₅, rfl, past, hlog, hconf, ?_⟩
  rw [← horder]
  rfl

end EnvoyProxy.Cache.LruCacheImpl
