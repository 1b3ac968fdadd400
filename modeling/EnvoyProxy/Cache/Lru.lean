import EnvoyProxy.Lib.Bytes
import EnvoyProxy.Lib.Recency
import EnvoyProxy.Lib.Runs
/-!
# The LRU cache

`LruCacheImpl` (local_cache_impl.cc). The keys stand in `list`, the most
recently used first; `dict` finds the list node and the entry of a key. An
iterator is the identity of its node, so erasing through an iterator whose
node is gone is a fault of its own. The eviction loop takes fuel. Lengths are
64-bit and wrap.

`Represents s ts`: the list, the dictionary and the length counter of `s` are
three views of one list of slots. Every operation is described by what it
does to the slots.
-/

namespace EnvoyProxy.Cache
open Recency

abbrev CacheKeyType := Bytes

/-- What a cache asks of a `CacheEntry`. -/
class CacheEntry (E : Type) where
  cacheLength : E → UInt64
  cacheExpire : E → UInt64
  createCopy : E → Option E

export CacheEntry (cacheLength cacheExpire createCopy)

/-- A node of `m_list_`; an iterator to it holds its `id`. -/
structure ListNode where
  id : Nat
  key : CacheKeyType
  deriving DecidableEq, Repr

/-- What the standard leaves undefined. -/
inductive Fault
  /-- `erase` of an iterator that designates no node. -/
  | danglingIterator
  /-- `*rbegin()` of an empty list. -/
  | emptyList
  deriving DecidableEq, Repr

abbrev Dict (E : Type) := AList fun _ : CacheKeyType => Nat × E

structure LruCacheImpl (E : Type) where
  dict : Dict E := ∅
  list : List ListNode := []
  maxCacheLength : UInt64
  cacheLength : UInt64 := 0
  /-- The identity of the next node. -/
  nextId : Nat := 0
  /-- `checkMemory` has cleared the cache. -/
  memoryError : Bool := false
  /-- An entry was longer than `cacheLength` when it was taken off. -/
  underflow : Bool := false

/-- `m_list_.erase(it)` -/
def eraseNode (it : Nat) (list : List ListNode) : Except (Stop Fault) (List ListNode) :=
  if list.any (·.id = it) then .ok (list.eraseP (·.id = it)) else .error (.thrown .danglingIterator)

inductive LruCall (E : Type)
  | insert (key : CacheKeyType) (value : E)
  /-- `now` is what `createTimestamp` returns. -/
  | lookup (key : CacheKeyType) (now : UInt64)
  | remove (key : CacheKeyType)

namespace LruCacheImpl

section Calls
variable {E : Type} [CacheEntry E]

def new (maxCacheLength : UInt64) : LruCacheImpl E := { maxCacheLength }

def checkMemory (s : LruCacheImpl E) : LruCacheImpl E :=
  if s.list.length ≠ s.dict.entries.length then
    { s with dict := ∅, list := [], cacheLength := 0, memoryError := true }
  else s

def removeImpl (s : LruCacheImpl E) (key : CacheKeyType) : Except (Stop Fault) (LruCacheImpl E) :=
  match s.dict.lookup key with
  | none => .ok s
  | some (it, entry) => do
    let list ← eraseNode it s.list
    return { s with
      cacheLength := s.cacheLength - Cache.cacheLength entry
      underflow := s.underflow || s.cacheLength < Cache.cacheLength entry
      list
      dict := s.dict.erase key }

/-- Returns how many entries were removed. -/
def drainNumber : Nat → LruCacheImpl E → Except (Stop Fault) (Nat × LruCacheImpl E)
  | 0, s => .ok (0, s)
  | number + 1, s =>
    if s.dict.entries.isEmpty then .ok (0, s)
    else
      match s.list.getLast? with
      | none => .error (.thrown .emptyList)
      | some toRemove => do
        let s ← s.removeImpl toRemove.key
        let (trueNumber, s) ← drainNumber number s
        return (trueNumber + 1, s)

/-- `std::max(m_dict_.size() / 10, 1UL)` -/
def batch (size : Nat) : Nat := max (size / 10) 1

/-- `while (cache_length_ > max_cache_length_)` -/
def recallMemory : Nat → LruCacheImpl E → Except (Stop Fault) (LruCacheImpl E)
  | 0, _ => .error .outOfFuel
  | fuel + 1, s =>
    if s.maxCacheLength < s.cacheLength then do
      let (_, s) ← drainNumber (batch s.dict.entries.length) s
      recallMemory fuel s
    else .ok s

/-- The new node and entry in front, before memory is recalled. -/
def pushFront (s : LruCacheImpl E) (key : CacheKeyType) (value : E) : LruCacheImpl E :=
  { s with
    cacheLength := s.cacheLength + Cache.cacheLength value
    list := ⟨s.nextId, key⟩ :: s.list
    dict := s.dict.insert key (s.nextId, value)
    nextId := s.nextId + 1 }

def insert (fuel : Nat) (s : LruCacheImpl E) (key : CacheKeyType) (value : E) :
    Except (Stop Fault) (LruCacheImpl E) := do
  let s ← s.removeImpl key
  recallMemory fuel (s.pushFront key value)

def lookup (s : LruCacheImpl E) (key : CacheKeyType) (now : UInt64) :
    Except (Stop Fault) (Option E × LruCacheImpl E) :=
  let s := s.checkMemory
  match s.dict.lookup key with
  | none => .ok (none, s)
  | some (it, entry) =>
    if cacheExpire entry ≤ now then do
      return (none, ← s.removeImpl key)
    else if s.list.head?.map (·.id) ≠ some it then do
      let list ← eraseNode it s.list
      return (createCopy entry, { s with
        list := ⟨s.nextId, key⟩ :: list
        dict := s.dict.insert key (s.nextId, entry)
        nextId := s.nextId + 1 })
    else .ok (createCopy entry, s)

def remove (s : LruCacheImpl E) (key : CacheKeyType) : Except (Stop Fault) (LruCacheImpl E) := s.removeImpl key

/-- A call, with what it returns. -/
def call (fuel : Nat) (s : LruCacheImpl E) : LruCall E → Except (Stop Fault) (Option E × LruCacheImpl E)
  | .insert key value => do return (none, ← s.insert fuel key value)
  | .lookup key now => s.lookup key now
  | .remove key => do return (none, ← s.remove key)

/-- The state after a call. -/
def step (fuel : Nat) (s : LruCacheImpl E) (c : LruCall E) : Except (Stop Fault) (LruCacheImpl E) := do
  return (← s.call fuel c).2

end Calls

/-! ## Slots -/

section Slots
variable {E : Type} [CacheEntry E]

/-- A key, its list node and its entry. -/
structure Slot (E : Type) where
  id : Nat
  key : CacheKeyType
  entry : E

namespace Slot

def node (t : Slot E) : ListNode := ⟨t.id, t.key⟩

def binding (t : Slot E) : Sigma fun _ : CacheKeyType => Nat × E := ⟨t.key, t.id, t.entry⟩

def length (t : Slot E) : Nat := (Cache.cacheLength t.entry).toNat

end Slot

structure Represents (s : LruCacheImpl E) (ts : List (Slot E)) : Prop where
  list : s.list = ts.map Slot.node
  dict : s.dict.entries.Perm (ts.map Slot.binding)
  ids : (ts.map Slot.id).Nodup
  fresh : ∀ t ∈ ts, t.id < s.nextId
  length : s.cacheLength.toNat = total Slot.length ts
  memoryError : s.memoryError = false
  underflow : s.underflow = false

theorem represents_new (max : UInt64) : Represents (new max : LruCacheImpl E) [] :=
  ⟨rfl, .refl _, List.nodup_nil, by simp, rfl, rfl, rfl⟩

variable {s : LruCacheImpl E} {ts : List (Slot E)}

namespace Represents

theorem keys_nodup (h : Represents s ts) : (ts.map Slot.key).Nodup := by
  have hnodup : (ts.map Slot.binding).NodupKeys := (List.perm_nodupKeys h.dict).1 s.dict.nodupKeys
  simp only [List.NodupKeys, List.keys, List.map_map] at hnodup
  exact hnodup

theorem size_eq (h : Represents s ts) : s.dict.entries.length = ts.length := by
  rw [h.dict.length_eq, List.length_map]

theorem mem_dict (h : Represents s ts) (k : CacheKeyType) : k ∈ s.dict ↔ k ∈ ts.map Slot.key := by
  rw [AList.mem_keys, AList.keys, List.keys, (h.dict.map Sigma.fst).mem_iff, List.map_map]
  rfl

theorem lookup_eq (h : Represents s ts) {t : Slot E} (ht : t ∈ ts) : s.dict.lookup t.key = some (t.id, t.entry) := by
  refine AList.mem_lookup_iff.2 (h.dict.mem_iff.2 ?_)
  exact List.mem_map.2 ⟨t, ht, rfl⟩

/-- What `find` finds: nothing, or a slot. -/
theorem find (h : Represents s ts) (k : CacheKeyType) :
    (s.dict.lookup k = none ∧ k ∉ ts.map Slot.key) ∨
    ∃ t ∈ ts, t.key = k ∧ s.dict.lookup k = some (t.id, t.entry) := by
  by_cases hk : k ∈ ts.map Slot.key
  · obtain ⟨t, ht, rfl⟩ := List.mem_map.1 hk
    exact .inr ⟨t, ht, rfl, h.lookup_eq ht⟩
  · exact .inl ⟨AList.lookup_eq_none.2 fun hm => hk ((h.mem_dict k).1 hm), hk⟩

/-- `checkMemory` has nothing to clear. -/
theorem checkMemory_eq (h : Represents s ts) : s.checkMemory = s := by
  have hlen : s.list.length = s.dict.entries.length := by rw [h.size_eq, h.list, List.length_map]
  simp [checkMemory, hlen]

omit [CacheEntry E] in
/-- The bindings of the other keys. -/
theorem kerase_bindings (k : CacheKeyType) {ts : List (Slot E)} (h : (ts.map Slot.key).Nodup) :
    (ts.map Slot.binding).kerase k = (without Slot.key k ts).map Slot.binding := by
  by_cases hk : k ∈ ts.map Slot.key
  · obtain ⟨t, ht, rfl⟩ := List.mem_map.1 hk
    obtain ⟨l₁, l₂, rfl⟩ := List.append_of_mem ht
    have hkeys := h
    simp only [List.map_append, List.map_cons, List.nodup_middle, List.nodup_cons, List.mem_append, not_or] at hkeys
    have hl₁ : t.key ∉ (l₁.map Slot.binding).keys := by
      rw [List.keys, List.map_map]
      exact hkeys.1.1
    have ht : List.kerase t.key (t.binding :: l₂.map Slot.binding) = l₂.map Slot.binding := List.kerase_cons_eq rfl
    rw [without_middle Slot.key h, List.map_append, List.map_cons, List.kerase_append_right hl₁, ht, List.map_append]
  · have hk' : k ∉ (ts.map Slot.binding).keys := by
      rw [List.keys, List.map_map]
      exact hk
    rw [without_of_notMem Slot.key hk, List.kerase_of_notMem_keys hk']

/-- The iterator of a slot leads to its node, and only to it. -/
theorem eraseNode_eq (h : Represents s ts) {t : Slot E} (ht : t ∈ ts) :
    eraseNode t.id s.list = .ok ((without Slot.key t.key ts).map Slot.node) := by
  obtain ⟨l₁, l₂, rfl⟩ := List.append_of_mem ht
  have hids := h.ids
  simp only [List.map_append, List.map_cons, List.nodup_middle, List.nodup_cons, List.mem_append, not_or] at hids
  have hany : s.list.any (·.id = t.id) = true := by
    rw [h.list, List.any_eq_true]
    exact ⟨t.node, by simp, by simp [Slot.node]⟩
  have hfirst : ∀ n ∈ l₁.map Slot.node, ¬ (decide (n.id = t.id) = true) := by
    intro n hn he
    obtain ⟨u, hu, rfl⟩ := List.mem_map.1 hn
    exact hids.1.1 (List.mem_map.2 ⟨u, hu, of_decide_eq_true he⟩)
  rw [eraseNode, if_pos hany, without_middle Slot.key h.keys_nodup, h.list, List.map_append, List.map_cons,
    List.eraseP_append_right _ hfirst, List.eraseP_cons_of_pos (by simp [Slot.node]), List.map_append]

/-! ## What the calls do to the slots -/

/-- The entry of a key is taken off. -/
theorem removeImpl (h : Represents s ts) (k : CacheKeyType) :
    ∃ s', s.removeImpl k = .ok s' ∧ Represents s' (without Slot.key k ts) ∧
      s'.maxCacheLength = s.maxCacheLength ∧ s'.nextId = s.nextId := by
  rcases h.find k with ⟨hnone, hk⟩ | ⟨t, ht, rfl, hsome⟩
  · refine ⟨s, by simp [LruCacheImpl.removeImpl, hnone], ?_, rfl, rfl⟩
    rwa [without_of_notMem Slot.key hk]
  · have hsub : (without Slot.key t.key ts).Sublist ts := List.filter_sublist
    have htotal := total_without Slot.key Slot.length ht h.keys_nodup
    have hle : Cache.cacheLength t.entry ≤ s.cacheLength := by
      rw [UInt64.le_iff_toNat_le, h.length, htotal]
      exact Nat.le_add_right _ _
    have hrun : s.removeImpl t.key = .ok { s with
        cacheLength := s.cacheLength - Cache.cacheLength t.entry
        underflow := s.underflow || s.cacheLength < Cache.cacheLength t.entry
        list := (without Slot.key t.key ts).map Slot.node
        dict := s.dict.erase t.key } := by
      simp only [LruCacheImpl.removeImpl, hsome, h.eraseNode_eq ht, ok_bind, pure_ok]
    refine ⟨_, hrun, ?_, rfl, rfl⟩
    refine ⟨rfl, ?_, (hsub.map _).nodup h.ids, fun u hu => h.fresh u (hsub.subset hu), ?_, h.memoryError, ?_⟩
    · have hperm := h.dict.kerase (a := t.key) s.dict.nodupKeys
      refine hperm.trans (List.Perm.of_eq ?_)
      exact kerase_bindings t.key h.keys_nodup
    · rw [UInt64.toNat_sub_of_le _ _ hle, h.length, htotal]
      exact Nat.add_sub_cancel_left _ _
    · simp [h.underflow, hle]

/-- The last slots are dropped. -/
theorem drainNumber (h : Represents s ts) (number : Nat) :
    ∃ n s', LruCacheImpl.drainNumber number s = .ok (n, s') ∧ Represents s' (ts.take (ts.length - number)) ∧
      s'.maxCacheLength = s.maxCacheLength := by
  induction number generalizing s ts with
  | zero => exact ⟨0, s, rfl, by simpa using h, rfl⟩
  | succ number ih =>
    rcases List.eq_nil_or_concat ts with rfl | ⟨l, t, rfl⟩
    · have hempty : s.dict.entries = [] := List.length_eq_zero_iff.1 h.size_eq
      exact ⟨0, s, by simp [LruCacheImpl.drainNumber, hempty], by simpa using h, rfl⟩
    · have hne : s.dict.entries.isEmpty = false := by
        rw [List.isEmpty_eq_false_iff, ← List.length_pos_iff, h.size_eq]
        simp
      have hlast : s.list.getLast? = some t.node := by simp [h.list]
      obtain ⟨s₁, hs₁, h₁, hmax₁, -⟩ := h.removeImpl t.key
      rw [List.concat_eq_append] at h ⊢
      have hwithout : without Slot.key t.key (l ++ [t]) = l := by
        have hkeys : ((l ++ t :: []).map Slot.key).Nodup := h.keys_nodup
        simpa using without_middle Slot.key hkeys
      rw [List.concat_eq_append, hwithout] at h₁
      obtain ⟨n, s₂, hs₂, h₂, hmax₂⟩ := ih h₁
      refine ⟨n + 1, s₂, ?_, ?_, hmax₂.trans hmax₁⟩
      · simp [LruCacheImpl.drainNumber, hne, hlast, Slot.node, hs₁, hs₂]
      · have hlen : (l ++ [t]).length - (number + 1) = l.length - number := by simp
        rwa [hlen, List.take_append_of_le_length (by omega)]

/-- The loop of `insert` ends, with the slots that eviction leaves. -/
theorem recallMemory {ts' : List (Slot E)}
    (hevict : Evicts Slot.length batch s.maxCacheLength.toNat ts ts') (h : Represents s ts) :
    ∃ s', EndsWith (fun fuel => LruCacheImpl.recallMemory fuel s) (.ok s') ∧ Represents s' ts' ∧
      s'.maxCacheLength = s.maxCacheLength := by
  generalize hlimit : s.maxCacheLength.toNat = limit at hevict
  induction hevict generalizing s with
  | fits hle =>
    have hfits : ¬ s.maxCacheLength < s.cacheLength := by
      rw [UInt64.lt_iff_toNat_lt, h.length, hlimit]
      omega
    refine ⟨s, ?_, h, rfl⟩
    exact (EndsWith.const (.ok s)).succ fun n => by simp [LruCacheImpl.recallMemory, hfits]
  | batch hlt _ ih =>
    have hover : s.maxCacheLength < s.cacheLength := by
      rwa [UInt64.lt_iff_toNat_lt, h.length, hlimit]
    obtain ⟨n, s₁, hs₁, h₁, hmax₁⟩ := h.drainNumber (batch s.dict.entries.length)
    rw [h.size_eq] at h₁
    obtain ⟨s₂, hs₂, h₂, hmax₂⟩ := ih h₁ (by rw [hmax₁, hlimit])
    refine ⟨s₂, ?_, h₂, hmax₂.trans hmax₁⟩
    exact hs₂.succ fun n => by simp [LruCacheImpl.recallMemory, hover, hs₁]

/-- A fresh slot in front, when the sum of the lengths stays below `2^64`. -/
theorem pushFront (h : Represents s ts) {k : CacheKeyType} (hk : k ∉ ts.map Slot.key) (v : E)
    (hfit : total Slot.length ts + (Cache.cacheLength v).toNat < 2 ^ 64) :
    Represents (s.pushFront k v) (⟨s.nextId, k, v⟩ :: ts) := by
  have hk' : k ∉ s.dict := fun hm => hk ((h.mem_dict k).1 hm)
  refine ⟨?_, ?_, ?_, ?_, ?_, h.memoryError, h.underflow⟩
  · simp [LruCacheImpl.pushFront, h.list, Slot.node]
  · simp only [LruCacheImpl.pushFront, AList.entries_insert_of_notMem hk', List.map_cons]
    exact h.dict.cons _
  · refine List.nodup_cons.2 ⟨fun hm => ?_, h.ids⟩
    obtain ⟨t, ht, hid⟩ := List.mem_map.1 hm
    exact absurd hid (h.fresh t ht).ne
  · intro t ht
    rcases List.mem_cons.1 ht with rfl | ht
    · exact Nat.lt_succ_self _
    · exact (h.fresh t ht).trans (Nat.lt_succ_self _)
  · simp only [LruCacheImpl.pushFront, UInt64.toNat_add, h.length, total, List.map_cons, List.sum_cons, Slot.length]
    rw [Nat.mod_eq_of_lt (by simpa only [total] using hfit)]
    exact Nat.add_comm _ _

end Represents

/-- What a call does to the slots, and what it returns. A new node has an
identity of its own. -/
inductive Effect (limit : Nat) (ts : List (Slot E)) : LruCall E → Option E → List (Slot E) → Prop
  | insert {k : CacheKeyType} {v : E} {id : Nat} {ts' : List (Slot E)} :
      Evicts Slot.length batch limit (⟨id, k, v⟩ :: without Slot.key k ts) ts' → Effect limit ts (.insert k v) none ts'
  | absent {k : CacheKeyType} {now : UInt64} : k ∉ ts.map Slot.key → Effect limit ts (.lookup k now) none ts
  | expired {t : Slot E} {now : UInt64} : t ∈ ts → cacheExpire t.entry ≤ now →
      Effect limit ts (.lookup t.key now) none (without Slot.key t.key ts)
  | hit {t : Slot E} {now : UInt64} {id : Nat} : t ∈ ts → now < cacheExpire t.entry →
      Effect limit ts (.lookup t.key now) (createCopy t.entry) (⟨id, t.key, t.entry⟩ :: without Slot.key t.key ts)
  | remove {k : CacheKeyType} : Effect limit ts (.remove k) none (without Slot.key k ts)

/-- The sum of the lengths in a dictionary. -/
def entriesLength (dict : Dict E) : Nat := (dict.entries.map fun b => (Cache.cacheLength b.2.2).toNat).sum

/-- The lengths an insertion leaves in the dictionary, before memory is
recalled, have a sum that fits in 64 bits. -/
def SumsFit (s : LruCacheImpl E) : LruCall E → Prop
  | .insert key value => entriesLength (s.dict.erase key) + (Cache.cacheLength value).toNat < 2 ^ 64
  | _ => True

instance (s : LruCacheImpl E) : (c : LruCall E) → Decidable (SumsFit s c)
  | .insert key value =>
    inferInstanceAs (Decidable (entriesLength (s.dict.erase key) + (Cache.cacheLength value).toNat < 2 ^ 64))
  | .lookup _ _ | .remove _ => isTrue trivial

namespace Represents

theorem entriesLength_eq (h : Represents s ts) : entriesLength s.dict = total Slot.length ts := by
  rw [entriesLength, (h.dict.map _).sum_eq, List.map_map]
  rfl

theorem insert (h : Represents s ts) {k : CacheKeyType} {v : E} (hfit : SumsFit s (.insert k v)) :
    ∃ s' ts', EndsWith (fun fuel => s.insert fuel k v) (.ok s') ∧
      Effect s.maxCacheLength.toNat ts (.insert k v) none ts' ∧
      Represents s' ts' ∧ s'.maxCacheLength = s.maxCacheLength := by
  obtain ⟨s₁, hs₁, h₁, hmax₁, hid₁⟩ := h.removeImpl k
  have hk : k ∉ (without Slot.key k ts).map Slot.key := by
    rw [keys_without]
    simp
  have htotal : total Slot.length (without Slot.key k ts) + (Cache.cacheLength v).toNat < 2 ^ 64 := by
    have hperm : (s.dict.erase k).entries.Perm ((without Slot.key k ts).map Slot.binding) :=
      (h.dict.kerase s.dict.nodupKeys).trans (.of_eq (kerase_bindings k h.keys_nodup))
    have hsum : entriesLength (s.dict.erase k) = total Slot.length (without Slot.key k ts) := by
      rw [entriesLength, (hperm.map _).sum_eq, List.map_map]
      rfl
    rwa [← hsum]
  have h₂ := h₁.pushFront hk v htotal
  have hbatch : ∀ n, 0 < batch n := fun n => by simp [batch]
  obtain ⟨ts', hevict⟩ := exists_evicts Slot.length s.maxCacheLength.toNat hbatch
    (⟨s₁.nextId, k, v⟩ :: without Slot.key k ts)
  have hmax : (s₁.pushFront k v).maxCacheLength = s.maxCacheLength := hmax₁
  obtain ⟨s₃, hs₃, h₃, hmax₃⟩ := h₂.recallMemory (hmax ▸ hevict)
  refine ⟨s₃, ts', ?_, .insert hevict, h₃, hmax₃.trans hmax⟩
  simpa only [LruCacheImpl.insert, hs₁, ok_bind] using hs₃

/-- A found entry that is not expired goes to the front. -/
theorem touch (h : Represents s ts) {t : Slot E} (ht : t ∈ ts) :
    ∃ l, eraseNode t.id s.list = .ok l ∧
      Represents { s with
          list := ⟨s.nextId, t.key⟩ :: l
          dict := s.dict.insert t.key (s.nextId, t.entry)
          nextId := s.nextId + 1 } (⟨s.nextId, t.key, t.entry⟩ :: without Slot.key t.key ts) := by
  have hsub : (without Slot.key t.key ts).Sublist ts := List.filter_sublist
  refine ⟨_, h.eraseNode_eq ht, ⟨?_, ?_, ?_, ?_, ?_, h.memoryError, h.underflow⟩⟩
  · simp [Slot.node]
  · rw [AList.entries_insert, List.map_cons]
    exact ((h.dict.kerase s.dict.nodupKeys).trans (.of_eq (kerase_bindings t.key h.keys_nodup))).cons _
  · refine List.nodup_cons.2 ⟨fun hm => ?_, (hsub.map _).nodup h.ids⟩
    obtain ⟨u, hu, hid⟩ := List.mem_map.1 hm
    exact absurd hid (h.fresh u (hsub.subset hu)).ne
  · intro u hu
    rcases List.mem_cons.1 hu with rfl | hu
    · exact Nat.lt_succ_self _
    · exact (h.fresh u (hsub.subset hu)).trans (Nat.lt_succ_self _)
  · rw [h.length, total_without Slot.key Slot.length ht h.keys_nodup]
    rfl

theorem lookup (h : Represents s ts) (k : CacheKeyType) (now : UInt64) :
    ∃ out s' ts', s.lookup k now = .ok (out, s') ∧ Effect s.maxCacheLength.toNat ts (.lookup k now) out ts' ∧
      Represents s' ts' ∧ s'.maxCacheLength = s.maxCacheLength := by
  simp only [LruCacheImpl.lookup, h.checkMemory_eq]
  rcases h.find k with ⟨hnone, hk⟩ | ⟨t, ht, rfl, hsome⟩
  · exact ⟨none, s, ts, by rw [hnone], .absent hk, h, rfl⟩
  · simp only [hsome]
    by_cases hexp : cacheExpire t.entry ≤ now
    · obtain ⟨s₁, hs₁, h₁, hmax₁, -⟩ := h.removeImpl t.key
      exact ⟨none, s₁, _, by simp [hexp, hs₁], .expired ht hexp, h₁, hmax₁⟩
    · have hlive := UInt64.not_le.1 hexp
      by_cases hfront : s.list.head?.map (·.id) = some t.id
      · -- the node is the first one already, so its slot is the first slot
        obtain ⟨u, us, rfl⟩ : ∃ u us, ts = u :: us := by
          rcases ts with _ | ⟨u, us⟩
          · cases ht
          · exact ⟨u, us, rfl⟩
        have hid : u.id = t.id := by simpa [h.list, Slot.node] using hfront
        obtain rfl : t = u := List.inj_on_of_nodup_map h.ids ht List.mem_cons_self hid.symm
        refine ⟨createCopy t.entry, s, t :: us, by simp [hexp, hfront], ?_, h, rfl⟩
        have hkeys : (([] ++ t :: us).map Slot.key).Nodup := h.keys_nodup
        have hwithout : without Slot.key t.key (t :: us) = us := without_middle Slot.key hkeys
        have heffect : Effect s.maxCacheLength.toNat (t :: us) (.lookup t.key now) (createCopy t.entry)
            (⟨t.id, t.key, t.entry⟩ :: without Slot.key t.key (t :: us)) := .hit ht hlive
        rwa [hwithout] at heffect
      · obtain ⟨l, hl, h₁⟩ := h.touch ht
        exact ⟨createCopy t.entry, _, _, by simp [hexp, hfront, hl], .hit ht hlive, h₁, rfl⟩

/-- Every call returns, and does one of the effects. -/
theorem call (h : Represents s ts) {c : LruCall E} (hfit : SumsFit s c) :
    ∃ out s' ts', EndsWith (fun fuel => s.call fuel c) (.ok (out, s')) ∧ Effect s.maxCacheLength.toNat ts c out ts' ∧
      Represents s' ts' ∧ s'.maxCacheLength = s.maxCacheLength := by
  cases c with
  | insert k v =>
    obtain ⟨s', ts', hs', heff, h', hmax⟩ := h.insert hfit
    refine ⟨none, s', ts', ?_, heff, h', hmax⟩
    exact hs'.bind (k := fun _ s' => .ok (none, s')) (EndsWith.const _)
  | lookup k now =>
    obtain ⟨out, s', ts', hs', heff, h', hmax⟩ := h.lookup k now
    refine ⟨out, s', ts', ?_, heff, h', hmax⟩
    simp only [LruCacheImpl.call, hs']
    exact EndsWith.const _
  | remove k =>
    obtain ⟨s', hs', h', hmax, -⟩ := h.removeImpl k
    refine ⟨none, s', _, ?_, .remove, h', hmax⟩
    simp only [LruCacheImpl.call, LruCacheImpl.remove, hs', ok_bind, pure_ok]
    exact EndsWith.const _

end Represents

theorem Effect.total_le {limit : Nat} {c : LruCall E} {out : Option E} {ts' : List (Slot E)}
    (h : Effect limit ts c out ts') (hkeys : (ts.map Slot.key).Nodup) (hle : total Slot.length ts ≤ limit) :
    total Slot.length ts' ≤ limit := by
  have hwithout : ∀ k, total Slot.length (without Slot.key k ts) ≤ total Slot.length ts :=
    fun k => (List.filter_sublist.map _).sum_le_sum fun _ _ => Nat.zero_le _
  cases h with
  | insert hevict => exact hevict.total_le
  | absent => exact hle
  | expired | remove => exact (hwithout _).trans hle
  | hit ht _ =>
    rw [total_without Slot.key Slot.length ht hkeys] at hle
    exact hle

end Slots

/-! ## Runs -/

section Runs
variable {E : Type} [CacheEntry E]

/-- More fuel does not change how the loop ends. -/
theorem recallMemory_ends {s s' : LruCacheImpl E} {fuel : Nat} (h : recallMemory fuel s = .ok s') :
    EndsWith (fun n => recallMemory n s) (.ok s') := by
  induction fuel generalizing s with
  | zero => cases h
  | succ fuel ih =>
    unfold recallMemory at h
    split_ifs at h with hover
    · obtain ⟨⟨m, s₁⟩, hs₁, h⟩ := bind_eq_ok h
      exact (ih h).succ fun n => by simp [recallMemory, hover, hs₁]
    · cases h
      exact (EndsWith.const (.ok s')).succ fun n => by simp [recallMemory, hover]

theorem call_ends {s : LruCacheImpl E} {c : LruCall E} {fuel : Nat} {r : Option E × LruCacheImpl E}
    (h : s.call fuel c = .ok r) : EndsWith (fun n => s.call n c) (.ok r) := by
  cases c with
  | insert k v =>
    obtain ⟨s', hs', h⟩ := bind_eq_ok h
    obtain ⟨s₁, hs₁, hs'⟩ := bind_eq_ok hs'
    cases h
    have hinsert : EndsWith (fun n => s.insert n k v) (.ok s') := by
      simpa only [LruCacheImpl.insert, hs₁, ok_bind] using recallMemory_ends hs'
    exact hinsert.bind (k := fun _ s' => .ok (none, s')) (EndsWith.const _)
  | lookup k now | remove k =>
    rw [← h]
    exact EndsWith.const _

/-- The slots of a state that a run reaches. -/
theorem exists_represents {max : UInt64} {fuel : Nat} {s : LruCacheImpl E}
    (h : Reach (step fuel) SumsFit (new max) s) :
    s.maxCacheLength = max ∧ ∃ ts, Represents s ts ∧ total Slot.length ts ≤ max.toNat := by
  refine h.invariant (fun s => s.maxCacheLength = max ∧ ∃ ts, Represents s ts ∧ total Slot.length ts ≤ max.toNat)
    ⟨rfl, [], represents_new max, Nat.zero_le _⟩ ?_
  rintro s c s' ⟨hmax, ts, hrep, hle⟩ hfit hstep
  obtain ⟨out, s₁, ts', hends, heff, hrep', hmax'⟩ := hrep.call hfit
  obtain ⟨⟨out', s₂⟩, hcall, hs₂⟩ := bind_eq_ok hstep
  cases hs₂
  cases (call_ends hcall).unique hends
  refine ⟨hmax'.trans hmax, ts', hrep', ?_⟩
  rw [hmax] at heff
  exact heff.total_le hrep.keys_nodup hle

/-- The list, the dictionary and the counter agree. -/
structure Consistent (s : LruCacheImpl E) : Prop where
  nodup : (s.list.map (·.key)).Nodup
  keys : ∀ k, k ∈ s.list.map (·.key) ↔ k ∈ s.dict
  /-- The iterator of a key designates one node, and that node holds the key. -/
  iterators : ∀ k it entry, s.dict.lookup k = some (it, entry) → s.list.filter (·.id = it) = [⟨it, k⟩]
  length : s.cacheLength.toNat = entriesLength s.dict
  bounded : s.cacheLength ≤ s.maxCacheLength
  underflow : s.underflow = false

theorem Represents.consistent {s : LruCacheImpl E} {ts : List (Slot E)} (h : Represents s ts)
    (hle : total Slot.length ts ≤ s.maxCacheLength.toNat) : s.Consistent := by
  have hkeys : s.list.map (·.key) = ts.map Slot.key := by
    rw [h.list, List.map_map]
    rfl
  refine ⟨?_, ?_, ?_, ?_, ?_, h.underflow⟩
  · rw [hkeys]
    exact h.keys_nodup
  · intro k
    rw [hkeys, h.mem_dict]
  · intro k it entry hlookup
    rcases h.find k with ⟨hnone, -⟩ | ⟨t, ht, rfl, hsome⟩
    · rw [hnone] at hlookup
      cases hlookup
    · rw [hsome] at hlookup
      cases hlookup
      obtain ⟨l₁, l₂, rfl⟩ := List.append_of_mem ht
      have hids := h.ids
      simp only [List.map_append, List.map_cons, List.nodup_middle, List.nodup_cons, List.mem_append, not_or] at hids
      have hother : ∀ l : List (Slot E), t.id ∉ l.map Slot.id → (l.map Slot.node).filter (·.id = t.id) = [] := by
        intro l hl
        simp only [List.filter_eq_nil_iff, List.mem_map, decide_eq_true_eq]
        rintro _ ⟨u, hu, rfl⟩ hut
        exact hl (List.mem_map.2 ⟨u, hu, hut⟩)
      rw [h.list, List.map_append, List.map_cons, List.filter_append, List.filter_cons_of_pos (by simp [Slot.node]),
        hother l₁ hids.1.1, hother l₂ hids.1.2]
      rfl
  · rw [h.length, h.entriesLength_eq]
  · rwa [UInt64.le_iff_toNat_le, h.length]

/-- After any calls: the structures agree, the counter is within its limit,
`checkMemory` has never cleared anything and will not, and whatever is called
next returns. -/
theorem keeps_consistent {max : UInt64} {fuel : Nat} {s : LruCacheImpl E}
    (h : Reach (step fuel) SumsFit (new max) s) :
    s.Consistent ∧ s.maxCacheLength = max ∧ s.memoryError = false ∧ s.checkMemory = s ∧
      ∀ c, SumsFit s c → ∃ s', EndsWith (fun n => step n s c) (.ok s') ∧ s'.Consistent := by
  obtain ⟨hmax, ts, hrep, hle⟩ := exists_represents h
  refine ⟨hrep.consistent (hmax ▸ hle), hmax, hrep.memoryError, hrep.checkMemory_eq, fun c hfit => ?_⟩
  obtain ⟨out, s', ts', hends, heff, hrep', hmax'⟩ := hrep.call hfit
  have hstep : EndsWith (fun n => step n s c) (.ok s') :=
    hends.bind (k := fun _ (r : Option E × LruCacheImpl E) => .ok r.2) (EndsWith.const _)
  refine ⟨s', hstep, hrep'.consistent ?_⟩
  rw [hmax']
  exact heff.total_le hrep.keys_nodup (hmax ▸ hle)

end Runs

/-- An entry of which only the length and the expiry time matter. -/
structure Stamp where
  length : UInt64
  expire : UInt64
  deriving DecidableEq, Repr

instance : CacheEntry Stamp := ⟨Stamp.length, Stamp.expire, some⟩

/-- Two entries that do not fit together. -/
theorem crowded_consistent :
    ∃ s : LruCacheImpl Stamp, Reach (step 3) SumsFit (new 10) s ∧ s.list.map (·.key) = [ascii "b"] ∧
      s.cacheLength = 6 ∧ s.Consistent := by
  have h₁ := reach_start (step 3) SumsFit (new 10 : LruCacheImpl Stamp)
  have h₂ := h₁.next (e := .insert (ascii "a") ⟨6, 100⟩) (by decide) rfl
  have h₃ := h₂.next (e := .insert (ascii "b") ⟨6, 100⟩) (by decide) rfl
  exact ⟨_, h₃, rfl, rfl, (keeps_consistent h₃).1⟩

end LruCacheImpl

end EnvoyProxy.Cache
