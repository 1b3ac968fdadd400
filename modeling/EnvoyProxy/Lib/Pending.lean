import Mathlib.Data.List.Nodup
import Mathlib.Data.List.Count
/-!
# Callbacks that wait

A table keeps callbacks under keys until they are called. The callbacks are
numbered in the order they come; a table is balanced when each of them either
waits under one key or has been called once.
-/

namespace EnvoyProxy.Pending

variable {K A : Type}

structure Table (K A : Type) where
  waiting : List (K × Nat)
  /-- The callbacks that have been called, with what they got. -/
  answers : List (Nat × A)
  /-- How many have come. -/
  issued : Nat

/-- The entries of other keys. -/
def others [DecidableEq K] (waiting : List (K × Nat)) (k : K) : List (K × Nat) := waiting.filter fun e => e.1 ≠ k

namespace Table

def register [DecidableEq K] (t : Table K A) (k : K) : Table K A :=
  { t with waiting := others t.waiting k ++ [(k, t.issued)], issued := t.issued + 1 }

def answer [DecidableEq K] (t : Table K A) (k : K) (n : Nat) (a : A) : Table K A :=
  { t with waiting := others t.waiting k, answers := t.answers ++ [(n, a)] }

/-- All get the same. -/
def drain (t : Table K A) (a : A) : Table K A :=
  { t with waiting := [], answers := t.answers ++ t.waiting.map fun e => (e.2, a) }

/-- How often a callback has been called. -/
def called (t : Table K A) (n : Nat) : Nat := t.answers.countP (·.1 = n)

structure Balanced (t : Table K A) : Prop where
  keys : (t.waiting.map Prod.fst).Nodup
  once : ∀ n, (t.waiting.map Prod.snd).count n + t.called n = if n < t.issued then 1 else 0

end Table

section
variable {waiting : List (K × Nat)} {k : K}

/-- Under a key there is at most one callback. -/
theorem eq_of_mem (h : (waiting.map Prod.fst).Nodup) {n m : Nat} (hn : (k, n) ∈ waiting)
    (hm : (k, m) ∈ waiting) : n = m :=
  congrArg Prod.snd (List.inj_on_of_nodup_map h hn hm rfl)

variable [DecidableEq K]

theorem lookup_eq_some_iff (h : (waiting.map Prod.fst).Nodup) {n : Nat} :
    waiting.lookup k = some n ↔ (k, n) ∈ waiting := by
  rw [List.lookup_eq_some_iff]
  constructor
  · rintro ⟨l₁, l₂, rfl, -⟩
    exact List.mem_append_right _ List.mem_cons_self
  · intro hmem
    obtain ⟨l₁, l₂, rfl⟩ := List.append_of_mem hmem
    refine ⟨l₁, l₂, rfl, fun p hp => ?_⟩
    rw [List.map_append, List.nodup_append] at h
    exact bne_iff_ne.2 (h.2.2 p.1 (List.mem_map_of_mem hp) k (by simp)).symm

theorem others_of_not_mem (h : k ∉ waiting.map Prod.fst) : others waiting k = waiting := by
  apply List.filter_eq_self.2
  intro e he
  simp only [ne_eq, decide_eq_true_eq]
  rintro rfl
  exact h (List.mem_map_of_mem he)

theorem mem_others {e : K × Nat} : e ∈ others waiting k ↔ e ∈ waiting ∧ e.1 ≠ k := by simp [others]

theorem nodup_others (h : (waiting.map Prod.fst).Nodup) (k : K) : ((others waiting k).map Prod.fst).Nodup :=
  h.sublist (List.filter_sublist.map Prod.fst)

/-- Taking out a key takes out its callback. -/
theorem count_others (h : (waiting.map Prod.fst).Nodup) {n : Nat} (hn : (k, n) ∈ waiting) (m : Nat) :
    (waiting.map Prod.snd).count m = ((others waiting k).map Prod.snd).count m + if n = m then 1 else 0 := by
  induction waiting with
  | nil => cases hn
  | cons e rest ih =>
    obtain ⟨hnot, hrest⟩ := List.nodup_cons.1 h
    rcases List.mem_cons.1 hn with rfl | hmem
    · have hothers : others ((k, n) :: rest) k = rest := by
        rw [others, List.filter_cons_of_neg (by simp)]
        exact others_of_not_mem hnot
      rw [hothers, List.map_cons, List.count_cons]
      simp
    · have hne : e.1 ≠ k := by
        rintro rfl
        exact hnot (List.mem_map.2 ⟨_, hmem, rfl⟩)
      have hothers : others (e :: rest) k = e :: others rest k := List.filter_cons_of_pos (by simpa using hne)
      rw [hothers, List.map_cons, List.map_cons, List.count_cons, List.count_cons, ih hrest hmem]
      omega

end

namespace Table
variable {t : Table K A} (h : t.Balanced)
include h

/-- Nothing is called twice. -/
theorem Balanced.called_le (n : Nat) : t.called n ≤ 1 := by
  have honce := h.once n
  split_ifs at honce <;> omega

/-- What does not wait any more has been called. -/
theorem Balanced.called_eq {n : Nat} (hn : n < t.issued) (hnot : n ∉ t.waiting.map Prod.snd) : t.called n = 1 := by
  have honce := h.once n
  rw [if_pos hn, List.count_eq_zero.2 hnot] at honce
  omega

theorem Balanced.drain (a : A) : (t.drain a).Balanced := by
  refine ⟨List.nodup_nil, fun n => ?_⟩
  have hall : (t.waiting.map fun e => (e.2, a)).countP (·.1 = n) = (t.waiting.map Prod.snd).count n := by
    rw [List.countP_map, List.count, List.countP_map]
    apply List.countP_congr
    intro e _
    simp
  show 0 + (t.answers ++ t.waiting.map fun e => (e.2, a)).countP (·.1 = n) = _
  rw [List.countP_append, hall, Nat.zero_add, Nat.add_comm]
  exact h.once n

variable [DecidableEq K]

theorem Balanced.register {k : K} (hk : k ∉ t.waiting.map Prod.fst) : (t.register k).Balanced := by
  have hothers := others_of_not_mem hk
  refine ⟨?_, fun n => ?_⟩
  · show ((others t.waiting k ++ [(k, t.issued)]).map Prod.fst).Nodup
    rw [hothers, List.map_append, List.nodup_append]
    refine ⟨h.keys, by simp, ?_⟩
    simp only [List.map_cons, List.map_nil, List.mem_singleton]
    rintro a ha b rfl rfl
    exact hk ha
  · show ((others t.waiting k ++ [(k, t.issued)]).map Prod.snd).count n + t.called n = if n <
      t.issued + 1 then 1 else 0
    have honce := h.once n
    rw [hothers, List.map_append, List.count_append, List.map_cons, List.map_nil, List.count_singleton]
    by_cases hn : t.issued = n
    · subst hn
      simp at honce ⊢
      omega
    · have hlt : n < t.issued + 1 ↔ n < t.issued := by omega
      simp only [hlt, beq_iff_eq, hn, if_false]
      omega

theorem Balanced.answer {k : K} {n : Nat} (hn : (k, n) ∈ t.waiting) (a : A) : (t.answer k n a).Balanced := by
  refine ⟨nodup_others h.keys k, fun m => ?_⟩
  have hcalled : (t.answer k n a).called m = t.called m + if n = m then 1 else 0 := by
    show (t.answers ++ [(n, a)]).countP (·.1 = m) = _
    rw [List.countP_append, List.countP_singleton]
    simp [called]
  have honce := h.once m
  rw [count_others h.keys hn m] at honce
  show ((others t.waiting k).map Prod.snd).count m + _ = if m < t.issued then 1 else 0
  rw [hcalled]
  omega

end Table

end EnvoyProxy.Pending
