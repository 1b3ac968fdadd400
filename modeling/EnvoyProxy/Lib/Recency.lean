import Mathlib
/-!
# Recency lists

Weighted items with keys, the most recently used first. When the weights
exceed a limit, batches are cut off the old end until they fit; the size of
the next batch depends on how many items are left. `evict_head` says when the
newest item outlives its own insertion: a batch never takes the last two
items at once, so the newest one goes only if it does not fit alone.
-/

namespace EnvoyProxy.Recency

variable {α κ : Type}

def total (weight : α → Nat) (l : List α) : Nat := (l.map weight).sum

section Keys
variable [DecidableEq κ] (key : α → κ)

/-- The items of other keys. -/
def without (k : κ) (l : List α) : List α := l.filter fun a => key a ≠ k

theorem without_of_notMem {k : κ} {l : List α} (h : k ∉ l.map key) : without key k l = l := by
  apply List.filter_eq_self.2
  intro a ha
  simp only [decide_eq_true_eq]
  rintro rfl
  exact h (List.mem_map_of_mem ha)

theorem keys_without (k : κ) (l : List α) : (without key k l).map key = (l.map key).filter (· ≠ k) := by
  simp only [without, List.filter_map, Function.comp_def]

/-- With distinct keys, the item of a key stands in one place. -/
theorem without_middle {a : α} {l₁ l₂ : List α} (h : ((l₁ ++ a :: l₂).map key).Nodup) :
    without key (key a) (l₁ ++ a :: l₂) = l₁ ++ l₂ := by
  simp only [List.map_append, List.map_cons, List.nodup_middle, List.nodup_cons, List.mem_append, not_or] at h
  obtain ⟨⟨h₁, h₂⟩, -⟩ := h
  have h₁' : without key (key a) l₁ = l₁ := without_of_notMem key h₁
  have h₂' : without key (key a) l₂ = l₂ := without_of_notMem key h₂
  unfold without at h₁' h₂' ⊢
  rw [List.filter_append, List.filter_cons_of_neg (by simp), h₁', h₂']

/-- The weight of an item and of the items of other keys. -/
theorem total_without (weight : α → Nat) {a : α} {l : List α} (ha : a ∈ l) (h : (l.map key).Nodup) :
    total weight l = weight a + total weight (without key (key a) l) := by
  obtain ⟨l₁, l₂, rfl⟩ := List.append_of_mem ha
  rw [without_middle key h]
  simp only [total, List.map_append, List.map_cons, List.sum_append, List.sum_cons]
  omega

end Keys

/-! ## Eviction -/

section Eviction
variable (weight : α → Nat) (batch : Nat → Nat) (limit : Nat)

/-- The list without its next batch. -/
def cut (l : List α) : List α := l.take (l.length - batch l.length)

/-- Batches are cut off, one after the other, until the rest fits. -/
inductive Evicts : List α → List α → Prop
  | fits {l : List α} : total weight l ≤ limit → Evicts l l
  | batch {l l' : List α} : limit < total weight l → Evicts (cut batch l) l' → Evicts l l'

variable {weight batch limit}

theorem ne_nil_of_total {l : List α} (h : limit < total weight l) : l ≠ [] := by
  rintro rfl
  simp [total] at h

theorem cut_length_lt (hbatch : ∀ n, 0 < batch n) {l : List α} (h : l ≠ []) :
    (cut batch l).length < l.length := by
  have hpos := List.length_pos_iff.2 h
  have hb := hbatch l.length
  simp only [cut, List.length_take]
  omega

/-- Eviction ends. -/
theorem exists_evicts (weight : α → Nat) (limit : Nat) (hbatch : ∀ n, 0 < batch n) (l : List α) :
    ∃ l', Evicts weight batch limit l l' := by
  induction hn : l.length using Nat.strong_induction_on generalizing l with
  | _ n ih =>
    by_cases h : total weight l ≤ limit
    · exact ⟨l, .fits h⟩
    · have hlt := not_le.1 h
      have hcut := cut_length_lt hbatch (ne_nil_of_total hlt)
      obtain ⟨l', hl'⟩ := ih _ (hn ▸ hcut) (cut batch l) rfl
      exact ⟨l', .batch hlt hl'⟩

namespace Evicts

/-- What is evicted is the least recently used end. -/
theorem isPrefix {l l' : List α} (h : Evicts weight batch limit l l') : l' <+: l := by
  induction h with
  | fits _ => exact List.prefix_rfl
  | batch _ _ ih => exact ih.trans (List.take_prefix _ _)

theorem total_le {l l' : List α} (h : Evicts weight batch limit l l') : total weight l' ≤ limit := by
  induction h with
  | fits h => exact h
  | batch _ _ ih => exact ih

/-- Eviction sees items only through their weights. -/
theorem map {β : Type} {weight' : β → Nat} (f : α → β) {l l' : List α} (h : Evicts weight batch limit l l')
    (hw : ∀ a ∈ l, weight' (f a) = weight a) : Evicts weight' batch limit (l.map f) (l'.map f) := by
  have htotal : ∀ l : List α, (∀ a ∈ l, weight' (f a) = weight a) → total weight' (l.map f) = total weight l := by
    intro l hw
    rw [total, total, List.map_map]
    exact congrArg List.sum (List.map_congr_left hw)
  induction h with
  | fits h => exact .fits (by rwa [htotal _ hw])
  | @batch l l' hlt _ ih =>
    have hcut : (cut batch l).map f = cut batch (l.map f) := by simp only [cut, List.map_take, List.length_map]
    refine .batch (by rwa [htotal _ hw]) ?_
    rw [← hcut]
    exact ih fun a ha => hw a (List.mem_of_mem_take ha)

/-- The newest item stays exactly when it fits alone. -/
theorem head_mem_iff (hkeep : ∀ n, 2 ≤ n → batch n < n) {a : α} {l l' : List α}
    (h : Evicts weight batch limit (a :: l) l') : a ∈ l' ↔ weight a ≤ limit := by
  constructor
  · intro ha
    exact (List.single_le_sum (fun _ _ => Nat.zero_le _) _ (List.mem_map_of_mem ha)).trans h.total_le
  · intro hle
    generalize hx : a :: l = x at h
    induction h generalizing l with
    | fits _ => subst hx; exact List.mem_cons_self
    | batch hlt _ ih =>
      subst hx
      rcases l with _ | ⟨b, l⟩
      · simp only [total, List.map_cons, List.map_nil, List.sum_cons, List.sum_nil] at hlt
        omega
      · -- at least two items are left, and the batch leaves the first of them
        have hb := hkeep (a :: b :: l).length (by simp)
        obtain ⟨m, hm⟩ : ∃ m, (a :: b :: l).length - batch (a :: b :: l).length = m + 1 :=
          ⟨(a :: b :: l).length - batch (a :: b :: l).length - 1, by omega⟩
        have hcut : a :: (b :: l).take m = cut batch (a :: b :: l) := by
          rw [cut, hm, List.take_succ_cons]
        exact ih hcut

end Evicts

end Eviction

end EnvoyProxy.Recency
