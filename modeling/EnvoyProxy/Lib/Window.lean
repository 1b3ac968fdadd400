import Mathlib.Algebra.BigOperators.Group.List.Basic
import Mathlib.Algebra.Order.Group.Int
import Mathlib.Data.List.Induction
import Mathlib.Data.List.Nodup
/-!
# Sums over a moving window

Amounts arrive at ticks, in any order of the ticks. They are kept in one bucket
for each tick, and old buckets are dropped on the way (`Buckets`). The amounts
may be of a type whose addition rounds: `Groups` says which additions a bucket
has made, in their order. `Exact` says which amounts are added without rounding,
and then the buckets give the plain sums (`Groups.exact`).
-/

namespace EnvoyProxy.Window

variable {M : Type}

/-- One amount for each tick, in the order of the ticks. -/
abbrev Buckets (M : Type) := List (Int × M)

/-- Drops the buckets before a tick. -/
def Buckets.prune (tick : Int) (b : Buckets M) : Buckets M := b.filter (tick ≤ ·.1)

/-- What stands after a tick, in its order. -/
def newer (tick : Int) (amounts : List (Int × M)) : List (Int × M) := amounts.filter (tick < ·.1)

theorem newer_cons (tick : Int) (p : Int × M) (l : List (Int × M)) :
    newer tick (p :: l) = if tick < p.1 then p :: newer tick l else newer tick l := by
  unfold newer
  by_cases h : tick < p.1 <;> simp [h]

theorem mem_newer {tick : Int} {p : Int × M} {l : List (Int × M)} : p ∈ newer tick l ↔ p ∈ l ∧ tick < p.1 := by
  simp [newer, List.mem_filter]

/-- Buckets that a later sum does not count may go. -/
theorem newer_prune {tick t : Int} (h : t ≤ tick) (b : Buckets M) : newer tick (b.prune t) = newer tick b := by
  unfold newer Buckets.prune
  rw [List.filter_filter]
  apply List.filter_congr
  intro p _
  by_cases hp : tick < p.1
  · have hkept : t ≤ p.1 := by omega
    simp [hp, hkept]
  · simp [hp]

/-- The amounts of a tick. -/
def amountsAt (amounts : List (Int × M)) (tick : Int) : List M := (amounts.filter (·.1 = tick)).map (·.2)

theorem amountsAt_append (l l' : List (Int × M)) (tick : Int) : amountsAt (l ++ l') tick = amountsAt l tick ++ amountsAt l' tick := by
  simp [amountsAt]

theorem amountsAt_eq_nil {amounts : List (Int × M)} {tick : Int} (h : tick ∉ amounts.map (·.1)) : amountsAt amounts tick = [] := by
  unfold amountsAt
  rw [List.map_eq_nil_iff, List.filter_eq_nil_iff]
  intro a ha hat
  exact h (List.mem_map.2 ⟨a, ha, by simpa using hat⟩)

theorem amountsAt_newer {tick t : Int} (h : tick < t) (amounts : List (Int × M)) :
    amountsAt (newer tick amounts) t = amountsAt amounts t := by
  unfold amountsAt newer
  rw [List.filter_filter]
  congr 1
  apply List.filter_congr
  intro a _
  by_cases hat : a.1 = t
  · simp [hat, h]
  · simp [hat]

theorem amountsAt_map {N : Type} (f : M → N) (amounts : List (Int × M)) (t : Int) :
    amountsAt (amounts.map fun a => (a.1, f a.2)) t = (amountsAt amounts t).map f := by
  simp [amountsAt, List.filter_map, Function.comp_def]

section Adding
variable [Zero M] [Add M]

/-- One addition after the other, from zero on. -/
def addUp (l : List M) : M := l.foldl (· + ·) 0

theorem addUp_snoc (l : List M) (x : M) : addUp (l ++ [x]) = addUp l + x := by
  simp [addUp, List.foldl_append]

/-- The buckets after a tick, added up one by one. -/
def totalAfter (tick : Int) (b : Buckets M) : M := addUp ((newer tick b).map (·.2))

/-- Adds to the bucket of a tick, which is made if it is not there. -/
def Buckets.add (tick : Int) (amount : M) : Buckets M → Buckets M
  | [] => [(tick, 0 + amount)]
  | (k, x) :: rest =>
    if tick < k then (tick, 0 + amount) :: (k, x) :: rest
    else if k = tick then (k, x + amount) :: rest
    else (k, x) :: Buckets.add tick amount rest

theorem Buckets.add_cons (tick k : Int) (amount x : M) (b : Buckets M) :
    Buckets.add tick amount ((k, x) :: b) =
      if tick < k then (tick, 0 + amount) :: (k, x) :: b
      else if k = tick then (k, x + amount) :: b else (k, x) :: Buckets.add tick amount b := rfl

/-- Adding to an old bucket changes no newer one; the newer ones alone decide
what adding to one of them gives. -/
theorem newer_add (tick t : Int) (amount : M) (b : Buckets M) :
    newer tick (b.add t amount) = if tick < t then Buckets.add t amount (newer tick b) else newer tick b := by
  induction b with
  | nil => rw [Buckets.add, newer_cons]; rfl
  | cons p b ih =>
    obtain ⟨k, x⟩ := p
    rw [Buckets.add_cons, newer_cons]
    by_cases hk : tick < k
    · -- the first bucket is newer, so both sides meet it
      rw [if_pos hk, Buckets.add_cons]
      by_cases hlt : t < k
      · rw [if_pos hlt, if_pos hlt, newer_cons, newer_cons, if_pos hk]
      · have ht : tick < t := by omega
        rw [if_neg hlt, if_neg hlt, if_pos ht]
        by_cases heq : k = t
        · rw [if_pos heq, if_pos heq, newer_cons, if_pos hk]
        · rw [if_neg heq, if_neg heq, newer_cons, if_pos hk, ih, if_pos ht]
    · rw [if_neg hk]
      by_cases hlt : t < k
      · have ht : ¬ tick < t := by omega
        rw [if_pos hlt, newer_cons, newer_cons, if_neg ht, if_neg hk, if_neg ht]
      · rw [if_neg hlt]
        by_cases heq : k = t
        · have ht : ¬ tick < t := by omega
          rw [if_pos heq, newer_cons, if_neg hk, if_neg ht]
        · rw [if_neg heq, newer_cons, if_neg hk, ih]

theorem mem_ticks_add {tick t : Int} {amount : M} {b : Buckets M} :
    tick ∈ (b.add t amount).map (·.1) ↔ tick = t ∨ tick ∈ b.map (·.1) := by
  induction b with
  | nil => simp [Buckets.add]
  | cons p b ih =>
    obtain ⟨k, x⟩ := p
    rw [Buckets.add_cons]
    split_ifs with hlt heq
    · simp
    · subst heq
      simp
    · simp only [List.map_cons, List.mem_cons, ih]
      tauto

theorem ascending_add {t : Int} {amount : M} {b : Buckets M} (h : (b.map (·.1)).Pairwise (· < ·)) :
    ((b.add t amount).map (·.1)).Pairwise (· < ·) := by
  induction b with
  | nil => simp [Buckets.add]
  | cons p b ih =>
    obtain ⟨k, x⟩ := p
    obtain ⟨hfirst, hrest⟩ := List.pairwise_cons.1 h
    rw [Buckets.add_cons]
    split_ifs with hlt heq
    · refine List.pairwise_cons.2 ⟨?_, h⟩
      intro tick htick
      rcases List.mem_cons.1 htick with rfl | htick
      · exact hlt
      · exact hlt.trans (hfirst tick htick)
    · exact h
    · refine List.pairwise_cons.2 ⟨?_, ih hrest⟩
      intro tick htick
      rcases mem_ticks_add.1 htick with rfl | htick
      · show k < tick
        omega
      · exact hfirst tick htick

/-- Adding changes the bucket of the tick, or makes it. -/
theorem mem_add {t : Int} {amount : M} {b : Buckets M} (h : (b.map (·.1)).Pairwise (· < ·)) {p : Int × M}
    (hp : p ∈ b.add t amount) :
    p ∈ b ∧ p.1 ≠ t ∨ (∃ x, (t, x) ∈ b ∧ p = (t, x + amount)) ∨ t ∉ b.map (·.1) ∧ p = (t, 0 + amount) := by
  induction b with
  | nil => exact .inr (.inr ⟨by simp, List.mem_singleton.1 hp⟩)
  | cons q b ih =>
    obtain ⟨k, x⟩ := q
    obtain ⟨hfirst, hrest⟩ := List.pairwise_cons.1 h
    have hlater : ∀ q ∈ b, k < q.1 := fun q hq => hfirst q.1 (List.mem_map_of_mem hq)
    rw [Buckets.add_cons] at hp
    split_ifs at hp with hlt heq
    · rcases List.mem_cons.1 hp with rfl | hp
      · refine .inr (.inr ⟨?_, rfl⟩)
        intro hmem
        obtain ⟨q, hq, hqt⟩ := List.mem_map.1 hmem
        rcases List.mem_cons.1 hq with rfl | hq
        · omega
        · have hkq := hlater q hq
          omega
      · refine .inl ⟨hp, ?_⟩
        rcases List.mem_cons.1 hp with rfl | hp
        · exact hlt.ne'
        · exact (hlt.trans (hlater p hp)).ne'
    · subst heq
      rcases List.mem_cons.1 hp with rfl | hp
      · exact .inr (.inl ⟨x, List.mem_cons_self, rfl⟩)
      · exact .inl ⟨List.mem_cons_of_mem _ hp, (hlater p hp).ne'⟩
    · rcases List.mem_cons.1 hp with rfl | hp
      · exact .inl ⟨List.mem_cons_self, heq⟩
      · rcases ih hrest hp with ⟨hmem, hne⟩ | ⟨y, hy, rfl⟩ | ⟨hnot, rfl⟩
        · exact .inl ⟨List.mem_cons_of_mem _ hmem, hne⟩
        · exact .inr (.inl ⟨y, List.mem_cons_of_mem _ hy, rfl⟩)
        · refine .inr (.inr ⟨?_, rfl⟩)
          simp only [List.map_cons, List.mem_cons, not_or]
          exact ⟨Ne.symm heq, hnot⟩

/-- A bucket for every tick that has amounts, which are added up in their
order. -/
structure Groups (b : Buckets M) (amounts : List (Int × M)) : Prop where
  ascending : (b.map (·.1)).Pairwise (· < ·)
  ticks : ∀ t, t ∈ b.map (·.1) ↔ t ∈ amounts.map (·.1)
  amount : ∀ p ∈ b, p.2 = addUp (amountsAt amounts p.1)

theorem Groups.nil : Groups ([] : Buckets M) [] := ⟨.nil, by simp, by simp⟩

variable {b : Buckets M} {amounts : List (Int × M)}

/-- The last amount is added last. -/
theorem Groups.add (h : Groups b amounts) (t : Int) (x : M) : Groups (b.add t x) (amounts ++ [(t, x)]) where
  ascending := ascending_add h.ascending
  ticks tick := by
    rw [mem_ticks_add, h.ticks, List.map_append, List.mem_append]
    simp only [List.map_cons, List.map_nil, List.mem_singleton]
    tauto
  amount p hp := by
    rw [amountsAt_append]
    rcases mem_add h.ascending hp with ⟨hmem, hne⟩ | ⟨y, hy, rfl⟩ | ⟨hnot, rfl⟩
    · have hother : amountsAt [(t, x)] p.1 = [] := amountsAt_eq_nil (by simpa using hne)
      rw [hother, List.append_nil]
      exact h.amount p hmem
    · have hlast : amountsAt [(t, x)] t = [x] := by simp [amountsAt]
      rw [hlast, addUp_snoc, ← h.amount _ hy]
    · have hlast : amountsAt [(t, x)] t = [x] := by simp [amountsAt]
      have hfirst : amountsAt amounts t = [] := amountsAt_eq_nil fun hmem => hnot ((h.ticks t).2 hmem)
      rw [hlast, hfirst]
      rfl

theorem Groups.newer (h : Groups b amounts) (tick : Int) : Groups (newer tick b) (newer tick amounts) where
  ascending := h.ascending.sublist (List.filter_sublist.map _)
  ticks t := by
    have hticks := h.ticks t
    simp only [List.mem_map, mem_newer] at hticks ⊢
    constructor
    · rintro ⟨p, ⟨hp, hlt⟩, rfl⟩
      obtain ⟨a, ha, hat⟩ := hticks.1 ⟨p, hp, rfl⟩
      exact ⟨a, ⟨ha, hat ▸ hlt⟩, hat⟩
    · rintro ⟨a, ⟨ha, hlt⟩, rfl⟩
      obtain ⟨p, hp, hpt⟩ := hticks.2 ⟨a, ha, rfl⟩
      exact ⟨p, ⟨hp, hpt ▸ hlt⟩, hpt⟩
  amount p hp := by
    obtain ⟨hp, hlt⟩ := mem_newer.1 hp
    rw [amountsAt_newer hlt]
    exact h.amount p hp

/-- Each tick for itself, and then one tick after the other. -/
theorem Groups.addUp_eq (h : Groups b amounts) :
    addUp (b.map (·.2)) = addUp ((b.map (·.1)).map fun t => addUp (amountsAt amounts t)) := by
  rw [List.map_map]
  exact congrArg addUp (List.map_congr_left h.amount)

end Adding

/-! ## Without rounding -/

/-- The amounts that are added without rounding, and with a sum its parts. -/
structure Exact {N : Type} [AddCommMonoid M] [Zero N] [Add N] (cast : M → N) (fits : M → Prop) : Prop where
  zero : cast 0 = 0
  add : ∀ x y, fits (x + y) → cast x + cast y = cast (x + y)
  part : ∀ x y, fits (x + y) → fits x

variable [AddCommMonoid M] {N : Type} [Zero N] [Add N] {cast : M → N} {fits : M → Prop}

theorem Exact.addUp (h : Exact cast fits) {l : List M} (hfits : fits l.sum) : addUp (l.map cast) = cast l.sum := by
  induction l using List.reverseRecOn with
  | nil => exact h.zero.symm
  | append_singleton l x ih =>
    rw [List.sum_append, List.sum_singleton] at hfits ⊢
    rw [List.map_append, List.map_singleton, addUp_snoc, ih (h.part _ _ hfits), h.add _ _ hfits]

theorem sum_amountsAt_cons (ticks : List Int) (a : Int × M) (amounts : List (Int × M)) (h : ticks.Nodup) (ha : a.1 ∈ ticks) :
    (ticks.map fun t => (amountsAt (a :: amounts) t).sum).sum = a.2 + (ticks.map fun t => (amountsAt amounts t).sum).sum := by
  have hfirst : ∀ t, (amountsAt (a :: amounts) t).sum = (if t = a.1 then a.2 else 0) + (amountsAt amounts t).sum := by
    intro t
    by_cases hat : a.1 = t
    · simp [amountsAt, hat]
    · simp [amountsAt, hat, Ne.symm hat]
  have hone : (ticks.map fun t => if t = a.1 then a.2 else 0).sum = a.2 := by
    rw [List.sum_map_eq_nsmul_single a.1 _ fun t hne _ => if_neg hne, List.count_eq_one_of_mem h ha, one_nsmul, if_pos rfl]
  simp only [hfirst, List.sum_map_add, hone]

/-- The sums of the ticks are the sum of all. -/
theorem sum_amountsAt {ticks : List Int} (h : ticks.Nodup) {amounts : List (Int × M)} (hall : ∀ a ∈ amounts, a.1 ∈ ticks) :
    (ticks.map fun t => (amountsAt amounts t).sum).sum = (amounts.map (·.2)).sum := by
  induction amounts with
  | nil => simp [amountsAt]
  | cons a amounts ih =>
    rw [sum_amountsAt_cons ticks a amounts h (hall a List.mem_cons_self), ih fun b hb => hall b (List.mem_cons_of_mem _ hb),
      List.map_cons, List.sum_cons]

/-- Buckets of amounts whose sum is not rounded give this sum. -/
theorem Groups.exact {b : Buckets N} {amounts : List (Int × M)} (h : Groups b (amounts.map fun a => (a.1, cast a.2)))
    (hexact : Exact cast fits) (hfits : fits (amounts.map (·.2)).sum) :
    Window.addUp (b.map (·.2)) = cast (amounts.map (·.2)).sum := by
  obtain ⟨hascending, hticks, heq⟩ := And.intro h.ascending (And.intro h.ticks h.addUp_eq)
  generalize b.map (·.1) = ticks at hascending hticks heq
  have hnodup : ticks.Nodup := hascending.imp fun hlt => hlt.ne
  have hall : ∀ a ∈ amounts, a.1 ∈ ticks := by
    intro a ha
    rw [hticks, List.map_map]
    exact List.mem_map.2 ⟨a, ha, rfl⟩
  have hsum := sum_amountsAt hnodup hall
  have heach : ∀ t ∈ ticks, Window.addUp (amountsAt (amounts.map fun a => (a.1, cast a.2)) t) = cast (amountsAt amounts t).sum := by
    intro t ht
    rw [amountsAt_map]
    refine hexact.addUp (hexact.part _ ((ticks.erase t).map fun t => (amountsAt amounts t).sum).sum ?_)
    rwa [List.sum_map_erase (fun t => (amountsAt amounts t).sum) ht, hsum]
  calc Window.addUp (b.map (·.2))
      = Window.addUp (ticks.map fun t => cast (amountsAt amounts t).sum) :=
        heq.trans (congrArg Window.addUp (List.map_congr_left heach))
    _ = Window.addUp ((ticks.map fun t => (amountsAt amounts t).sum).map cast) := by rw [List.map_map]; rfl
    _ = cast (ticks.map fun t => (amountsAt amounts t).sum).sum := hexact.addUp (hsum ▸ hfits)
    _ = cast (amounts.map (·.2)).sum := by rw [hsum]

end EnvoyProxy.Window
