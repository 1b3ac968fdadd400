import EnvoyProxy.CircuitBreaker.Impl
/-!
# Rolling numbers on a moving clock (rolling_number.cc)

`Increment` reads the clock twice, once for its bucket and once for the
pruning. `Sum` is given a time by its caller and reads the clock again for the
pruning. We show that no pruning ever reaches a bucket that a later sum counts:
a sum is over all that was ever added in the window, each second for itself and
then one second after the other.
-/

namespace EnvoyProxy.CircuitBreaker.RollingNumberImpl
open Window

variable {D : Type}

/-- The window is any `std::chrono::milliseconds`; the quotient is cut toward
zero. -/
def ofMilliseconds (window : Int) : RollingNumberImpl D := { windowSize := window.tdiv 1000 }

section Calls
variable [Zero D] [Add D]

def incrementAt (r : RollingNumberImpl D) (now later : SystemTime) (i : D) : RollingNumberImpl D :=
  { r with buckets := r.buckets.add (unixTimeNowSeconds now) i }.removeOldBuckets later

def sumAt (r : RollingNumberImpl D) (now later : SystemTime) : D × RollingNumberImpl D :=
  (totalAfter (unixTimeNowSeconds now - r.windowSize) r.buckets, r.removeOldBuckets later)

/-! ## Calls that take no time -/

omit [Zero D] [Add D] in
theorem ofMilliseconds_natCast (window : Nat) : (ofMilliseconds window : RollingNumberImpl D) = create window := by
  unfold ofMilliseconds create
  congr 1

theorem incrementAt_self (r : RollingNumberImpl D) (now : SystemTime) (i : D) : r.incrementAt now now i = r.increment now i := rfl

theorem sumAt_self (r : RollingNumberImpl D) (now : SystemTime) : r.sumAt now now = r.sum now := rfl

end Calls

/-! ## Runs -/

/-- A call and its times, the earlier one first. -/
inductive Operation (D : Type)
  | increment (now later : SystemTime) (i : D)
  | sum (now later : SystemTime)

/-- The latest first. -/
def Operation.times : Operation D → List SystemTime
  | .increment now later _ => [later, now]
  | .sum now later => [later, now]

/-- What was ever added, with its unix seconds, the earlier first. -/
def increments : List (Operation D) → List (Int × D)
  | [] => []
  | .increment now _ i :: ops => increments ops ++ [(unixTimeNowSeconds now, i)]
  | .sum _ _ :: ops => increments ops

/-- The seconds of the amounts are no later than the clock. -/
theorem increments_le {ops : List (Operation D)} {now : SystemTime} (h : ∀ t ∈ ops.flatMap Operation.times, t ≤ now) :
    ∀ a ∈ increments ops, a.1 ≤ unixTimeNowSeconds now := by
  induction ops with
  | nil => exact fun a ha => absurd ha List.not_mem_nil
  | cons op ops ih =>
    have hrest := ih (fun t ht => h t (by simp [ht]))
    cases op with
    | increment t later i =>
      intro a ha
      rcases List.mem_append.1 ha with ha | ha
      · exact hrest a ha
      · rw [List.mem_singleton.1 ha]
        exact unixTimeNowSeconds_le (h t (by simp [Operation.times]))
    | sum t later => exact hrest

section Runs
variable [Zero D] [Add D]

/-- The number after its calls, the latest first. -/
def afterAll (window : Int) : List (Operation D) → RollingNumberImpl D
  | [] => ofMilliseconds window
  | .increment now later i :: ops => (afterAll window ops).incrementAt now later i
  | .sum now later :: ops => ((afterAll window ops).sumAt now later).2

/-- The buckets of a number that is never pruned. -/
def unpruned : List (Operation D) → Buckets D
  | [] => []
  | .increment now _ i :: ops => (unpruned ops).add (unixTimeNowSeconds now) i
  | .sum _ _ :: ops => unpruned ops

theorem afterAll_windowSize (window : Int) (ops : List (Operation D)) :
    (afterAll window ops).windowSize = window.tdiv 1000 := by
  induction ops with
  | nil => rfl
  | cons op ops ih => cases op <;> exact ih

/-- A bucket for every second, each the sum of its amounts in their order. -/
theorem unpruned_groups (ops : List (Operation D)) : Groups (unpruned ops) (increments ops) := by
  induction ops with
  | nil => exact .nil
  | cons op ops ih =>
    cases op with
    | increment now later i => exact ih.add (unixTimeNowSeconds now) i
    | sum now later => exact ih

/-- A tick that no pruning has reached: the buckets after it are all there,
with all that was added to them. -/
theorem newer_afterAll {window tick : Int} {ops : List (Operation D)}
    (h : ∀ t ∈ ops.flatMap Operation.times, unixTimeNowSeconds t - window.tdiv 1000 ≤ tick) :
    newer tick (afterAll window ops).buckets = newer tick (unpruned ops) := by
  induction ops with
  | nil => rfl
  | cons op ops ih =>
    have hkeep := ih (fun t ht => h t (by simp [ht]))
    cases op with
    | increment now later i =>
      have hprune := h later (by simp [Operation.times])
      unfold afterAll unpruned incrementAt removeOldBuckets
      rw [afterAll_windowSize, newer_prune hprune, newer_add, newer_add, hkeep]
    | sum now later =>
      have hprune := h later (by simp [Operation.times])
      unfold afterAll unpruned sumAt removeOldBuckets
      rw [afterAll_windowSize, newer_prune hprune, hkeep]

/-! ## The window -/

omit [Zero D] [Add D] in
/-- Cutting a window toward zero differs from its floor only when it is
negative, and then neither leaves a second to count. -/
theorem window_iff (window : Int) {s tick : Int} (h : s ≤ tick) :
    tick - window.tdiv 1000 < s ↔ tick - window / 1000 < s ∧ s ≤ tick := by
  have hcut : 0 ≤ window ∧ window.tdiv 1000 = window / 1000 ∨ window < 0 ∧ window.tdiv 1000 ≤ 0 ∧
      window / 1000 ≤ 0 := by
    rcases le_or_gt 0 window with hw | hw
    · exact .inl ⟨hw, Int.tdiv_eq_ediv_of_nonneg hw⟩
    · refine .inr ⟨hw, ?_, by omega⟩
      have hle := Int.tdiv_le_tdiv (c := 1000) (by decide) hw.le
      rwa [Int.zero_tdiv] at hle
  omega

/-- What was added in the seconds of the window. -/
def inWindow {M : Type} (window : Int) (now : SystemTime) (amounts : List (Int × M)) : List (Int × M) :=
  amounts.filter fun a => unixTimeNowSeconds now - window / 1000 < a.1 ∧ a.1 ≤ unixTimeNowSeconds now

/-- The buckets that a sum counts: those of a number that was never pruned. -/
theorem newer_window (window : Int) {ops : List (Operation D)} {now : SystemTime}
    (hlast : ∀ t ∈ ops.flatMap Operation.times, t ≤ now) :
    newer (unixTimeNowSeconds now - window.tdiv 1000) (afterAll window ops).buckets =
      newer (unixTimeNowSeconds now - window.tdiv 1000) (unpruned ops) := by
  apply newer_afterAll
  intro t ht
  have hle := unixTimeNowSeconds_le (hlast t ht)
  omega

/-- They have what was added in the window. -/
theorem groups_window (window : Int) {ops : List (Operation D)} {now : SystemTime}
    (hlast : ∀ t ∈ ops.flatMap Operation.times, t ≤ now) :
    Groups (newer (unixTimeNowSeconds now - window.tdiv 1000) (afterAll window ops).buckets)
      (inWindow window now (increments ops)) := by
  have hwindow : newer (unixTimeNowSeconds now - window.tdiv 1000) (increments ops) = inWindow window now (increments ops) := by
    apply List.filter_congr
    intro a ha
    exact decide_eq_decide.2 (window_iff window (increments_le hlast a ha))
  rw [newer_window window hlast, ← hwindow]
  exact (unpruned_groups ops).newer _

theorem sumAt_window (window : Int) (ops : List (Operation D)) (now later : SystemTime) :
    ((afterAll window ops).sumAt now later).1 =
      addUp ((newer (unixTimeNowSeconds now - window.tdiv 1000) (afterAll window ops).buckets).map (·.2)) := by
  unfold sumAt totalAfter
  rw [afterAll_windowSize]

/-- Amounts that are added without rounding have their plain sum. -/
theorem sumAt_cast {M : Type} [AddCommMonoid M] {cast : M → D} {fits : M → Prop} (hexact : Exact cast fits) {window : Int}
    {ops : List (Operation D)} {now : SystemTime} (hlast : ∀ t ∈ ops.flatMap Operation.times, t ≤ now) (later : SystemTime)
    {amounts : List (Int × M)} (hamounts : increments ops = amounts.map fun a => (a.1, cast a.2))
    (hfits : fits ((inWindow window now amounts).map (·.2)).sum) :
    ((afterAll window ops).sumAt now later).1 = cast ((inWindow window now amounts).map (·.2)).sum := by
  have hgroups := groups_window window hlast
  have hcast : inWindow window now (increments ops) = (inWindow window now amounts).map fun a => (a.1, cast a.2) := by
    rw [hamounts, inWindow, List.filter_map]
    rfl
  rw [hcast] at hgroups
  rw [sumAt_window, hgroups.exact hexact hfits]

/-- With a clock that never goes back, and for any addition, whether it rounds
or not: a sum is over all that was added in the seconds of the window, the
amounts of each second added up in their order and then the seconds in theirs.
The buckets that its loop adds up are those of a number that was never pruned.
Where the additions do not round, it is the plain sum. -/
theorem sumAt_exact (window : Int) (ops : List (Operation D)) (now later : SystemTime)
    (hclock : (now :: ops.flatMap Operation.times).Pairwise (· ≥ ·)) :
    (∃ seconds : List Int, seconds.Pairwise (· < ·) ∧
      (∀ s, s ∈ seconds ↔ s ∈ (inWindow window now (increments ops)).map (·.1)) ∧
      ((afterAll window ops).sumAt now later).1 =
        addUp (seconds.map fun s => addUp (amountsAt (inWindow window now (increments ops)) s))) ∧
    newer (unixTimeNowSeconds now - (afterAll window ops).windowSize) (afterAll window ops).buckets =
      newer (unixTimeNowSeconds now - (afterAll window ops).windowSize) (unpruned ops) ∧
    ∀ {M : Type} [AddCommMonoid M] (cast : M → D) (fits : M → Prop), Exact cast fits → ∀ amounts : List (Int × M),
      increments ops = (amounts.map fun a => (a.1, cast a.2)) → fits ((inWindow window now amounts).map (·.2)).sum →
      ((afterAll window ops).sumAt now later).1 = cast ((inWindow window now amounts).map (·.2)).sum := by
  have hlast : ∀ t ∈ ops.flatMap Operation.times, t ≤ now := fun t ht => List.rel_of_pairwise_cons hclock ht
  have hgroups := groups_window window hlast
  refine ⟨⟨_, hgroups.ascending, hgroups.ticks, ?_⟩, ?_, ?_⟩
  · rw [sumAt_window, hgroups.addUp_eq]
  · rw [afterAll_windowSize]
    exact newer_window window hlast
  · intro M _ cast fits hexact amounts hamounts hfits
    exact sumAt_cast hexact hlast later hamounts hfits

end Runs

/-- Two increments in second 3 and one in second 1, of which a sum in second 4
has dropped the bucket: 2 < s ≤ 4 is counted. -/
theorem sumAt_dropped : ((afterAll 2500 [.sum 4000000000 4000000000, .increment 3900000000 3999999999 (5 : ℚ),
    .increment 3000000000 3000000000 7, .increment 1000000000 1000000000 1]).sumAt 4000000000 4200000000).1 = 12 := by
  have hexact : Exact (id : ℚ → ℚ) fun _ => True := ⟨rfl, fun _ _ _ => rfl, fun _ _ _ => trivial⟩
  refine ((sumAt_exact 2500 [.sum 4000000000 4000000000, .increment 3900000000 3999999999 (5 : ℚ),
    .increment 3000000000 3000000000 7, .increment 1000000000 1000000000 1] 4000000000 4200000000 (by decide)).2.2
    id (fun _ => True) hexact [(1, 1), (3, 7), (3, 5)] (by decide +kernel) trivial).trans ?_
  decide +kernel

end EnvoyProxy.CircuitBreaker.RollingNumberImpl
