import Mathlib.Algebra.Order.Field.Basic
import Mathlib.Algebra.BigOperators.Group.List.Basic
import Mathlib.Data.Set.Basic
import Mathlib.Tactic.Linarith
import Mathlib.Tactic.Ring
/-!
# Token buckets

A bucket gives tokens when it is asked and fills up again over time. What it
can give at a time is bounded from above (`Bounded`), and then so is what it
gives within any window of time. It is bounded from below (`Refilled`), and
then it refuses nothing that conforms to its rate.
-/

namespace EnvoyProxy.TokenBucket

variable {B K : Type} [LinearOrder K]

/-- One token is asked for at each time: what is given, and the bucket then. -/
def takeAll (take : B → K → Nat × B) (b : B) : List K → List Nat × B
  | [] => ([], b)
  | t :: ts => ((take b t).1 :: (takeAll take (take b t).2 ts).1, (takeAll take (take b t).2 ts).2)

/-- What is given at the times of a window. -/
def givenIn (s e : K) (ts : List K) (ns : List Nat) : Nat := (((ts.zip ns).filter fun p => s ≤ p.1 ∧ p.1 ≤ e).map (·.2)).sum

@[simp] theorem givenIn_nil (s e : K) (ns : List Nat) : givenIn s e [] ns = 0 := by simp [givenIn]

theorem givenIn_cons (s e t : K) (n : Nat) (ts : List K) (ns : List Nat) :
    givenIn s e (t :: ts) (n :: ns) = (if s ≤ t ∧ t ≤ e then n else 0) + givenIn s e ts ns := by
  unfold givenIn
  by_cases h : s ≤ t ∧ t ≤ e <;> simp [h]

theorem givenIn_late {s e : K} {ts : List K} (h : ∀ t ∈ ts, e < t) (ns : List Nat) : givenIn s e ts ns = 0 := by
  have hnone : (ts.zip ns).filter (fun p => s ≤ p.1 ∧ p.1 ≤ e) = [] := by
    apply List.filter_eq_nil_iff.2
    intro p hp
    have hlate := h p.1 (List.of_mem_zip hp).1
    simp [not_le.2 hlate]
  rw [givenIn, hnone]
  rfl

/-! ## At most -/

variable [Field K]

/-- `level` is at least what one of the buckets can give at a time. -/
structure Bounded (buckets : Set B) (take : B → K → Nat × B) (level : B → K → K) (burst rate : K) : Prop where
  kept : ∀ b ∈ buckets, ∀ t, (take b t).2 ∈ buckets
  nonneg : ∀ b ∈ buckets, ∀ t, 0 ≤ level b t
  full : ∀ b ∈ buckets, ∀ t, level b t ≤ burst
  gains : ∀ b ∈ buckets, ∀ t t', t ≤ t' → level b t' ≤ level b t + rate * (t' - t)
  gives : ∀ b ∈ buckets, ∀ t, level (take b t).2 t + ((take b t).1 : K) ≤ level b t

section Bounded
variable [IsStrictOrderedRing K] {buckets : Set B} {take : B → K → Nat × B} {level : B → K → K} {burst rate : K}

/-- From a time on, a bucket gives what it has and what it gains. -/
theorem Bounded.given_from (h : Bounded buckets take level burst rate) (hrate : 0 ≤ rate) {s e : K} {b : B} (hb : b ∈ buckets)
    {t₀ : K} (hle : t₀ ≤ e) {ts : List K} (hts : (t₀ :: ts).Pairwise (· ≤ ·)) :
    (givenIn s e ts (takeAll take b ts).1 : K) ≤ level b t₀ + rate * (e - t₀) := by
  induction ts generalizing b t₀ with
  | nil =>
    have hgain : 0 ≤ rate * (e - t₀) := mul_nonneg hrate (by linarith)
    have hlevel := h.nonneg b hb t₀
    simp only [givenIn_nil, Nat.cast_zero]
    linarith
  | cons t ts ih =>
    obtain ⟨hfirst, hrest⟩ := List.pairwise_cons.1 hts
    have ht : t₀ ≤ t := hfirst t List.mem_cons_self
    by_cases hlate : e < t
    · have hall : ∀ t' ∈ t :: ts, e < t' := by
        intro t' ht'
        rcases List.mem_cons.1 ht' with rfl | ht'
        · exact hlate
        · exact hlate.trans_le ((List.pairwise_cons.1 hrest).1 t' ht')
      have hgain : 0 ≤ rate * (e - t₀) := mul_nonneg hrate (by linarith)
      have hlevel := h.nonneg b hb t₀
      rw [givenIn_late hall, Nat.cast_zero]
      linarith
    · have hnext := ih (h.kept b hb t) (not_lt.1 hlate) hrest
      have hgives := h.gives b hb t
      have hgains := h.gains b hb t₀ t ht
      have hcount : (givenIn s e (t :: ts) (takeAll take b (t :: ts)).1 : K) ≤
          ((take b t).1 : K) + (givenIn s e ts (takeAll take (take b t).2 ts).1 : K) := by
        rw [takeAll, givenIn_cons]
        push_cast
        have hzero : (0 : K) ≤ ((take b t).1 : K) := Nat.cast_nonneg _
        split_ifs <;> simp [hzero]
      have hsplit : rate * (t - t₀) + rate * (e - t) = rate * (e - t₀) := by ring
      linarith

/-- In any window a bucket gives no more than it holds and what it gains meanwhile. -/
theorem Bounded.given_le (h : Bounded buckets take level burst rate) (hrate : 0 ≤ rate) {s e : K} (hse : s ≤ e) {b : B}
    (hb : b ∈ buckets) {ts : List K} (hts : ts.Pairwise (· ≤ ·)) : (givenIn s e ts (takeAll take b ts).1 : K) ≤ burst + rate * (e - s) := by
  induction ts generalizing b with
  | nil =>
    have hgain : 0 ≤ rate * (e - s) := mul_nonneg hrate (by linarith)
    have hfull := (h.nonneg b hb s).trans (h.full b hb s)
    simp only [givenIn_nil, Nat.cast_zero]
    linarith
  | cons t ts ih =>
    obtain ⟨hfirst, hrest⟩ := List.pairwise_cons.1 hts
    by_cases hearly : t < s
    · rw [takeAll, givenIn_cons, if_neg (by simp [not_le.2 hearly]), Nat.zero_add]
      exact ih (h.kept b hb t) hrest
    · by_cases hlate : e < t
      · have hgain : 0 ≤ rate * (e - s) := mul_nonneg hrate (by linarith)
        have hfull := (h.nonneg b hb s).trans (h.full b hb s)
        rw [givenIn_late, Nat.cast_zero]
        · linarith
        · intro t' ht'
          rcases List.mem_cons.1 ht' with rfl | ht'
          · exact hlate
          · exact hlate.trans_le (hfirst t' ht')
      · -- the first of the window: from here on the level counts
        have htwice : (t :: t :: ts).Pairwise (· ≤ ·) := List.pairwise_cons.2 ⟨by simpa using hfirst, hts⟩
        have hfrom := h.given_from hrate (s := s) hb (not_lt.1 hlate) htwice
        have hfull := h.full b hb t
        have hgain : rate * (e - t) ≤ rate * (e - s) := mul_le_mul_of_nonneg_left (by linarith [not_lt.1 hearly]) hrate
        linarith

end Bounded

/-! ## At least -/

/-- `level` is at most what one of the buckets can give at a time. -/
structure Refilled (buckets : Set B) (take : B → K → Nat × B) (level : B → K → K) (burst rate : K) : Prop where
  kept : ∀ b ∈ buckets, ∀ t, (take b t).2 ∈ buckets
  gains : ∀ b ∈ buckets, ∀ t t', t ≤ t' → min burst (level b t + rate * (t' - t)) ≤ level b t'
  gives : ∀ b ∈ buckets, ∀ t, 1 ≤ level b t → (take b t).1 = 1 ∧ level b t - 1 ≤ level (take b t).2 t

/-- No stretch of the times is longer than what a full bucket gives in it. -/
def Conforms (burst rate : K) (ts : List K) : Prop :=
  ∀ l, (h : l ≠ []) → l <:+: ts → (l.length : K) ≤ burst + rate * (l.getLast h - l.head h)

theorem Conforms.infix {burst rate : K} {ts ts' : List K} (h : Conforms burst rate ts) (hin : ts' <:+: ts) :
    Conforms burst rate ts' :=
  fun l hl hl' => h l hl (hl'.trans hin)

section Refilled
variable [IsStrictOrderedRing K] {buckets : Set B} {take : B → K → Nat × B} {level : B → K → K} {burst rate : K}

/-- After the times of `past` a bucket that was full at `t₀` has what the
stretches that end there have left of it. -/
def Has (level : B → K → K) (burst rate t₀ : K) (past : List K) (b : B) : Prop :=
  ∀ t, t₀ ≤ t → (∀ x ∈ past, x ≤ t) → ∀ x ≤ burst,
    (∀ q, (h : q ≠ []) → q <:+ past → x ≤ burst + rate * (t - q.head h) - q.length) → x ≤ level b t

theorem Refilled.has_next (h : Refilled buckets take level burst rate) {t₀ : K} {past : List K} {b : B} (hmem : b ∈ buckets) {t : K}
    (hb : Has level burst rate t₀ past b) (hstart : t₀ ≤ t) (hpast : ∀ x ∈ past, x ≤ t) (hconf : Conforms burst rate (past ++ [t])) :
    (take b t).1 = 1 ∧ Has level burst rate t₀ (past ++ [t]) (take b t).2 := by
  have hone : (1 : K) ≤ burst := by
    have hlast := hconf [t] (by simp) ⟨past, [], by simp⟩
    simpa using hlast
  have hlevel : 1 ≤ level b t := by
    apply hb t hstart hpast 1 hone
    intro q hq hsuffix
    have hinfix : q ++ [t] <:+: past ++ [t] := by
      obtain ⟨p, rfl⟩ := hsuffix
      exact ⟨p, [], by simp⟩
    have hstretch := hconf (q ++ [t]) (by simp) hinfix
    rw [List.getLast_append_singleton, List.head_append_of_ne_nil hq] at hstretch
    simp only [List.length_append, List.length_singleton] at hstretch
    push_cast at hstretch
    linarith
  obtain ⟨hgiven, hleft⟩ := h.gives b hmem t hlevel
  refine ⟨hgiven, ?_⟩
  intro t' _ ht' x hx hstretches
  have hle : t ≤ t' := ht' t (by simp)
  apply le_trans _ (h.gains (take b t).2 (h.kept b hmem t) t t' hle)
  apply le_min hx
  -- the same for the bucket before, with the token and what was gained since
  have hbefore : x + 1 - rate * (t' - t) ≤ level b t := by
    apply hb t hstart hpast
    · have hsingle := hstretches [t] (by simp) ⟨past, rfl⟩
      simp only [List.head_cons, List.length_singleton, Nat.cast_one] at hsingle
      linarith
    · intro q hq hsuffix
      have hsuffix' : q ++ [t] <:+ past ++ [t] := by
        obtain ⟨p, rfl⟩ := hsuffix
        exact ⟨p, by simp⟩
      have hlong := hstretches (q ++ [t]) (by simp) hsuffix'
      rw [List.head_append_of_ne_nil hq] at hlong
      simp only [List.length_append, List.length_singleton] at hlong
      push_cast at hlong
      have hsplit : rate * (t' - q.head hq) = rate * (t - q.head hq) + rate * (t' - t) := by ring
      linarith
  linarith

theorem Refilled.gives_all (h : Refilled buckets take level burst rate) {t₀ : K} {past ts : List K} {b : B} (hmem : b ∈ buckets)
    (hb : Has level burst rate t₀ past b) (hstart : ∀ t ∈ ts, t₀ ≤ t)
    (hsorted : (past ++ ts).Pairwise (· ≤ ·)) (hconf : Conforms burst rate (past ++ ts)) :
    ∀ n ∈ (takeAll take b ts).1, n = 1 := by
  induction ts generalizing past b with
  | nil => simp [takeAll]
  | cons t ts ih =>
    have happ : past ++ t :: ts = past ++ [t] ++ ts := by simp
    have hpast : ∀ x ∈ past, x ≤ t := fun x hx => (List.pairwise_append.1 hsorted).2.2 x hx t (by simp)
    have hconf' : Conforms burst rate (past ++ [t]) := hconf.infix ⟨[], ts, by simp⟩
    obtain ⟨hgiven, hnext⟩ := h.has_next hmem hb (hstart t List.mem_cons_self) hpast hconf'
    rw [takeAll]
    intro n hn
    rcases List.mem_cons.1 hn with rfl | hn
    · exact hgiven
    · exact ih (h.kept b hmem t) hnext (fun x hx => hstart x (List.mem_cons_of_mem _ hx)) (happ ▸ hsorted) (happ ▸ hconf) n hn

/-- A full bucket gives every token that conforms to its rate. -/
theorem Refilled.gives_conforming (h : Refilled buckets take level burst rate) {b : B} (hmem : b ∈ buckets) {t₀ : K}
    (hfull : ∀ t, t₀ ≤ t → burst ≤ level b t) {ts : List K} (hstart : ∀ t ∈ ts, t₀ ≤ t)
    (hsorted : ts.Pairwise (· ≤ ·)) (hconf : Conforms burst rate ts) : ∀ n ∈ (takeAll take b ts).1, n = 1 :=
  have hempty : Has level burst rate t₀ [] b := fun t ht _ _ hx _ => hx.trans (hfull t ht)
  h.gives_all hmem hempty hstart hsorted hconf

end Refilled

end EnvoyProxy.TokenBucket
