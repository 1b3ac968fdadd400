import EnvoyProxy.LocalLimit.Filter
/-!
# A bucket

`TokenBucketImpl` with the rational numbers for its doubles. It does not look
at the clock while it is full, so the time that it has been full counts as
time to fill up after the next token: it may give one more than `maxTokens`
at once, and no more.
-/

namespace EnvoyProxy.LocalLimit
open TokenBucket

structure ExactBucket where
  maxTokens : Nat
  fillRate : ℚ
  tokens : ℚ
  lastFill : MonotonicTime
  fillRate_nonneg : 0 ≤ fillRate
  tokens_nonneg : 0 ≤ tokens
  tokens_le : tokens ≤ maxTokens

namespace ExactBucket

/-- What it has when it looks at the clock. -/
def filled (b : ExactBucket) (now : MonotonicTime) : ℚ := min b.maxTokens (b.tokens + b.fillRate * max 0 (now - b.lastFill))

theorem tokens_le_filled (b : ExactBucket) (now : MonotonicTime) : b.tokens ≤ b.filled now := by
  have hgain : 0 ≤ b.fillRate * max 0 (now - b.lastFill) := mul_nonneg b.fillRate_nonneg (le_max_left _ _)
  exact le_min b.tokens_le (by linarith)

def refill (b : ExactBucket) (now : MonotonicTime) : ExactBucket :=
  if b.tokens < b.maxTokens then
    { b with
      tokens := b.filled now
      lastFill := now
      tokens_nonneg := b.tokens_nonneg.trans (b.tokens_le_filled now)
      tokens_le := min_le_left _ _ }
  else b

@[simp] theorem refill_maxTokens (b : ExactBucket) (now : MonotonicTime) : (b.refill now).maxTokens = b.maxTokens := by
  unfold refill
  split_ifs <;> rfl

@[simp] theorem refill_fillRate (b : ExactBucket) (now : MonotonicTime) : (b.refill now).fillRate = b.fillRate := by
  unfold refill
  split_ifs <;> rfl

def spend (b : ExactBucket) (n : Nat) (h : (n : ℚ) ≤ b.tokens) : ExactBucket :=
  { b with
    tokens := b.tokens - n
    tokens_nonneg := by linarith
    tokens_le := by have hn : (0 : ℚ) ≤ n := Nat.cast_nonneg n; have hle := b.tokens_le; linarith }

def consume (b : ExactBucket) (now : MonotonicTime) (tokens : Nat) (allowPartial : Bool) : Nat × ExactBucket :=
  let b := b.refill now
  let tokens := if allowPartial then min tokens ⌊b.tokens⌋₊ else tokens
  if h : (tokens : ℚ) ≤ b.tokens then (tokens, b.spend tokens h) else (0, b)

end ExactBucket

instance : TokenBucketImpl ExactBucket where
  create maxTokens fillRate now :=
    { maxTokens
      fillRate := |fillRate|
      tokens := maxTokens
      lastFill := now
      fillRate_nonneg := abs_nonneg _
      tokens_nonneg := Nat.cast_nonneg _
      tokens_le := le_rfl }
  consume := ExactBucket.consume

namespace ExactBucket

def made (maxTokens : Nat) (fillRate : ℚ) : Set ExactBucket := {b | b.maxTokens = maxTokens ∧ b.fillRate = fillRate}

/-- One token more than `maxTokens` when it is full. -/
def most (b : ExactBucket) (now : MonotonicTime) : ℚ := if b.tokens < b.maxTokens then b.filled now else b.maxTokens + 1

def least (b : ExactBucket) (now : MonotonicTime) : ℚ := min b.maxTokens (b.tokens + b.fillRate * (now - b.lastFill))

theorem take_made {maxTokens : Nat} {fillRate : ℚ} {b : ExactBucket} (h : b ∈ made maxTokens fillRate) (now : MonotonicTime) :
    (TokenBucketImpl.take b now).2 ∈ made maxTokens fillRate := by
  obtain ⟨rfl, rfl⟩ := h
  change (b.consume now 1 false).2 ∈ _
  unfold consume
  dsimp only
  split_ifs <;> exact ⟨b.refill_maxTokens now, b.refill_fillRate now⟩

/-- A token is given when there is one. -/
theorem take_eq (b : ExactBucket) (now : MonotonicTime) :
    (∃ h : ((1 : Nat) : ℚ) ≤ (b.refill now).tokens, TokenBucketImpl.take b now = (1, (b.refill now).spend 1 h)) ∨
      (b.refill now).tokens < 1 ∧ TokenBucketImpl.take b now = (0, b.refill now) := by
  by_cases h : ((1 : Nat) : ℚ) ≤ (b.refill now).tokens
  · exact .inl ⟨h, dif_pos h⟩
  · exact .inr ⟨by simpa using h, dif_neg h⟩

theorem filled_at (b : ExactBucket) : b.filled b.lastFill = b.tokens := by
  simp [filled, b.tokens_le]

theorem least_at (b : ExactBucket) : b.least b.lastFill = b.tokens := by
  simp [least, b.tokens_le]

theorem bounded (maxTokens : Nat) {fillRate : ℚ} (hrate : 0 ≤ fillRate) :
    Bounded (made maxTokens fillRate) TokenBucketImpl.take most (maxTokens + 1) fillRate where
  kept b hb t := take_made hb t
  nonneg b _ t := by
    unfold most
    split_ifs
    · exact b.tokens_nonneg.trans (b.tokens_le_filled t)
    · positivity
  full := by
    rintro b ⟨rfl, -⟩ t
    unfold most
    split_ifs
    · exact (min_le_left _ _).trans (by simp)
    · exact le_rfl
  gains := by
    rintro b ⟨rfl, rfl⟩ t t' hle
    unfold most
    split_ifs
    · have hclock : max 0 (t' - b.lastFill) ≤ max 0 (t - b.lastFill) + (t' - t) := by
        rcases le_total (t - b.lastFill) 0 with h | h
        · rw [max_eq_left h]
          exact max_le (by linarith) (by linarith)
        · rw [max_eq_right h]
          exact max_le (by linarith) (by linarith)
      have hgain := mul_le_mul_of_nonneg_left hclock hrate
      have hmore : 0 ≤ b.fillRate * (t' - t) := mul_nonneg hrate (by linarith)
      unfold filled
      rw [← min_add_add_right]
      exact min_le_min (by linarith) (by linarith)
    · have hmore : 0 ≤ b.fillRate * (t' - t) := mul_nonneg hrate (by linarith)
      linarith
  gives := by
    rintro b ⟨rfl, rfl⟩ t
    by_cases hfull : b.tokens < b.maxTokens
    · have hrefill : (b.refill t).tokens = b.filled t ∧ (b.refill t).lastFill = t := by
        unfold refill
        rw [if_pos hfull]
        exact ⟨rfl, rfl⟩
      have hmost : b.most t = b.filled t := if_pos hfull
      rcases b.take_eq t with ⟨h, htake⟩ | ⟨h, htake⟩
      · have hspent : ((b.refill t).spend 1 h).most t = b.filled t - 1 := by
          have hat := ((b.refill t).spend 1 h).filled_at
          have hlast : ((b.refill t).spend 1 h).lastFill = t := hrefill.2
          have hless : ((b.refill t).spend 1 h).tokens = b.filled t - 1 := by
            simp [spend, hrefill.1]
          have hle : b.filled t ≤ b.maxTokens := min_le_left _ _
          have hmax : ((b.refill t).spend 1 h).maxTokens = b.maxTokens := b.refill_maxTokens t
          rw [hlast, hless] at hat
          unfold most
          rw [if_pos (by rw [hless, hmax]; linarith), hat]
        rw [htake, hspent, hmost]
        simp
      · have hat := (b.refill t).filled_at
        rw [hrefill.2, hrefill.1] at hat
        have hone : (1 : ℚ) ≤ b.maxTokens := by
          have hpos := b.tokens_nonneg.trans_lt hfull
          exact_mod_cast Nat.one_le_iff_ne_zero.2 (Nat.cast_pos.1 hpos).ne'
        have hkept : (b.refill t).most t = b.filled t := by
          unfold most
          rw [if_pos (by rw [b.refill_maxTokens]; linarith), hat]
        rw [htake, hkept, hmost]
        simp
    · have hrefill : b.refill t = b := if_neg hfull
      have hmost : b.most t = b.maxTokens + 1 := if_neg hfull
      have htokens : b.tokens = b.maxTokens := le_antisymm b.tokens_le (not_lt.1 hfull)
      rcases b.take_eq t with ⟨h, htake⟩ | ⟨-, htake⟩
      · have hspent : ((b.refill t).spend 1 h).most t ≤ b.maxTokens := by
          have hless : ((b.refill t).spend 1 h).tokens < ((b.refill t).spend 1 h).maxTokens := by
            simp [spend, hrefill, htokens]
          unfold most
          rw [if_pos hless]
          exact (min_le_left _ _).trans (by simp [spend])
        rw [htake, hmost]
        simpa using hspent
      · rw [htake, hrefill]
        simp

theorem refilled (maxTokens : Nat) {fillRate : ℚ} (hrate : 0 ≤ fillRate) :
    Refilled (made maxTokens fillRate) TokenBucketImpl.take least maxTokens fillRate where
  kept b hb t := take_made hb t
  gains := by
    rintro b ⟨rfl, rfl⟩ t t' hle
    have hsplit : b.fillRate * (t' - b.lastFill) = b.fillRate * (t - b.lastFill) + b.fillRate * (t' - t) := by ring
    apply le_min (min_le_left _ _)
    apply (min_le_right _ _).trans
    have hleast : b.least t ≤ b.tokens + b.fillRate * (t - b.lastFill) := min_le_right _ _
    linarith
  gives := by
    rintro b ⟨rfl, rfl⟩ t hone
    have hfilled : b.least t ≤ b.filled t :=
      min_le_min le_rfl (by have hclock := mul_le_mul_of_nonneg_left (le_max_right 0 (t - b.lastFill)) hrate; linarith)
    have hleast : b.least t ≤ b.tokens + b.fillRate * (t - b.lastFill) := min_le_right _ _
    by_cases hfull : b.tokens < b.maxTokens
    · have hrefill : (b.refill t).tokens = b.filled t ∧ (b.refill t).lastFill = t := by
        unfold refill
        rw [if_pos hfull]
        exact ⟨rfl, rfl⟩
      rcases b.take_eq t with ⟨h, htake⟩ | ⟨h, -⟩
      · have hat := ((b.refill t).spend 1 h).least_at
        have hlast : ((b.refill t).spend 1 h).lastFill = t := hrefill.2
        have hless : ((b.refill t).spend 1 h).tokens = b.filled t - 1 := by simp [spend, hrefill.1]
        rw [hlast, hless] at hat
        rw [htake, hat]
        exact ⟨rfl, by linarith⟩
      · rw [hrefill.1] at h
        linarith
    · have hrefill : b.refill t = b := if_neg hfull
      have htokens : b.tokens = b.maxTokens := le_antisymm b.tokens_le (not_lt.1 hfull)
      have hmax : b.least t ≤ b.maxTokens := min_le_left _ _
      rcases b.take_eq t with ⟨h, htake⟩ | ⟨h, -⟩
      · rw [htake]
        refine ⟨rfl, ?_⟩
        apply le_min
        · simp only [spend, hrefill]
          linarith
        · simp only [spend, hrefill, Nat.cast_one]
          linarith
      · rw [hrefill] at h
        linarith

end ExactBucket

instance : LawfulTokenBucketImpl ExactBucket where
  made := ExactBucket.made
  burst maxTokens := maxTokens + 1
  most := ExactBucket.most
  least := ExactBucket.least
  made_create _ _ _ hrate := ⟨rfl, abs_of_nonneg hrate⟩
  least_create maxTokens fillRate now t _ hle := by
    have hgain : 0 ≤ |fillRate| * (t - now) := mul_nonneg (abs_nonneg _) (by linarith)
    exact le_min le_rfl (by change (maxTokens : ℚ) ≤ maxTokens + |fillRate| * (t - now); linarith)
  bounded maxTokens _ hrate := ExactBucket.bounded maxTokens hrate
  refilled maxTokens _ hrate := ExactBucket.refilled maxTokens hrate

end EnvoyProxy.LocalLimit
