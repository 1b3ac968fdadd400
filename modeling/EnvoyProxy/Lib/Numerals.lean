import EnvoyProxy.Lib.Json
/-!
# Numerals

Numbers as lists of words, most significant first, and the decimal numeral of
a number written in groups of digits.
-/

namespace EnvoyProxy
open Json

/-! ## Words -/

/-- The number with these words to the base `2 ^ w`, most significant first. -/
def wordsValue (w : Nat) (words : List Nat) : Nat := Nat.ofDigits (2 ^ w) words.reverse

@[simp] theorem wordsValue_nil (w : Nat) : wordsValue w [] = 0 := rfl

theorem wordsValue_snoc (w : Nat) (words : List Nat) (x : Nat) :
    wordsValue w (words ++ [x]) = wordsValue w words * 2 ^ w + x := by
  rw [wordsValue, List.reverse_append, List.reverse_singleton, List.singleton_append, Nat.ofDigits_cons]
  simp only [wordsValue]
  ring

theorem wordsValue_lt {w : Nat} {words : List Nat} (h : ∀ x ∈ words, x < 2 ^ w) :
    wordsValue w words < 2 ^ (w * words.length) := by
  induction words using List.reverseRecOn with
  | nil => simp
  | append_singleton words x ih =>
    have hx : x < 2 ^ w := h x (by simp)
    have hle : wordsValue w words + 1 ≤ 2 ^ (w * words.length) := ih fun y hy => h y (by simp [hy])
    rw [wordsValue_snoc, List.length_append, List.length_singleton, Nat.mul_add, Nat.pow_add, Nat.mul_one]
    calc wordsValue w words * 2 ^ w + x < (wordsValue w words + 1) * 2 ^ w := by rw [Nat.add_mul]; omega
      _ ≤ 2 ^ (w * words.length) * 2 ^ w := Nat.mul_le_mul_right _ hle

/-- Words that are all zero. -/
theorem wordsValue_eq_zero {w : Nat} {words : List Nat} (h : ∀ x ∈ words, x = 0) : wordsValue w words = 0 := by
  induction words using List.reverseRecOn with
  | nil => rfl
  | append_singleton words x ih =>
    rw [wordsValue_snoc, ih fun y hy => h y (by simp [hy]), h x (by simp), Nat.zero_mul]

theorem wordsValue_pos {w : Nat} {words : List Nat} (h : ∃ x ∈ words, x ≠ 0) : 0 < wordsValue w words := by
  induction words using List.reverseRecOn with
  | nil => simp at h
  | append_singleton words x ih =>
    rw [wordsValue_snoc]
    by_cases hx : x = 0
    · have hwords : ∃ y ∈ words, y ≠ 0 := by
        obtain ⟨y, hy, hne⟩ := h
        rcases List.mem_append.1 hy with hy | hy
        · exact ⟨y, hy, hne⟩
        · exact absurd ((List.mem_singleton.1 hy).trans hx) hne
      have := Nat.mul_pos (ih hwords) (Nat.two_pow_pos w)
      omega
    · omega

/-! ## Groups of digits -/

/-- A numeral with zeros before it, up to `k` digits. -/
def padTo (k : Nat) (t : Bytes) : Bytes := List.replicate (k - t.length) 48 ++ t

theorem natText_length (n : Nat) : (natText n).length = if n = 0 then 1 else (Nat.digits 10 n).length := by
  unfold natText
  split_ifs <;> simp

theorem natText_length_le {n k : Nat} (hk : 0 < k) (hn : n < 10 ^ k) : (natText n).length ≤ k := by
  rw [natText_length]
  split_ifs
  · exact hk
  · exact (Nat.digits_length_le_iff (by norm_num) n).2 hn

/-- The last `k` digits of a numeral, and those before them. -/
theorem natText_group {k a b : Nat} (ha : 0 < a) (hb : b < 10 ^ k) (hk : 0 < k) :
    natText (a * 10 ^ k + b) = natText a ++ padTo k (natText b) := by
  have hlength : (Nat.digits 10 b).length ≤ k := (Nat.digits_length_le_iff (by norm_num) b).2 hb
  have hdigits : Nat.digits 10 (a * 10 ^ k + b) =
      Nat.digits 10 b ++ List.replicate (k - (Nat.digits 10 b).length) 0 ++ Nat.digits 10 a := by
    rw [Nat.digits_append_zeroes_append_digits (by norm_num) ha, Nat.add_sub_cancel' hlength,
      Nat.add_comm, Nat.mul_comm]
  have hpos : a * 10 ^ k + b ≠ 0 := by
    have := Nat.mul_pos ha (Nat.pow_pos (n := k) (by norm_num : 0 < 10))
    omega
  have hpad : padTo k (natText b) =
      List.replicate (k - (Nat.digits 10 b).length) 48 ++ (Nat.digits 10 b).reverse.map fun d =>
        UInt8.ofNat (48 + d) := by
    unfold padTo natText
    split_ifs with hzero
    · subst hzero
      obtain ⟨k, rfl⟩ := Nat.exists_eq_add_of_lt hk
      simp [← List.replicate_succ']
    · simp
  rw [natText, if_neg hpos, hdigits, natText, if_neg ha.ne', hpad]
  simp [List.reverse_append, List.map_append, List.append_assoc]

end EnvoyProxy
