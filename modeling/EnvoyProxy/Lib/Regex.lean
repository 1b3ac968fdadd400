import Mathlib.Computability.RegularExpressions
/-!
# Patterns

The forms of a pattern that are not regular expressions themselves: classes
of letters, options, bounded repetition and lists with a separator. A pattern
without a star has finitely many words, which `words` lists.
-/

namespace EnvoyProxy.Regex
open RegularExpression

variable {α : Type}

/-- `[...]` -/
def oneOf (letters : List α) : RegularExpression α := (letters.map char).sum

/-- A text. -/
def str (text : List α) : RegularExpression α := (text.map char).foldr (· * ·) 1

/-- `r?` -/
def opt (r : RegularExpression α) : RegularExpression α := r + 1

/-- `r{m,n}` -/
def between (m n : Nat) (r : RegularExpression α) : RegularExpression α := ((List.range' m (n + 1 - m)).map (r ^ ·)).sum

/-- `(r<sep>){k}r` -/
def separated (k : Nat) (sep : α) (r : RegularExpression α) : RegularExpression α := (r * char sep) ^ k * r

/-! ## Their words -/

theorem mem_sum {rs : List (RegularExpression α)} {x : List α} : x ∈ rs.sum.matches' ↔ ∃ r ∈ rs, x ∈ r.matches' := by
  induction rs with
  | nil =>
    constructor
    · intro h
      exact absurd h (Language.notMem_zero x)
    · rintro ⟨r, hr, -⟩
      cases hr
  | cons r rs ih =>
    rw [List.sum_cons, matches'_add, Language.mem_add, ih]
    simp

theorem mem_oneOf {letters x : List α} : x ∈ (oneOf letters).matches' ↔ ∃ a ∈ letters, x = [a] := by
  unfold oneOf
  rw [mem_sum]
  constructor
  · rintro ⟨r, hr, hx⟩
    obtain ⟨a, ha, rfl⟩ := List.mem_map.1 hr
    exact ⟨a, ha, hx⟩
  · rintro ⟨a, ha, rfl⟩
    exact ⟨char a, List.mem_map_of_mem ha, rfl⟩

theorem mem_between {m n : Nat} {r : RegularExpression α} {x : List α} :
    x ∈ (between m n r).matches' ↔ ∃ k, m ≤ k ∧ k ≤ n ∧ x ∈ (r ^ k).matches' := by
  unfold between
  rw [mem_sum]
  constructor
  · rintro ⟨r', hr', hx⟩
    obtain ⟨k, hk, rfl⟩ := List.mem_map.1 hr'
    rw [List.mem_range'_1] at hk
    exact ⟨k, hk.1, by omega, hx⟩
  · rintro ⟨k, hm, hn, hx⟩
    exact ⟨r ^ k, List.mem_map_of_mem (List.mem_range'_1.2 (by omega)), hx⟩

/-- Repetition of a class. -/
theorem mem_oneOf_pow {letters x : List α} {k : Nat} :
    x ∈ (oneOf letters ^ k).matches' ↔ x.length = k ∧ ∀ a ∈ x, a ∈ letters := by
  rw [matches'_pow]
  induction k generalizing x with
  | zero =>
    rw [pow_zero, Language.mem_one]
    constructor
    · rintro rfl
      simp
    · exact fun h => List.length_eq_zero_iff.1 h.1
  | succ k ih =>
    rw [pow_succ', Language.mem_mul]
    constructor
    · rintro ⟨y, hy, z, hz, rfl⟩
      obtain ⟨a, ha, rfl⟩ := mem_oneOf.1 hy
      obtain ⟨hlen, hletters⟩ := ih.1 hz
      refine ⟨by simp [hlen], ?_⟩
      rintro b (_ | ⟨_, hb⟩)
      · exact ha
      · exact hletters b hb
    · rintro ⟨hlen, hletters⟩
      cases x with
      | nil => cases hlen
      | cons a x =>
        refine ⟨[a], mem_oneOf.2 ⟨a, hletters a (by simp), rfl⟩, x,
          ih.2 ⟨by simpa using hlen, fun b hb => hletters b (by simp [hb])⟩, rfl⟩

/-- Parts with a separator between them. -/
theorem mem_separated {k : Nat} {sep : α} {r : RegularExpression α} {x : List α} :
    x ∈ (separated k sep r).matches' ↔
      ∃ parts, parts.length = k + 1 ∧ (∀ p ∈ parts, p ∈ r.matches') ∧ x = [sep].intercalate parts := by
  unfold separated
  rw [matches'_mul, matches'_pow]
  induction k generalizing x with
  | zero =>
    rw [pow_zero, one_mul]
    constructor
    · intro hx
      exact ⟨[x], rfl, by simpa using hx, by simp⟩
    · rintro ⟨parts, hlen, hparts, rfl⟩
      obtain ⟨p, rfl⟩ := List.length_eq_one_iff.1 hlen
      simpa using hparts p (by simp)
  | succ k ih =>
    have hcons (p : List α) {parts : List (List α)} (hne : parts ≠ []) :
        [sep].intercalate (p :: parts) = p ++ [sep] ++ [sep].intercalate parts := by
      rw [List.intercalate_cons_of_ne_nil hne]
    rw [pow_succ', mul_assoc, Language.mem_mul]
    constructor
    · rintro ⟨y, hy, z, hz, rfl⟩
      obtain ⟨p, hp, s, hs, rfl⟩ := Language.mem_mul.1 hy
      obtain rfl : s = [sep] := hs
      obtain ⟨parts, hlen, hparts, rfl⟩ := ih.1 hz
      have hne : parts ≠ [] := by
        rintro rfl
        cases hlen
      refine ⟨p :: parts, by simp [hlen], ?_, (hcons p hne).symm⟩
      rintro q (_ | ⟨_, hq⟩)
      · exact hp
      · exact hparts q hq
    · rintro ⟨parts, hlen, hparts, rfl⟩
      cases parts with
      | nil => cases hlen
      | cons p parts =>
        have hlen : parts.length = k + 1 := by simpa using hlen
        have hne : parts ≠ [] := by
          rintro rfl
          cases hlen
        refine ⟨p ++ [sep], Language.mem_mul.2 ⟨p, hparts p (by simp), [sep], rfl, rfl⟩,
          [sep].intercalate parts, ?_, (hcons p hne).symm⟩
        exact ih.2 ⟨parts, hlen, fun q hq => hparts q (by simp [hq]), rfl⟩

/-! ## Letters -/

/-- The letters of a pattern. -/
def letters : RegularExpression α → List α
  | .zero => []
  | .epsilon => []
  | .char a => [a]
  | .plus r s => letters r ++ letters s
  | .comp r s => letters r ++ letters s
  | .star r => letters r

/-- A word has only letters of its pattern. -/
theorem mem_letters {r : RegularExpression α} {x : List α} (hx : x ∈ r.matches') : ∀ a ∈ x, a ∈ letters r := by
  induction r generalizing x with
  | zero => exact absurd hx (Language.notMem_zero x)
  | epsilon =>
    obtain rfl := (Language.mem_one x).1 hx
    exact fun a ha => absurd ha List.not_mem_nil
  | char b =>
    obtain rfl : x = [b] := hx
    exact fun a ha => ha
  | plus r s ihr ihs =>
    rcases (Language.mem_add _ _ x).1 hx with hx | hx
    · exact fun a ha => List.mem_append_left _ (ihr hx a ha)
    · exact fun a ha => List.mem_append_right _ (ihs hx a ha)
  | comp r s ihr ihs =>
    obtain ⟨y, hy, z, hz, rfl⟩ := Language.mem_mul.1 hx
    intro a ha
    rcases List.mem_append.1 ha with ha | ha
    · exact List.mem_append_left _ (ihr hy a ha)
    · exact List.mem_append_right _ (ihs hz a ha)
  | star r ih =>
    obtain ⟨parts, rfl, hparts⟩ := Language.mem_kstar.1 hx
    intro a ha
    obtain ⟨y, hy, ha⟩ := List.mem_flatten.1 ha
    exact ih (hparts y hy) a ha

/-! ## Patterns without a star -/

def starFree : RegularExpression α → Bool
  | .zero => true
  | .epsilon => true
  | .char _ => true
  | .plus r s => starFree r && starFree s
  | .comp r s => starFree r && starFree s
  | .star _ => false

def words : RegularExpression α → List (List α)
  | .zero => []
  | .epsilon => [[]]
  | .char a => [[a]]
  | .plus r s => words r ++ words s
  | .comp r s => (words r).flatMap fun x => (words s).map (x ++ ·)
  | .star _ => []

theorem mem_words {r : RegularExpression α} (hr : starFree r = true) {x : List α} :
    x ∈ words r ↔ x ∈ r.matches' := by
  induction r generalizing x with
  | zero => exact ⟨fun h => absurd h List.not_mem_nil, fun h => absurd h (Language.notMem_zero x)⟩
  | epsilon => exact List.mem_singleton.trans (Language.mem_one x).symm
  | char a => exact List.mem_singleton
  | plus r s ihr ihs =>
    obtain ⟨hr, hs⟩ := Bool.and_eq_true_iff.1 hr
    exact List.mem_append.trans (or_congr (ihr hr) (ihs hs))
  | comp r s ihr ihs =>
    obtain ⟨hr, hs⟩ := Bool.and_eq_true_iff.1 hr
    refine Iff.trans ?_ Language.mem_mul.symm
    simp only [words, List.mem_flatMap, List.mem_map, ihr hr, ihs hs]
  | star r => cases hr

end EnvoyProxy.Regex
