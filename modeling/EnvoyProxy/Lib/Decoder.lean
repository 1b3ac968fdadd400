import Mathlib.Data.List.Basic
/-!
# Decoders that look at a prefix

A decoder is given the elements that have arrived and the offset to start at,
and returns what it read, if anything, with the offset it stopped at. It fails
when it runs off the end, so that a failure may turn into a success once more
has arrived, but a success depends only on what was consumed.
-/

namespace EnvoyProxy

variable {α β : Type}

structure LocalDecoder (decode : List α → Nat → Option β × Nat) : Prop where
  /-- The decoder does not go back, and does not leave what has arrived. -/
  ge : ∀ b o, o ≤ (decode b o).2
  le : ∀ b o, o ≤ b.length → (decode b o).2 ≤ b.length
  /-- What was read stays read when more arrives. -/
  extend : ∀ b o v o' x, decode b o = (some v, o') → decode (b ++ x) o = (some v, o')
  /-- What was read can be read from the consumed part alone. -/
  restrict : ∀ b o v o' x, decode (b ++ x) o = (some v, o') → o' ≤ b.length → decode b o = (some v, o')

variable {decode : List α → Nat → Option β × Nat} (h : LocalDecoder decode) {b : List α} {o m n : Nat}

include h

/-- A success on a part is the same success on the whole. -/
theorem LocalDecoder.take_extend (hnm : n ≤ m) {v : β} {o' : Nat} (hd : decode (b.take n) o = (some v, o')) :
    decode (b.take m) o = (some v, o') := by
  have hsplit : b.take m = b.take n ++ (b.drop n).take (m - n) := by
    rw [← List.take_add, Nat.add_sub_cancel' hnm]
  rw [hsplit]
  exact h.extend _ _ _ _ _ hd

theorem LocalDecoder.take_restrict (hnm : n ≤ m) (hn : n ≤ b.length) {v : β} {o' : Nat}
    (hd : decode (b.take m) o = (some v, o')) (ho : o' ≤ n) : decode (b.take n) o = (some v, o') := by
  have hsplit : b.take m = b.take n ++ (b.drop n).take (m - n) := by
    rw [← List.take_add, Nat.add_sub_cancel' hnm]
  rw [hsplit] at hd
  exact h.restrict _ _ _ _ _ hd (by simpa [hn] using ho)

/-- A read of the whole that stops within a part reads the same value there. -/
theorem LocalDecoder.take_value (hnm : n ≤ m) (hn : n ≤ b.length) (hd : (decode (b.take m) o).2 ≤ n) :
    (decode (b.take n) o).1 = (decode (b.take m) o).1 := by
  rcases hwhole : decode (b.take m) o with ⟨_ | v, o'⟩
  · rcases hpart : decode (b.take n) o with ⟨_ | v, o''⟩
    · rfl
    · rw [h.take_extend hnm hpart] at hwhole
      cases hwhole
  · rw [hwhole] at hd
    rw [h.take_restrict hnm hn hwhole hd]

/-- A read of a part stays in the part. -/
theorem LocalDecoder.take_le (hn : n ≤ b.length) (ho : o ≤ n) : (decode (b.take n) o).2 ≤ n := by
  have := h.le (b.take n) o (by simp [hn, ho])
  simpa [hn] using this

/-- Where a read of the whole leaves a part, the part alone cannot be read. -/
theorem LocalDecoder.take_none (hnm : n ≤ m) (hn : n ≤ b.length) (ho : o ≤ n) (hpast : n < (decode (b.take m) o).2) :
    (decode (b.take n) o).1 = none := by
  rcases hd : decode (b.take n) o with ⟨_ | v, o'⟩
  · rfl
  · have hle := h.take_le hn ho
    rw [h.take_extend hnm hd] at hpast
    rw [hd] at hle
    exact absurd hle (Nat.not_le.2 hpast)

end EnvoyProxy
