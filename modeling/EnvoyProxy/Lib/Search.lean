import Mathlib
/-!
# Searching a text

Where a word first stands in a text. A word whose first letter is not in front
of it is found where it is; what is found splits the text.
-/

namespace EnvoyProxy

variable {α : Type} [DecidableEq α]

/-- The position of the first place where the word stands. -/
def find (word : List α) : List α → Option Nat
  | [] => if word = [] then some 0 else none
  | a :: text => if word.isPrefixOf (a :: text) then some 0 else (find word text).map (· + 1)

theorem find_append {a : α} {word front : List α} (h : a ∉ front) (back : List α) :
    find (a :: word) (front ++ a :: word ++ back) = some front.length := by
  induction front with
  | nil =>
    have hstarts : (a :: word).isPrefixOf (a :: (word ++ back)) = true :=
      List.isPrefixOf_iff_prefix.2 (List.prefix_append (a :: word) back)
    exact if_pos hstarts
  | cons b front ih =>
    obtain ⟨hb, hfront⟩ := not_or.1 (fun h' => h (List.mem_cons.2 h'))
    have hstarts : ¬ (a :: word).isPrefixOf (b :: (front ++ a :: word ++ back)) = true := by
      intro hp
      exact hb (List.cons_prefix_cons.1 (List.isPrefixOf_iff_prefix.1 hp)).1
    have hstep : find (a :: word) (b :: (front ++ a :: word ++ back)) =
        (find (a :: word) (front ++ a :: word ++ back)).map (· + 1) := if_neg hstarts
    rw [List.cons_append, List.cons_append, hstep, ih hfront]
    rfl

theorem find_some {word text : List α} {i : Nat} (h : find word text = some i) :
    text = text.take i ++ word ++ text.drop (i + word.length) := by
  induction text generalizing i with
  | nil =>
    unfold find at h
    split_ifs at h with hword
    simp [hword]
  | cons a text ih =>
    unfold find at h
    split_ifs at h with hstarts
    · obtain rfl : 0 = i := Option.some.inj h
      obtain ⟨rest, hrest⟩ := List.isPrefixOf_iff_prefix.1 hstarts
      rw [← hrest]
      simp
    · obtain ⟨j, hj, rfl⟩ := Option.map_eq_some_iff.1 h
      rw [Nat.add_right_comm, List.take_succ_cons, List.drop_succ_cons, List.cons_append, List.cons_append, ← ih hj]

/-- The text in front of a letter. -/
theorem takeWhile_ne_append {a : α} {front : List α} (h : a ∉ front) (back : List α) :
    (front ++ a :: back).takeWhile (· ≠ a) = front := by
  rw [List.takeWhile_append_of_pos, List.takeWhile_cons_of_neg (by simp), List.append_nil]
  intro b hb
  simp only [decide_eq_true_eq]
  rintro rfl
  exact h hb

/-- The text from a letter on. -/
theorem dropWhile_ne_append {a : α} {front : List α} (h : a ∉ front) (back : List α) :
    (front ++ a :: back).dropWhile (· ≠ a) = a :: back := by
  have hall := List.takeWhile_append_dropWhile (p := (· ≠ a)) (l := front ++ a :: back)
  rw [takeWhile_ne_append h] at hall
  exact List.append_cancel_left hall

/-- A letter is found behind all that are not it. -/
theorem find_letter (a : α) (text : List α) :
    find [a] text = if a ∈ text then some (text.takeWhile (· ≠ a)).length else none := by
  split_ifs with h
  · obtain ⟨front, back, rfl, hfront⟩ := List.eq_append_cons_of_mem h
    have hfound : find [a] (front ++ [a] ++ back) = some front.length := find_append hfront back
    rw [List.append_assoc, List.singleton_append] at hfound
    rw [hfound, takeWhile_ne_append hfront back]
  · cases hfind : find [a] text with
    | none => rfl
    | some i =>
      rw [find_some hfind] at h
      simp at h

end EnvoyProxy
