import Mathlib
/-!
# Byte strings

C++ strings and network buffers are lists of bytes. `Diverge` says that two
byte strings differ at a position both of them have; unlike `≠` it survives
appending anything to either side, so it can be carried through a
concatenation piece by piece. `EqUnless bad` compares two strings that are
built alike: equal, or diverging when something bad went in. Pieces that are
put together without anything between them are told apart by a mark that what
stands before does not have. `beBytes` and `beNat` are numbers on the wire.
-/

namespace EnvoyProxy

abbrev Bytes := List UInt8

instance : LawfulBEq Bytes := inferInstance

/-- An ASCII literal. -/
def ascii (s : String) : Bytes := s.toList.map fun c => UInt8.ofNat c.toNat

/-- `u` and `v` differ at a position both have. -/
def Diverge (u v : Bytes) : Prop :=
  ∃ p a b s t, a ≠ b ∧ u = p ++ a :: s ∧ v = p ++ b :: t

theorem Diverge.ne {u v : Bytes} (h : Diverge u v) : u ≠ v := by
  obtain ⟨p, a, b, s, t, hab, rfl, rfl⟩ := h
  intro h
  have := List.append_cancel_left h
  exact hab (List.cons.inj this).1

theorem Diverge.append {u v : Bytes} (h : Diverge u v) (x y : Bytes) : Diverge (u ++ x) (v ++ y) := by
  obtain ⟨p, a, b, s, t, hab, rfl, rfl⟩ := h
  exact ⟨p, a, b, s ++ x, t ++ y, hab, by simp, by simp⟩

theorem Diverge.prepend {u v : Bytes} (h : Diverge u v) (x : Bytes) : Diverge (x ++ u) (x ++ v) := by
  obtain ⟨p, a, b, s, t, hab, rfl, rfl⟩ := h
  exact ⟨x ++ p, a, b, s, t, hab, by simp, by simp⟩

theorem Diverge.cons {u v : Bytes} (h : Diverge u v) (c : UInt8) : Diverge (c :: u) (c :: v) :=
  h.prepend [c]

/-- Strings of which neither is the start of the other. -/
theorem diverge_of_not_isPrefix {u v : Bytes} (huv : ¬ u <+: v) (hvu : ¬ v <+: u) : Diverge u v := by
  induction u generalizing v with
  | nil => exact absurd List.nil_prefix huv
  | cons a u ih =>
    rcases v with _ | ⟨b, v⟩
    · exact absurd List.nil_prefix hvu
    · by_cases hab : a = b
      · subst hab
        simp only [List.cons_prefix_cons, true_and] at huv hvu
        exact (ih huv hvu).cons a
      · exact ⟨[], a, b, u, v, hab, rfl, rfl⟩

theorem Diverge.head {a b : UInt8} (h : a ≠ b) (s t : Bytes) : Diverge (a :: s) (b :: t) :=
  ⟨[], a, b, s, t, h, rfl, rfl⟩

/-- Equal when not `bad`, diverging when `bad`. -/
def EqUnless (bad : Prop) (u v : Bytes) : Prop := (¬ bad ∧ u = v) ∨ (bad ∧ Diverge u v)

namespace EqUnless

theorem refl (u : Bytes) : EqUnless False u u := .inl ⟨id, rfl⟩

theorem congr {p q : Prop} {u v : Bytes} (h : EqUnless p u v) (hpq : p ↔ q) : EqUnless q u v := by
  rwa [propext hpq] at h

theorem append {p q : Prop} {u v x y : Bytes} (h : EqUnless p u v) (h' : EqUnless q x y) :
    EqUnless (p ∨ q) (u ++ x) (v ++ y) := by
  rcases h with ⟨hp, rfl⟩ | ⟨hp, hd⟩
  · rcases h' with ⟨hq, rfl⟩ | ⟨hq, hd⟩
    · exact .inl ⟨not_or.2 ⟨hp, hq⟩, rfl⟩
    · exact .inr ⟨.inr hq, hd.prepend _⟩
  · exact .inr ⟨.inl hp, hd.append _ _⟩

theorem cons {p : Prop} {u v : Bytes} (h : EqUnless p u v) (c : UInt8) : EqUnless p (c :: u) (c :: v) :=
  ((refl [c]).append h).congr (by simp)

theorem append_right {p : Prop} {u v : Bytes} (h : EqUnless p u v) (x : Bytes) : EqUnless p (u ++ x) (v ++ x) :=
  (h.append (refl x)).congr (by simp)

theorem eq_iff {p : Prop} {u v : Bytes} (h : EqUnless p u v) : u = v ↔ ¬ p := by
  rcases h with ⟨hp, rfl⟩ | ⟨hp, hd⟩
  · exact ⟨fun _ => hp, fun _ => rfl⟩
  · exact ⟨fun he => absurd he hd.ne, fun hn => absurd hp hn⟩

end EqUnless

/-! ## Pieces in a row -/

section Pieces
variable {α β : Type}

/-- What stands before a mark ends where the first mark is found. -/
theorem eq_of_append_mark {p : α → Bool} {xs ys s t : List α} {a b : α} (hxs : ∀ x ∈ xs, p x) (hys : ∀ y ∈ ys, p y)
    (ha : p a = false) (hb : p b = false) (h : xs ++ a :: s = ys ++ b :: t) : xs = ys := by
  have htake := congrArg (List.takeWhile p) h
  simpa [List.takeWhile_append_of_pos hxs, List.takeWhile_append_of_pos hys, ha, hb] using htake

/-- Something without marks, and behind it nothing or a text that has a mark. -/
theorem eq_of_append_marked {p : α → Bool} {xs ys zs us vs : List α} (hxs : ∀ x ∈ xs, p x) (hys : ∀ y ∈ ys, p y)
    (hmark : ∃ a ∈ zs, p a = false) (hus : us = [] ∨ zs <+: us) (hvs : vs = [] ∨ zs <+: vs)
    (h : xs ++ us = ys ++ vs) : xs = ys := by
  -- The text up to its first mark.
  obtain ⟨front, a, rest, rfl, ha, hfront⟩ : ∃ front a rest, zs = front ++ a :: rest ∧ p a = false ∧
      ∀ x ∈ front, p x := by
    refine ⟨zs.takeWhile p, (zs.dropWhile p).head ?_, (zs.dropWhile p).tail, ?_, ?_, fun x hx => List.mem_takeWhile_imp hx⟩
    · rw [Ne, List.dropWhile_eq_nil_iff]
      obtain ⟨a, ha, hpa⟩ := hmark
      intro hall
      simp [hall a ha] at hpa
    · rw [List.cons_head_tail, List.takeWhile_append_dropWhile]
    · simpa using List.head_dropWhile_not p _
  -- A text without marks does not end in one with a mark.
  have hno : ∀ {ws xs ys : List α}, (front ++ a :: rest) <+: ws → (∀ x ∈ xs, p x) → xs ≠ ys ++ ws := by
    rintro _ xs ys ⟨tail, rfl⟩ hxs rfl
    simp [hxs a (by simp)] at ha
  rcases hus with rfl | hus <;> rcases hvs with rfl | hvs
  · simpa using h
  · exact absurd ((List.append_nil xs).symm.trans h) (hno hvs hxs)
  · exact absurd ((List.append_nil ys).symm.trans h.symm) (hno hus hys)
  · obtain ⟨s, rfl⟩ := hus
    obtain ⟨t, rfl⟩ := hvs
    have hboth : ∀ {zs : List α}, (∀ z ∈ zs, p z) → ∀ z ∈ zs ++ front, p z := by
      intro zs hzs z hz
      exact (List.mem_append.1 hz).elim (hzs z) (hfront z)
    have hcut : (xs ++ front) ++ a :: (rest ++ s) = (ys ++ front) ++ a :: (rest ++ t) := by
      simpa using h
    exact List.append_cancel_right (eq_of_append_mark (hboth hxs) (hboth hys) ha ha hcut)

/-- Rows of pieces of the same lengths that read the same. -/
theorem eq_of_flatMap_eq {l : List α} {f g : α → List β} (hlen : ∀ x ∈ l, (f x).length = (g x).length)
    (h : l.flatMap f = l.flatMap g) : ∀ x ∈ l, f x = g x := by
  induction l with
  | nil => simp
  | cons x l ih =>
    rw [List.forall_mem_cons] at hlen ⊢
    rw [List.flatMap_cons, List.flatMap_cons] at h
    obtain ⟨hx, hrest⟩ := List.append_inj h hlen.1
    exact ⟨hx, ih hlen.2 hrest⟩

/-- All pieces but those of `s` are empty. -/
theorem flatMap_length_of_single [DecidableEq α] {l : List α} {f : α → List β} {s : α}
    (h : ∀ x ∈ l, x ≠ s → f x = []) : (l.flatMap f).length = l.count s * (f s).length := by
  induction l with
  | nil => simp
  | cons x l ih =>
    rw [List.forall_mem_cons] at h
    rw [List.flatMap_cons, List.length_append, ih h.2, List.count_cons]
    by_cases hx : x = s
    · subst hx
      simp only [BEq.rfl, if_true]
      ring
    · simp [h.1 hx, hx]

/-- Pieces that are empty or begin alike. -/
theorem flatMap_prefix {l : List α} {f : α → List β} {w : List β} (h : ∀ x ∈ l, f x = [] ∨ w <+: f x) :
    l.flatMap f = [] ∨ w <+: l.flatMap f := by
  induction l with
  | nil => exact .inl rfl
  | cons x l ih =>
    rw [List.forall_mem_cons] at h
    rw [List.flatMap_cons]
    rcases h.1 with hx | hx
    · rw [hx]
      exact ih h.2
    · exact .inr (hx.trans (List.prefix_append _ _))

end Pieces

/-! ## Big-endian numbers -/

/-- The low `k` bytes of `n`, big endian. -/
def beBytes : Nat → Nat → Bytes
  | 0, _ => []
  | k + 1, n => beBytes k (n / 256) ++ [UInt8.ofNat (n % 256)]

/-- The number in big-endian bytes. -/
def beNat (b : Bytes) : Nat := b.foldl (fun n c => 256 * n + c.toNat) 0

@[simp] theorem beBytes_length (k n : Nat) : (beBytes k n).length = k := by
  induction k generalizing n with
  | zero => rfl
  | succ k ih => simp [beBytes, ih]

theorem beNat_snoc (b : Bytes) (c : UInt8) : beNat (b ++ [c]) = 256 * beNat b + c.toNat := by
  simp [beNat]

theorem beNat_beBytes (k n : Nat) : beNat (beBytes k n) = n % 256 ^ k := by
  induction k generalizing n with
  | zero => simp [beBytes, beNat, Nat.mod_one]
  | succ k ih =>
    have hbyte : (UInt8.ofNat (n % 256)).toNat = n % 256 := by simp
    rw [beBytes, beNat_snoc, ih, hbyte, pow_succ', Nat.mod_mul]
    omega

end EnvoyProxy
