import Mathlib
/-!
# Computations with fuel

A recursion that need not end is modelled by a function of the fuel it may
use. From some fuel on a call may end the same way (`EndsWith`): it `Returns`
a result or it `Fails`. `Follows` is for a body that makes calls one after the
other; its rules follow the shape of the code: return, call, sequence, loop
over a list.
-/

namespace EnvoyProxy

/-- Why a computation did not return: an exception, or no fuel. -/
inductive Stop (E : Type)
  | thrown (what : E)
  | outOfFuel
  deriving DecidableEq, Repr

variable {E α β : Type}

@[simp] theorem ok_bind (a : α) (f : α → Except E β) : (Except.ok a >>= f) = f a := rfl

@[simp] theorem error_bind (e : E) (f : α → Except E β) : (Except.error e >>= f) = .error e := rfl

@[simp] theorem pure_ok (a : α) : (pure a : Except E α) = .ok a := rfl

/-- A sequence that returns: its first part has returned. -/
theorem bind_eq_ok {x : Except E α} {f : α → Except E β} {b : β} (h : x >>= f = .ok b) :
    ∃ a, x = .ok a ∧ f a = .ok b := by
  cases x with
  | error e => cases h
  | ok a => exact ⟨a, rfl, h⟩

/-- A loop that returns has returned for every element. -/
theorem mapM_ok {f : α → Except E β} {cs : List α} {xs : List β} (h : cs.mapM f = .ok xs) :
    List.Forall₂ (fun c x => f c = .ok x) cs xs := by
  induction cs generalizing xs with
  | nil => cases h; exact .nil
  | cons c cs ih =>
    rw [List.mapM_cons] at h
    obtain ⟨x, hx, h⟩ := bind_eq_ok h
    obtain ⟨ys, hys, h⟩ := bind_eq_ok h
    cases h
    exact .cons hx (ih hys)

/-- From some fuel on, `call` ends with `r`. -/
def EndsWith (call : Nat → Except (Stop E) α) (r : Except (Stop E) α) : Prop :=
  ∃ N, ∀ n, N ≤ n → call n = r

/-- From some fuel on, `call` returns one result, with `Q`. -/
def Returns (call : Nat → Except (Stop E) α) (Q : α → Prop) : Prop := ∃ a, Q a ∧ EndsWith call (.ok a)

/-- From some fuel on, `call` stops for one reason, with `K`. -/
def Fails (call : Nat → Except (Stop E) α) (K : Stop E → Prop) : Prop := ∃ e, K e ∧ EndsWith call (.error e)

namespace EndsWith

theorem const (r : Except (Stop E) α) : EndsWith (fun _ => r) r := ⟨0, fun _ _ => rfl⟩

theorem succ {call b : Nat → Except (Stop E) α} {r : Except (Stop E) α}
    (hcall : ∀ n, call (n + 1) = b n) (h : EndsWith b r) : EndsWith call r := by
  obtain ⟨N, hN⟩ := h
  refine ⟨N + 1, fun n hn => ?_⟩
  obtain ⟨m, rfl⟩ : ∃ m, n = m + 1 := ⟨n - 1, by omega⟩
  rw [hcall, hN m (by omega)]

theorem bind {call : Nat → Except (Stop E) α} {k : Nat → α → Except (Stop E) β} {a : α}
    {r : Except (Stop E) β} (h : EndsWith call (.ok a)) (hk : EndsWith (fun n => k n a) r) :
    EndsWith (fun n => call n >>= k n) r := by
  obtain ⟨N, hN⟩ := h
  obtain ⟨M, hM⟩ := hk
  refine ⟨max N M, fun n hn => ?_⟩
  simp only [hN n (le_trans (le_max_left _ _) hn)]
  exact hM n (le_trans (le_max_right _ _) hn)

theorem bind_error {call : Nat → Except (Stop E) α} {k : Nat → α → Except (Stop E) β} {e : Stop E}
    (h : EndsWith call (.error e)) : EndsWith (fun n => call n >>= k n) (.error e) := by
  obtain ⟨N, hN⟩ := h
  exact ⟨N, fun n hn => by simp only [hN n hn]; rfl⟩

/-- Sequence, whatever way the first call ends. -/
theorem seq {call : Nat → Except (Stop E) α} {k : Nat → α → Except (Stop E) β} {r : Except (Stop E) α}
    {f : α → Except (Stop E) β} (h : EndsWith call r)
    (hk : ∀ a, r = .ok a → EndsWith (fun n => k n a) (f a)) :
    EndsWith (fun n => call n >>= k n) (r >>= f) := by
  cases r with
  | ok a => exact h.bind (hk a rfl)
  | error e => exact h.bind_error

/-- A call that ends does not also run out of fuel forever. -/
theorem unique {call : Nat → Except (Stop E) α} {r r' : Except (Stop E) α}
    (h : EndsWith call r) (h' : EndsWith call r') : r = r' := by
  obtain ⟨N, hN⟩ := h
  obtain ⟨M, hM⟩ := h'
  rw [← hN (max N M) (le_max_left _ _), hM (max N M) (le_max_right _ _)]

end EndsWith

namespace Returns

theorem ret {Q : α → Prop} {a : α} (h : Q a) : Returns (E := E) (fun _ => .ok a) Q :=
  ⟨a, h, EndsWith.const _⟩

theorem bind {call : Nat → Except (Stop E) α} {k : Nat → α → Except (Stop E) β} {Q : α → Prop}
    {R : β → Prop} (h : Returns call Q) (hk : ∀ a, Q a → Returns (fun n => k n a) R) :
    Returns (fun n => call n >>= k n) R := by
  obtain ⟨a, ha, h⟩ := h
  obtain ⟨b, hb, h'⟩ := hk a ha
  exact ⟨b, hb, h.bind h'⟩

/-- Sequence, when the second part fails. -/
theorem fails {call : Nat → Except (Stop E) α} {k : Nat → α → Except (Stop E) β} {Q : α → Prop}
    {K : Stop E → Prop} (h : Returns call Q) (hk : ∀ a, Q a → Fails (fun n => k n a) K) :
    Fails (fun n => call n >>= k n) K := by
  obtain ⟨a, ha, h⟩ := h
  obtain ⟨e, he, h'⟩ := hk a ha
  exact ⟨e, he, h.bind h'⟩

end Returns

namespace Fails

theorem succ {call b : Nat → Except (Stop E) α} {K : Stop E → Prop}
    (hcall : ∀ n, call (n + 1) = b n) (h : Fails b K) : Fails call K := by
  obtain ⟨e, he, h⟩ := h
  exact ⟨e, he, h.succ hcall⟩

/-- Sequence, when the first part fails. -/
theorem bind {call : Nat → Except (Stop E) α} {k : Nat → α → Except (Stop E) β} {K : Stop E → Prop}
    (h : Fails call K) : Fails (fun n => call n >>= k n) K := by
  obtain ⟨e, he, h⟩ := h
  exact ⟨e, he, h.bind_error⟩

end Fails

/-! ## The first of a list -/

section ComesTo
variable {V : Type} {pass goal good : V → Prop}

/-- Going along a list while `pass` holds comes to an element with `goal`. -/
def ComesTo (pass goal : V → Prop) : List V → Prop
  | [] => False
  | x :: xs => goal x ∨ pass x ∧ ComesTo pass goal xs

theorem comesTo_append {xs ys : List V} :
    ComesTo pass goal (xs ++ ys) ↔
      ComesTo pass goal xs ∨ (∀ x ∈ xs, pass x) ∧ ComesTo pass goal ys := by
  induction xs with
  | nil => simp [ComesTo]
  | cons x xs ih =>
    simp only [List.cons_append, ComesTo, ih, List.forall_mem_cons]
    tauto

/-- On the way there something else may be come to before. -/
theorem ComesTo.refine {pass' goal' : V → Prop} {xs : List V} (h : ComesTo pass goal xs)
    (hpass : ∀ x ∈ xs, pass x → pass' x ∨ goal' x) (hgoal : ∀ x ∈ xs, goal x → goal' x) : ComesTo pass' goal' xs := by
  induction xs with
  | nil => exact h
  | cons x xs ih =>
    rw [List.forall_mem_cons] at hpass hgoal
    rcases h with h | ⟨hx, h⟩
    · exact .inl (hgoal.1 h)
    · rcases hpass.1 hx with hx | hx
      · exact .inr ⟨hx, ih h hpass.2 hgoal.2⟩
      · exact .inl hx

theorem ComesTo.mono {pass' goal' : V → Prop} {xs : List V} (h : ComesTo pass goal xs)
    (hpass : ∀ x ∈ xs, pass x → pass' x) (hgoal : ∀ x ∈ xs, goal x → goal' x) : ComesTo pass' goal' xs :=
  h.refine (fun x hx hp => .inl (hpass x hx hp)) hgoal

theorem ComesTo.exists_mem {xs : List V} (h : ComesTo pass goal xs) : ∃ x ∈ xs, goal x := by
  induction xs with
  | nil => exact h.elim
  | cons x xs ih =>
    rcases h with h | ⟨-, h⟩
    · exact ⟨x, List.mem_cons_self, h⟩
    · obtain ⟨y, hy, hgoal⟩ := ih h
      exact ⟨y, List.mem_cons_of_mem _ hy, hgoal⟩

theorem comesTo_mem {xs : List V} (hpass : ∀ x ∈ xs, pass x) {y : V} (hy : y ∈ xs) :
    ComesTo pass (· = y) xs := by
  induction xs with
  | nil => cases hy
  | cons x xs ih =>
    rw [List.forall_mem_cons] at hpass
    rcases List.mem_cons.1 hy with rfl | hy
    · exact .inl rfl
    · exact .inr ⟨hpass.1, ih hpass.2 hy⟩

/-- The first of the elements with `goal`. -/
theorem comesTo_of_mem {xs : List V} {y : V} (hy : y ∈ xs) (hgoal : goal y) :
    ComesTo (fun x => ¬ goal x) goal xs := by
  have hany : ComesTo (fun _ => True) (· = y) xs := comesTo_mem (fun _ _ => trivial) hy
  exact hany.refine (fun x _ _ => (em (goal x)).symm) (by rintro _ - rfl; exact hgoal)

theorem ComesTo.exists_first {xs : List V} (h : ComesTo pass goal xs) : ∃ y, goal y ∧ ComesTo pass (· = y) xs := by
  induction xs with
  | nil => exact h.elim
  | cons x xs ih =>
    rcases h with h | ⟨hpass, h⟩
    · exact ⟨x, h, .inl rfl⟩
    · obtain ⟨y, hgoal, hy⟩ := ih h
      exact ⟨y, hgoal, .inr ⟨hpass, hy⟩⟩

/-- When each element come to passes or ends the way, all pass or one ends it. -/
theorem forall_or_comesTo {xs : List V} (h : ∀ x, ComesTo pass (· = x) xs → pass x ∨ goal x) :
    (∀ x ∈ xs, pass x) ∨ ComesTo pass goal xs := by
  induction xs with
  | nil => exact .inl (List.forall_mem_nil _)
  | cons x xs ih =>
    rcases h x (.inl rfl) with hx | hx
    · rcases ih fun y hy => h y (.inr ⟨hx, hy⟩) with hall | hto
      · exact .inl (List.forall_mem_cons.2 ⟨hx, hall⟩)
      · exact .inr (.inr ⟨hx, hto⟩)
    · exact .inr (.inl hx)

/-- What holds of every element come to holds of those on the way. -/
theorem ComesTo.along {xs : List V} (h : ComesTo pass goal xs) (hgood : ∀ x, ComesTo pass (· = x) xs → good x) :
    ComesTo (fun x => pass x ∧ good x) (fun x => goal x ∧ good x) xs := by
  induction xs with
  | nil => exact h
  | cons x xs ih =>
    have hx := hgood x (.inl rfl)
    rcases h with h | ⟨hpass, h⟩
    · exact .inl ⟨h, hx⟩
    · exact .inr ⟨⟨hpass, hx⟩, ih h fun y hy => hgood y (.inr ⟨hpass, hy⟩)⟩

end ComesTo

/-! ## Computations that make calls -/

section Follows
variable {V : Type} {passes halts : V → Prop} {K : Stop E → Prop}

/-- `c` makes the calls `vs` one after the other: it returns when all of them
do, and fails as the first of them that fails. -/
structure Follows (passes halts : V → Prop) (K : Stop E → Prop) (vs : List V)
    (c : Nat → Except (Stop E) α) (Q : α → Prop) : Prop where
  returns : (∀ v ∈ vs, passes v) → Returns c Q
  fails : ComesTo passes halts vs → Fails c K

namespace Follows

theorem ret {Q : α → Prop} {a : α} (h : Q a) : Follows (E := E) passes halts K [] (fun _ => .ok a) Q where
  returns _ := .ret h
  fails h := h.elim

/-- The call `v` itself. -/
theorem one {v : V} {c : Nat → Except (Stop E) α} {Q : α → Prop} (hp : passes v → Returns c Q)
    (hh : halts v → Fails c K) : Follows passes halts K [v] c Q where
  returns h := hp (h v (List.mem_singleton_self v))
  fails h := by
    rcases h with h | ⟨-, h⟩
    · exact hh h
    · exact h.elim

theorem bind {vs us : List V} {c : Nat → Except (Stop E) α} {k : Nat → α → Except (Stop E) β} {Q : α → Prop}
    {R : β → Prop} (h : Follows passes halts K vs c Q)
    (hk : ∀ a, Q a → Follows passes halts K us (fun n => k n a) R) :
    Follows passes halts K (vs ++ us) (fun n => c n >>= k n) R where
  returns hall := by
    rw [List.forall_mem_append] at hall
    exact (h.returns hall.1).bind fun a ha => (hk a ha).returns hall.2
  fails hfirst := by
    rcases comesTo_append.1 hfirst with hfirst | ⟨hall, hfirst⟩
    · exact (h.fails hfirst).bind
    · exact (h.returns hall).fails fun a ha => (hk a ha).fails hfirst

/-- A sequence whose second part makes no call. -/
theorem andThen {vs : List V} {c : Nat → Except (Stop E) α} {k : α → β} {Q : α → Prop} {R : β → Prop}
    (h : Follows passes halts K vs c Q) (hk : ∀ a, Q a → R (k a)) :
    Follows passes halts K vs (fun n => c n >>= fun a => .ok (k a)) R := by
  have hboth := h.bind (k := fun _ a => .ok (k a)) fun a ha => .ret (hk a ha)
  rwa [List.append_nil] at hboth

/-- A loop whose rounds make the calls `g x` and keep `I`. -/
theorem foldlM {I : β → Prop} (f : Nat → β → α → Except (Stop E) β) (g : α → List V) (xs : List α)
    (hf : ∀ x ∈ xs, ∀ s, I s → Follows passes halts K (g x) (fun n => f n s x) I) (s : β) (hs : I s) :
    Follows passes halts K (xs.flatMap g) (fun n => xs.foldlM (f n) s) I := by
  induction xs generalizing s with
  | nil => exact .ret hs
  | cons x xs ih =>
    rw [List.forall_mem_cons] at hf
    simp only [List.foldlM_cons, List.flatMap_cons]
    exact (hf.1 s hs).bind fun s' hs' => ih hf.2 s' hs'

end Follows

end Follows

end EnvoyProxy
