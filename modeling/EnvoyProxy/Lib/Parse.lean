import Mathlib.Data.List.Basic
import Mathlib.Data.List.Forall2
/-!
# Reading back what was written

A parser takes what it needs from the front of its input and leaves the rest.
`Reads p text x`: in front of anything, `p` reads `x` from `text` and leaves
what was behind it. Texts that can be read one by one can be read one after
the other, so a format is read back piece by piece.
-/

namespace EnvoyProxy

variable {α β γ : Type}

/-- A parser: the value and the rest of the input, or nothing. -/
abbrev Parser (α β : Type) := StateT (List α) Option β

def Reads (p : Parser α β) (text : List α) (x : β) : Prop := ∀ rest, p.run (text ++ rest) = some (x, rest)

namespace Reads

theorem pure (x : β) : Reads (Pure.pure x : Parser α β) [] x := fun _ => rfl

theorem bind {p : Parser α β} {f : β → Parser α γ} {text text' : List α} {x : β} {y : γ} (hp : Reads p text x)
    (hf : Reads (f x) text' y) : Reads (p >>= f) (text ++ text') y := by
  intro rest
  rw [List.append_assoc, StateT.run_bind, hp]
  exact hf rest

theorem map {p : Parser α β} {text : List α} {x : β} (hp : Reads p text x) (f : β → γ) :
    Reads (do return f (← p)) text (f x) := by
  have h := hp.bind (f := fun x => Pure.pure (f x)) (Reads.pure (f x))
  rwa [List.append_nil] at h

/-- All of the input is read. -/
theorem run_eq {p : Parser α β} {text : List α} {x : β} (h : Reads p text x) : p.run text = some (x, []) := by
  have := h []
  rwa [List.append_nil] at this

end Reads

/-- The next element. -/
def next : Parser α α := fun
  | [] => none
  | a :: rest => some (a, rest)

theorem reads_next (a : α) : Reads next [a] a := fun _ => rfl

/-- `n` items, one after the other. -/
def items (p : Parser α β) : Nat → Parser α (List β)
  | 0 => pure []
  | n + 1 => do
    let x ← p
    let xs ← items p n
    return x :: xs

theorem reads_items {p : Parser α β} {γ : Type} (text : γ → List α) (value : γ → β) (cs : List γ)
    (h : ∀ c ∈ cs, Reads p (text c) (value c)) : Reads (items p cs.length) (cs.flatMap text) (cs.map value) := by
  induction cs with
  | nil => exact Reads.pure []
  | cons c cs ih =>
    have hrest := ih fun c' hc' => h c' (List.mem_cons_of_mem _ hc')
    exact (h c List.mem_cons_self).bind (hrest.map (value c :: ·))

/-- Items up to a terminator, at most `fuel` of them. -/
def itemsUntil [DecidableEq α] (stop : α) (p : Parser α β) : Nat → Parser α (List β)
  | 0 => failure
  | fuel + 1 => fun input =>
    match input with
    | [] => none
    | a :: rest =>
      if a = stop then some ([], rest)
      else (do
        let x ← p
        let xs ← itemsUntil stop p fuel
        return x :: xs).run input

theorem reads_itemsUntil [DecidableEq α] {stop : α} {p : Parser α β} {γ : Type} (text : γ → List α) (value : γ → β)
    {cs : List γ} (h : ∀ c ∈ cs, Reads p (text c) (value c)) (hstart : ∀ c ∈ cs, ∃ a as, text c = a :: as ∧ a ≠ stop)
    {fuel : Nat} (hfuel : cs.length < fuel) :
    Reads (itemsUntil stop p fuel) (cs.flatMap text ++ [stop]) (cs.map value) := by
  induction cs generalizing fuel with
  | nil =>
    obtain ⟨fuel, rfl⟩ : ∃ k, fuel = k + 1 := ⟨fuel - 1, by simp at hfuel; omega⟩
    intro rest
    exact if_pos rfl
  | cons c cs ih =>
    obtain ⟨fuel, rfl⟩ : ∃ k, fuel = k + 1 := ⟨fuel - 1, by simp at hfuel; omega⟩
    have hrest := ih (fun c' hc' => h c' (List.mem_cons_of_mem _ hc'))
      (fun c' hc' => hstart c' (List.mem_cons_of_mem _ hc')) (show cs.length < fuel by simpa using hfuel)
    obtain ⟨a, as, hc, hne⟩ := hstart c List.mem_cons_self
    have hread : Reads (do let x ← p; let xs ← itemsUntil stop p fuel; return x :: xs)
        (text c ++ (cs.flatMap text ++ [stop])) (value c :: cs.map value) :=
      (h c List.mem_cons_self).bind (hrest.map (value c :: ·))
    intro rest
    have hrun := hread rest
    simp only [List.flatMap_cons, List.append_assoc, hc, List.cons_append] at hrun ⊢
    -- the item does not begin with the terminator
    exact (if_neg hne).trans hrun

end EnvoyProxy
