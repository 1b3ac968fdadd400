import Mathlib
/-!
# Acyclic relations

A relation without cycles on a finite type is well founded, and a function can
then be defined by recursion along it.
-/

namespace EnvoyProxy

variable {α : Type} {R : α → α → Prop}

/-- No point of a finite acyclic relation has an infinite descent. -/
theorem wellFounded_of_acyclic [Finite α] (h : ∀ p, ¬ Relation.TransGen R p p) :
    WellFounded (fun q p => R p q) := by
  have : Std.Irrefl (Relation.TransGen fun q p => R p q) := by
    refine ⟨fun p hp => h p ?_⟩
    rwa [← Relation.transGen_swap] at hp
  have hwf : WellFounded (Relation.TransGen fun q p => R p q) := Finite.wellFounded_of_trans_of_irrefl _
  refine Subrelation.wf (r := Relation.TransGen fun q p => R p q) ?_ hwf
  intro q p hr
  exact .single hr

theorem acyclic_of_wellFounded (hwf : WellFounded fun q p => R p q) (p : α) : ¬ Relation.TransGen R p p := by
  intro h
  have hs : Relation.TransGen (fun q p => R p q) p p := Relation.transGen_swap.2 h
  exact hwf.transGen.irrefl.irrefl p hs

theorem acyclic_of_rank (rank : α → Nat) (h : ∀ p q, R p q → rank q < rank p) (p : α) :
    ¬ Relation.TransGen R p p := by
  have hlt : ∀ q, Relation.TransGen R p q → rank q < rank p := by
    intro q hq
    induction hq with
    | single hr => exact h _ _ hr
    | tail _ hr ih => exact (h _ _ hr).trans ih
  exact fun hp => (hlt p hp).false

/-! ## Recursion along a relation -/

open Classical in
/-- The function `f` with `f p = F p f`, where `F p` looks at `f` only one step
on from `p`. -/
noncomputable def descend {β : Type} (hwf : WellFounded fun q p => R p q) (d : β) (F : α → (α → β) → β) :
    α → β :=
  hwf.fix fun p rec => F p fun q => if h : R p q then rec q h else d

theorem descend_eq {β : Type} (hwf : WellFounded fun q p => R p q) (d : β) (F : α → (α → β) → β)
    (hF : ∀ p f g, (∀ q, R p q → f q = g q) → F p f = F p g) (p : α) :
    descend hwf d F p = F p (descend hwf d F) := by
  rw [descend, hwf.fix_eq]
  apply hF p _ _
  intro q hq
  simp only [dif_pos hq]

end EnvoyProxy
