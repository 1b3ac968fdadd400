import EnvoyProxy.Lib.Fuel
/-!
# Runs of a state machine

A machine is a step function on states and events; a step that throws has no
state behind it. `Reach step C s₀ s`: some run from `s₀` gets to `s`, and each
of its steps met the condition `C` on the state before it and the event. What
holds at the start and is kept by every such step holds in every state a run
reaches. A log of what has happened is a list that grows at its end.
-/

namespace EnvoyProxy

variable {σ ε E : Type}

inductive Reach (step : σ → ε → Except E σ) (C : σ → ε → Prop) (s₀ : σ) : σ → Prop
  | start : Reach step C s₀ s₀
  | next {s s' : σ} {e : ε} : Reach step C s₀ s → C s e → step s e = .ok s' → Reach step C s₀ s'

/-- The run of no steps. -/
theorem reach_start (step : σ → ε → Except E σ) (C : σ → ε → Prop) (s₀ : σ) : Reach step C s₀ s₀ := .start

/-- Every event is allowed. -/
def always : σ → ε → Prop := fun _ _ => True

theorem Reach.invariant {step : σ → ε → Except E σ} {C : σ → ε → Prop} {s₀ s : σ} (I : σ → Prop) (h0 : I s₀)
    (hstep : ∀ s e s', I s → C s e → step s e = .ok s' → I s') (h : Reach step C s₀ s) : I s := by
  induction h with
  | start => exact h0
  | next _ hc hs ih => exact hstep _ _ _ ih hc hs

theorem Reach.mono {step : σ → ε → Except E σ} {C D : σ → ε → Prop} {s₀ s : σ} (h : Reach step C s₀ s)
    (hCD : ∀ s e, C s e → D s e) : Reach step D s₀ s := by
  induction h with
  | start => exact .start
  | next _ hc hs ih => exact ih.next (hCD _ _ hc) hs

/-- The run along a list of events. -/
theorem reach_of_foldlM {step : σ → ε → Except E σ} {s₀ s : σ} (es : List ε) (h : es.foldlM step s₀ = .ok s) :
    Reach step always s₀ s := by
  induction es using List.reverseRecOn generalizing s with
  | nil => cases h; exact .start
  | append_singleton es e ih =>
    rw [List.foldlM_append] at h
    obtain ⟨s₁, hes, h⟩ := bind_eq_ok h
    rw [List.foldlM_cons] at h
    obtain ⟨s₂, he, h⟩ := bind_eq_ok h
    cases h
    exact .next (ih hes) trivial he

/-! ## Machines of parts -/

section Parts
variable {ι : Type} [DecidableEq ι] {step : σ → ε → Except E σ} {C : σ → ε → Prop} {part : ε → ι}

/-- An event goes to one of the parts, and the others stay. -/
def stepPart (step : σ → ε → Except E σ) (part : ε → ι) (s : ι → σ) (e : ε) : Except E (ι → σ) := do
  return Function.update s (part e) (← step (s (part e)) e)

theorem stepPart_eq_ok {s s' : ι → σ} {e : ε} (h : stepPart step part s e = .ok s') :
    ∃ t, step (s (part e)) e = .ok t ∧ s' = Function.update s (part e) t := by
  obtain ⟨t, ht, hs'⟩ := bind_eq_ok h
  cases hs'
  exact ⟨t, ht, rfl⟩

/-- A run of the machine is a run of each of its parts. -/
theorem Reach.project {s₀ s : ι → σ} (h : Reach (stepPart step part) (fun s e => C (s (part e)) e) s₀ s) (i : ι) :
    Reach step C (s₀ i) (s i) := by
  induction h with
  | start => exact .start
  | @next s s' e _ hc hstep ih =>
    obtain ⟨t, ht, rfl⟩ := stepPart_eq_ok hstep
    by_cases hi : i = part e
    · subst hi
      rw [Function.update_self]
      exact ih.next hc ht
    · rwa [Function.update_of_ne hi]

end Parts

/-! ## Machines that never throw -/

/-- Something holds of each event of a run and the state it meets. -/
def EachStep (step : σ → ε → σ) (P : σ → ε → Prop) : σ → List ε → Prop
  | _, [] => True
  | s, e :: es => P s e ∧ EachStep step P (step s e) es

/-- What is the same at each step, as long as an invariant holds, is the same
of runs. The invariant is kept by the steps of which it holds. -/
theorem eachStep_iff_of {step : σ → ε → σ} {P Q : σ → ε → Prop} (I : σ → Prop)
    (hstep : ∀ s e, I s → Q s e → I (step s e))
    (hiff : ∀ s e, I s → (P s e ↔ Q s e)) {s : σ} (hs : I s) (es : List ε) :
    EachStep step P s es ↔ EachStep step Q s es := by
  induction es generalizing s with
  | nil => exact Iff.rfl
  | cons e es ih =>
    unfold EachStep
    rw [hiff s e hs]
    exact and_congr_right fun hq => ih (hstep s e hs hq)

theorem eachStep_iff {step : σ → ε → σ} {P Q : σ → ε → Prop} (I : σ → Prop) (hstep : ∀ s e, I s → I (step s e))
    (hiff : ∀ s e, I s → (P s e ↔ Q s e)) {s : σ} (hs : I s) (es : List ε) :
    EachStep step P s es ↔ EachStep step Q s es :=
  eachStep_iff_of I (fun s e hs _ => hstep s e hs) hiff hs es

/-! ## Logs -/

/-- Something that has happened stands in one of the two parts of a log. -/
theorem split_append {α : Type} {first last pre post : List α} {x : α} (h : first ++ last = pre ++ x :: post) :
    (∃ rest, first = pre ++ x :: rest ∧ post = rest ++ last) ∨ ∃ rest, pre = first ++ rest ∧
    last = rest ++ x :: post := by
  rcases List.append_eq_append_iff.1 h with ⟨rest, hpre, hlast⟩ | ⟨rest, hfirst, hrest⟩
  · exact .inr ⟨rest, hpre, hlast⟩
  · rcases rest with _ | ⟨y, rest⟩
    · exact .inr ⟨[], by simpa using hfirst.symm, hrest.symm⟩
    · obtain ⟨rfl, hpost⟩ := List.cons.inj hrest
      exact .inl ⟨rest, hfirst, hpost⟩

end EnvoyProxy
