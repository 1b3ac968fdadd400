import EnvoyProxy.HeaderRewrite.Rewriter
/-!
# Rewriters that throw

A rewriter whose template cannot be rendered has nothing to write. All but one
kind find that out before they touch the request: updating a header removes
the old values first, and they are gone when the rendering throws.
-/

namespace EnvoyProxy.HeaderRewrite
open Http

variable {H T : Type} [TextHeaders H] (env : TemplateEnv T)

/-- The rewriter is reached, renders its template and the rendering throws. -/
def Rewriter.Throws (r : Rewriter H T) (c : ContextDict) (s : Request H) : Prop :=
  r.enableRewrite s.headers = true ∧ r.operation ≠ .remove ∧ ∃ what, env.render r.template c = .error what

/-- The rewriter updates a header that the request has. -/
def Rewriter.ReplacesHeader (r : Rewriter H T) (s : Request H) : Prop :=
  ∃ text name, r.operation = .update text ∧ r.target = .headerName name ∧ TextHeaders.get s.headers (toLower name) ≠ []

variable {env}

omit [TextHeaders H] in
theorem render_of_error {template : T} {c : ContextDict} {what : Bytes} (h : env.render template c = .error what) :
    render env template c = (throw what : EStateM Bytes (Request H) Bytes) := by
  unfold render
  rw [h]

/-- A header that is updated is removed although nothing can be added. -/
theorem Rewriter.rewrite_update_header {r : Rewriter H T} {c : ContextDict} {s : Request H} {text name : Bytes}
    (ho : r.operation = .update text) (ht : r.target = .headerName name) (h : r.Throws env c s) :
    r.rewrite env c s = { s with headers := TextHeaders.remove s.headers (toLower name) } := by
  obtain ⟨henabled, -, what, hwhat⟩ := h
  unfold rewrite rewriterFunc
  rw [ho, ht]
  simp only [henabled, if_true, render_of_error hwhat]
  rfl

/-- Any other rewriter that throws does so before it writes. -/
theorem Rewriter.rewrite_of_throws {r : Rewriter H T} {c : ContextDict} {s : Request H} (h : r.Throws env c s)
    (hother : ∀ text name, r.operation = .update text → r.target ≠ .headerName name) : r.rewrite env c s = s := by
  obtain ⟨henabled, hremove, what, hwhat⟩ := h
  unfold rewrite rewriterFunc
  cases ho : r.operation with
  | remove => exact absurd ho hremove
  | append text =>
    cases ht : r.target with
    | headerName name | path | parameter name =>
      simp only [henabled, if_true, render_of_error hwhat]
      rfl
  | update text =>
    cases ht : r.target with
    | headerName name => exact absurd ht (hother text name ho)
    | path | parameter name =>
      simp only [henabled, if_true, render_of_error hwhat]
      rfl

/-- Removing a header shows exactly if it was there. -/
theorem remove_eq_iff (h : H) (name : Bytes) : TextHeaders.remove h name = h ↔ TextHeaders.get h name = [] := by
  constructor
  · intro heq
    rw [← heq]
    exact TextHeaders.get_remove h name
  · exact TextHeaders.remove_absent h name

theorem Rewriter.rewrite_eq_iff {r : Rewriter H T} {c : ContextDict} {s : Request H} (h : r.Throws env c s) :
    r.rewrite env c s = s ↔ ¬ r.ReplacesHeader s := by
  by_cases hupdate : ∃ text name, r.operation = .update text ∧ r.target = .headerName name
  · obtain ⟨text, name, ho, ht⟩ := hupdate
    have hreplaces : r.ReplacesHeader s ↔ TextHeaders.get s.headers (toLower name) ≠ [] := by
      constructor
      · rintro ⟨_, name', -, ht', hpresent⟩
        rw [ht] at ht'
        cases ht'
        exact hpresent
      · intro hpresent
        exact ⟨text, name, ho, ht, hpresent⟩
    rw [rewrite_update_header ho ht h, hreplaces, not_not, ← remove_eq_iff]
    constructor
    · intro heq
      exact congrArg Request.headers heq
    · intro heq
      rw [heq]
  · have hsame : r.rewrite env c s = s := by
      apply rewrite_of_throws h
      intro text name ho ht
      exact hupdate ⟨text, name, ho, ht⟩
    have hnot : ¬ r.ReplacesHeader s := by
      rintro ⟨text, name, ho, ht, -⟩
      exact hupdate ⟨text, name, ho, ht⟩
    exact ⟨fun _ => hnot, fun _ => hsame⟩

variable (env)

/-! ## Lists of rewriters -/

theorem rewriteEach_append (front back : List (Rewriter H T)) (c : ContextDict) (s : Request H) :
    rewriteEach env (front ++ back) c s = rewriteEach env back c (rewriteEach env front c s) := List.foldl_append

theorem rewriteEach_snoc (front : List (Rewriter H T)) (r : Rewriter H T) (c : ContextDict) (s : Request H) :
    rewriteEach env (front ++ [r]) c s = r.rewrite env c (rewriteEach env front c s) := rewriteEach_append env front [r] c s

theorem rewriteEach_middle (front back : List (Rewriter H T)) (r : Rewriter H T) (c : ContextDict) (s : Request H) :
    rewriteEach env (front ++ r :: back) c s =
      rewriteEach env back c (r.rewrite env c (rewriteEach env front c s)) :=
  rewriteEach_append env front (r :: back) c s

/-- Every rewriter that throws leaves the request as it was, and those after
it go on from there, exactly if none of them was to replace a header. -/
theorem atomic_iff (rewriters : List (Rewriter H T)) (c : ContextDict) (s : Request H) :
    (∀ front r back, rewriters = front ++ r :: back → r.Throws env c (rewriteEach env front c s) →
      rewriteEach env (front ++ [r]) c s = rewriteEach env front c s ∧
        rewriteEach env rewriters c s = rewriteEach env back c (rewriteEach env front c s)) ↔
    ∀ front r back, rewriters = front ++ r :: back → r.Throws env c (rewriteEach env front c s) →
      ¬ r.ReplacesHeader (rewriteEach env front c s) := by
  constructor
  · intro hatomic front r back hsplit hthrows
    have hsame := (hatomic front r back hsplit hthrows).1
    rw [rewriteEach_snoc] at hsame
    exact (Rewriter.rewrite_eq_iff hthrows).1 hsame
  · intro hnone front r back hsplit hthrows
    have hsame := (Rewriter.rewrite_eq_iff hthrows).2 (hnone front r back hsplit hthrows)
    constructor
    · rw [rewriteEach_snoc, hsame]
    · rw [hsplit, rewriteEach_middle, hsame]

/-- Templates that use something that is not in the context. -/
def brokenTemplates : TemplateEnv Bytes where
  parse := .ok
  render _ _ := .error (ascii "variable 'user' not found")

def userUpdate : Rewriter HeaderTexts Bytes where
  target := .headerName (ascii "X-User")
  operation := .update (ascii "\x7b\x7buser\x7d\x7d")
  template := ascii "\x7b\x7buser\x7d\x7d"
  matcher := none

def fromBob : Request HeaderTexts := ⟨[(ascii "x-user", ascii "bob")], ascii "/", ∅⟩

/-- The request came with a user and goes on without. -/
theorem user_lost :
    ¬ ∀ front r back, [userUpdate] = front ++ r :: back →
      r.Throws brokenTemplates ∅ (rewriteEach brokenTemplates front ∅ fromBob) →
      rewriteEach brokenTemplates (front ++ [r]) ∅ fromBob = rewriteEach brokenTemplates front ∅ fromBob ∧
        rewriteEach brokenTemplates [userUpdate] ∅ fromBob =
          rewriteEach brokenTemplates back ∅ (rewriteEach brokenTemplates front ∅ fromBob) := by
  intro hatomic
  have hthrows : userUpdate.Throws brokenTemplates ∅ fromBob := ⟨rfl, by rintro ⟨⟩, _, rfl⟩
  have hheaders := congrArg Request.headers (hatomic [] userUpdate [] rfl hthrows).1
  exact absurd hheaders (by decide)

end EnvoyProxy.HeaderRewrite
