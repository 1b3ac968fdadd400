import EnvoyProxy.HeaderRewrite.Query
/-!
# The header rewrite filter

`Filter::decodeHeaders` and `encodeHeaders`. The common configuration comes
first, then that of the route. Path and query are taken apart before any
rewriter runs. If a rewriter of the path or of a parameter is configured the
two are put together again afterwards, whether or not it has done anything, so
a query goes through the map even if no rewriter touches it.
-/

namespace EnvoyProxy.HeaderRewrite
open Http

structure RouteConfig (H R T : Type) where
  config : HeaderRewriteConfig H R T
  disabled : Bool

/-- The request and the members of the filter after `decodeHeaders`. The
request has `path_` and `parameter_`. -/
structure Decoded (H : Type) where
  request : Request H
  renderContext : ContextDict
  clearRouteCache : Bool

variable {H R T : Type}

section Model
variable [TextHeaders H] [TextHeaders R] (u : QueryUtility) (env : TemplateEnv T)

/-- `extractContext`, then `rewriteHeaders`. -/
def ExtractorRewriterConfig.run (config : ExtractorRewriterConfig H T) (s : Request H) (c : ContextDict) :
    Request H × ContextDict :=
  (config.rewriteHeaders env s (config.extractContext s c), config.extractContext s c)

/-- Puts `:path` together from `path_` and `parameter_`, if it would be updated. -/
def writePath (wouldUpdatePath : Bool) (s : Request H) : Request H :=
  if wouldUpdatePath then
    { s with headers := TextHeaders.setPath s.headers (s.path ++ u.queryParamsToString s.params) }
  else s

variable (config : HeaderRewriteConfig H R T) (route : Option (RouteConfig H R T))

def decodeHeaders (headers : H) : Decoded H :=
  let pathWithQuery := (pathOf headers).getD []
  let start : Request H := ⟨headers, u.removeQueryAndFragment pathWithQuery, u.parseQueryString pathWithQuery⟩
  if route.any (·.disabled) then ⟨start, ∅, false⟩
  else
    let common := config.decoder.run env start ∅
    let (s, c) :=
      match route with
      | some r => r.config.decoder.run env common.1 common.2
      | none => common
    let wouldUpdatePath := config.decoder.wouldUpdatePath || route.any (·.config.decoder.wouldUpdatePath)
    let clearRouteCache := config.clearRouteCache || route.any (·.config.clearRouteCache)
    ⟨writePath u wouldUpdatePath s, c, clearRouteCache⟩

/-- The response headers, with the members of the filter. -/
def encodeHeaders (d : Decoded H) (headers : R) : Request R × ContextDict :=
  let start : Request R := ⟨headers, d.request.path, d.request.params⟩
  if route.any (·.disabled) then (start, d.renderContext)
  else
    let common := config.encoder.run env start d.renderContext
    match route with
    | some r => r.config.encoder.run env common.1 common.2
    | none => common

/-- `:path` is put together again. -/
def writesPath : Bool :=
  !route.any (·.disabled) && (config.decoder.wouldUpdatePath || route.any (·.config.decoder.wouldUpdatePath))

end Model

/-! ## What a rewriter can do -/

/-- Only what the target names has changed. -/
def Target.Changes (s s' : Request H) : Target → Prop
  | .headerName _ => ∃ headers, s' = { s with headers }
  | .path => ∃ path, s' = { s with path }
  | .parameter name => ∃ params, s' = { s with params } ∧ ∀ other, other ≠ name → params[other]? = s.params[other]?

theorem Target.Changes.refl (s : Request H) (t : Target) : t.Changes s s := by
  cases t with
  | headerName name => exact ⟨s.headers, rfl⟩
  | path => exact ⟨s.path, rfl⟩
  | parameter name => exact ⟨s.params, rfl, fun _ _ => rfl⟩

/-- Another name, in the order of the map. -/
theorem compare_ne_eq {name other : Bytes} (h : other ≠ name) : compare name other ≠ .eq :=
  fun he => h (Std.LawfulEqCmp.eq_of_compare he).symm

section Effect
variable [TextHeaders H] {env : TemplateEnv T}

omit [TextHeaders H] in
/-- A text that can be rendered is written; otherwise nothing is. -/
theorem render_then (template : T) (c : ContextDict) (write : Bytes → Request H → Request H) (s : Request H) :
    (render env template c >>= fun value => modify (write value)).run s =
      match env.render template c with
      | .ok value => .ok ⟨⟩ (write value s)
      | .error what => .error what s := by
  unfold render
  cases env.render template c with
  | ok value => rfl
  | error what => rfl

theorem Rewriter.rewrite_changes (r : Rewriter H T) (c : ContextDict) (s : Request H) :
    r.target.Changes s (r.rewrite env c s) := by
  by_cases henabled : r.enableRewrite s.headers = true
  · unfold rewrite rewriterFunc
    cases ht : r.target with
    | headerName name =>
      cases r.operation with
      | remove =>
        simp only [henabled, if_true]
        exact ⟨_, rfl⟩
      | append text =>
        simp only [henabled, if_true, render_then]
        cases env.render r.template c with
        | ok value => exact ⟨_, rfl⟩
        | error what => exact .refl s _
      | update text =>
        simp only [henabled, if_true]
        unfold render
        cases env.render r.template c with
        | ok value => exact ⟨_, rfl⟩
        | error what => exact ⟨_, rfl⟩
    | path =>
      cases r.operation with
      | remove => exact .refl s .path
      | append text | update text =>
        simp only [henabled, if_true, render_then]
        cases env.render r.template c with
        | ok value => exact ⟨_, rfl⟩
        | error what => exact .refl s _
    | parameter name =>
      cases r.operation with
      | remove =>
        simp only [henabled, if_true]
        refine ⟨_, rfl, fun other hne => ?_⟩
        rw [Std.TreeMap.getElem?_erase, if_neg (compare_ne_eq hne)]
      | append text | update text =>
        simp only [henabled, if_true, render_then]
        cases env.render r.template c with
        | ok value =>
          refine ⟨_, rfl, fun other hne => ?_⟩
          rw [Std.TreeMap.getElem?_insert, if_neg (compare_ne_eq hne)]
        | error what => exact .refl s _
  · have hsame : r.rewrite env c s = s := by
      unfold rewrite
      cases r.rewriterFunc env with
      | none => rfl
      | some f => exact if_neg henabled
    rw [hsame]
    exact .refl s _

/-! ## What rewriters leave alone -/

/-- Rewriters of headers do not touch the path and the parameters. -/
theorem rewriteEach_headers {rewriters : List (Rewriter H T)}
    (h : ∀ r ∈ rewriters, ∃ name, r.target = .headerName name)
    (c : ContextDict) (s : Request H) : ∃ headers, rewriteEach env rewriters c s = { s with headers } := by
  induction rewriters generalizing s with
  | nil => exact ⟨s.headers, rfl⟩
  | cons r rewriters ih =>
    obtain ⟨name, ht⟩ := h r List.mem_cons_self
    obtain ⟨headers, hr⟩ : (Target.headerName name).Changes s (r.rewrite env c s) := ht ▸ r.rewrite_changes c s
    obtain ⟨headers', hrest⟩ := ih (fun r hr => h r (List.mem_cons_of_mem _ hr)) { s with headers }
    exact ⟨headers', by rw [← hrest, ← hr]; rfl⟩

/-- The headers are those there were, and so are the parameters with other names. -/
def Leaves (P : Set Bytes) (s s' : Request H) : Prop := s'.headers = s.headers ∧ ∀ name ∉ P, s'.params[name]? = s.params[name]?

/-- The rewriters target the path, or parameters of `P`. -/
def ExtractorRewriterConfig.TargetsOnly (config : ExtractorRewriterConfig H T) (P : Set Bytes) : Prop :=
  ∀ r ∈ config.rewriters, r.target = .path ∨ ∃ name ∈ P, r.target = .parameter name

variable {P : Set Bytes}

omit [TextHeaders H] in
theorem Leaves.trans {s₁ s₂ s₃ : Request H} (h : Leaves P s₁ s₂) (h' : Leaves P s₂ s₃) : Leaves P s₁ s₃ :=
  ⟨h'.1.trans h.1, fun name hname => (h'.2 name hname).trans (h.2 name hname)⟩

theorem Rewriter.rewrite_leaves {r : Rewriter H T} (h : r.target = .path ∨ ∃ name ∈ P, r.target = .parameter name)
    (c : ContextDict) (s : Request H) : Leaves P s (r.rewrite env c s) := by
  have hchanges : r.target.Changes s (r.rewrite env c s) := r.rewrite_changes c s
  rcases h with ht | ⟨name, hname, ht⟩
  · rw [ht] at hchanges
    obtain ⟨path, hpath⟩ := hchanges
    rw [hpath]
    exact ⟨rfl, fun _ _ => rfl⟩
  · rw [ht] at hchanges
    obtain ⟨params, hparams, hothers⟩ := hchanges
    rw [hparams]
    refine ⟨rfl, fun other hother => hothers other ?_⟩
    rintro rfl
    exact hother hname

theorem rewriteEach_leaves {rewriters : List (Rewriter H T)}
    (h : ∀ r ∈ rewriters, r.target = .path ∨ ∃ name ∈ P, r.target = .parameter name)
    (c : ContextDict) (s : Request H) :
    Leaves P s (rewriteEach env rewriters c s) := by
  induction rewriters generalizing s with
  | nil => exact ⟨rfl, fun _ _ => rfl⟩
  | cons r rewriters ih =>
    have hr : Leaves P s (r.rewrite env c s) := Rewriter.rewrite_leaves (h r List.mem_cons_self) c s
    exact hr.trans (ih (fun r hr => h r (List.mem_cons_of_mem _ hr)) _)

theorem ExtractorRewriterConfig.run_leaves {config : ExtractorRewriterConfig H T} (h : config.TargetsOnly P)
    (s : Request H) (c : ContextDict) : Leaves P s (config.run env s c).1 :=
  rewriteEach_leaves h _ s

end Effect

/-! ## Whole messages -/

section Whole
variable {u : QueryUtility} {env : TemplateEnv T} {config : HeaderRewriteConfig H R T} {route : Option (RouteConfig H R T)}

theorem targets_headers {c : ExtractorRewriterConfig H T} (h : c.wouldUpdatePath = false) :
    ∀ r ∈ c.rewriters, ∃ name, r.target = .headerName name := by
  intro r hr
  unfold ExtractorRewriterConfig.wouldUpdatePath at h
  have hnot := List.any_eq_false.1 h r hr
  cases ht : r.target with
  | headerName name => exact ⟨name, rfl⟩
  | path | parameter name => simp [ht] at hnot

/-- On the way back nothing but headers changes: `path_` and `parameter_` are
still those of the request. -/
theorem encodeHeaders_frame [TextHeaders R] (d : Decoded H) (headers : R) :
    (encodeHeaders env config route d headers).1.path = d.request.path ∧
      (encodeHeaders env config route d headers).1.params = d.request.params := by
  have hrun : ∀ (config : HeaderRewriteConfig H R T) (s : Request R) (c : ContextDict),
      (config.encoder.run env s c).1.path = s.path ∧ (config.encoder.run env s c).1.params = s.params := by
    intro config s c
    obtain ⟨headers, hs⟩ : ∃ headers, (config.encoder.run env s c).1 = { s with headers } :=
      rewriteEach_headers (targets_headers config.encodesHeaders) _ s
    rw [hs]
    exact ⟨rfl, rfl⟩
  unfold encodeHeaders
  cases route with
  | none => exact hrun config _ _
  | some r =>
    simp only [Option.any_some]
    split_ifs with hdisabled
    · exact ⟨rfl, rfl⟩
    · have hcommon := hrun config ⟨headers, d.request.path, d.request.params⟩ d.renderContext
      have hroute := hrun r.config
        (config.encoder.run env ⟨headers, d.request.path, d.request.params⟩ d.renderContext).1
        (config.encoder.run env ⟨headers, d.request.path, d.request.params⟩ d.renderContext).2
      exact ⟨hroute.1.trans hcommon.1, hroute.2.trans hcommon.2⟩

variable [TextHeaders H] {P : Set Bytes} {headers : H} {original : Bytes}

/-- What is sent on of a request whose headers were left alone. -/
theorem pathOf_writePath {s : Request H} (hheaders : s.headers = headers)
    (hpath : pathOf headers = some original) (writes : Bool) :
    pathOf (writePath u writes s).headers =
      some (if writes then s.path ++ u.queryParamsToString s.params else original) := by
  cases writes with
  | false => exact hheaders ▸ hpath
  | true =>
    have hpresent : TextHeaders.get s.headers (ascii ":path") ≠ [] := by
      intro hnone
      rw [pathOf, ← hheaders, hnone] at hpath
      cases hpath
    exact congrArg List.head? (TextHeaders.get_setPath s.headers _ hpresent)

@[simp] theorem writePath_path (writes : Bool) (s : Request H) : (writePath u writes s).path = s.path := by
  cases writes <;> rfl

@[simp] theorem writePath_params (writes : Bool) (s : Request H) : (writePath u writes s).params = s.params := by
  cases writes <;> rfl

/-- Rewriters of the path and of `P` leave the other parameters in the map as
they were read, and the path sent on is written from the map or the same. -/
theorem decodeHeaders_leaves (hpath : pathOf headers = some original) (hconfig : config.decoder.TargetsOnly P)
    (hroute : ∀ r ∈ route, r.config.decoder.TargetsOnly P) :
    let d := decodeHeaders u env config route headers
    (∀ name ∉ P, d.request.params[name]? = (u.parseQueryString original)[name]?) ∧
      pathOf d.request.headers = some
        (if writesPath config route then d.request.path ++ u.queryParamsToString d.request.params
        else original) := by
  -- what the last step makes of what the rewriters have left
  have hwritten : ∀ (s : Request H) (writes : Bool),
      Leaves P ⟨headers, u.removeQueryAndFragment original, u.parseQueryString original⟩ s →
      (∀ name ∉ P, (writePath u writes s).params[name]? = (u.parseQueryString original)[name]?) ∧
        pathOf (writePath u writes s).headers =
          some (if writes then (writePath u writes s).path ++ u.queryParamsToString
            (writePath u writes s).params else original) := by
    intro s writes hs
    rw [writePath_params, writePath_path]
    exact ⟨hs.2, pathOf_writePath hs.1 hpath writes⟩
  have hcommon : Leaves P ⟨headers, u.removeQueryAndFragment original, u.parseQueryString original⟩
      (config.decoder.run env ⟨headers, u.removeQueryAndFragment original, u.parseQueryString original⟩ ∅).1 :=
    ExtractorRewriterConfig.run_leaves hconfig _ ∅
  unfold decodeHeaders writesPath
  rw [hpath, Option.getD_some]
  cases route with
  | none => exact hwritten _ _ hcommon
  | some r =>
    cases hdisabled : r.disabled with
    | true =>
      simp only [Option.any_some, hdisabled]
      exact ⟨fun _ _ => rfl, hpath⟩
    | false =>
      simp only [Option.any_some, hdisabled]
      exact hwritten _ _ (hcommon.trans (ExtractorRewriterConfig.run_leaves (hroute r rfl) _ _))

end Whole

end EnvoyProxy.HeaderRewrite
