import EnvoyProxy.Rider.Kept
/-!
# The gate of the headers and the body

Whether a plugin takes part in a message is decided by its headers (`gate`),
but the callbacks of version 2 for data do not ask. `headers_cover_body` says
for which plugins and routes all Lua code has the headers of its message.
-/

namespace EnvoyProxy.Rider
open Json Http StreamWrapper HeaderMap

variable {H : Type} [HeaderMap H]

/-- Code that runs for a message has its headers, which were shown to the
plugin, and so has every wrapper. -/
structure Covered (s : Stream H) : Prop where
  wrappers : ∀ d w, (s.side d).streamWrapper = some w → w.headers = true ∧ (s.side d).headers = true
  entries : ∀ e ∈ s.entered, e.headers = true ∧ (s.side e.direction).headers = true

/-- The gate is open. For a response it is when the request has come this way
and found a configuration. -/
def Shown (plugin : Plugin) (route : Route) (begun : Bool) : StreamDirection → Prop
  | .downstreamToUpstream => plugin.allowNoRoute = true ∨ route ≠ .none
  | .upstreamToDownstream => plugin.allowNoRoute = true ∨ begun = true ∧ route = .withConfig

/-- `Covered`, and why it stays. -/
structure Gated (plugin : Plugin) (route : Route) (begun : Bool) (s : Stream H) : Prop extends Covered s where
  shown : ∀ d, plugin.version = .v2 → plugin.onBody d = true → Unfinished (s.side d).pipe → (s.side d).headers = true
  sameRoute : s.route = route
  config : begun = true → route = .withConfig → s.routeConfig = true

/-- While a call of the wrapper runs. -/
structure GatedCall (plugin : Plugin) (route : Route) (begun : Bool) (d : StreamDirection) (w : StreamWrapper) (s : Stream H) :
    Prop extends Gated plugin route begun s where
  headers : w.headers = true
  side : (s.side d).headers = true

section Kept
variable {plugin : Plugin} {route : Route} {begun : Bool} {d : StreamDirection}

omit [HeaderMap H] in
/-- Sides whose headers, wrappers and pipes stay are still covered. -/
theorem Gated.setSide {s : Stream H} (hs : Gated plugin route begun s) (side : Side H)
    (hwrapper : ∀ w, side.streamWrapper = some w → w.headers = true ∧ side.headers = true)
    (hheaders : (s.side d).headers = true → side.headers = true)
    (hshown : plugin.version = .v2 → plugin.onBody d = true → Unfinished side.pipe → side.headers = true) :
    Gated plugin route begun (s.setSide d side) := by
  refine ⟨⟨?_, ?_⟩, ?_, ?_, ?_⟩
  · intro d' w hw
    by_cases hd : d' = d
    · subst hd
      rw [Stream.side_setSide] at hw ⊢
      exact hwrapper w hw
    · rw [Stream.side_setSide_ne hd] at hw ⊢
      exact hs.wrappers d' w hw
  · intro e he
    obtain ⟨h, hside⟩ := hs.entries e (by cases d <;> exact he)
    refine ⟨h, ?_⟩
    by_cases hd : e.direction = d
    · rw [hd, Stream.side_setSide]
      exact hheaders (hd ▸ hside)
    · rw [Stream.side_setSide_ne hd]
      exact hside
  · intro d' hversion hbody hunfinished
    by_cases hd : d' = d
    · subst hd
      rw [Stream.side_setSide] at hunfinished ⊢
      exact hshown hversion hbody hunfinished
    · rw [Stream.side_setSide_ne hd] at hunfinished ⊢
      exact hs.shown d' hversion hbody hunfinished
  · cases d <;> exact hs.sameRoute
  · cases d <;> exact hs.config

omit [HeaderMap H] in
/-- What is not looked at may change. -/
theorem Gated.congr {s t : Stream H} (hs : Gated plugin route begun s) (hrequest : t.request = s.request)
    (hresponse : t.response = s.response) (hroute : t.route = s.route) (hconfig : t.routeConfig = s.routeConfig)
    (hentries : ∀ e ∈ t.entered, e ∈ s.entered ∨ e.headers = true ∧ (s.side e.direction).headers = true) :
    Gated plugin route begun t := by
  have hside : ∀ d, t.side d = s.side d := by
    intro d
    cases d
    · exact hrequest
    · exact hresponse
  refine ⟨⟨?_, ?_⟩, ?_, hroute.trans hs.sameRoute, ?_⟩
  · intro d w hw
    rw [hside] at hw ⊢
    exact hs.wrappers d w hw
  · intro e he
    rw [hside]
    rcases hentries e he with he | he
    · exact hs.entries e he
    · exact he
  · intro d
    rw [hside]
    exact hs.shown d
  · rw [hconfig]
    exact hs.config

omit [HeaderMap H] in
theorem GatedCall.congr {w : StreamWrapper} {s t : Stream H} (hi : GatedCall plugin route begun d w s)
    (hrequest : t.request = s.request) (hresponse : t.response = s.response) (hroute : t.route = s.route)
    (hconfig : t.routeConfig = s.routeConfig)
    (hentries : ∀ e ∈ t.entered, e ∈ s.entered ∨ e.direction = d ∧ e.headers = w.headers) :
    GatedCall plugin route begun d w t := by
  refine ⟨hi.toGated.congr hrequest hresponse hroute hconfig ?_, hi.headers, ?_⟩
  · intro e he
    rcases hentries e he with he | ⟨rfl, he⟩
    · exact .inl he
    · exact .inr ⟨he.trans hi.headers, hi.side⟩
  · have hside := hi.side
    cases d
    · exact (congrArg Side.headers hrequest).trans hside
    · exact (congrArg Side.headers hresponse).trans hside

omit [HeaderMap H] in
/-- An effect without a response. -/
theorem GatedCall.silent {w w' : StreamWrapper} {s s' : Stream H} (he : Effect plugin (silent d) (w, s) (w', s'))
    (hi : GatedCall plugin route begun d w s) : GatedCall plugin route begun d w' s' := by
  have hentered : ∀ x : Entry, x.direction = d → x.headers = w.headers →
      ∀ e ∈ s.entered ++ [x], e ∈ s.entered ∨ e.direction = d ∧ e.headers = w.headers := by
    intro x hd hheaders e he
    rcases List.mem_append.1 he with he | he
    · exact .inl he
    · rw [List.mem_singleton.1 he]
      exact .inr ⟨hd, hheaders⟩
  cases he with
  | wrapper hsame => exact ⟨hi.toGated, hsame.trans hi.headers, hi.side⟩
  | globalCtx | error | raised => exact hi.congr rfl rfl rfl rfl fun e he => .inl he
  | responded hrespond => cases hrespond
  | enterV1 | enter => exact hi.congr rfl rfl rfl rfl (hentered _ rfl rfl)

/-- For a direction whose effects are kept. -/
theorem gated_kept (hshown : plugin.version = .v1 ∨ plugin.onBody d = false ∨ Shown plugin route begun d)
    (heffect : ∀ w s w' s', Effect plugin (filterCallbacks plugin d) (w, s) (w', s') →
    GatedCall plugin route begun d w s →
      GatedCall (H := H) plugin route begun d w' s') :
    Kept (H := H) plugin d (Gated plugin route begun) (GatedCall plugin route begun d) where
  effect := heffect
  side := fun w s w' s' he => he.same.2
  load := by
    intro w s hs hw
    obtain ⟨hheaders, hside⟩ := hs.wrappers d w hw
    exact ⟨hs, hheaders, hside⟩
  store := by
    intro w s hi
    apply hi.toGated.setSide
    · intro w' hw
      cases hw
      exact ⟨hi.headers, hi.side⟩
    · exact id
    · exact fun _ _ _ => hi.side
  gate := by
    intro s hs
    unfold gate
    cases d with
    | upstreamToDownstream => exact hs
    | downstreamToUpstream =>
      dsimp only
      split
      · exact hs
      · exact hs
      · exact ⟨⟨hs.wrappers, hs.entries⟩, hs.shown, hs.sameRoute, fun _ _ => rfl⟩
  setHeaders := by
    intro s hs
    apply hs.setSide
    · exact fun w hw => ⟨(hs.wrappers d w hw).1, rfl⟩
    · exact fun _ => rfl
    · exact fun _ _ _ => rfl
  answered := fun s hs => hs.congr rfl rfl rfl rfl fun e he => .inl he
  passBy := fun s hs => hs.congr rfl rfl rfl rfl fun e he => .inl he
  create := fun e s hs hheaders => ⟨hs, rfl, hheaders⟩
  createData := by
    intro e s hs hnone hversion hbody hunfinished
    have hheaders := hs.shown d hversion hbody hunfinished
    exact ⟨hs, hheaders, hheaders⟩
  pipe := by
    intro bytes s p hs hp
    apply hs.setSide
    · exact hs.wrappers d
    · exact id
    · intro hversion hbody hunfinished
      rcases hp hunfinished with hp | hp
      · exact hs.shown d hversion hbody hp
      · exact hp
  skipped := by
    intro bytes s p hs hgate
    have hclosed : (gate plugin d s).2 = s ∧ ¬ Shown plugin route begun d := by
      cases d with
      | upstreamToDownstream =>
        refine ⟨rfl, ?_⟩
        simp only [gate, Bool.or_eq_false_iff] at hgate
        rintro (hallow | ⟨hbegun, hroute⟩)
        · simp [hallow] at hgate
        · simp [hs.config hbegun hroute] at hgate
      | downstreamToUpstream =>
        have hroute := hs.sameRoute
        unfold gate at hgate ⊢
        dsimp only at hgate ⊢
        split at hgate
        · rename_i hnone
          refine ⟨by simp, ?_⟩
          rintro (hallow | hsome)
          · simp [hallow] at hgate
          · exact hsome (hroute ▸ hnone)
        · cases hgate
        · cases hgate
    rw [hclosed.1]
    apply hs.setSide
    · exact hs.wrappers d
    · exact id
    · intro hversion hbody _
      rcases hshown with h | h | h
      · exact absurd (hversion.symm.trans h) (by simp)
      · exact absurd (hbody.symm.trans h) (by simp)
      · exact absurd h hclosed.2

theorem gated_response (hshown : plugin.version = .v1 ∨ plugin.onBody .upstreamToDownstream = false ∨
      Shown plugin route begun .upstreamToDownstream) :
    Kept (H := H) plugin .upstreamToDownstream (Gated plugin route begun)
    (GatedCall plugin route begun .upstreamToDownstream) :=
  gated_kept hshown fun _ _ _ _ he hi => GatedCall.silent he hi

/-- A response from within changes nothing for the request. -/
theorem gated_request (hshown : ∀ d, plugin.version = .v1 ∨ plugin.onBody d = false ∨ Shown plugin route begun d) :
    Kept (H := H) plugin .downstreamToUpstream (Gated plugin route begun)
    (GatedCall plugin route begun .downstreamToUpstream) := by
  apply gated_kept (hshown _)
  intro w s w' s' he hi
  rcases he.decoder with hsilent | ⟨rfl, headers, bytes, hrespond⟩
  · exact hi.silent hsilent
  · have hgated : Gated plugin route begun { s with responded := true } :=
      hi.toGated.congr rfl rfl rfl rfl fun e he => .inl he
    refine ⟨(gated_response (hshown _)).respond hgated hrespond, hi.headers, ?_⟩
    exact (congrArg Side.headers (respond_same hrespond).2).trans hi.side

theorem gated_run (hshown : ∀ d, plugin.version = .v1 ∨ plugin.onBody d = false ∨ Shown plugin route
    begun d) {s : Stream H}
    (hs : Gated plugin route begun s) (es : List (Event H)) : Gated plugin route begun (s.run plugin es) := by
  refine run_kept (I := GatedCall plugin route begun) ?_ ?_ hs es
  · intro d
    cases d
    · exact gated_request hshown
    · exact gated_response (hshown _)
  · intro s hs
    have hside : ∀ d, s.onDestroy.side d = (s.side d).onReset := by
      intro d
      cases d <;> rfl
    refine ⟨⟨?_, ?_⟩, ?_, hs.sameRoute, hs.config⟩
    · intro d w hw
      rw [hside] at hw ⊢
      obtain ⟨w', hw', rfl⟩ := Option.map_eq_some_iff.1 hw
      exact hs.wrappers d w' hw'
    · intro e he
      rw [hside]
      exact hs.entries e he
    · intro d
      rw [hside]
      exact hs.shown d

end Kept

/-! ## The claim -/

/-- The request's headers, when they have come this way, and then anything. -/
def events (begun : Bool) (h : H) (endStream : Bool) (es : List (Event H)) : List (Event H) :=
  if begun then .arrival .downstreamToUpstream (.headers h endStream) :: es else es

theorem step_first (plugin : Plugin) (s : Stream H) (d : StreamDirection) (h : H) (e : Bool) (hover : s.over = false)
    (hside : (s.side d).pipe.headers = none) :
    s.step plugin (.arrival d (.headers h e)) = s.receive plugin d (.headers h e) := by
  simp [Stream.step, hover, fits, hside]

omit [HeaderMap H] in
theorem gated_start {plugin : Plugin} {route : Route} {begun : Bool} (hconfig : begun = true → route ≠ .withConfig) :
    Gated plugin route begun ({ route } : Stream H) := by
  refine ⟨⟨?_, by simp⟩, ?_, rfl, ?_⟩
  · intro d w hw
    cases d <;> cases hw
  · intro d _ _ hunfinished
    cases d <;> cases hunfinished.1
  · exact fun hbegun hroute => absurd hroute (hconfig hbegun)

/-- After the request's headers the configuration of the route is known. -/
theorem gated_begun {plugin : Plugin} {route : Route}
    (hshown : ∀ d, plugin.version = .v1 ∨ plugin.onBody d = false ∨ Shown plugin route true d) (h : H) (e : Bool) :
    Gated plugin route true (({ route } : Stream H).receive plugin .downstreamToUpstream (.headers h e)) := by
  by_cases hroute : route = .withConfig
  · subst hroute
    apply (gated_request hshown).receive_shown _ rfl h e
    refine ⟨⟨?_, by rintro _ ⟨⟩⟩, ?_, rfl, fun _ _ => rfl⟩
    · intro d w hw
      cases d <;> cases hw
    · intro d _ _ hunfinished
      cases d <;> cases hunfinished.1
  · exact (gated_request hshown).receive (gated_start fun _ => hroute) _ (fun bytes e heq => by cases heq)

/-- The first part of a body makes a wrapper without headers. -/
theorem data_uncovered {plugin : Plugin} {d : StreamDirection} (hversion : plugin.version = .v2)
    (hbody : plugin.onBody d = true)
    {s : Stream H} (herror : s.error = false) (hover : s.over = false) (hheaders : (s.side d).headers = false)
    (hwrapper : (s.side d).streamWrapper = none) (hpipe : Unfinished (s.side d).pipe)
    (hiteration : (s.side d).pipe.iteration = .Continue) :
    ¬ Covered (s.step plugin (.arrival d (.data [] false))) := by
  have hdata : ∀ v, (doData plugin (filterCallbacks plugin d) v false s).2.2 =
      s.setWrapper d { newWrapper false false with sawBody := true } := by
    intro v
    simp [doData, hversion, hbody, herror, hheaders, hwrapper, onDataV2, newWrapper, keep, Stream.setWrapper]
  intro hcovered
  have hw : ((s.step plugin (.arrival d (.data [] false))).side d).streamWrapper =
      some { newWrapper false false with sawBody := true } := by
    have hfits : fits (s.side d).pipe (.data [] false) = true := by simp [fits, hpipe.1, hpipe.2]
    simp [Stream.step, hover, hfits, Stream.receive, Stream.store, streamFilter,
      StreamFilter.receive, hiteration, hdata, Stream.setWrapper]
  cases (hcovered.wrappers d _ hw).1

/-- A body behind headers that were not shown. -/
theorem body_uncovered {plugin : Plugin} {d : StreamDirection} (hversion : plugin.version = .v2)
    (hbody : plugin.onBody d = true)
    {s : Stream H} (hgate : gate plugin d s = (false, s)) (herror : s.error = false)
    (hover : s.over = false) (hside : s.side d = {})
    (h : H) : ¬ Covered (s.run plugin [.arrival d (.headers h false), .arrival d (.data [] false)]) := by
  have hfirst : s.step plugin (.arrival d (.headers h false)) = s.setSide d
      { pipe := { headers := some h, headersContinued := true, passed := [.headers h false] } } := by
    rw [step_first plugin s d h false hover (by rw [hside])]
    simp [Stream.receive, Stream.store, streamFilter, StreamFilter.receive, hgate, hside,
      Pipe.afterHeaders, Pipe.doHeaders, Pipe.pass,
      arrivalBytes]
  rw [Stream.run, List.foldl_cons, hfirst, List.foldl_cons, List.foldl_nil]
  apply data_uncovered hversion hbody
  · cases d <;> exact herror
  · cases d with
    | downstreamToUpstream => exact hover
    | upstreamToDownstream =>
      have hdestroyed : s.destroyed = false := (Bool.or_eq_false_iff.1 hover).1
      simp [Stream.over, Stream.setSide, hdestroyed, Passed.ends]
  · rw [Stream.side_setSide]
  · rw [Stream.side_setSide]
  · rw [Stream.side_setSide]
    exact ⟨rfl, rfl⟩
  · rw [Stream.side_setSide]

/-- A handler that does nothing. -/
theorem doHeaders_quiet {plugin : Plugin} (hscript : plugin.script = fun _ => .finish)
    (hversion : plugin.version = .v2)
    {s : Stream H} (herror : s.error = false) (hresponded : s.responded = false) :
    let t := (doHeaders plugin (DecoderCallbacks plugin) false s).2
    t.error = false ∧ t.destroyed = s.destroyed ∧ t.response = s.response ∧ t.routeConfig = s.routeConfig := by
  unfold doHeaders
  simp only [hversion]
  unfold doHeadersV2
  cases hheader : plugin.onHeader .downstreamToUpstream with
  | false => simp [hheader, herror, hresponded, Stream.setSide]
  | true =>
    simp [hheader, herror, hresponded, Stream.setSide, startV2, coroutineStart, newWrapper, resume,
      hscript, luaResume,
      caught, keep, Stream.setGlobalCtx]

/-- The headers of a request to a plugin whose code does nothing. -/
theorem request_quiet {plugin : Plugin} (hscript : plugin.script = fun _ => .finish)
    (hversion : plugin.version = .v2) (route : Route)
    (h : H) :
    let t : Stream H := ({ route } : Stream H).receive plugin .downstreamToUpstream (.headers h false)
    t.error = false ∧ t.over = false ∧ t.response = {} ∧ (t.routeConfig = true → route = .withConfig) := by
  have hstored : ∀ (t : Stream H) (p : Pipe H), t.error = false ∧ t.destroyed = false ∧ t.response = {} ∧
      (t.routeConfig = true → route = .withConfig) →
      let u := Stream.store .downstreamToUpstream [] (t, p)
      u.error = false ∧ u.over = false ∧ u.response = {} ∧ (u.routeConfig = true → route = .withConfig) := by
    rintro t p ⟨herror, hdestroyed, hresponse, hconfig⟩
    refine ⟨herror, ?_, hresponse, hconfig⟩
    simp [Stream.over, Stream.store, Stream.setSide, hdestroyed, hresponse]
  have hquiet : ∀ s : Stream H, s.error = false → s.responded = false →
      let t := (doHeaders plugin (DecoderCallbacks plugin) false s).2
      t.error = false ∧ t.destroyed = s.destroyed ∧ t.response = s.response ∧ t.routeConfig = s.routeConfig :=
    fun s => doHeaders_quiet hscript hversion
  apply hstored
  dsimp only [streamFilter, filterCallbacks]
  cases route with
  | none =>
    cases hallow : plugin.allowNoRoute with
    | false => simp [gate, hallow]
    | true => simpa [gate, hallow] using hquiet {} rfl rfl
  | withoutConfig => simpa [gate] using hquiet { route := .withoutConfig } rfl rfl
  | withConfig =>
    obtain ⟨herror, hdestroyed, hresponse, -⟩ := hquiet { route := .withConfig, routeConfig := true } rfl rfl
    exact ⟨herror, hdestroyed, hresponse, fun _ => rfl⟩

theorem covered_run {plugin : Plugin} {route : Route} {begun : Bool}
    (hshown : ∀ d, plugin.version = .v1 ∨ plugin.onBody d = false ∨ Shown plugin route begun d)
    (h : H) (e : Bool) (es : List (Event H)) :
    Covered (Stream.run plugin { route } (events begun h e es)) := by
  cases begun with
  | false => exact (gated_run hshown (gated_start (by simp)) es).toCovered
  | true =>
    have hfirst := gated_begun hshown h e
    rw [← step_first _ _ .downstreamToUpstream h e rfl rfl] at hfirst
    exact (gated_run hshown hfirst es).toCovered

/-- A run behind a closed gate, for code that does nothing. -/
theorem uncovered_run (plugin : Plugin) (hscript : plugin.script = fun _ => .finish)
    (hversion : plugin.version = .v2)
    {d : StreamDirection} (hbody : plugin.onBody d = true) {route : Route} {begun : Bool}
    (hclosed : ¬ Shown plugin route begun d) (h : H) :
    ∃ es, ¬ Covered (Stream.run plugin { route } (events begun h false es)) := by
  cases d with
  | downstreamToUpstream =>
    obtain ⟨hallow, rfl⟩ : plugin.allowNoRoute = false ∧ route = .none := by simpa [Shown] using hclosed
    have hrun := body_uncovered (s := {}) hversion hbody (by simp [gate, hallow]) rfl rfl rfl h
    cases begun with
    | false => exact ⟨_, hrun⟩
    | true => exact ⟨[.arrival .downstreamToUpstream (.data [] false)], hrun⟩
  | upstreamToDownstream =>
    obtain ⟨hallow, hconfig⟩ : plugin.allowNoRoute = false ∧ (begun = true → route ≠ .withConfig) :=
      by simpa [Shown] using hclosed
    refine ⟨[.arrival .upstreamToDownstream (.headers h false), .arrival .upstreamToDownstream (.data [] false)], ?_⟩
    cases begun with
    | false => exact body_uncovered hversion hbody (by simp [gate, hallow]) rfl rfl rfl h
    | true =>
      obtain ⟨herror, hover, hresponse, hloaded⟩ := request_quiet hscript hversion route h
      rw [events, if_pos rfl, Stream.run, List.foldl_cons, step_first _ _ _ _ _ rfl rfl]
      apply body_uncovered hversion hbody _ herror hover hresponse h
      have hconfig := Bool.eq_false_iff.2 fun h => hconfig rfl (hloaded h)
      unfold gate
      rw [hallow, hconfig]
      rfl

/-- Lua code runs for a body only when the headers have been shown, for any code
and every stream on a route, exactly when the gate is open for each direction
that has a handler for the body. -/
theorem headers_cover_body (plugin : Plugin) (route : Route) (begun : Bool) :
    (∀ script (h : H) endStream es,
        Covered (Stream.run { plugin with script } { route } (events begun h endStream es))) ↔
      ∀ d, plugin.version = .v1 ∨ plugin.onBody d = false ∨ Shown plugin route begun d := by
  constructor
  · intro hcovered d
    by_contra hnot
    simp only [not_or, Bool.not_eq_false] at hnot
    obtain ⟨hversion, hbody, hclosed⟩ := hnot
    have hversion : plugin.version = .v2 := by
      cases h : plugin.version with
      | v1 => exact absurd h hversion
      | v2 => rfl
    obtain ⟨es, hrun⟩ := uncovered_run { plugin with script := fun _ => .finish } rfl hversion hbody
      hclosed (copyFrom [] : H)
    exact hrun (hcovered _ _ _ es)
  · intro hshown script h endStream es
    apply covered_run
    exact hshown

/-- Without a route the plugin does not get the headers, and its handler for the
body runs without any. -/
theorem body_without_headers :
    let plugin : Plugin := { version := .v2, onRequestBody := true, script := fun _ => .finish }
    let s : Stream HeaderList := Stream.run plugin {}
      [.arrival .downstreamToUpstream (.headers [] false), .arrival .downstreamToUpstream (.data [120] true)]
    s.request.headers = false ∧
      s.entered = [{ direction := .downstreamToUpstream, handler := .body, headers := false, resumable := true, alive := true,
                     globalCtx := some (.filter 0), bufferedBody := some [120] }] ∧
      ¬ Covered s := by
  intro plugin s
  have hentered : s.entered =
      [{ direction := .downstreamToUpstream, handler := .body, headers := false, resumable := true, alive := true,
         globalCtx := some (.filter 0), bufferedBody := some [120] }] := by decide
  refine ⟨by decide, hentered, ?_⟩
  intro hcovered
  have hmem := hcovered.entries
  rw [hentered] at hmem
  cases (hmem _ (List.mem_singleton_self _)).1

end EnvoyProxy.Rider
