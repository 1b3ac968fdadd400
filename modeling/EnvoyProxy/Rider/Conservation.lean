import EnvoyProxy.Rider.Quiet
/-!
# What arrives is passed on

A plugin of version 2 whose code does not respond passes on the body as it
came. The exception is a body handler that gets its frame while nothing has
been stopped: the frame is moved to the buffer, and the buffer is not what
`Continue` lets go then.
-/

namespace EnvoyProxy.Rider
open Json Http StreamWrapper

variable {H : Type} [HeaderMap H]

/-! ## Callbacks -/

/-- What a step of one direction leaves alone. -/
structure Aside (d : StreamDirection) (s t : Stream H) : Prop where
  other : ∀ d', d' ≠ d → t.side d' = s.side d'
  responded : t.responded = s.responded
  error : s.error = true → t.error = true

/-- What a callback leaves alone. -/
structure Acts (d : StreamDirection) (s t : Stream H) : Prop extends Aside d s t where
  pipe : (t.side d).pipe = (s.side d).pipe
  received : (t.side d).received = (s.side d).received

/-- The wrapper of a direction between two events. -/
def Stream.Plain (d : StreamDirection) (s : Stream H) : Prop := ∀ w, (s.side d).streamWrapper = some w → w.Plain s.error

section Acts
omit [HeaderMap H]

theorem Quietly.side {s t : Stream H} (h : Quietly s t) (d : StreamDirection) : t.side d = s.side d := by
  cases d with
  | downstreamToUpstream => exact h.request
  | upstreamToDownstream => exact h.response

theorem Acts.refl (d : StreamDirection) (s : Stream H) : Acts d s s := ⟨⟨fun _ _ => rfl, rfl, id⟩, rfl, rfl⟩

theorem Aside.trans {d : StreamDirection} {s t u : Stream H} (h : Aside d s t) (h' : Aside d t u) : Aside d s u where
  other := fun d' hd => (h'.other d' hd).trans (h.other d' hd)
  responded := h'.responded.trans h.responded
  error := h'.error ∘ h.error

theorem Acts.trans {d : StreamDirection} {s t u : Stream H} (h : Acts d s t) (h' : Acts d t u) : Acts d s u :=
  ⟨h.toAside.trans h'.toAside, h'.pipe.trans h.pipe, h'.received.trans h.received⟩

theorem Aside.setSide (d : StreamDirection) (s : Stream H) (side : Side H) : Aside d s (s.setSide d side) where
  other := fun _ hd => Stream.side_setSide_ne hd s side
  responded := Stream.responded_setSide s d side
  error := fun h => (Stream.error_setSide s d side).trans h

/-- A new side with the old pipe. -/
theorem Acts.setSide {d : StreamDirection} (s : Stream H) {side : Side H} (hpipe : side.pipe = (s.side d).pipe)
    (hreceived : side.received = (s.side d).received) : Acts d s (s.setSide d side) := by
  refine ⟨Aside.setSide d s side, ?_, ?_⟩
  · rw [Stream.side_setSide, hpipe]
  · rw [Stream.side_setSide, hreceived]

/-- A call of a wrapper, which is kept. -/
theorem Quietly.acts {s t : Stream H} (h : Quietly s t) (d : StreamDirection) (w : StreamWrapper) :
    Acts d s (t.setWrapper d w) := by
  have hside := h.side d
  refine Acts.trans (t := t) ⟨⟨fun d' _ => h.side d', h.responded, h.error⟩, ?_, ?_⟩ (Acts.setSide t rfl rfl)
  · rw [hside]
  · rw [hside]

theorem Stream.state_setWrapper (s : Stream H) (d : StreamDirection) (w : StreamWrapper) :
    ((s.setWrapper d w).side d).state = w.state := by
  unfold Stream.setWrapper
  rw [Stream.side_setSide]
  rfl

theorem Stream.plain_setWrapper {s : Stream H} {w : StreamWrapper} (hw : w.Plain s.error) (d : StreamDirection) :
    (s.setWrapper d w).Plain d := by
  intro w' hw'
  unfold Stream.setWrapper at hw' ⊢
  rw [Stream.side_setSide] at hw'
  cases hw'
  rwa [Stream.error_setSide]

end Acts

section Callbacks
variable {plugin : Plugin} {d : StreamDirection} {s : Stream H}

theorem doHeaders_calm (hversion : plugin.version = .v2) (hquiet : ∀ n, (plugin.script n).Quiet)
    (hresponded : s.responded = false)
    (hnone : (s.side d).streamWrapper = none) (endStream : Bool) :
    let r := doHeaders plugin (filterCallbacks plugin d) endStream s
    Acts d s r.2 ∧ r.2.Plain d ∧ HeadersAnswer endStream (r.2.side d).state (some r.1) := by
  have hheaders : Acts d s (s.setHeaders d) := Acts.setSide s rfl rfl
  have hwrapper : ((s.setHeaders d).side d).streamWrapper = none := by
    unfold Stream.setHeaders
    rw [Stream.side_setSide, hnone]
  have hresponded : (s.setHeaders d).responded = false := hheaders.responded.trans hresponded
  have hunfold : doHeaders plugin (filterCallbacks plugin d) endStream s =
      doHeadersV2 plugin (filterCallbacks plugin d) endStream (s.setHeaders d) := by
    unfold doHeaders
    rw [hversion, filterCallbacks_direction]
    rfl
  rw [hunfold]
  generalize s.setHeaders d = t at hheaders hwrapper hresponded
  unfold doHeadersV2
  simp only [filterCallbacks_direction, hresponded, Bool.false_and, Bool.false_eq_true, if_false]
  by_cases hskip : (t.error || !plugin.onHeader d) = true
  · rw [if_pos hskip]
    refine ⟨hheaders, fun w hw => absurd (hwrapper.symm.trans hw) (by simp), ?_⟩
    simp [Side.state, hwrapper, HeadersAnswer]
  · rw [if_neg hskip]
    obtain ⟨hquietly, hplain, hanswer⟩ :=
      startV2_quiet (filterCallbacks plugin d) hquiet (w := newWrapper true endStream) rfl rfl t
    generalize startV2 plugin (filterCallbacks plugin d) (newWrapper true endStream) t =
      r at hquietly hplain hanswer ⊢
    obtain ⟨status, w, u⟩ := r
    cases status with
    | none =>
      have hcaught : (caught d (none, w, u)).2 = u.scriptError.setWrapper d w := Stream.setWrapper_scriptError d w u
      have herror : Quietly t u.scriptError :=
        ⟨hquietly.request, hquietly.response, hquietly.responded, fun _ => rfl⟩
      rw [hcaught]
      refine ⟨hheaders.trans (herror.acts d w), Stream.plain_setWrapper ⟨hplain.state, fun _ => rfl⟩ d, ?_⟩
      rw [Stream.state_setWrapper]
      exact hanswer
    | some status =>
      have hplain : w.Plain u.error := by simpa using hplain
      refine ⟨hheaders.trans (hquietly.acts d w), Stream.plain_setWrapper hplain d, ?_⟩
      have hstate := Stream.state_setWrapper u d w
      unfold Stream.setWrapper at hstate
      dsimp only [caught, keep]
      rw [hstate]
      exact hanswer

variable (plugin d s) in
/-- A frame that ends the message is for a body handler, whose code comes to its
end without an http call. -/
def Handles : Prop :=
  s.error = false ∧ plugin.onBody d = true ∧ (s.side d).state = .Running ∧ (plugin.script s.entered.length).calls = false

theorem doData_calm (hversion : plugin.version = .v2) (hquiet : ∀ n, (plugin.script n).Quiet) (hplain : s.Plain d)
    (hstate : (s.side d).state ≠ .HttpCall) (v : DataView) (endStream : Bool) :
    let r := doData plugin (filterCallbacks plugin d) v endStream s
    Acts d s r.2.2 ∧ r.2.2.Plain d ∧ DataAnswer v endStream (Handles plugin d s) r.1 r.2.1 (r.2.2.side d).state := by
  unfold doData
  simp only [hversion, filterCallbacks_direction]
  by_cases hskip : (s.error || !plugin.onBody d) = true
  · rw [if_pos hskip]
    exact ⟨Acts.refl d s, hplain, .skipped hstate⟩
  · rw [if_neg hskip]
    obtain ⟨herror, hbody⟩ : s.error = false ∧ plugin.onBody d = true := by simpa using hskip
    have hnext : ((s.side d).streamWrapper.getD (newWrapper (s.side d).headers endStream)).state =
        (s.side d).state := by
      unfold Side.state
      cases (s.side d).streamWrapper <;> rfl
    have hnextPlain : ((s.side d).streamWrapper.getD (newWrapper (s.side d).headers endStream)).Plain s.error := by
      cases hwrapper : (s.side d).streamWrapper with
      | none => exact ⟨by rintro ⟨⟩, by rintro ⟨⟩⟩
      | some w => exact hplain w hwrapper
    generalize (s.side d).streamWrapper.getD (newWrapper (s.side d).headers endStream) = w at hnext hnextPlain ⊢
    have hnot : w.state ≠ .HttpCall := hnext ▸ hstate
    obtain ⟨hquietly, hleft, hanswer⟩ :=
      onDataV2_quiet (filterCallbacks plugin d) hquiet hnot s hnextPlain herror v endStream
    rw [hnext] at hanswer
    generalize onDataV2 plugin (filterCallbacks plugin d) v endStream w s = r at hquietly hleft hanswer ⊢
    obtain ⟨status, v', w', t⟩ := r
    refine ⟨hquietly.acts d w', Stream.plain_setWrapper hleft d, ?_⟩
    have hafter := Stream.state_setWrapper t d w'
    unfold Stream.setWrapper at hafter
    dsimp only [keep]
    rw [hafter]
    cases hanswer with
    | skipped h => exact .skipped h
    | handled hend hhandled h => exact .handled hend ⟨herror, hbody, hhandled⟩ h
    | stopped hv hiff => exact .stopped hv hiff

end Callbacks

/-! ## Messages -/

/-- What a side has of its message: nothing yet, all of it passed on, or a part
held back by one stopped callback or by a filter that has stopped all. When the
whole message is held back, something is awaited. -/
inductive Carrying (side : Side H) : Prop
  | fresh : side.pipe = {} → side.received = [] → side.streamWrapper = none → Carrying side
  | flows {h : H} : side.pipe.Flows h side.received → side.state ≠ .HttpCall → Carrying side
  | stopped {h : H} : side.pipe.Holds h side.received → side.pipe.iteration = .StopSingleIteration →
      (side.pipe.complete = true → side.state ≠ .Running) → (side.state = .HttpCall → side.pipe.complete = true) → Carrying side
  | waiting {h : H} : side.pipe.Holds h side.received → side.pipe.iteration = .StopAll → side.pipe.headersContinued = false →
      side.state ≠ .Running → Carrying side

omit [HeaderMap H] in
/-- The wrapper matters for its state. -/
theorem Carrying.congr {side side' : Side H} (hside : Carrying side)
    (hpipe : side'.pipe = side.pipe) (hreceived : side'.received = side.received)
    (hstate : side'.state = side.state)
    (hnone : side.streamWrapper = none → side'.streamWrapper = none) : Carrying side' := by
  cases hside with
  | fresh hfresh hempty hwrapper => exact .fresh (hpipe.trans hfresh) (hreceived.trans hempty) (hnone hwrapper)
  | flows hp hnot =>
    rw [← hpipe, ← hreceived] at hp
    rw [← hstate] at hnot
    exact .flows hp hnot
  | stopped hp hheld hwaits hcalls =>
    rw [← hpipe, ← hreceived] at hp
    rw [← hpipe] at hheld hwaits hcalls
    rw [← hstate] at hwaits hcalls
    exact .stopped hp hheld hwaits hcalls
  | waiting hp hheld hcontinued hwaits =>
    rw [← hpipe, ← hreceived] at hp
    rw [← hpipe] at hheld hcontinued
    rw [← hstate] at hwaits
    exact .waiting hp hheld hcontinued hwaits

/-- A stream between two events. -/
structure Calm (s : Stream H) : Prop where
  responded : s.responded = false
  plain : ∀ d, s.Plain d
  carrying : ∀ d, Carrying (s.side d)

section Calm
omit [HeaderMap H]
variable {d : StreamDirection} {s t : Stream H}

/-- After a step that leaves the other direction alone. -/
theorem Calm.aside (hs : Calm s) (ht : Aside d s t) (hplain : t.Plain d)
    (hcarrying : Carrying (t.side d)) : Calm t := by
  refine ⟨ht.responded.trans hs.responded, ?_, ?_⟩
  · intro d'
    by_cases hd : d' = d
    · rwa [hd]
    · intro w hw
      rw [ht.other d' hd] at hw
      exact ⟨(hs.plain d' w hw).state, fun h => ht.error ((hs.plain d' w hw).dead h)⟩
  · intro d'
    by_cases hd : d' = d
    · rwa [hd]
    · rw [ht.other d' hd]
      exact hs.carrying d'

/-- After a callback, with what has come of it. -/
theorem Calm.store (hs : Calm s) (ht : Acts d s t) (hplain : t.Plain d) {p : Pipe H} {bytes : Bytes}
    (hcarrying : Carrying { t.side d with pipe := p, received := (s.side d).received ++ bytes }) :
    Calm (Stream.store d bytes (t, p)) := by
  rw [← ht.received] at hcarrying
  apply hs.aside (ht.toAside.trans (Aside.setSide d t _))
  · intro w hw
    rw [Stream.side_setSide] at hw
    rw [Stream.error_setSide]
    exact hplain w hw
  · rw [Stream.side_setSide]
    exact hcarrying

end Calm

section Step
variable {plugin : Plugin} {d : StreamDirection} {s : Stream H}

omit [HeaderMap H] in
theorem gate_acts (plugin : Plugin) (d : StreamDirection) (s : Stream H) :
    Acts d s (gate plugin d s).2 ∧ (gate plugin d s).2.side d = s.side d := by
  obtain ⟨routeConfig, hgate⟩ := gate_stream plugin d s
  have hquietly : Quietly s (gate plugin d s).2 := by
    rw [hgate]
    exact ⟨rfl, rfl, rfl, id⟩
  have hside := hquietly.side d
  exact ⟨⟨⟨fun d' _ => hquietly.side d', hquietly.responded, hquietly.error⟩, by rw [hside], by rw [hside]⟩, hside⟩

omit [HeaderMap H] in
/-- The message begins. -/
theorem headers_carrying {side : Side H} {endStream : Bool} {status : FilterHeadersStatus}
    (hanswer : HeadersAnswer endStream side.state (some status)) (h : H) :
    Carrying { side with
      pipe := { ({} : Pipe H) with headers := some h, complete := endStream }.afterHeaders status
      received := [] } := by
  have hholds : ∀ i, Pipe.Holds h [] ({ headers := some h, complete := endStream, iteration := i } : Pipe H) :=
    fun i => Pipe.holds_headers rfl rfl rfl rfl (by simp)
  cases status with
  | Continue =>
    refine .flows (h := h) ?_ hanswer
    dsimp only [Pipe.afterHeaders]
    cases endStream with
    | true => exact (hholds .Continue).flows
    | false => exact ⟨rfl, rfl, rfl, rfl, rfl, underway_headers h⟩
  | StopIteration => exact .stopped (hholds .StopSingleIteration) rfl hanswer.1 hanswer.2
  | StopAllIterationAndBuffer => exact .waiting (hholds .StopAll) rfl rfl hanswer
  | StopAllIterationAndWatermark => cases hanswer

theorem calm_headers (hversion : plugin.version = .v2) (hquiet : ∀ n, (plugin.script n).Quiet) (hs : Calm s)
    (hfresh : (s.side d).pipe.headers = none) (h : H) (endStream : Bool) :
    Calm (s.receive plugin d (.headers h endStream)) := by
  have hside : (s.side d).pipe = {} ∧ (s.side d).received = [] ∧ (s.side d).streamWrapper = none := by
    cases hs.carrying d with
    | fresh hpipe hreceived hwrapper => exact ⟨hpipe, hreceived, hwrapper⟩
    | flows hp | stopped hp | waiting hp => exact absurd (hfresh.symm.trans hp.headers) (by simp)
  obtain ⟨hpipe, hreceived, hwrapper⟩ := hside
  obtain ⟨hgate, hside⟩ := gate_acts plugin d s
  unfold Stream.receive StreamFilter.receive streamFilter
  simp only [filterCallbacks_direction, arrivalBytes, hpipe]
  by_cases hshown : (gate plugin d s).1 = true
  · rw [if_pos hshown]
    obtain ⟨hstep, hplain, hanswer⟩ := doHeaders_calm (d := d) (s := (gate plugin d s).2) hversion hquiet
      (hgate.responded.trans hs.responded) (by rw [hside, hwrapper]) endStream
    apply hs.store (hgate.trans hstep) hplain
    rw [hreceived]
    exact headers_carrying hanswer h
  · rw [if_neg hshown]
    apply hs.store hgate
    · intro w hw
      rw [hside, hwrapper] at hw
      cases hw
    · rw [hreceived, hside]
      have hanswer : HeadersAnswer endStream (s.side d).state (some .Continue) :=
        by simp [HeadersAnswer, Side.state, hwrapper]
      exact headers_carrying hanswer h

variable (plugin s) in
/-- The frame with the end of the message is for a body handler, and nothing has
been stopped. -/
def Loses : Event H → Prop
  | .arrival d (.data bytes true) =>
    s.over = false ∧ fits (s.side d).pipe (.data bytes true) = true ∧ bytes ≠ [] ∧ (s.side d).pipe.iteration = .Continue ∧
      Handles plugin d s
  | _ => False

omit [HeaderMap H] in
/-- A callback for data stops, and an http call is on its way if that was the
end. -/
theorem stop_carrying {p : Pipe H} {h : H} {received bytes : Bytes} (hp : p.Carries h received)
    (hmore : p.complete = false) {v : DataView}
    (hv : Pipe.Untaken ⟨some bytes, p.buffer⟩ v) {endStream : Bool} {side : Side H}
    (hiff : endStream = true ↔ side.state = .HttpCall) :
    Carrying { side with
      pipe := { p with complete := endStream }.afterData v endStream .StopIterationAndBuffer
      received := received ++ bytes } := by
  obtain ⟨hheld, hstop⟩ := hp.afterData_stop hmore hv endStream
  have hcomplete := (Pipe.afterData_same { p with complete := endStream } v endStream .StopIterationAndBuffer).2
  refine .stopped hheld hstop ?_ ?_
  · intro hend hrunning
    exact absurd (hrunning.symm.trans (hiff.1 (hcomplete.symm.trans hend))) (by simp)
  · exact fun hcall => hcomplete.trans (hiff.2 hcall)

/-- The callback for data is called with a frame. -/
theorem calm_frame (hversion : plugin.version = .v2) (hquiet : ∀ n, (plugin.script n).Quiet) (hs : Calm s)
    (hstate : (s.side d).state ≠ .HttpCall) (hiteration : (s.side d).pipe.iteration ≠ .StopAll) {h : H}
    (hp : (s.side d).pipe.Carries h (s.side d).received) (hmore : (s.side d).pipe.complete = false)
    (bytes : Bytes) (endStream : Bool)
    (hcontinue : ∀ v, Pipe.Untaken ⟨some bytes, (s.side d).pipe.buffer⟩ v →
      (v = ⟨some bytes, (s.side d).pipe.buffer⟩ ∨ endStream = true ∧ Handles plugin d s) →
      ({ (s.side d).pipe with complete := endStream }.afterData v endStream .Continue).Flows h ((s.side d).received ++ bytes)) :
    Calm (s.receive plugin d (.data bytes endStream)) := by
  obtain ⟨hacts, hplain, hanswer⟩ := doData_calm hversion hquiet (hs.plain d) hstate
    ⟨some bytes, (s.side d).pipe.buffer⟩ endStream
  unfold Stream.receive StreamFilter.receive streamFilter
  simp only [if_neg hiteration, arrivalBytes]
  generalize doData plugin (filterCallbacks plugin d) ⟨some bytes, (s.side d).pipe.buffer⟩ endStream
    s = r at hacts hplain hanswer ⊢
  obtain ⟨status, v, t⟩ := r
  apply hs.store hacts hplain
  dsimp only at hanswer ⊢
  generalize hafter : (t.side d).state = state at hanswer
  cases hanswer with
  | skipped hnot =>
    rw [← hafter] at hnot
    exact .flows (hcontinue _ (.inl rfl) (.inl rfl)) hnot
  | handled hend hhandles hnot =>
    rw [← hafter] at hnot
    exact .flows (hcontinue _ (.inr rfl) (.inr ⟨hend, hhandles⟩)) hnot
  | stopped hv hiff =>
    rw [← hafter] at hiff
    exact stop_carrying hp hmore hv hiff

theorem calm_data (hversion : plugin.version = .v2) (hquiet : ∀ n, (plugin.script n).Quiet)
    (hs : Calm s) (hover : s.over = false)
    {bytes : Bytes} {endStream : Bool} (hfits : fits (s.side d).pipe (.data bytes endStream : Arrival H) = true)
    (hloses : ¬ Loses plugin s (.arrival d (.data bytes endStream))) :
    Calm (s.receive plugin d (.data bytes endStream)) := by
  obtain ⟨hheaders, hmore⟩ := fits_more hfits
  cases hs.carrying d with
  | fresh hpipe => exact absurd (by rw [hpipe]) hheaders
  | flows hp hstate =>
    have hiteration : (s.side d).pipe.iteration ≠ .StopAll := by simp [hp.iteration]
    apply calm_frame hversion hquiet hs hstate hiteration (hp.carries hmore) hmore
    intro v hv hkept
    apply hp.afterData_continue hmore hv
    rcases hkept with rfl | ⟨rfl, hhandles⟩
    · exact .inr rfl
    · -- a handler has moved the frame to a buffer that does not go on
      by_contra hlost
      rw [not_or] at hlost
      exact hloses ⟨hover, hfits, hlost.1, hp.iteration, hhandles⟩
  | stopped hp hheld hwaits hcalls =>
    have hstate : (s.side d).state ≠ .HttpCall := fun hcall => absurd (hmore.symm.trans (hcalls hcall)) (by simp)
    have hiteration : (s.side d).pipe.iteration ≠ .StopAll := by simp [hheld]
    apply calm_frame hversion hquiet hs hstate hiteration hp.toCarries hmore
    intro v hv _
    exact hp.toCarries.afterData_continue hmore hheld hv endStream
  | waiting hp hheld hcontinued hstate =>
    unfold Stream.receive StreamFilter.receive
    simp only [hheld, if_true, arrivalBytes]
    apply hs.store (Acts.refl d s) (hs.plain d)
    exact .waiting (hp.toCarries.buffered hmore bytes endStream .StopAll) rfl hcontinued hstate

theorem calm_trailers (hs : Calm s) (hfits : fits (s.side d).pipe (.trailers : Arrival H) = true) :
    Calm (s.receive plugin d .trailers) := by
  obtain ⟨hheaders, hmore⟩ := fits_more hfits
  unfold Stream.receive StreamFilter.receive
  apply hs.store (Acts.refl d s) (hs.plain d)
  simp only [arrivalBytes, List.append_nil]
  cases hs.carrying d with
  | fresh hpipe => exact absurd (by rw [hpipe]) hheaders
  | flows hp hstate => exact .flows (Pipe.afterTrailers_flows (.inl hp) hmore) hstate
  | stopped hp hiteration hwaits hcalls =>
    refine .flows (Pipe.afterTrailers_flows (.inr ⟨hp, hiteration⟩) hmore) ?_
    exact fun hcall => absurd (hmore.symm.trans (hcalls hcall)) (by simp)
  | waiting hp hiteration hcontinued hstate =>
    have hheld : Pipe.Holds _ (s.side d).received { (s.side d).pipe with complete := true, trailers := true } :=
      ⟨⟨hp.headers, hp.body, fun _ => rfl⟩, fun _ h => absurd h (by simp)⟩
    have hstays : { (s.side d).pipe with complete := true, trailers := true }.afterTrailers =
        { (s.side d).pipe with complete := true, trailers := true } := by
      unfold Pipe.afterTrailers
      simp only [hiteration]
    rw [hstays]
    exact .waiting hheld hiteration hcontinued hstate

/-- A wrapper that has been waited for lets the message go. -/
theorem calm_continue (hversion : plugin.version = .v2) (hquiet : ∀ n, (plugin.script n).Quiet)
    (hs : Calm s) {t : Stream H}
    (ht : Acts d s t) (hplain : t.Plain d) {h : H} (hp : (t.side d).pipe.Holds h (s.side d).received)
    (hrunning : (t.side d).state = .Running)
    (hheld : (t.side d).pipe.iteration = .StopSingleIteration ∨
      (t.side d).pipe.iteration = .StopAll ∧ (t.side d).pipe.headersContinued = false) :
    Calm (t.continueIteration plugin d) := by
  have hnot : (t.side d).state ≠ .HttpCall := by simp [hrunning]
  unfold Stream.continueIteration
  rcases hheld with hsingle | ⟨hall, hcontinued⟩
  · have hnone : (t.side d).pipe.iteration ≠ .StopAll := by simp [hsingle]
    unfold StreamFilter.resume
    rw [if_neg hnone]
    apply hs.store ht hplain
    rw [List.append_nil]
    exact .flows hp.flows hnot
  · cases hbuffer : (t.side d).pipe.buffer with
    | none =>
      obtain ⟨hstream, hflows⟩ := resume_empty (streamFilter plugin (filterCallbacks plugin d)) t hp hall hbuffer
      generalize (streamFilter plugin (filterCallbacks plugin d)).resume t (t.side d).pipe = r at hstream hflows ⊢
      obtain ⟨u, p⟩ := r
      obtain rfl : u = t := hstream
      apply hs.store ht hplain
      rw [List.append_nil]
      exact .flows hflows hnot
    | some bytes =>
      -- the frame is the buffer, and moving it changes nothing
      have hsame := (resume_stream plugin (filterCallbacks plugin d) t (t.side d).pipe).2
      obtain ⟨hacts, hleft, hanswer⟩ :=
        doData_calm hversion hquiet hplain hnot ⟨none, some bytes⟩
          ((t.side d).pipe.complete && !(t.side d).pipe.trailers)
      generalize hdata : doData plugin (filterCallbacks plugin d) ⟨none, some bytes⟩
        ((t.side d).pipe.complete && !(t.side d).pipe.trailers) t = r at hacts hleft hanswer
      obtain ⟨status, v, u⟩ := r
      dsimp only at hacts hleft hanswer
      generalize hafter : (u.side d).state = state at hanswer
      have hview : v = ⟨none, some bytes⟩ := by
        cases hanswer with
        | skipped => rfl
        | handled => rfl
        | stopped hv => rcases hv with rfl | rfl <;> rfl
      have hcall : (streamFilter plugin (filterCallbacks plugin d)).onData t ⟨none, some bytes⟩
          ((t.side d).pipe.complete && !(t.side d).pipe.trailers) = (u, ⟨none, some bytes⟩, status) := by
        dsimp only [streamFilter]
        rw [hdata, hview]
      obtain ⟨hstream, hflows, hstops⟩ :=
        resume_data (streamFilter plugin (filterCallbacks plugin d)) t hp hall hcontinued hbuffer hcall
      generalize (streamFilter plugin (filterCallbacks plugin d)).resume t
        (t.side d).pipe = r at hsame hstream hflows hstops ⊢
      obtain ⟨u', p⟩ := r
      obtain rfl : u' = u := hstream
      apply hs.store (ht.trans hacts) hleft
      rw [List.append_nil]
      cases hanswer with
      | skipped hnot | handled _ _ hnot =>
        rw [← hafter] at hnot
        exact .flows (hflows (.inl rfl)) hnot
      | stopped hv hiff =>
        rw [← hafter] at hiff
        cases htrailers : (t.side d).pipe.trailers with
        | true =>
          refine .flows (hflows (.inr ⟨rfl, htrailers⟩)) ?_
          intro hcall
          simpa [htrailers] using hiff.2 hcall
        | false =>
          obtain ⟨hheld, hstop⟩ := hstops rfl htrailers
          have hends : p.complete = true ↔ (u'.side d).state = .HttpCall := by
            rw [hsame.2, ← hiff, htrailers, Bool.not_false, Bool.and_true]
          refine .stopped hheld hstop ?_ hends.2
          intro hend hrunning
          exact absurd (hrunning.symm.trans (hends.1 hend)) (by simp)

theorem calm_complete (hversion : plugin.version = .v2) (hquiet : ∀ n, (plugin.script n).Quiet)
    (hs : Calm s) {w : StreamWrapper}
    (hwrapper : (s.side d).streamWrapper = some w) : Calm (s.complete plugin d w) := by
  have hstate : (s.side d).state = w.state := by simp [Side.state, hwrapper]
  by_cases hcall : w.state = .HttpCall
  · obtain ⟨hquietly, hleft, hcontinues⟩ := onSuccess_quiet (filterCallbacks plugin d) hquiet hcall s
      (hs.plain d w hwrapper) (s.side d).pipe.buffer
    unfold Stream.complete
    generalize onSuccess plugin (filterCallbacks plugin d) (s.side d).pipe.buffer w s =
      r at hquietly hleft hcontinues ⊢
    obtain ⟨w', t, continues⟩ := r
    have hacts : Acts d s (t.setWrapper d w') := hquietly.acts d w'
    have hplain : (t.setWrapper d w').Plain d := Stream.plain_setWrapper hleft d
    have hafter : ((t.setWrapper d w').side d).state = w'.state := Stream.state_setWrapper t d w'
    have hresult : Calm (if continues = true then (t.setWrapper d w').continueIteration plugin d
        else t.setWrapper d w') := by
      generalize t.setWrapper d w' = u at hacts hplain hafter
      rw [← hafter] at hcontinues
      -- the message is held back for the call
      cases hs.carrying d with
      | fresh _ _ hnone => exact absurd (hwrapper.symm.trans hnone) (by simp)
      | flows _ hnot => exact absurd (hstate.trans hcall) hnot
      | stopped hp hheld hwaits hcalls =>
        by_cases hgo : continues = true
        · rw [if_pos hgo]
          rw [← hacts.pipe] at hp hheld
          exact calm_continue hversion hquiet hs hacts hplain hp (hcontinues.1 hgo) (.inl hheld)
        · rw [if_neg hgo]
          apply hs.aside hacts.toAside hplain
          have hcomplete := hcalls (hstate.trans hcall)
          rw [← hacts.pipe, ← hacts.received] at hp
          rw [← hacts.pipe] at hheld hcomplete
          exact .stopped hp hheld (fun _ h => hgo (hcontinues.2 h)) (fun _ => hcomplete)
      | waiting hp hheld hcontinued _ =>
        by_cases hgo : continues = true
        · rw [if_pos hgo]
          rw [← hacts.pipe] at hp hheld hcontinued
          exact calm_continue hversion hquiet hs hacts hplain hp (hcontinues.1 hgo) (.inr ⟨hheld, hcontinued⟩)
        · rw [if_neg hgo]
          apply hs.aside hacts.toAside hplain
          rw [← hacts.pipe, ← hacts.received] at hp
          rw [← hacts.pipe] at hheld hcontinued
          exact .waiting hp hheld hcontinued (fun h => hgo (hcontinues.2 h))
    exact hresult
  · -- the wrapper only loses its request
    have hdone : onSuccess plugin (filterCallbacks plugin d) (s.side d).pipe.buffer w s =
        ({ w with httpRequest := false }, s, false) := by
      unfold onSuccess
      exact if_neg hcall
    unfold Stream.complete
    rw [hdone]
    have hkept : StreamWrapper.Plain s.error { w with httpRequest := false } :=
      ⟨(hs.plain d w hwrapper).state, (hs.plain d w hwrapper).dead⟩
    apply hs.aside (Aside.setSide d s _) (Stream.plain_setWrapper hkept d)
    apply (hs.carrying d).congr
    · rw [Stream.side_setSide]
    · rw [Stream.side_setSide]
    · rw [Stream.side_setSide, hstate]
      rfl
    · exact fun hnone => absurd (hwrapper.symm.trans hnone) (by simp)

theorem calm_step (hversion : plugin.version = .v2) (hquiet : ∀ n, (plugin.script n).Quiet)
    (hs : Calm s) {e : Event H}
    (hloses : ¬ Loses plugin s e) : Calm (s.step plugin e) := by
  cases e with
  | arrival d a =>
    dsimp only [Stream.step]
    by_cases hnext : (!s.over && fits (s.side d).pipe a) = true
    · rw [if_pos hnext]
      obtain ⟨hover, hfits⟩ : s.over = false ∧ fits (s.side d).pipe a = true := by simpa using hnext
      cases a with
      | headers h e => exact calm_headers hversion hquiet hs (by simpa [fits] using hfits) h e
      | data bytes e => exact calm_data hversion hquiet hs hover hfits hloses
      | trailers => exact calm_trailers hs hfits
    · rwa [if_neg hnext]
  | httpDone d =>
    dsimp only [Stream.step]
    split
    · rename_i w hwrapper
      split_ifs
      · exact calm_complete hversion hquiet hs hwrapper
      · exact hs
    · exact hs
  | onDestroy =>
    have hside : ∀ d, s.onDestroy.side d = (s.side d).onReset := by
      intro d
      cases d <;> rfl
    dsimp only [Stream.step]
    refine ⟨hs.responded, ?_, ?_⟩
    · intro d w hw
      rw [hside] at hw
      obtain ⟨w₀, hw₀, rfl⟩ := Option.map_eq_some_iff.1 hw
      exact ⟨(hs.plain d w₀ hw₀).state, (hs.plain d w₀ hw₀).dead⟩
    · intro d
      rw [hside]
      refine Carrying.congr (hs.carrying d) rfl rfl ?_ ?_
      · unfold Side.state Side.onReset
        cases (s.side d).streamWrapper <;> rfl
      · intro hnone
        simp [Side.onReset, hnone]

theorem calm_run (hversion : plugin.version = .v2) (hquiet : ∀ n, (plugin.script n).Quiet)
    (hs : Calm s) (es : List (Event H))
    (hloses : EachStep (Stream.step plugin) (fun s e => ¬ Loses plugin s e) s es) : Calm (s.run plugin es) := by
  induction es generalizing s with
  | nil => exact hs
  | cons e es ih => exact ih (calm_step hversion hquiet hs hloses.1) hloses.2

end Step

/-! ## Bodies -/

/-- What has been passed on of a message and what is still held are what has
arrived. Once it has ended and no code is suspended, it has been passed on. -/
structure Conserved (side : Side H) : Prop where
  body : bodyOf side.pipe.passed ++ side.pipe.buffer.getD [] = side.received
  delivered : side.pipe.complete = true → side.state = .Running →
    ∃ h, side.pipe.headers = some h ∧ Delivered (· = h) side.received side.pipe.trailers side.pipe.passed

omit [HeaderMap H] in
theorem Carrying.conserved {side : Side H} (hside : Carrying side) : Conserved side := by
  cases hside with
  | fresh hpipe hreceived =>
    refine ⟨?_, ?_⟩
    · rw [hpipe, hreceived]
      rfl
    · rw [hpipe]
      simp
  | flows hp =>
    refine ⟨?_, ?_⟩
    · have hpassed := hp.passed
      rw [hp.buffer, List.append_nil]
      split_ifs at hpassed
      · exact hpassed.body
      · exact hpassed.2.body
    · intro hcomplete _
      have hpassed := hp.passed
      rw [if_pos hcomplete] at hpassed
      exact ⟨_, hp.headers, hpassed⟩
  | stopped hp _ hwaits =>
    refine ⟨hp.toCarries.conserves, ?_⟩
    exact fun hcomplete hrunning => absurd hrunning (hwaits hcomplete)
  | waiting hp _ _ hwaits =>
    refine ⟨hp.toCarries.conserves, ?_⟩
    exact fun _ hrunning => absurd hrunning hwaits

omit [HeaderMap H] in
theorem calm_start (self : Nat) (route : Route) (elsewhere : Nat → Option Nat) :
    Calm ({ self, route, elsewhere } : Stream H) := by
  refine ⟨rfl, ?_, ?_⟩
  · intro d w hw
    cases d <;> cases hw
  · intro d
    cases d <;> exact .fresh rfl rfl rfl

/-- The body is conserved in every run in which no frame with the end of a
message is for a body handler while nothing has been stopped. -/
theorem body_conserved (plugin : Plugin) (hversion : plugin.version = .v2) (hquiet : ∀ n, (plugin.script n).Quiet) (self : Nat)
    (route : Route) (elsewhere : Nat → Option Nat) (es : List (Event H))
    (hloses : EachStep (Stream.step plugin) (fun s e => ¬ Loses plugin s e) { self, route, elsewhere } es) (d : StreamDirection) :
    Conserved ((Stream.run plugin { self, route, elsewhere } es).side d) :=
  ((calm_run hversion hquiet (calm_start self route elsewhere) es hloses).carrying d).conserved

/-- Two frames, and the first has stopped. -/
theorem two_frames_conserved :
    let plugin : Plugin := { version := .v2, onRequestBody := true, script := fun _ => .finish }
    Conserved ((Stream.run plugin ({ route := .withConfig } : Stream HeaderList)
      [.arrival .downstreamToUpstream (.headers [] false),
        .arrival .downstreamToUpstream (.data [120] false),
        .arrival .downstreamToUpstream (.data [121] true)]).side .downstreamToUpstream) := by
  intro plugin
  apply body_conserved plugin rfl (fun _ => trivial) 0 .withConfig (fun _ => none)
  refine ⟨id, id, ?_, trivial⟩
  intro hloses
  exact absurd hloses.2.2.2.1 (by rintro ⟨⟩)

/-- One frame, which is moved to the buffer. -/
theorem single_frame_lost :
    let plugin : Plugin := { version := .v2, onRequestBody := true, script := fun _ => .finish }
    let s := Stream.run plugin ({ route := .withConfig } : Stream HeaderList)
      [.arrival .downstreamToUpstream (.headers [] false), .arrival .downstreamToUpstream (.data [120] true)]
    s.request.received = [120] ∧ s.request.pipe.passed = [.headers [] false, .data [] true] ∧
      ¬ Conserved (s.side .downstreamToUpstream) := by
  intro plugin s
  have hreceived : s.request.received = [120] := rfl
  have hpassed : s.request.pipe.passed = [.headers [] false, .data [] true] := rfl
  refine ⟨hreceived, hpassed, ?_⟩
  intro hconserved
  obtain ⟨h, -, hdelivered⟩ := hconserved.delivered rfl rfl
  have hbody : bodyOf s.request.pipe.passed = s.request.received := hdelivered.body
  rw [hpassed, hreceived] at hbody
  exact absurd hbody (by rintro ⟨⟩)

end EnvoyProxy.Rider
