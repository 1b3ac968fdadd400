import EnvoyProxy.Rider.Answered
/-!
# Bodies in version 1

Code that waits in `get_body` stops a message that has not ended, and the data
with the end of it are what it is resumed on.
-/

namespace EnvoyProxy.Rider
open Json Http StreamWrapper

variable {H : Type} [HeaderMap H]

variable {plugin : Plugin} {d : StreamDirection}

/-- Nothing of the body has gone on, and nothing will before the wrapper lets
it. -/
structure Suspended (side : Side H) : Prop where
  released : ¬ Released side.pipe
  buffer : side.pipe.buffer.getD [] = side.received
  more : side.pipe.complete = false
  stopped : side.pipe.iteration = .StopSingleIteration

/-- A wrapper of a message that has begun. -/
structure StreamWrapper.Reads (w : StreamWrapper) (side : Side H) (own : List Entry) : Prop where
  waits : w.state = .WaitForBody → Suspended side
  had : w.state ≠ .WaitForBody → w.bufferedBody = true → w.endStream = true ∧ HadBody .resumed side own
  calls : w.state = .HttpCall → w.endStream = false → w.sawBody = false → side.pipe.trailers = false → Suspended side
  startBody : w.startBody_ = false

variable (d) in
structure BegunV1 (s : Stream H) : Prop where
  iteration : (s.side d).pipe.iteration ≠ .StopAll
  reads : ∀ w, (s.side d).streamWrapper = some w → w.Reads (s.side d) (s.own d)

variable (plugin d) in
theorem startV1_outcome (endStream : Bool) (s : Stream H) :
    let r := startV1 plugin (filterCallbacks plugin d) (newWrapper true endStream) s
    r.1 = none ∨ r.2.1.state = .Responded ∨
      Entered d s r.2.2 ∧ r.2.1.startBody_ = false ∧ (r.2.1.state ≠ .WaitForBody → r.2.1.bufferedBody = false) ∧
        (r.2.1.state = .WaitForBody → endStream = false) ∧ r.2.1.endStream = endStream ∧
        (r.1 = some .Continue ∧ r.2.1.state = .Running ∨ r.1 = some .StopIteration) := by
  have hcall := coroutineStart_outcome plugin d .message none (w := newWrapper true endStream) rfl (by rintro ⟨⟩) s
  unfold startV1
  generalize coroutineStart plugin (filterCallbacks plugin d) .message none
    (newWrapper true endStream) s = r at hcall ⊢
  obtain ⟨threw, w, t⟩ := r
  rcases hcall with hthrew | ⟨state, houtcome, hthrew, hwrapper, hran⟩
  · obtain rfl : threw = true := hthrew
    exact .inl rfl
  · obtain rfl : threw = false := hthrew
    obtain rfl : w = (newWrapper true endStream).leave state := hwrapper
    cases state with
    | Responded => exact .inr (.inl rfl)
    | Running =>
      exact .inr (.inr ⟨(hran (by simp)).toEntered, rfl, fun _ => rfl, by rintro ⟨⟩, rfl,
        .inl ⟨rfl, rfl⟩⟩)
    | HttpCall => exact .inr (.inr ⟨(hran (by simp)).toEntered, rfl, fun _ => rfl, by rintro ⟨⟩, rfl, .inr rfl⟩)
    | WaitForBody =>
      exact .inr (.inr ⟨(hran (by simp)).toEntered, rfl, fun h => absurd rfl h, fun _ =>
        (Script.outcome_waits houtcome).1, rfl, .inr rfl⟩)

variable (plugin d) in
/-- A frame for a wrapper of version 1. -/
theorem onDataV1_outcome {w : StreamWrapper} (hresponded : w.state ≠ .Responded) (v : DataView)
    (endStream : Bool) (s : Stream H) :
    let r := onDataV1 plugin (filterCallbacks plugin d) v endStream w s
    r.1 = none ∨ r.2.2.1.state = .Responded ∨
      Entered d s r.2.2.2 ∧ r.2.2.1.startBody_ = w.startBody_ ∧
        r.2.2.1.bufferedBody = w.bufferedBody ∧ r.2.2.1.sawBody = true ∧
        (w.state = .WaitForBody → endStream = true → r.2.2.1.state ≠ .WaitForBody ∧ r.2.2.1.endStream = true ∧
          ∃ e ∈ r.2.2.2.own d, e.handler = .resumed ∧ e.bufferedBody = v.move.buffer) ∧
        (w.state = .WaitForBody → endStream = false → r.1 = some .StopIterationAndBuffer ∧
          r.2.1 = v ∧ r.2.2.1.state = .WaitForBody) ∧
        (w.state ≠ .WaitForBody → r.2.2.1.state = w.state) := by
  unfold onDataV1
  by_cases hstart : w.state = .WaitForBody ∧ endStream = true
  · simp only [if_pos hstart]
    have hcall := resume_outcome plugin d .resumed v.move.buffer
      (w := { w with endStream, sawBody := true, state := .Running }) rfl s
    generalize resume plugin (filterCallbacks plugin d) .resumed v.move.buffer
      { w with endStream, sawBody := true, state := .Running } s = r at hcall ⊢
    obtain ⟨threw, w', t⟩ := r
    rcases hcall with hthrew | ⟨state, houtcome, hthrew, hwrapper, hran⟩
    · obtain rfl : threw = true := hthrew
      exact .inl rfl
    · obtain rfl : threw = false := hthrew
      obtain rfl : w' = StreamWrapper.leave { w with endStream, sawBody := true, state := .Running }
        state := hwrapper
      have hnot : ∀ {P : Prop}, w.state ≠ .WaitForBody → P := fun h => absurd hstart.1 h
      have hmore : ∀ {P : Prop}, endStream = false → P := fun h => absurd (h.symm.trans hstart.2) (by simp)
      cases state with
      | Responded => exact .inr (.inl rfl)
      | WaitForBody => exact hmore (Script.outcome_waits houtcome).1
      | Running | HttpCall =>
        exact .inr (.inr ⟨(hran (by simp)).toEntered, rfl, rfl, rfl, fun _ _ =>
          ⟨by rintro ⟨⟩, hstart.2, (hran (by simp)).mem_own⟩, fun _ => hmore, hnot⟩)
  · simp only [if_neg hstart]
    have hnever : ∀ {P : Prop}, w.state = .WaitForBody → endStream = true → P := fun h h' => absurd ⟨h, h'⟩ hstart
    cases hstate : w.state with
    | Responded => exact absurd hstate hresponded
    | WaitForBody =>
      exact .inr (.inr ⟨Entered.refl d s, rfl, rfl, rfl, fun _ => hnever hstate, fun _ _ =>
        ⟨rfl, rfl, rfl⟩, fun h => absurd rfl h⟩)
    | HttpCall => exact .inr (.inr ⟨Entered.refl d s, rfl, rfl, rfl, by simp, by simp, fun _ => rfl⟩)
    | Running => exact .inr (.inr ⟨Entered.refl d s, rfl, rfl, rfl, by simp, by simp, fun _ => rfl⟩)

theorem doDataV1_turn (hversion : plugin.version = .v1) {s : Stream H} (herror : s.error = false) {w : StreamWrapper}
    (hwrapper : (s.side d).streamWrapper = some w) (hresponded : w.state ≠ .Responded)
    (v : DataView) (endStream : Bool) :
    let r := doData plugin (filterCallbacks plugin d) v endStream s
    Disturbed r.2.2 ∨ Turn d s r.2.2 ∧ ∃ w', (r.2.2.side d).streamWrapper = some w' ∧
      w'.startBody_ = w.startBody_ ∧ w'.bufferedBody = w.bufferedBody ∧ w'.sawBody = true ∧
      (w.state = .WaitForBody → endStream = true → w'.state ≠ .WaitForBody ∧ w'.endStream = true ∧
        ∃ e ∈ r.2.2.own d, e.handler = .resumed ∧ e.bufferedBody = v.move.buffer) ∧
      (w.state = .WaitForBody → endStream = false → r.1 = .StopIterationAndBuffer ∧ r.2.1 = v ∧
        w'.state = .WaitForBody) ∧
      (w.state ≠ .WaitForBody → w'.state = w.state) := by
  have hdata := onDataV1_outcome plugin d hresponded v endStream s
  unfold doData
  simp only [hversion, filterCallbacks_direction, hwrapper, herror, Bool.false_eq_true, if_false]
  generalize onDataV1 plugin (filterCallbacks plugin d) v endStream w s = r at hdata ⊢
  obtain ⟨status, v', w', t⟩ := r
  cases status with
  | none => exact .inl (.inl rfl)
  | some status =>
    have hleft := Stream.streamWrapper_setWrapper t d w'
    rcases hdata with hnone | hanswered | ⟨hentered, hstart, hbuffered, hsaw, hends, hmore, hkept⟩
    · cases hnone
    · exact .inl (disturbed_setWrapper (.inr hanswered))
    · refine .inr ⟨hentered.setWrapper w', w', hleft, hstart, hbuffered, hsaw, ?_, ?_, hkept⟩
      · intro hwaits hend
        obtain ⟨hnot, hended, hran⟩ := hends hwaits hend
        refine ⟨hnot, hended, ?_⟩
        rw [← Stream.own_setWrapper t d w' d] at hran
        exact hran
      · intro hwaits hend
        obtain ⟨hstatus, hv, hstill⟩ := hmore hwaits hend
        exact ⟨Option.some.inj hstatus, hv, hstill⟩

omit [HeaderMap H] in
theorem afterData_iteration {p : Pipe H} (hp : p.iteration ≠ .StopAll) (v : DataView) (e : Bool)
    (status : FilterDataStatus) :
    (p.afterData v e status).iteration ≠ .StopAll := by
  unfold Pipe.afterData
  cases status with
  | Continue =>
    dsimp only
    split_ifs
    · rw [(Pipe.commonContinue_fields _).2.2.2.1]
      simp
    · cases v.frame <;> exact hp
  | StopIterationAndBuffer | StopIterationNoBuffer => simp

theorem headersV1 (hversion : plugin.version = .v1) {s : Stream H}
    (hfresh : (s.side d).pipe = {} ∧ (s.side d).received = [] ∧ (s.side d).streamWrapper = none)
    (h : H) (endStream : Bool) :
    let t := s.receive plugin d (.headers h endStream)
    Disturbed t ∨ Within d s t ∧ BegunV1 d t := by
  obtain ⟨hpipe, hreceived, hnone⟩ := hfresh
  obtain ⟨routeConfig, hgate⟩ := gate_stream plugin d s
  have hside : ∀ d', ({ s with routeConfig } : Stream H).side d' = s.side d' := by
    intro d'
    cases d' <;> rfl
  have hturn : Turn d s { s with routeConfig } :=
    ⟨⟨fun d' _ => hside d', [], by simp, by simp⟩, by rw [hside], by rw [hside]⟩
  -- no handler: the headers go on, and there is no wrapper
  have hskip : ∀ {t : Stream H}, Turn d s t → (t.side d).streamWrapper = none →
      let u := Stream.store d []
        (t, { ({} : Pipe H) with headers := some h, complete := endStream }.afterHeaders .Continue)
      Within d s u ∧ BegunV1 d u := by
    intro t ht hwrapper
    refine ⟨ht.store _ _, ?_, ?_⟩
    · rw [Stream.store, Stream.side_setSide]
      cases endStream <;> rintro ⟨⟩
    · intro w hw
      rw [Stream.store, Stream.side_setSide] at hw
      exact absurd (hwrapper.symm.trans hw) (by simp)
  unfold Stream.receive StreamFilter.receive streamFilter
  simp only [filterCallbacks_direction, arrivalBytes, hpipe, hgate]
  by_cases hshown : (gate plugin d s).1 = true
  · rw [if_pos hshown]
    have hheaders : Turn d s (Stream.setHeaders d { s with routeConfig }) := hturn.trans (Turn.setSide _ rfl rfl)
    have hunfold : doHeaders plugin (filterCallbacks plugin d) endStream { s with routeConfig } =
        doHeadersV1 plugin (filterCallbacks plugin d) endStream (Stream.setHeaders d { s with routeConfig }) := by
      unfold doHeaders
      rw [hversion, filterCallbacks_direction]
      rfl
    have hwrapper : ((Stream.setHeaders d { s with routeConfig }).side d).streamWrapper = none := by
      unfold Stream.setHeaders
      rw [Stream.side_setSide, hside, hnone]
    rw [hunfold]
    generalize Stream.setHeaders d { s with routeConfig } = s' at hheaders hwrapper ⊢
    unfold doHeadersV1
    simp only [filterCallbacks_direction]
    by_cases hno : (s'.error || !plugin.onMessage d) = true
    · rw [if_pos hno]
      exact .inr (hskip hheaders hwrapper)
    · rw [if_neg hno]
      have hstart := startV1_outcome plugin d endStream s'
      generalize startV1 plugin (filterCallbacks plugin d) (newWrapper true endStream) s' = r at hstart ⊢
      obtain ⟨status, w, t⟩ := r
      cases status with
      | none =>
        have hcaught : (caught d (none, w, t)).2 = t.scriptError.setWrapper d w :=
          Stream.setWrapper_scriptError d w t
        rw [hcaught]
        exact .inl (disturbed_store (disturbed_setWrapper (.inl rfl)) _ _)
      | some status =>
        rcases hstart with hnot | hanswered | ⟨hentered, hstart, hbuffered, hwaits, hend, hstatus⟩
        · cases hnot
        · exact .inl (disturbed_store (disturbed_setWrapper (.inr hanswered)) _ _)
        · have hall : Turn d s (t.setWrapper d w) := hheaders.trans (hentered.setWrapper w)
          have hleft := Stream.streamWrapper_setWrapper t d w
          have hsuspended : status = .StopIteration → endStream = false →
              Suspended { (t.setWrapper d w).side d with
                pipe := { ({} : Pipe H) with headers := some h, complete := endStream }.afterHeaders status
                received := ((t.setWrapper d w).side d).received ++ [] } := by
            rintro rfl rfl
            refine ⟨?_, ?_, rfl, rfl⟩
            · rintro ⟨x, hx, -⟩
              cases hx
            · rw [hall.received, hreceived]
              rfl
          have hstops : w.state ≠ .Running → status = .StopIteration := by
            intro hstate
            rcases hstatus with ⟨-, hrunning⟩ | hstops
            · exact absurd hrunning hstate
            · exact Option.some.inj hstops
          refine .inr ⟨hall.store _ _, ?_, ?_⟩
          · rw [Stream.store, Stream.side_setSide]
            dsimp only [caught]
            rcases hstatus with ⟨hcontinue, -⟩ | hstops
            · cases hcontinue
              cases endStream <;> rintro ⟨⟩
            · cases hstops
              rintro ⟨⟩
          · intro w' hw'
            rw [Stream.store, Stream.side_setSide] at hw'
            obtain rfl : w = w' := Option.some.inj (hleft.symm.trans hw')
            rw [Stream.own_store, Stream.store, Stream.side_setSide]
            refine ⟨?_, ?_, ?_, hstart⟩
            · intro hstate
              exact hsuspended (hstops (by rw [hstate]; simp)) (hwaits hstate)
            · exact fun hstate hhas => absurd ((hbuffered hstate).symm.trans hhas) (by simp)
            · intro hstate hmore _ _
              exact hsuspended (hstops (by rw [hstate]; simp)) (hend.symm.trans hmore)
  · rw [if_neg hshown]
    exact .inr (hskip hturn (by rw [hside, hnone]))

theorem dataV1 (hversion : plugin.version = .v1) {s : Stream H} (hs : ¬ Disturbed s) {bytes : Bytes}
    {endStream : Bool}
    (hmore : (s.side d).pipe.complete = false) (hbegun : BegunV1 d s) :
    let t := s.receive plugin d (.data bytes endStream)
    Disturbed t ∨ Within d s t ∧ BegunV1 d t := by
  obtain ⟨herror, hanswered⟩ : s.error = false ∧ ¬ ∃ d w, (s.side d).streamWrapper = some w ∧
      w.state = .Responded := by
    unfold Disturbed at hs
    rwa [not_or, Bool.not_eq_true] at hs
  have hiteration : { (s.side d).pipe with complete := endStream }.iteration ≠ .StopAll := hbegun.iteration
  unfold Stream.receive StreamFilter.receive streamFilter
  simp only [if_neg hiteration, arrivalBytes]
  cases hwrapper : (s.side d).streamWrapper with
  | none =>
    have hskip : doData plugin (filterCallbacks plugin d) ⟨some bytes, (s.side d).pipe.buffer⟩ endStream s =
        (.Continue, ⟨some bytes, (s.side d).pipe.buffer⟩, s) := by
      unfold doData
      simp [hversion, hwrapper]
    rw [hskip]
    refine .inr ⟨(Entered.refl d s).turn.store _ _, ?_, ?_⟩
    · rw [Stream.store, Stream.side_setSide]
      exact afterData_iteration hiteration _ _ _
    · intro w hw
      rw [Stream.store, Stream.side_setSide] at hw
      exact absurd (hwrapper.symm.trans hw) (by simp)
  | some w =>
    have hresponded : w.state ≠ .Responded := fun h => hanswered ⟨d, w, hwrapper, h⟩
    have hreads := hbegun.reads w hwrapper
    have hfirst : w.state ≠ .WaitForBody → w.bufferedBody = false := by
      intro hstate
      rw [Bool.eq_false_iff]
      exact fun hbuffered => absurd (hmore.symm.trans (hreads.had hstate hbuffered).2.1) (by simp)
    have hdata := doDataV1_turn hversion herror hwrapper hresponded ⟨some bytes, (s.side d).pipe.buffer⟩ endStream
    generalize doData plugin (filterCallbacks plugin d) ⟨some bytes, (s.side d).pipe.buffer⟩
      endStream s = r at hdata ⊢
    obtain ⟨status, v, t⟩ := r
    rcases hdata with hdisturbed | ⟨hturn, w', hleft, hstart, hbuffered, hsaw, hends, hholds, hkept⟩
    · exact .inl (disturbed_store hdisturbed _ _)
    · refine .inr ⟨hturn.store _ _, ?_, ?_⟩
      · rw [Stream.store, Stream.side_setSide]
        exact afterData_iteration hiteration _ _ _
      · intro w'' hw''
        rw [Stream.store, Stream.side_setSide] at hw''
        obtain rfl : w' = w'' := Option.some.inj (hleft.symm.trans hw'')
        rw [Stream.own_store, Stream.store, Stream.side_setSide]
        refine ⟨?_, ?_, ?_, hstart.trans hreads.startBody⟩
        · intro hwaits
          have hwas : w.state = .WaitForBody := by
            by_contra hnot
            exact hnot ((hkept hnot).symm.trans hwaits)
          have hend : endStream = false := by
            rw [Bool.eq_false_iff]
            exact fun hend => (hends hwas hend).1 hwaits
          obtain ⟨rfl, rfl, -⟩ := hholds hwas hend
          obtain ⟨hreleased, hbuffer, -, -⟩ := hreads.waits hwas
          refine ⟨hreleased, ?_, hend, rfl⟩
          exact congrArg (· ++ bytes) (hbuffer.trans hturn.received.symm)
        · intro hnot hhas
          have hwas : w.state = .WaitForBody := by
            by_contra hstate
            exact absurd ((hbuffered.trans (hfirst hstate)).symm.trans hhas) (by simp)
          cases endStream with
          | false => exact absurd (hholds hwas rfl).2.2 hnot
          | true =>
            obtain ⟨-, hended, e, he, hhandler, hentry⟩ := hends hwas rfl
            refine ⟨hended, (Pipe.afterData_same _ _ _ _).2, e, he, hhandler, ?_⟩
            obtain ⟨-, hbuffer, -, -⟩ := hreads.waits hwas
            rw [hentry]
            exact congrArg (· ++ bytes) (hbuffer.trans hturn.received.symm)
        · intro _ _ hnever
          exact absurd (hsaw.symm.trans hnever) (by simp)

omit [HeaderMap H] in
theorem afterTrailers_fields {p : Pipe H} (hp : p.iteration ≠ .StopAll) :
    p.afterTrailers.iteration ≠ .StopAll ∧ p.afterTrailers.trailers = p.trailers := by
  unfold Pipe.afterTrailers
  split
  · exact ⟨hp, rfl⟩
  · obtain ⟨-, -, htrailers, hiteration, -⟩ := Pipe.commonContinue_fields p
    rw [hiteration]
    exact ⟨by simp, htrailers⟩
  · exact absurd ‹_› hp

theorem trailersV1 (hversion : plugin.version = .v1) {s : Stream H} (hmore : (s.side d).pipe.complete = false)
    (hbegun : BegunV1 d s) (hearly : ¬ Early plugin d s .trailers) :
    let t := s.receive plugin d .trailers
    Within d s t ∧ BegunV1 d t := by
  have hreceive : s.receive plugin d .trailers =
      Stream.store d [] (s, { (s.side d).pipe with complete := true, trailers := true }.afterTrailers) := rfl
  have hiteration : { (s.side d).pipe with complete := true, trailers := true }.iteration ≠
    .StopAll := hbegun.iteration
  obtain ⟨hgoes, htrailers⟩ := afterTrailers_fields hiteration
  rw [hreceive]
  generalize { (s.side d).pipe with complete := true, trailers := true }.afterTrailers = p at hgoes htrailers ⊢
  refine ⟨(Entered.refl d s).turn.store _ _, ?_, ?_⟩
  · rwa [Stream.store, Stream.side_setSide]
  · intro w hw
    rw [Stream.store, Stream.side_setSide] at hw
    have hwrapper : (s.side d).streamWrapper = some w := hw
    have hreads := hbegun.reads w hwrapper
    have hstate : w.state ≠ .WaitForBody := by
      intro hwaits
      unfold Early at hearly
      rw [hversion] at hearly
      apply hearly
      simp [Side.state, hwrapper, hwaits]
    rw [Stream.own_store, Stream.store, Stream.side_setSide]
    refine ⟨fun h => absurd h hstate, ?_, ?_, hreads.startBody⟩
    · exact fun _ hbuffered => absurd (hmore.symm.trans (hreads.had hstate hbuffered).2.1) (by simp)
    · exact fun _ _ _ hnone => absurd (htrailers.symm.trans hnone) (by simp)

theorem completeV1 {s : Stream H} {w : StreamWrapper} (hwrapper : (s.side d).streamWrapper = some w)
    (hbegun : BegunV1 d s)
    (hbypass : ¬ ((s.side d).pipe.trailers = true ∧ w.state = .HttpCall ∧
      (plugin.script s.entered.length).outcome H d w = some .WaitForBody)) :
    let t := s.complete plugin d w
    Disturbed t ∨ Within d s t ∧ (s.side d).pipe.SameMessage (t.side d).pipe ∧ BegunV1 d t := by
  have hreads := hbegun.reads w hwrapper
  -- another wrapper for the same message
  have hrewrap : ∀ {u : Stream H} {w' : StreamWrapper}, Turn d s u →
    (u.side d).streamWrapper = some w' → w'.startBody_ = w.startBody_ →
      (w'.state = .WaitForBody → Suspended (s.side d)) →
      (w'.state ≠ .WaitForBody → w'.bufferedBody = true → w'.endStream = true ∧ HadBody .resumed
        (s.side d) (s.own d)) →
      (w'.state = .HttpCall → w'.endStream = false → w'.sawBody = false →
        (s.side d).pipe.trailers = false → Suspended (s.side d)) →
      BegunV1 d u := by
    intro u w' hturn hleft hstart hwaits hhad hcalls
    have hkept : Suspended (s.side d) → Suspended (u.side d) := by
      rintro ⟨hreleased, hbuffer, hmore, hstopped⟩
      refine ⟨?_, ?_, ?_, ?_⟩
      · rwa [hturn.pipe]
      · rwa [hturn.pipe, hturn.received]
      · rwa [hturn.pipe]
      · rwa [hturn.pipe]
    refine ⟨?_, ?_⟩
    · rw [hturn.pipe]
      exact hbegun.iteration
    · intro w'' hw''
      obtain rfl : w' = w'' := Option.some.inj (hleft.symm.trans hw'')
      refine ⟨fun h => hkept (hwaits h), ?_, ?_, hstart.trans hreads.startBody⟩
      · intro hstate hbuffered
        obtain ⟨hend, hbody⟩ := hhad hstate hbuffered
        exact ⟨hend, hbody.mono hturn.toWithin (by rw [hturn.pipe]) hturn.received⟩
      · intro hstate hend hsaw htrailers
        rw [hturn.pipe] at htrailers
        exact hkept (hcalls hstate hend hsaw htrailers)
  by_cases hcall : w.state = .HttpCall
  · have hbody := hreads.had (by rw [hcall]; simp)
    rcases complete_outcome plugin d s hcall with
      hdisturbed | ⟨state, u, w', houtcome, hturn, hleft, hwaits, hgoes, -⟩
    · exact .inl hdisturbed
    · have hsame : (s.side d).pipe.SameMessage (u.side d).pipe := by
        rw [hturn.pipe]
        exact ⟨rfl, rfl⟩
      by_cases hrunning : state = .Running
      · obtain ⟨rfl, hgo⟩ := hgoes hrunning hreads.startBody
        have hu : BegunV1 d u := hrewrap hturn hleft rfl (by rintro ⟨⟩) (fun _ => hbody) (by rintro ⟨⟩)
        -- nothing has stopped all, so the callback is not called
        have hcontinue : u.continueIteration plugin d = Stream.store d [] (u, (u.side d).pipe.commonContinue) := by
          unfold Stream.continueIteration StreamFilter.resume
          rw [if_neg hu.iteration]
        obtain ⟨-, -, -, hiteration, -⟩ := Pipe.commonContinue_fields (u.side d).pipe
        have hpipe := Pipe.commonContinue_same (u.side d).pipe
        have hwithin : Within d u (Stream.store d [] (u, (u.side d).pipe.commonContinue)) :=
          (Entered.refl d u).turn.store _ _
        rw [hgo, hcontinue]
        refine .inr ⟨hturn.toWithin.trans hwithin, ?_, ?_, ?_⟩
        · rw [Stream.store, Stream.side_setSide]
          exact hsame.trans hpipe
        · rw [Stream.store, Stream.side_setSide]
          dsimp only
          rw [hiteration]
          simp
        · intro w'' hw''
          rw [Stream.store, Stream.side_setSide] at hw''
          obtain rfl := Option.some.inj (hleft.symm.trans hw'')
          refine ⟨by rintro ⟨⟩, ?_, by rintro ⟨⟩, hreads.startBody⟩
          intro _ hbuffered
          obtain ⟨hend, hhad⟩ := (hu.reads _ hleft).had (by rintro ⟨⟩) hbuffered
          refine ⟨hend, hhad.mono hwithin ?_ ?_⟩
          · rw [Stream.store, Stream.side_setSide]
            exact hpipe.2
          · rw [Stream.store, Stream.side_setSide]
            exact List.append_nil _
      · obtain ⟨rfl, hstop⟩ := hwaits hrunning
        have hstate : (w.answered.leave state).state = state := leave_state rfl state
        have hend : (w.answered.leave state).endStream = w.endStream := leave_endStream _ _
        have hsaw : (w.answered.leave state).sawBody = w.sawBody := leave_sawBody _ _
        rw [hstop]
        refine .inr ⟨hturn.toWithin, hsame, hrewrap hturn hleft (leave_startBody_ _ _) ?_ ?_ ?_⟩
        · intro hwaits
          obtain rfl : state = .WaitForBody := hstate.symm.trans hwaits
          obtain ⟨hmore, hunseen⟩ := Script.outcome_waits houtcome
          apply hreads.calls hcall hmore hunseen
          rw [Bool.eq_false_iff]
          exact fun htrailers => hbypass ⟨htrailers, hcall, houtcome⟩
        · intro hnot hbuffered
          rw [hend]
          apply hbody
          cases state with
          | WaitForBody => exact absurd rfl hnot
          | Running => exact absurd rfl hrunning
          | HttpCall | Responded => exact hbuffered
        · intro _ hmore hunseen htrailers
          exact hreads.calls hcall (hend.symm.trans hmore) (hsaw.symm.trans hunseen) htrailers
  · rw [complete_idle hcall]
    have hturn := (Entered.refl d s).setWrapper { w with httpRequest := false }
    have hleft := Stream.streamWrapper_setWrapper s d { w with httpRequest := false }
    refine .inr ⟨hturn.toWithin, ?_, hrewrap hturn hleft rfl hreads.waits hreads.had hreads.calls⟩
    rw [hturn.pipe]
    exact ⟨rfl, rfl⟩

end EnvoyProxy.Rider
