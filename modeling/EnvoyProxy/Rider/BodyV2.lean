import EnvoyProxy.Rider.Turns
/-!
# Bodies in version 2

The handler for the body runs on the headers that are the whole message, or on
the data with the end of it, and until then the message is held. Trailers
leave it where it is only as long as everything is stopped.
-/

namespace EnvoyProxy.Rider
open Json Http StreamWrapper

variable {H : Type} [HeaderMap H]

variable (plugin : Plugin) (d : StreamDirection)

/-- Nothing of the message has gone on that matters to the handler, which can
still be started. -/
structure Held (side : Side H) : Prop where
  released : ¬ Released side.pipe
  buffer : side.pipe.buffer.getD [] = side.received
  ready : ∀ w, side.streamWrapper = some w → w.state = .Running → w.status ≠ .Yielded
  calls : ∀ w, side.streamWrapper = some w → w.state = .HttpCall → side.pipe.iteration = .StopAll ∧
    (side.pipe.complete = true → side.pipe.trailers = false → side.pipe.buffer = none → w.startBody_ = true)
  starts : ∀ w, side.streamWrapper = some w → w.startBody_ = true → side.pipe.complete = true

/-- The handler for the body has run. -/
theorem startBody_outcome (buffer : Option Bytes) {w : StreamWrapper} (hw : w.state = .Running)
    (hstatus : w.status ≠ .Yielded)
    (s : Stream H) :
    let r := guarded (startBody plugin (filterCallbacks plugin d) buffer w s)
    r.2.error = true ∨ r.1.state = .Responded ∨ Ran d .body buffer s r.2 ∧
      (r.1.state = .Running → r.1.status ≠ .Yielded) := by
  have hcall := coroutineStart_outcome plugin d .body buffer hw hstatus s.setGlobalCtx
  unfold guarded startBody
  rcases hcall with hthrew | ⟨state, h⟩
  · rw [if_pos hthrew]
    exact .inl rfl
  · rw [if_neg (by rw [h.threw]; simp)]
    by_cases hresponded : state = .Responded
    · refine .inr (.inl ?_)
      rw [h.wrapper, leave_state hw, hresponded]
    · obtain ⟨hrequest, hresponse, herror, hentered⟩ := h.ran hresponded
      refine .inr (.inr ⟨⟨hrequest, hresponse, herror, hentered⟩, ?_⟩)
      rw [h.wrapper, leave_state hw]
      rintro rfl
      rintro ⟨⟩

/-- An error stays one. -/
theorem startBody_failed (buffer : Option Bytes) {w : StreamWrapper} (hw : w.state = .Running)
    {s : Stream H} (herror : s.error = true) :
    let r := guarded (startBody plugin (filterCallbacks plugin d) buffer w s)
    r.2.error = true ∨ r.1.state = .Responded := by
  have hyielded : StreamWrapper.state { w with status := .Yielded } = .Running := hw
  have hcall := resume_outcome plugin d (if w.status = .Yielded then .resumed else .body) buffer
    hyielded s.setGlobalCtx
  unfold guarded startBody coroutineStart
  by_cases hdead : w.dead = true
  · rw [if_pos hdead]
    exact .inl rfl
  · rw [if_neg hdead]
    rcases hcall with hthrew | ⟨state, h⟩
    · rw [if_pos hthrew]
      exact .inl rfl
    · rw [if_neg (by rw [h.threw]; simp)]
      by_cases hresponded : state = .Responded
      · right
        rw [h.wrapper, leave_state hyielded, hresponded]
      · left
        rw [(h.ran hresponded).error]
        exact herror

/-- What `start` leaves. -/
theorem startV2_outcome (endStream : Bool) (s : Stream H) :
    let r := startV2 plugin (filterCallbacks plugin d) (newWrapper true endStream) s
    r.1 = none ∨ r.2.2.error = true ∨ r.2.1.state = .Responded ∨
      Entered d s r.2.2 ∧ (plugin.onBody d = true →
        endStream = true ∧ (∃ e ∈ r.2.2.own d, e.handler = .body ∧ e.bufferedBody = none) ∨
          r.1 = some .StopAllIterationAndBuffer ∧ r.2.1.state = .HttpCall ∧ r.2.1.startBody_ = endStream ∨
          r.1 = some .StopIteration ∧ endStream = false ∧ r.2.1.state ≠ .HttpCall ∧ r.2.1.startBody_ = false ∧
            (r.2.1.state = .Running → r.2.1.status ≠ .Yielded)) := by
  have hcall := coroutineStart_outcome plugin d .header none (w := newWrapper true endStream) rfl
    (by rintro ⟨⟩) s.setGlobalCtx
  unfold startV2
  generalize coroutineStart plugin (filterCallbacks plugin d) .header none
    (newWrapper true endStream) s.setGlobalCtx = r at hcall ⊢
  obtain ⟨threw, w, t⟩ := r
  rcases hcall with hthrew | ⟨state, houtcome, hthrew, hwrapper, hran⟩
  · obtain rfl : threw = true := hthrew
    exact .inl rfl
  · obtain rfl : threw = false := hthrew
    obtain rfl : w = (newWrapper true endStream).leave state := hwrapper
    have hentered : state ≠ .Responded → Entered d s t := fun h =>
      ⟨(hran h).request, (hran h).response, (hran h).toEntered.entered⟩
    simp only [filterCallbacks_direction]
    cases state with
    | Responded => exact .inr (.inr (.inl rfl))
    | HttpCall =>
      refine .inr (.inr (.inr ⟨hentered (by simp), fun hbody => .inr (.inl ⟨rfl, ?_, ?_⟩)⟩))
      · rw [hbody]
        cases endStream <;> rfl
      · rw [hbody]
        cases endStream <;> rfl
    | WaitForBody =>
      obtain ⟨hmore, -⟩ := Script.outcome_waits houtcome
      obtain rfl : endStream = false := hmore
      exact .inr (.inr (.inr ⟨hentered (by simp), fun _ => .inr (.inr ⟨rfl, rfl, by rintro ⟨⟩, rfl, by rintro ⟨⟩⟩)⟩))
    | Running =>
      cases endStream with
      | false =>
        exact .inr (.inr (.inr
          ⟨hentered (by simp), fun _ => .inr (.inr ⟨rfl, rfl, by rintro ⟨⟩, rfl, fun _ => by rintro ⟨⟩⟩)⟩))
      | true =>
        cases hbody : plugin.onBody d with
        | false => exact .inr (.inr (.inr ⟨hentered (by simp), by simp⟩))
        | true =>
          rcases startBody_outcome plugin d none (w := (newWrapper true true).leave .Running) rfl (by rintro ⟨⟩) t
            with herror | hresponded | ⟨hbodyRan, -⟩
          · exact .inr (.inl herror)
          · exact .inr (.inr (.inl hresponded))
          · exact .inr (.inr (.inr ⟨(hentered (by simp)).trans hbodyRan.toEntered, fun _ =>
              .inl ⟨rfl, hbodyRan.mem_own⟩⟩))

/-- The handler for the body runs at the end of the data. -/
theorem onDataV2_outcome {w : StreamWrapper} (hw : w.state ≠ .HttpCall) (hresponded : w.state ≠ .Responded)
    (hready : w.state = .Running → w.status ≠ .Yielded) (v : DataView) (endStream : Bool) (s : Stream H) :
    let r := onDataV2 plugin (filterCallbacks plugin d) v endStream w s
    r.2.2.2.error = true ∨ r.2.2.1.state = .Responded ∨
      Entered d s r.2.2.2 ∧
        (endStream = true → w.state = .Running → ∃ e ∈ r.2.2.2.own d, e.handler = .body ∧
          e.bufferedBody = v.move.buffer) ∧
        (endStream = false → r = (.StopIterationAndBuffer, v, { w with endStream, sawBody := true }, s)) := by
  obtain ⟨-, hstream⟩ := onDataV2_eq plugin (filterCallbacks plugin d) v endStream w s
  have hstops : endStream = false → onDataV2 plugin (filterCallbacks plugin d) v endStream w s =
      (.StopIterationAndBuffer, v, { w with endStream, sawBody := true }, s) := by
    rintro rfl
    unfold onDataV2
    simp [hw, hresponded]
  generalize onDataV2 plugin (filterCallbacks plugin d) v endStream w s = r at hstream hstops ⊢
  obtain ⟨status, v', w', t⟩ := r
  by_cases hstart : endStream = true ∧ w.state = .Running
  · rw [if_pos hstart] at hstream
    have hrunning : StreamWrapper.state { w with endStream, sawBody := true } = .Running := hstart.2
    have hbody := startBody_outcome plugin d v.move.buffer hrunning (hready hstart.2) s
    rw [← hstream] at hbody
    rcases hbody with herror | hanswered | ⟨hran, -⟩
    · exact .inl herror
    · exact .inr (.inl hanswered)
    · exact .inr (.inr ⟨hran.toEntered, fun _ _ => hran.mem_own, hstops⟩)
  · rw [if_neg hstart] at hstream
    obtain ⟨-, rfl⟩ := Prod.mk.inj hstream
    exact .inr (.inr ⟨Entered.refl d t, fun hend hrunning => absurd ⟨hend, hrunning⟩ hstart, hstops⟩)

/-- A wrapper whose http call has ended. -/
def StreamWrapper.answered (w : StreamWrapper) : StreamWrapper := { w with httpRequest := false, state := .Running }

/-- The end of an http call. -/
theorem onSuccess_outcome (buffer : Option Bytes) {w : StreamWrapper} (hcall : w.state = .HttpCall) (s : Stream H) :
    let r := onSuccess plugin (filterCallbacks plugin d) buffer w s
    r.2.1.error = true ∨ r.1.state = .Responded ∨ Entered d s r.2.1 ∧
      ∃ state, (plugin.script s.entered.length).outcome H d w = some state ∧ state ≠ .Responded ∧
        (state ≠ .Running → r.1 = w.answered.leave state ∧ r.2.2 = false) ∧
        (state = .Running → w.startBody_ = false → r.1 = w.answered.leave .Running ∧ r.2.2 = true) ∧
        (state = .Running → w.startBody_ = true → (∃ e ∈ r.2.1.own d, e.handler = .body ∧ e.bufferedBody = buffer) ∧
          (r.2.2 = true → r.1.state = .Running ∧ r.1.status ≠ .Yielded)) := by
  have hrunning : w.answered.state = .Running := rfl
  have hresume := resume_outcome plugin d .resumed buffer hrunning s.setGlobalCtx
  rcases hresumed : resume plugin (filterCallbacks plugin d) .resumed buffer w.answered
    s.setGlobalCtx with ⟨threw, w', t⟩
  rw [hresumed] at hresume
  have hsuccess (w₁ : StreamWrapper) (t₁ : Stream H)
      (hresult : (if threw = true then ({ w' with state := .Running }, t.scriptError) else (w', t)) = (w₁, t₁)) :
      onSuccess plugin (filterCallbacks plugin d) buffer w s =
        if w₁.state = .Running then
          if w₁.startBody_ then
            let q := guarded (startBody plugin (filterCallbacks plugin d) buffer { w₁ with startBody_ := false } t₁)
            (q.1, q.2, decide (q.1.state = .Running))
          else (w₁, t₁, true)
        else (w₁, t₁, false) := by
    change resume plugin (filterCallbacks plugin d) .resumed buffer
      { w with httpRequest := false, state := .Running }
      s.setGlobalCtx = (threw, w', t) at hresumed
    unfold onSuccess
    simp only [if_pos hcall, hresumed]
    cases threw <;> (cases hresult; rfl)
  rcases hresume with hthrew | ⟨state, houtcome, hthrew, hwrapper, hran⟩
  · obtain rfl : threw = true := hthrew
    have hfailed : t.scriptError.error = true := rfl
    rw [hsuccess _ _ rfl]
    simp only [if_true]
    split_ifs
    · rcases startBody_failed plugin d buffer
        (w := { w' with state := .Running, startBody_ := false }) rfl hfailed with herror | hanswered
      · exact .inl herror
      · exact .inr (.inl hanswered)
    · exact .inl hfailed
  · obtain rfl : threw = false := hthrew
    obtain rfl : w' = w.answered.leave state := hwrapper
    rw [hsuccess _ _ rfl]
    have hsame : (plugin.script s.entered.length).outcome H d w.answered =
        (plugin.script s.entered.length).outcome H d w :=
      Script.outcome_congr _ d rfl rfl rfl
    have hentered : state ≠ .Responded → Entered d s t := fun h =>
      ⟨(hran h).request, (hran h).response, (hran h).toEntered.entered⟩
    have hstate := leave_state hrunning state
    by_cases hresponded : state = .Responded
    · subst hresponded
      exact .inr (.inl rfl)
    · by_cases hfinished : state = .Running
      · subst hfinished
        have hstart : (w.answered.leave .Running).startBody_ = w.startBody_ := rfl
        simp only [hstate, if_true, hstart]
        cases hbody : w.startBody_ with
        | false =>
          refine .inr (.inr ⟨hentered hresponded, .Running, hsame ▸ houtcome, by simp, fun h =>
            absurd rfl h, fun _ _ => ⟨rfl, rfl⟩, by simp⟩)
        | true =>
          rcases startBody_outcome plugin d buffer
            (w := { w.answered.leave .Running with startBody_ := false }) rfl (by rintro ⟨⟩) t
            with herror | hanswered | ⟨hbodyRan, hready⟩
          · exact .inl herror
          · exact .inr (.inl hanswered)
          · refine .inr (.inr ⟨(hentered hresponded).trans hbodyRan.toEntered, .Running,
              hsame ▸ houtcome, by simp, fun h => absurd rfl h, by simp, ?_⟩)
            intro _ _
            refine ⟨hbodyRan.mem_own, fun hgo => ?_⟩
            have hstill := of_decide_eq_true hgo
            exact ⟨hstill, hready hstill⟩
      · have hnot : ¬ (w.answered.leave state).state = .Running := by rwa [hstate]
        simp only [if_neg hnot]
        exact .inr (.inr ⟨hentered hresponded, state, hsame ▸ houtcome, hresponded, fun _ =>
          ⟨rfl, trivial⟩, fun h => absurd h hfinished,
          fun h => absurd h hfinished⟩)

omit [HeaderMap H] in
/-- After headers that have not let the end of the message go. -/
theorem held_headers {side : Side H} (endStream : Bool) (status : FilterHeadersStatus)
    (hmore : status = .Continue → endStream = false)
    (hready : ∀ w, side.streamWrapper = some w → w.state = .Running → w.status ≠ .Yielded)
    (hcalls : ∀ w, side.streamWrapper = some w → w.state = .HttpCall →
    status = .StopAllIterationAndBuffer ∧ w.startBody_ = endStream)
    (hstarts : ∀ w, side.streamWrapper = some w → w.startBody_ = true → endStream = true) (h : H) :
    Held { side with
      pipe := { ({} : Pipe H) with headers := some h, complete := endStream }.afterHeaders status
      received := [] } := by
  have hcomplete := (Pipe.afterHeaders_same { ({} : Pipe H) with headers := some h, complete := endStream } status).2
  refine ⟨?_, ?_, hready, ?_, fun w hw hstart => hcomplete.trans (hstarts w hw hstart)⟩
  · rintro ⟨x, hx, hends⟩
    cases status with
    | Continue =>
      obtain rfl := hmore rfl
      cases List.mem_singleton.1 hx
      rcases hends with hbytes | hends
      · exact hbytes rfl
      · cases hends
    | StopIteration | StopAllIterationAndBuffer | StopAllIterationAndWatermark => cases hx
  · cases status with
    | Continue =>
      obtain rfl := hmore rfl
      rfl
    | StopIteration | StopAllIterationAndBuffer | StopAllIterationAndWatermark => rfl
  · intro w hw hcall
    obtain ⟨rfl, hstart⟩ := hcalls w hw hcall
    exact ⟨rfl, fun hend _ _ => hstart.trans hend⟩

theorem doHeadersV2_turn (endStream : Bool) {s : Stream H} (herror : s.error = false)
    (hnone : (s.side d).streamWrapper = none) :
    let r := doHeadersV2 plugin (filterCallbacks plugin d) endStream s
    Disturbed r.2 ∨ Turn d s r.2 ∧
      (plugin.onBody d = true → ¬ (plugin.onHeader d = false ∧ s.responded = false ∧ endStream = true) →
        endStream = true ∧ (∃ e ∈ r.2.own d, e.handler = .body ∧ e.bufferedBody = none) ∨
          ∀ h, Held { r.2.side d with
            pipe := { ({} : Pipe H) with headers := some h, complete := endStream }.afterHeaders r.1
            received := [] }) := by
  have hwrapper : ∀ {side : Side H}, side.streamWrapper = none → ∀ {P : StreamWrapper → Prop} w,
      side.streamWrapper = some w → P w :=
    fun hnone _ w hw => absurd (hnone.symm.trans hw) (by simp)
  unfold doHeadersV2
  simp only [filterCallbacks_direction]
  by_cases hanswered : (s.responded && !plugin.onHeader d) = true
  · rw [if_pos hanswered]
    have hside : ∀ d', ({ s with responded := false } : Stream H).side d' = s.side d' := by
      intro d'
      cases d' <;> rfl
    refine .inr ⟨⟨⟨fun d' _ => hside d', [], by simp, by simp⟩, by rw [hside], by rw [hside]⟩,
      fun _ _ => .inr fun h => ?_⟩
    dsimp only
    rw [hside]
    exact held_headers endStream .StopIteration (by simp) (hwrapper hnone) (hwrapper hnone) (hwrapper hnone) h
  · rw [if_neg hanswered, herror, Bool.false_or]
    by_cases hheader : plugin.onHeader d = true
    · rw [if_neg (by simp [hheader])]
      have hstart := startV2_outcome plugin d endStream s
      generalize startV2 plugin (filterCallbacks plugin d) (newWrapper true endStream) s = r at hstart ⊢
      obtain ⟨status, w, t⟩ := r
      cases status with
      | none =>
        left
        have hcaught : (caught d (none, w, t)).2 = t.scriptError.setWrapper d w :=
          Stream.setWrapper_scriptError d w t
        rw [hcaught]
        exact disturbed_setWrapper (.inl rfl)
      | some status =>
        have hcaught : caught d (some status, w, t) = (status, t.setWrapper d w) := rfl
        rw [hcaught]
        rcases hstart with hnot | hfailed | hresponded | ⟨hentered, hbody⟩
        · cases hnot
        · exact .inl (disturbed_setWrapper (.inl hfailed))
        · exact .inl (disturbed_setWrapper (.inr hresponded))
        · refine .inr ⟨hentered.setWrapper w, fun honBody _ => ?_⟩
          have hleft : ∀ w', ((t.setWrapper d w).side d).streamWrapper = some w' → w' = w := by
            intro w' hw'
            rw [Stream.streamWrapper_setWrapper] at hw'
            exact (Option.some.inj hw').symm
          rw [Stream.own_setWrapper]
          rcases hbody honBody with ⟨hend, hran⟩ | ⟨hstatus, hcall, hstarts⟩ | ⟨hstatus, hmore,
            hnot, hstarts, hready⟩
          · exact .inl ⟨hend, hran⟩
          · right
            cases hstatus
            apply held_headers endStream .StopAllIterationAndBuffer (by simp)
            · intro w' hw' hrunning
              rw [hleft w' hw'] at hrunning
              exact absurd (hcall.symm.trans hrunning) (by simp)
            · intro w' hw' _
              rw [hleft w' hw']
              exact ⟨rfl, hstarts⟩
            · intro w' hw' hstart
              rw [hleft w' hw'] at hstart
              exact hstarts.symm.trans hstart
          · right
            cases hstatus
            apply held_headers endStream .StopIteration (by simp)
            · intro w' hw'
              rw [hleft w' hw']
              exact hready
            · intro w' hw' hcall
              rw [hleft w' hw'] at hcall
              exact absurd hcall hnot
            · intro w' hw' hstart
              rw [hleft w' hw'] at hstart
              exact absurd (hstarts.symm.trans hstart) (by simp)
    · rw [if_pos (by simp [hheader])]
      have hnoHeader : plugin.onHeader d = false := Bool.eq_false_iff.2 hheader
      have hnot : s.responded = false := by simpa [hnoHeader] using hanswered
      refine .inr ⟨(Entered.refl d s).turn, fun _ hmore => .inr ?_⟩
      have hcontinues : endStream = false := by
        rw [Bool.eq_false_iff]
        exact fun hend => hmore ⟨hnoHeader, hnot, hend⟩
      exact held_headers endStream .Continue (fun _ => hcontinues) (hwrapper hnone) (hwrapper hnone) (hwrapper hnone)

theorem doDataV2_turn (hversion : plugin.version = .v2) {s : Stream H} (herror : s.error = false)
    (hstate : (s.side d).state ≠ .HttpCall)
    (hresponded : (s.side d).state ≠ .Responded)
    (hready : ∀ w, (s.side d).streamWrapper = some w → w.state = .Running → w.status ≠ .Yielded)
    (v : DataView) (endStream : Bool) :
    let r := doData plugin (filterCallbacks plugin d) v endStream s
    let w := (s.side d).streamWrapper.getD (newWrapper (s.side d).headers endStream)
    Disturbed r.2.2 ∨ Turn d s r.2.2 ∧ (plugin.onBody d = true →
      (endStream = true → (s.side d).state = .Running → ∃ e ∈ r.2.2.own d, e.handler = .body ∧
      e.bufferedBody = v.move.buffer) ∧
        (endStream = false → r = (.StopIterationAndBuffer, v, s.setWrapper d
        { w with endStream, sawBody := true }))) := by
  unfold doData
  simp only [hversion, filterCallbacks_direction, herror, Bool.false_or]
  cases hbody : plugin.onBody d with
  | false => exact .inr ⟨(Entered.refl d s).turn, by simp⟩
  | true =>
    have hnext : ((s.side d).streamWrapper.getD (newWrapper (s.side d).headers endStream)).state =
        (s.side d).state := by
      unfold Side.state
      cases (s.side d).streamWrapper <;> rfl
    have hnextReady : ((s.side d).streamWrapper.getD (newWrapper (s.side d).headers endStream)).state = .Running →
        ((s.side d).streamWrapper.getD (newWrapper (s.side d).headers endStream)).status ≠ .Yielded := by
      cases hwrapper : (s.side d).streamWrapper with
      | none => rintro _ ⟨⟩
      | some w => exact hready w hwrapper
    generalize (s.side d).streamWrapper.getD (newWrapper (s.side d).headers endStream) = w at hnext hnextReady ⊢
    rw [← hnext] at hstate hresponded ⊢
    have hdata := onDataV2_outcome plugin d hstate hresponded hnextReady v endStream s
    generalize onDataV2 plugin (filterCallbacks plugin d) v endStream w s = r at hdata ⊢
    obtain ⟨status, v', w', t⟩ := r
    simp only [Bool.not_true, Bool.false_eq_true, if_false]
    have hkept : (keep d (status, w', t)).2 = t.setWrapper d w' := rfl
    rw [hkept]
    rcases hdata with hfailed | hanswered | ⟨hentered, hran, hstops⟩
    · exact .inl (disturbed_setWrapper (.inl hfailed))
    · exact .inl (disturbed_setWrapper (.inr hanswered))
    · refine .inr ⟨hentered.setWrapper w', fun _ => ⟨?_, ?_⟩⟩
      · rw [Stream.own_setWrapper]
        exact hran
      · intro hend
        cases hstops hend
        rfl

/-- A side of a message that has begun. -/
def BegunV2 (s : Stream H) : Prop := plugin.onBody d = true → HadBody .body (s.side d) (s.own d) ∨ Held (s.side d)

variable {plugin d}

theorem headersV2 (hversion : plugin.version = .v2) {s : Stream H} (herror : s.error = false)
    (hfresh : (s.side d).pipe = {} ∧ (s.side d).received = [] ∧ (s.side d).streamWrapper = none)
    {h : H} {endStream : Bool}
    (hearly : ¬ Early plugin d s (.headers h endStream)) :
    let t := s.receive plugin d (.headers h endStream)
    Disturbed t ∨ Within d s t ∧ BegunV2 plugin d t := by
  obtain ⟨hpipe, hreceived, hnone⟩ := hfresh
  have hallowed : plugin.onBody d = true → endStream = true →
      ¬ ((gate plugin d s).1 = false ∨ plugin.onHeader d = false ∧ s.responded = false) := by
    rintro hbody rfl hout
    unfold Early at hearly
    rw [hversion] at hearly
    exact hearly ⟨hbody, hout⟩
  obtain ⟨routeConfig, hgate⟩ := gate_stream plugin d s
  unfold Stream.receive StreamFilter.receive streamFilter
  simp only [filterCallbacks_direction, arrivalBytes, hpipe, hgate]
  have hside : ∀ d', ({ s with routeConfig } : Stream H).side d' = s.side d' := by
    intro d'
    cases d' <;> rfl
  have hturn : Turn d s { s with routeConfig } :=
    ⟨⟨fun d' _ => hside d', [], by simp, by simp⟩, by rw [hside], by rw [hside]⟩
  by_cases hshown : (gate plugin d s).1 = true
  · rw [if_pos hshown]
    have hheaders : Turn d s (Stream.setHeaders d { s with routeConfig }) := hturn.trans (Turn.setSide _ rfl rfl)
    have hunfold : doHeaders plugin (filterCallbacks plugin d) endStream { s with routeConfig } =
        doHeadersV2 plugin (filterCallbacks plugin d) endStream (Stream.setHeaders d { s with routeConfig }) := by
      unfold doHeaders
      rw [hversion, filterCallbacks_direction]
      rfl
    have hfailed : (Stream.setHeaders d { s with routeConfig }).error = false := by
      unfold Stream.setHeaders
      rw [Stream.error_setSide]
      exact herror
    have hwrapper : ((Stream.setHeaders d { s with routeConfig }).side d).streamWrapper = none := by
      unfold Stream.setHeaders
      rw [Stream.side_setSide, hside, hnone]
    have hresponded : (Stream.setHeaders d { s with routeConfig }).responded = s.responded := by
      unfold Stream.setHeaders
      rw [Stream.responded_setSide]
    rw [hunfold]
    have hstep := doHeadersV2_turn plugin d endStream hfailed hwrapper
    generalize Stream.setHeaders d { s with routeConfig } = s' at hheaders hfailed hwrapper hresponded hstep ⊢
    rcases hstep with hdisturbed | ⟨hstep, hbody⟩
    · exact .inl (disturbed_store hdisturbed _ _)
    · have hall := hheaders.trans hstep
      refine .inr ⟨hall.store _ _, fun honBody => ?_⟩
      have hcomplete := (Pipe.afterHeaders_same { ({} : Pipe H) with headers := some h, complete := endStream }
        (doHeadersV2 plugin (filterCallbacks plugin d) endStream s').1).2
      rw [Stream.own_store, Stream.store, Stream.side_setSide]
      rcases hbody honBody (fun hout => hallowed honBody hout.2.2
        (.inr ⟨hout.1, hresponded.symm.trans hout.2.1⟩)) with
        ⟨hend, e, he, hhandler, hbuffer⟩ | hheld
      · refine .inl ⟨hcomplete.trans hend, e, he, hhandler, ?_⟩
        simp [hall.received, hreceived, hbuffer]
      · right
        have hheld := hheld h
        simp only [hall.received, hreceived, List.append_nil]
        exact hheld
  · rw [if_neg hshown]
    refine .inr ⟨hturn.store _ _, fun honBody => .inr ?_⟩
    have hmore : endStream = false := by
      rw [Bool.eq_false_iff]
      exact fun hend => hallowed honBody hend (.inl (Bool.eq_false_iff.2 hshown))
    have hwrapper : ∀ {P : StreamWrapper → Prop} w, (s.side d).streamWrapper = some w → P w :=
      fun w hw => absurd (hnone.symm.trans hw) (by simp)
    rw [Stream.store, Stream.side_setSide]
    simp only [hside, hreceived, List.append_nil]
    exact held_headers endStream .Continue (fun _ => hmore) hwrapper hwrapper hwrapper h

omit [HeaderMap H] in
/-- A frame goes to the buffer. -/
theorem Held.buffered {side side' : Side H} (hside : Held side) (hmore : side.pipe.complete = false) {bytes : Bytes}
    (hpassed : side'.pipe.passed = side.pipe.passed)
    (hbuffer : side'.pipe.buffer = some (side.pipe.buffer.getD [] ++ bytes))
    (hreceived : side'.received = side.received ++ bytes)
    (hready : ∀ w, side'.streamWrapper = some w → w.state = .Running → w.status ≠ .Yielded)
    (hcalls : ∀ w, side'.streamWrapper = some w → w.state = .HttpCall → side'.pipe.iteration = .StopAll)
    (hstarts : ∀ w, side'.streamWrapper = some w → w.startBody_ = true → ∃ w',
    side.streamWrapper = some w' ∧ w'.startBody_ = true) :
    Held side' where
  released := by
    unfold Released
    rw [hpassed]
    exact hside.released
  buffer := by rw [hbuffer, hreceived, ← hside.buffer, Option.getD_some]
  ready := hready
  calls := fun w hw hcall => ⟨hcalls w hw hcall, fun _ _ hnone => absurd (hbuffer.symm.trans hnone) (by simp)⟩
  starts := by
    intro w hw hstart
    obtain ⟨w', hw', hstart'⟩ := hstarts w hw hstart
    exact absurd (hmore.symm.trans (hside.starts w' hw' hstart')) (by simp)

theorem dataV2 (hversion : plugin.version = .v2) {s : Stream H} (hs : ¬ Disturbed s) {bytes : Bytes}
    {endStream : Bool}
    (hmore : (s.side d).pipe.complete = false) (hbegun : BegunV2 plugin d s)
    (hearly : ¬ Early plugin d s (.data bytes endStream)) :
    let t := s.receive plugin d (.data bytes endStream)
    Disturbed t ∨ Within d s t ∧ BegunV2 plugin d t := by
  obtain ⟨herror, hanswered⟩ : s.error = false ∧ ¬ ∃ d w, (s.side d).streamWrapper = some w ∧
      w.state = .Responded := by
    unfold Disturbed at hs
    rwa [not_or, Bool.not_eq_true] at hs
  have hresponded : (s.side d).state ≠ .Responded := by
    unfold Side.state
    cases hwrapper : (s.side d).streamWrapper with
    | none => simp
    | some w => exact fun h => hanswered ⟨d, w, hwrapper, h⟩
  have hheld : plugin.onBody d = true → Held (s.side d) := fun honBody =>
    (hbegun honBody).resolve_left fun hhad => absurd (hmore.symm.trans hhad.1) (by simp)
  unfold Stream.receive StreamFilter.receive streamFilter
  dsimp only [arrivalBytes]
  by_cases hall : (s.side d).pipe.iteration = .StopAll
  · rw [if_pos hall]
    refine .inr ⟨(Entered.refl d s).turn.store _ _, fun honBody => .inr ?_⟩
    rw [Stream.store, Stream.side_setSide]
    have hside := hheld honBody
    exact hside.buffered hmore rfl rfl rfl hside.ready (fun _ _ _ => hall) (fun w hw h => ⟨w, hw, h⟩)
  · rw [if_neg hall]
    cases hbody : plugin.onBody d with
    | false =>
      have hskip : doData plugin (filterCallbacks plugin d) ⟨some bytes, (s.side d).pipe.buffer⟩ endStream s =
          (.Continue, ⟨some bytes, (s.side d).pipe.buffer⟩, s) := by
        unfold doData
        simp [hversion, hbody]
      rw [hskip]
      exact .inr ⟨(Entered.refl d s).turn.store _ _, fun honBody => absurd (hbody.symm.trans honBody) (by simp)⟩
    | true =>
      have hside := hheld hbody
      have hstate : (s.side d).state ≠ .HttpCall := by
        unfold Side.state
        cases hwrapper : (s.side d).streamWrapper with
        | none => simp
        | some w => exact fun h => hall (hside.calls w hwrapper h).1
      have hdata := doDataV2_turn plugin d hversion herror hstate hresponded hside.ready
        ⟨some bytes, (s.side d).pipe.buffer⟩ endStream
      generalize doData plugin (filterCallbacks plugin d) ⟨some bytes, (s.side d).pipe.buffer⟩
        endStream s = r at hdata ⊢
      rcases hdata with hdisturbed | ⟨hturn, hran⟩
      · exact .inl (disturbed_store hdisturbed _ _)
      · obtain ⟨hstarts, hstops⟩ := hran hbody
        refine .inr ⟨hturn.store _ _, fun _ => ?_⟩
        rw [Stream.own_store, Stream.store, Stream.side_setSide]
        cases endStream with
        | true =>
          have hrunning : (s.side d).state = .Running := by
            cases hcase : (s.side d).state with
            | Running => rfl
            | HttpCall => exact absurd hcase hstate
            | Responded => exact absurd hcase hresponded
            | WaitForBody =>
              unfold Early at hearly
              rw [hversion] at hearly
              exact absurd ⟨hbody, hall, hcase⟩ hearly
          obtain ⟨e, he, hhandler, hbuffer⟩ := hstarts rfl hrunning
          refine .inl ⟨(Pipe.afterData_same _ _ _ _).2, e, he, hhandler, ?_⟩
          rw [hbuffer, hturn.received, ← hside.buffer]
          rfl
        | false =>
          have hreceived := hturn.received
          rw [hstops rfl] at hreceived ⊢
          right
          -- the wrapper is a new one or that of the side
          have hnext : ∀ {P : StreamWrapper → Prop}, P (newWrapper (s.side d).headers false) →
              (∀ w, (s.side d).streamWrapper = some w → P w) →
                P ((s.side d).streamWrapper.getD (newWrapper (s.side d).headers false)) := by
            intro P hnew hold
            cases hwrapper : (s.side d).streamWrapper with
            | none => exact hnew
            | some w => exact hold w hwrapper
          have hready := hnext (P := fun w => w.state = .Running → w.status ≠ .Yielded) (by rintro _ ⟨⟩) hside.ready
          have hcalls := hnext (P := fun w => w.state ≠ .HttpCall) (by rintro ⟨⟩) fun w hw h => hall
            (hside.calls w hw h).1
          have hstarts := hnext (P := fun w => w.startBody_ ≠ true) (by rintro ⟨⟩) fun w hw h =>
            absurd (hmore.symm.trans (hside.starts w hw h)) (by simp)
          generalize (s.side d).streamWrapper.getD (newWrapper (s.side d).headers false) =
            w at hready hcalls hstarts hreceived ⊢
          have hleft := Stream.streamWrapper_setWrapper s d { w with endStream := false, sawBody := true }
          apply hside.buffered hmore
          · rfl
          · rfl
          · exact congrArg (· ++ bytes) hreceived
          · intro w' hw'
            cases hleft.symm.trans hw'
            exact hready
          · intro w' hw' hcall
            cases hleft.symm.trans hw'
            exact absurd hcall hcalls
          · intro w' hw' hstart
            cases hleft.symm.trans hw'
            exact absurd hstart hstarts

theorem trailersV2 (hversion : plugin.version = .v2) {s : Stream H} (hmore : (s.side d).pipe.complete = false)
    (hbegun : BegunV2 plugin d s) (hearly : ¬ Early plugin d s .trailers) :
    let t := s.receive plugin d .trailers
    Within d s t ∧ BegunV2 plugin d t := by
  unfold Stream.receive StreamFilter.receive
  refine ⟨(Entered.refl d s).turn.store _ _, fun honBody => ?_⟩
  have hside : Held (s.side d) := (hbegun honBody).resolve_left fun hhad => absurd
    (hmore.symm.trans hhad.1) (by simp)
  have hall : (s.side d).pipe.iteration = .StopAll := by
    by_contra hnot
    unfold Early at hearly
    rw [hversion] at hearly
    exact hearly ⟨honBody, hnot⟩
  have hstays : { (s.side d).pipe with complete := true, trailers := true }.afterTrailers =
      { (s.side d).pipe with complete := true, trailers := true } := by
    unfold Pipe.afterTrailers
    simp only [hall]
  rw [Stream.store, Stream.side_setSide, hstays]
  simp only [arrivalBytes, List.append_nil]
  exact .inr ⟨hside.released, hside.buffer, hside.ready, fun w hw hcall =>
    ⟨hall, fun _ h => absurd h (by simp)⟩, fun _ _ _ => rfl⟩

end EnvoyProxy.Rider
