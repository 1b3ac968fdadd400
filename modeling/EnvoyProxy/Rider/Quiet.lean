import EnvoyProxy.Rider.Coroutines
/-!
# Code that does not respond

What the calls of a wrapper and the callbacks of version 2 do when Lua code
finishes, fails, waits for a body or makes http calls, and never responds: the
other direction is left alone, and the answers say whether the message is held
back for an http call.
-/

namespace EnvoyProxy.Rider
open Json Http StreamWrapper

variable {H : Type} [HeaderMap H]

/-- Code that does not respond. -/
def Script.Quiet : Script → Prop
  | .respond .. => False
  | .getBody returned => returned.Quiet
  | _ => True

/-- Code that makes an http call, once it has the body. -/
def Script.calls : Script → Bool
  | .httpCall => true
  | .getBody returned => returned.calls
  | _ => false

/-- What quiet code leaves alone. -/
structure Quietly (s t : Stream H) : Prop where
  request : t.request = s.request
  response : t.response = s.response
  responded : t.responded = s.responded
  error : s.error = true → t.error = true

omit [HeaderMap H] in
theorem Quietly.trans {s t u : Stream H} (h : Quietly s t) (h' : Quietly t u) : Quietly s u :=
  ⟨h'.request.trans h.request, h'.response.trans h.response, h'.responded.trans h.responded, h'.error ∘ h.error⟩

/-- Between two calls of quiet code. A thread that has died was an error of the
filter. -/
structure StreamWrapper.Plain (error : Bool) (w : StreamWrapper) : Prop where
  state : w.state ≠ .Responded
  dead : w.dead = true → error = true

/-- A call of a coroutine from a running wrapper. -/
structure QuietCall (plugin : Plugin) (w : StreamWrapper) (s : Stream H) (r : Bool × StreamWrapper × Stream H) : Prop
    extends Quietly s r.2.2 where
  state : r.2.1.state ≠ .Responded
  threw : r.1 = true → r.2.1.state = .Running
  dead : r.2.1.dead = true → w.dead = true ∨ r.1 = true
  endStream : r.2.1.endStream = w.endStream
  waits : r.2.1.state = .WaitForBody → w.endStream = false
  calls : (plugin.script s.entered.length).calls = true → w.dead = false → w.endStream = true → r.2.1.state = .HttpCall

section Calls
variable {plugin : Plugin} (callbacks : FilterCallbacks H)

/-- Quiet code does not touch the stream. -/
theorem luaResume_quiet {script : Script} (hquiet : script.Quiet) {w : StreamWrapper}
    (hw : w.state = .Running) (s : Stream H) :
    let r := luaResume callbacks w s script
    r.2.2 = s ∧ r.2.1.state ≠ .Responded ∧ (r.1 = true → r.2.1.state = .Running) ∧
      (r.2.1.dead = true → w.dead = true ∨ r.1 = true) ∧
      r.2.1.endStream = w.endStream ∧ (r.2.1.state = .WaitForBody → w.endStream = false) ∧
      (script.calls = true → w.endStream = true → r.2.1.state = .HttpCall) := by
  have hstate : w.state ≠ .Responded := by simp [hw]
  have hwaits : w.state = .WaitForBody → w.endStream = false := fun h => absurd (hw.symm.trans h) (by simp)
  induction script with
  | finish | yield => exact ⟨rfl, hstate, fun _ => hw, .inl, rfl, hwaits, by rintro ⟨⟩⟩
  | error => exact ⟨rfl, hstate, fun _ => hw, fun _ => .inr rfl, rfl, hwaits, by rintro ⟨⟩⟩
  | httpCall => exact ⟨rfl, by rintro ⟨⟩, by rintro ⟨⟩, .inl, rfl, by rintro ⟨⟩, fun _ _ => rfl⟩
  | respond => cases hquiet
  | getBody returned ih =>
    unfold luaResume
    by_cases hseen : (w.endStream || w.sawBody) = true
    · rw [if_pos hseen]
      exact ih hquiet
    · rw [if_neg hseen]
      have hmore : w.endStream = false := by
        rw [Bool.not_eq_true, Bool.or_eq_false_iff] at hseen
        exact hseen.1
      exact ⟨rfl, by simp, by simp, .inl, rfl, fun _ => hmore, fun _ h => absurd (hmore.symm.trans h) (by simp)⟩

theorem resume_quiet (hquiet : ∀ n, (plugin.script n).Quiet) (handler : Handler)
    (buffer : Option Bytes) {w : StreamWrapper}
    (hw : w.state = .Running) (s : Stream H) : QuietCall plugin w s (resume plugin callbacks handler buffer w s) := by
  unfold resume
  obtain ⟨hstream, hstate, hthrew, hdead, hend, hwaits, hcalls⟩ := luaResume_quiet callbacks
    (hquiet s.entered.length) hw
    { s with entered := s.entered ++
      [{ direction := callbacks.direction, handler, headers := w.headers, resumable := w.status = .Yielded, alive := !s.destroyed
         globalCtx := s.globalCtx, bufferedBody := buffer }] }
  refine ⟨?_, hstate, hthrew, hdead, hend, hwaits, fun h _ => hcalls h⟩
  rw [hstream]
  exact ⟨rfl, rfl, rfl, id⟩

theorem coroutineStart_quiet (hquiet : ∀ n, (plugin.script n).Quiet) (handler : Handler)
    (buffer : Option Bytes) {w : StreamWrapper}
    (hw : w.state = .Running) (s : Stream H) :
    QuietCall plugin w s (coroutineStart plugin callbacks handler buffer w s) := by
  unfold coroutineStart
  by_cases hdead : w.dead = true
  · rw [if_pos hdead]
    refine ⟨⟨rfl, rfl, rfl, id⟩, ?_, fun _ => hw, .inl, rfl, ?_, fun _ h => absurd (hdead.symm.trans h) (by simp)⟩
    · simp [hw]
    · exact fun h => absurd (hw.symm.trans h) (by simp)
  · rw [if_neg hdead]
    have hyielded : StreamWrapper.state { w with status := .Yielded } = .Running := hw
    have hcall := resume_quiet callbacks hquiet (if w.status = .Yielded then .resumed else handler) buffer hyielded s
    exact ⟨hcall.toQuietly, hcall.state, hcall.threw, hcall.dead, hcall.endStream, hcall.waits, hcall.calls⟩

/-- The handler for the body, whose errors are caught. -/
theorem startBody_quiet (hquiet : ∀ n, (plugin.script n).Quiet) (buffer : Option Bytes) {w : StreamWrapper}
    (hw : w.state = .Running) (s : Stream H) (hdead : w.dead = true → s.error = true) :
    let r := guarded (startBody plugin callbacks buffer w s)
    Quietly s r.2 ∧ r.1.Plain r.2.error ∧ (r.1.state = .WaitForBody → w.endStream = false) ∧
      ((plugin.script s.entered.length).calls = true → s.error = false → w.endStream = true →
        r.1.state = .HttpCall) := by
  have hcall := coroutineStart_quiet callbacks hquiet .body buffer hw s.setGlobalCtx
  have hcalls : (plugin.script s.entered.length).calls = true → s.error = false → w.endStream = true →
      (startBody plugin callbacks buffer w s).2.1.state = .HttpCall := by
    intro h herror
    apply hcall.calls h
    rw [Bool.eq_false_iff]
    exact fun h => absurd (herror.symm.trans (hdead h)) (by simp)
  unfold guarded
  by_cases hthrew : (startBody plugin callbacks buffer w s).1 = true
  · rw [if_pos hthrew]
    exact ⟨⟨hcall.request, hcall.response, hcall.responded, fun _ => rfl⟩,
      ⟨hcall.state, fun _ => rfl⟩, hcall.waits, hcalls⟩
  · rw [if_neg hthrew]
    refine ⟨⟨hcall.request, hcall.response, hcall.responded, hcall.error⟩, ⟨hcall.state, ?_⟩, hcall.waits, hcalls⟩
    intro h
    rcases hcall.dead h with h | h
    · exact hcall.error (hdead h)
    · exact absurd h hthrew

/-- The answer to headers, and the state of the wrapper behind it. -/
def HeadersAnswer (endStream : Bool) (state : State) : Option FilterHeadersStatus → Prop
  | none | some .Continue => state ≠ .HttpCall
  | some .StopIteration => (endStream = true → state ≠ .Running) ∧ (state = .HttpCall → endStream = true)
  | some .StopAllIterationAndBuffer => state ≠ .Running
  | some .StopAllIterationAndWatermark => False

theorem startV2_quiet (hquiet : ∀ n, (plugin.script n).Quiet) {w : StreamWrapper}
    (hw : w.state = .Running) (hdead : w.dead = false)
    (s : Stream H) :
    let r := startV2 plugin callbacks w s
    Quietly s r.2.2 ∧ r.2.1.Plain (r.2.2.error || r.1.isNone) ∧ HeadersAnswer w.endStream r.2.1.state r.1 := by
  have hcall := coroutineStart_quiet callbacks hquiet .header none hw s.setGlobalCtx
  unfold startV2
  generalize coroutineStart plugin callbacks .header none w s.setGlobalCtx = r at hcall ⊢
  obtain ⟨threw, w', s'⟩ := r
  obtain ⟨hcalled, hresponded, hthrew, hdied, hend, hwaits, -⟩ := hcall
  have hquietly : Quietly s s' := ⟨hcalled.request, hcalled.response, hcalled.responded, hcalled.error⟩
  dsimp only at hresponded hthrew hdied hend hwaits
  cases threw with
  | true =>
    refine ⟨hquietly, ⟨hresponded, fun _ => Bool.or_true _⟩, ?_⟩
    exact fun h => absurd ((hthrew rfl).symm.trans h) (by simp)
  | false =>
    have halive : ¬ w'.dead = true := by simpa [hdead] using hdied
    have hplain : w'.Plain s'.error := ⟨hresponded, fun h => absurd h halive⟩
    have hrest : w'.state ≠ .HttpCall →
        let r := if !w'.endStream then (some FilterHeadersStatus.StopIteration, w', s')
          else if !plugin.onBody callbacks.direction then (some .Continue, w', s')
          else
            let r := guarded (startBody plugin callbacks none w' s')
            (some (if r.1.state = .HttpCall ∨ r.1.state = .Responded then .StopIteration else .Continue), r)
        Quietly s r.2.2 ∧ r.2.1.Plain (r.2.2.error || r.1.isNone) ∧ HeadersAnswer w.endStream r.2.1.state r.1 := by
      intro hnot
      by_cases hended : w'.endStream = true
      · have hstate : w'.state = .Running := by
          cases hstate : w'.state with
          | Running => rfl
          | HttpCall => exact absurd hstate hnot
          | Responded => exact absurd hstate hresponded
          | WaitForBody => exact absurd ((hend.symm.trans hended).symm.trans (hwaits hstate)) (by simp)
        by_cases hbody : plugin.onBody callbacks.direction = true
        · obtain ⟨hstarted, hleft, -, -⟩ := startBody_quiet callbacks hquiet none hstate s'
            (fun h => absurd h halive)
          simp only [hended, hbody, Bool.not_true, Bool.false_eq_true, if_false]
          refine ⟨hquietly.trans hstarted, ?_, ?_⟩
          · rwa [Option.isNone_some, Bool.or_false]
          · by_cases hcalling : (guarded (startBody plugin callbacks none w' s')).1.state = .HttpCall
            · simp [hcalling, HeadersAnswer, hend.symm.trans hended]
            · simp [hcalling, hleft.state, HeadersAnswer]
        · simp only [hended, hbody, Bool.not_true, Bool.not_false, Bool.false_eq_true, if_false, if_true]
          refine ⟨hquietly, ?_, hnot⟩
          rwa [Option.isNone_some, Bool.or_false]
      · simp only [hended, Bool.not_false, if_true]
        refine ⟨hquietly, ?_, fun h => absurd (hend.trans h) hended, fun h => absurd h hnot⟩
        rwa [Option.isNone_some, Bool.or_false]
    dsimp only
    cases hstate : w'.state with
    | HttpCall =>
      refine ⟨hquietly, ?_, ?_⟩
      · dsimp only
        rw [Option.isNone_some, Bool.or_false]
        split_ifs
        · exact ⟨by simp, hplain.dead⟩
        · exact hplain
      · dsimp only [HeadersAnswer]
        split_ifs
        · simp
        · simp [hstate]
    | Responded => exact absurd hstate hresponded
    | Running => exact hrest (by simp [hstate])
    | WaitForBody => exact hrest (by simp [hstate])

/-- The answer to data: the status, what is left of the frame, and the state of
the wrapper behind it. `handled` says that a handler has run to its end. -/
inductive DataAnswer (v : DataView) (endStream : Bool) (handled : Prop) : FilterDataStatus → DataView → State → Prop
  | skipped {state : State} : state ≠ .HttpCall → DataAnswer v endStream handled .Continue v state
  | handled {state : State} : endStream = true → handled → state ≠ .HttpCall → DataAnswer v endStream handled .Continue v.move state
  | stopped {v' : DataView} {state : State} : Pipe.Untaken v v' → (endStream = true ↔ state = .HttpCall) →
      DataAnswer v endStream handled .StopIterationAndBuffer v' state

theorem onDataV2_quiet (hquiet : ∀ n, (plugin.script n).Quiet) {w : StreamWrapper}
    (hw : w.state ≠ .HttpCall) (s : Stream H)
    (hplain : w.Plain s.error) (herror : s.error = false) (v : DataView) (endStream : Bool) :
    let r := onDataV2 plugin callbacks v endStream w s
    Quietly s r.2.2.2 ∧ r.2.2.1.Plain r.2.2.2.error ∧
      DataAnswer v endStream (w.state = .Running ∧ (plugin.script s.entered.length).calls = false)
        r.1 r.2.1 r.2.2.1.state := by
  have hanswer : ∀ (v' : DataView) (w' : StreamWrapper) (s' : Stream H), w'.Plain s'.error → Pipe.Untaken v v' →
      (w'.state = .HttpCall → endStream = true) →
      (endStream = true → w'.state ≠ .HttpCall → v' = v ∨
        v' = v.move ∧ w.state = .Running ∧ (plugin.script s.entered.length).calls = false) →
      let r := if w'.state = .HttpCall then (FilterDataStatus.StopIterationAndBuffer, v', w', s')
        else if w'.state = .Responded then (.StopIterationNoBuffer, v', w', s')
        else if !endStream then (.StopIterationAndBuffer, v', w', s')
        else (.Continue, v', w', s')
      r.2.2 = (w', s') ∧
        DataAnswer v endStream (w.state = .Running ∧ (plugin.script s.entered.length).calls = false)
          r.1 r.2.1 r.2.2.1.state := by
    intro v' w' s' hplain' hv hcall hkept
    by_cases hcalling : w'.state = .HttpCall
    · simp only [if_pos hcalling]
      exact ⟨trivial, .stopped hv (iff_of_true (hcall hcalling) hcalling)⟩
    · simp only [if_neg hcalling, if_neg hplain'.state]
      cases hend : endStream with
      | false => exact ⟨rfl, .stopped hv (iff_of_false (by simp) hcalling)⟩
      | true =>
        refine ⟨rfl, ?_⟩
        rcases hkept hend hcalling with rfl | ⟨rfl, hhandled⟩
        · exact .skipped hcalling
        · exact .handled rfl hhandled hcalling
  have hdead : w.dead = true → s.error = true := hplain.dead
  by_cases hstart : endStream = true ∧ w.state = .Running
  · have hrunning : StreamWrapper.state { w with endStream, sawBody := true } = .Running := hstart.2
    obtain ⟨hquietly, hleft, -, hcalls⟩ :=
      startBody_quiet callbacks hquiet v.move.buffer hrunning s hdead
    unfold onDataV2
    simp only [if_pos hstart]
    generalize guarded (startBody plugin callbacks v.move.buffer
      { w with endStream, sawBody := true } s) = r at hquietly hleft hcalls ⊢
    obtain ⟨w', s'⟩ := r
    obtain ⟨heq, hall⟩ := hanswer v.move w' s' hleft (.inr rfl) (fun _ => hstart.1) (fun hend hcalling => by
      refine .inr ⟨rfl, hstart.2, ?_⟩
      rw [Bool.eq_false_iff]
      exact fun h => hcalling (hcalls h herror hend))
    rw [heq] at hall ⊢
    exact ⟨hquietly, hleft, hall⟩
  · unfold onDataV2
    simp only [if_neg hstart]
    have hkept : StreamWrapper.Plain s.error { w with endStream, sawBody := true } := ⟨hplain.state, hplain.dead⟩
    obtain ⟨heq, hall⟩ := hanswer v { w with endStream, sawBody := true } s hkept (.inl rfl)
      (fun h => absurd h hw) (fun _ _ => .inl rfl)
    rw [heq] at hall ⊢
    exact ⟨⟨rfl, rfl, rfl, id⟩, hkept, hall⟩

/-- The end of an http call, from a wrapper that waits for it. -/
theorem onSuccess_quiet (hquiet : ∀ n, (plugin.script n).Quiet) {w : StreamWrapper}
    (hw : w.state = .HttpCall) (s : Stream H)
    (hplain : w.Plain s.error) (buffer : Option Bytes) :
    let r := onSuccess plugin callbacks buffer w s
    Quietly s r.2.1 ∧ r.1.Plain r.2.1.error ∧ (r.2.2 = true ↔ r.1.state = .Running) := by
  have hrunning : StreamWrapper.state { w with httpRequest := false, state := .Running } = .Running := rfl
  have hcall := resume_quiet callbacks hquiet .resumed buffer hrunning s.setGlobalCtx
  unfold onSuccess
  simp only [if_pos hw]
  generalize resume plugin callbacks .resumed buffer
    { w with httpRequest := false, state := .Running } s.setGlobalCtx = r at hcall ⊢
  obtain ⟨threw, w', s'⟩ := r
  obtain ⟨hcalled, hresponded, hthrew, hdied, -, -, -⟩ := hcall
  dsimp only at hresponded hthrew hdied
  have hrest : ∀ (w : StreamWrapper) (s' : Stream H), Quietly s s' → w.Plain s'.error →
      let r := if w.state = .Running then
          if w.startBody_ then
            let r := guarded (startBody plugin callbacks buffer { w with startBody_ := false } s')
            (r.1, r.2, decide (r.1.state = .Running))
          else (w, s', true)
        else (w, s', false)
      Quietly s r.2.1 ∧ r.1.Plain r.2.1.error ∧ (r.2.2 = true ↔ r.1.state = .Running) := by
    intro w s' hquietly hplain
    by_cases hrunning : w.state = .Running
    · simp only [if_pos hrunning]
      by_cases hstart : w.startBody_ = true
      · simp only [if_pos hstart]
        have hagain : StreamWrapper.state { w with startBody_ := false } = .Running := hrunning
        obtain ⟨hstarted, hleft, -, -⟩ := startBody_quiet callbacks hquiet buffer hagain s' hplain.dead
        exact ⟨hquietly.trans hstarted, hleft, decide_eq_true_iff⟩
      · simp only [if_neg hstart]
        exact ⟨hquietly, hplain, iff_of_true trivial hrunning⟩
    · simp only [if_neg hrunning]
      exact ⟨hquietly, hplain, iff_of_false (by simp) hrunning⟩
  have hquietly : Quietly s s' := ⟨hcalled.request, hcalled.response, hcalled.responded, hcalled.error⟩
  cases threw with
  | true =>
    have herror : Quietly s s'.scriptError := ⟨hquietly.request, hquietly.response, hquietly.responded, fun _ => rfl⟩
    exact hrest { w' with state := .Running } s'.scriptError herror ⟨by simp, fun _ => rfl⟩
  | false =>
    refine hrest w' s' hquietly ⟨hresponded, fun h => ?_⟩
    have hdead : w.dead = true := by simpa using hdied h
    exact hquietly.error (hplain.dead hdead)

end Calls

end EnvoyProxy.Rider
