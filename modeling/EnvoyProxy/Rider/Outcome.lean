import EnvoyProxy.Rider.Coroutines
/-!
# What Lua code comes to

The state in which Lua code leaves its wrapper follows from the code and the
wrapper (`Script.outcome`), and the wrapper from that state
(`StreamWrapper.leave`). Code that does not respond adds an entry to the log and
leaves the rest of the stream alone (`Ran`).
-/

namespace EnvoyProxy.Rider
open Json Http StreamWrapper

variable {H : Type} [HeaderMap H]

variable (H) in
/-- The state in which Lua code leaves a running wrapper, unless it throws. -/
def Script.outcome (d : StreamDirection) (w : StreamWrapper) : Script → Option State
  | .finish => some .Running
  | .error | .yield => none
  | .httpCall => some .HttpCall
  | .respond table body raised =>
    match d, (respondArguments w table body : Option (H × Option Bytes)) with
    | .downstreamToUpstream, some _ => some .Responded
    | _, _ => raised.outcome d w
  | .getBody returned => if w.endStream || w.sawBody then returned.outcome d w else some .WaitForBody

/-- The wrapper behind code that has come to a state. -/
def StreamWrapper.leave (w : StreamWrapper) : State → StreamWrapper
  | .Running => { w with status := .Finished }
  | .WaitForBody => { w with status := .Yielded, state := .WaitForBody, bufferedBody := true }
  | .HttpCall => { w with status := .Yielded, state := .HttpCall, httpRequest := true }
  | .Responded => { w with status := .Yielded, state := .Responded }

@[simp] theorem StreamWrapper.leave_endStream (w : StreamWrapper) (state : State) :
    (w.leave state).endStream = w.endStream := by
  cases state <;> rfl

@[simp] theorem StreamWrapper.leave_sawBody (w : StreamWrapper) (state : State) :
    (w.leave state).sawBody = w.sawBody := by
  cases state <;> rfl

@[simp] theorem StreamWrapper.leave_startBody_ (w : StreamWrapper) (state : State) :
    (w.leave state).startBody_ = w.startBody_ := by
  cases state <;> rfl

theorem StreamWrapper.leave_state {w : StreamWrapper} (hw : w.state = .Running) (state : State) :
    (w.leave state).state = state := by
  cases state <;> first | exact hw | rfl

/-- Code waits for a body that has neither ended nor begun. -/
theorem Script.outcome_waits {script : Script} {d : StreamDirection} {w : StreamWrapper}
    (h : script.outcome H d w = some .WaitForBody) : w.endStream = false ∧ w.sawBody = false := by
  induction script with
  | finish | error | yield | httpCall => cases h
  | respond table body raised ih =>
    unfold Script.outcome at h
    split at h
    · cases h
    · exact ih h
  | getBody returned ih =>
    unfold Script.outcome at h
    split_ifs at h with hseen
    · exact ih h
    · rwa [Bool.not_eq_true, Bool.or_eq_false_iff] at hseen

/-- The outcome depends on what is said of the wrapper when code asks. -/
theorem Script.outcome_congr (script : Script) (d : StreamDirection) {w w' : StreamWrapper}
    (hcontinued : w'.headersContinued = w.headersContinued)
    (hend : w'.endStream = w.endStream) (hsaw : w'.sawBody = w.sawBody) :
    script.outcome H d w' = script.outcome H d w := by
  induction script with
  | finish | error | yield | httpCall => rfl
  | respond table body raised ih =>
    unfold Script.outcome respondArguments
    rw [ih, hcontinued]
  | getBody returned ih =>
    unfold Script.outcome
    rw [ih, hend, hsaw]

variable (plugin : Plugin) (d : StreamDirection)

theorem luaResume_outcome (script : Script) {w : StreamWrapper} (hw : w.state = .Running) (s : Stream H) :
    let r := luaResume (filterCallbacks plugin d) w s script
    (script.outcome H d w = none → r.1 = true) ∧
      ∀ state, script.outcome H d w = some state →
        r.1 = false ∧ r.2.1 = w.leave state ∧ (state ≠ .Responded → ∃ responded, r.2.2 = { s with responded }) := by
  induction script generalizing s with
  | finish => exact ⟨by rintro ⟨⟩, by rintro _ ⟨⟩; exact ⟨rfl, rfl, fun _ => ⟨s.responded, rfl⟩⟩⟩
  | error => exact ⟨fun _ => rfl, by rintro _ ⟨⟩⟩
  | yield => exact ⟨fun _ => decide_eq_true hw, by rintro _ ⟨⟩⟩
  | httpCall => exact ⟨by rintro ⟨⟩, by rintro _ ⟨⟩; exact ⟨rfl, rfl, fun _ => ⟨s.responded, rfl⟩⟩⟩
  | respond table body raised ih =>
    unfold luaResume Script.outcome
    cases harguments : (respondArguments w table body : Option (H × Option Bytes)) with
    | none => cases d <;> exact ih s
    | some arguments =>
      obtain ⟨headers, bytes⟩ := arguments
      cases d with
      | downstreamToUpstream =>
        refine ⟨by simp, ?_⟩
        rintro _ ⟨⟩
        have hresponds : ∃ t, (filterCallbacks plugin .downstreamToUpstream).respond
            { s with responded := true } headers bytes = some t := by
          dsimp only [filterCallbacks, DecoderCallbacks]
          cases bytes with
          | none => exact ⟨_, rfl⟩
          | some bytes =>
            dsimp only
            split_ifs
            · exact ⟨_, rfl⟩
            · exact ⟨_, rfl⟩
        obtain ⟨t, ht⟩ := hresponds
        dsimp only
        rw [ht]
        exact ⟨rfl, rfl, fun h => absurd rfl h⟩
      | upstreamToDownstream =>
        -- an error of the script, which goes on if it catches it
        obtain ⟨hthrew, hleft⟩ := ih { s with responded := true }
        refine ⟨hthrew, ?_⟩
        intro state hstate
        obtain ⟨hnot, hwrapper, hstream⟩ := hleft state hstate
        refine ⟨hnot, hwrapper, fun h => ?_⟩
        obtain ⟨responded, ht⟩ := hstream h
        exact ⟨responded, ht⟩
  | getBody returned ih =>
    unfold luaResume Script.outcome
    by_cases hseen : (w.endStream || w.sawBody) = true
    · rw [if_pos hseen, if_pos hseen]
      exact ih s
    · rw [if_neg hseen, if_neg hseen]
      exact ⟨by simp, by rintro _ ⟨⟩; exact ⟨rfl, rfl, fun _ => ⟨s.responded, rfl⟩⟩⟩

/-- Code of a direction has run with a buffer, and has not responded. -/
structure Ran (d : StreamDirection) (handler : Handler) (buffer : Option Bytes) (s t : Stream H) : Prop where
  request : t.request = s.request
  response : t.response = s.response
  error : t.error = s.error
  entered : ∃ e, t.entered = s.entered ++ [e] ∧ e.direction = d ∧ e.handler = handler ∧ e.bufferedBody = buffer

/-- A call of a coroutine: it throws, or leaves the state that its code comes
to. -/
structure Outcome (d : StreamDirection) (handler : Handler) (buffer : Option Bytes) (script : Script) (w : StreamWrapper) (s : Stream H)
    (r : Bool × StreamWrapper × Stream H) (state : State) : Prop where
  outcome : script.outcome H d w = some state
  threw : r.1 = false
  wrapper : r.2.1 = w.leave state
  ran : state ≠ .Responded → Ran d handler buffer s r.2.2

theorem resume_outcome (handler : Handler) (buffer : Option Bytes) {w : StreamWrapper}
    (hw : w.state = .Running) (s : Stream H) :
    let r := resume plugin (filterCallbacks plugin d) handler buffer w s
    r.1 = true ∨ ∃ state, Outcome d handler buffer (plugin.script s.entered.length) w s r state := by
  unfold resume
  obtain ⟨hnone, hsome⟩ := luaResume_outcome plugin d (plugin.script s.entered.length) hw
    { s with entered := s.entered ++
      [{ direction := (filterCallbacks plugin d : FilterCallbacks H).direction, handler, headers := w.headers
         resumable := w.status = .Yielded, alive := !s.destroyed, globalCtx :=
         s.globalCtx, bufferedBody := buffer }] }
  cases houtcome : (plugin.script s.entered.length).outcome H d w with
  | none => exact .inl (hnone houtcome)
  | some state =>
    obtain ⟨hthrew, hwrapper, hstream⟩ := hsome state houtcome
    refine .inr ⟨state, houtcome, hthrew, hwrapper, fun hstate => ?_⟩
    obtain ⟨responded, ht⟩ := hstream hstate
    dsimp only
    rw [ht]
    exact ⟨rfl, rfl, rfl, _, rfl, filterCallbacks_direction plugin d, rfl, rfl⟩

/-- A call of a coroutine that has not yielded. -/
theorem coroutineStart_outcome (handler : Handler) (buffer : Option Bytes) {w : StreamWrapper}
    (hw : w.state = .Running)
    (hstatus : w.status ≠ .Yielded) (s : Stream H) :
    let r := coroutineStart plugin (filterCallbacks plugin d) handler buffer w s
    r.1 = true ∨ ∃ state, Outcome d handler buffer (plugin.script s.entered.length) w s r state := by
  unfold coroutineStart
  by_cases hdead : w.dead = true
  · rw [if_pos hdead]
    exact .inl rfl
  · rw [if_neg hdead, if_neg hstatus]
    have hyielded : StreamWrapper.state { w with status := .Yielded } = .Running := hw
    rcases resume_outcome plugin d handler buffer hyielded s with hthrew | ⟨state, h⟩
    · exact .inl hthrew
    · have hsame : (plugin.script s.entered.length).outcome H d { w with status := .Yielded } =
          (plugin.script s.entered.length).outcome H d w := Script.outcome_congr _ d rfl rfl rfl
      refine .inr ⟨state, hsame.symm.trans h.outcome, h.threw, ?_, h.ran⟩
      rw [h.wrapper]
      cases state <;> rfl

end EnvoyProxy.Rider
