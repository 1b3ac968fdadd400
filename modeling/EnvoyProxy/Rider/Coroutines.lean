import EnvoyProxy.Rider.Kept
/-!
# A run of Lua code

What Lua code leaves behind when it ends or yields (`Left`): its http call,
if there is one, is what it waits for. The entries into the code of one
direction are its own (`Stream.own`); a response that a request makes adds
none to them.
-/

namespace EnvoyProxy.Rider
open Json Http StreamWrapper

variable {H : Type} [HeaderMap H] {plugin : Plugin} {d : StreamDirection}

/-- The entries into the code for a direction. -/
def Stream.own (s : Stream H) (d : StreamDirection) : List Entry := s.entered.filter (·.direction = d)

/-- How often the handler for the body of a direction has been started. -/
def Stream.bodies (s : Stream H) (d : StreamDirection) : Nat := ((s.own d).filter (·.handler = .body)).length

/-- Code of the direction has only been entered when it could be resumed. -/
def Stream.AllResumable (s : Stream H) (d : StreamDirection) : Prop := ∀ e ∈ s.own d, e.resumable = true

theorem respond_own {s t : Stream H} {headers : H} {bytes : Option Bytes}
    (h : (filterCallbacks plugin .downstreamToUpstream).respond s headers bytes = some t) :
    t.own .downstreamToUpstream = s.own .downstreamToUpstream := by
  have hkept : Kept plugin .upstreamToDownstream
    (fun t : Stream H => t.own .downstreamToUpstream = s.own .downstreamToUpstream)
      (fun _ t => t.own .downstreamToUpstream = s.own .downstreamToUpstream) :=
    { effect := by
        intro w u w' u' he hu
        cases he with
        | responded hrespond => cases hrespond
        | enterV1 | enter =>
          refine Eq.trans ?_ hu
          unfold Stream.own Stream.enter
          simp [filterCallbacks, EncoderCallbacks, Stream.setGlobalCtx]
        | _ => exact hu
      side := fun _ _ _ _ he => he.same.2
      load := fun _ _ hu _ => hu
      store := fun _ _ hu => hu
      gate := fun _ hu => hu
      setHeaders := fun _ hu => hu
      answered := fun _ hu => hu
      passBy := fun _ hu => hu
      create := fun _ _ hu _ => hu
      createData := fun _ _ hu _ _ _ _ => hu
      pipe := fun _ _ _ hu _ => hu
      skipped := fun _ _ _ hu _ => hu }
  exact hkept.respond rfl h

theorem luaResume_own (script : Script) (w : StreamWrapper) (s : Stream H) :
    (luaResume (filterCallbacks plugin d) w s script).2.2.own d = s.own d := by
  induction script generalizing w s with
  | finish | error | yield | httpCall => rfl
  | respond table body raised ih =>
    unfold luaResume
    split
    · exact ih w s
    · dsimp only
      split
      · exact ih w _
      · rename_i t hrespond
        cases d with
        | downstreamToUpstream =>
          have hown := respond_own hrespond
          exact hown
        | upstreamToDownstream => simp [filterCallbacks, EncoderCallbacks] at hrespond
  | getBody returned ih =>
    unfold luaResume
    split_ifs
    · exact ih w s
    · rfl

/-- What Lua code leaves of a wrapper that waits for nothing. -/
structure Left (w : StreamWrapper) (threw : Bool) (w' : StreamWrapper) : Prop where
  httpCall : w'.httpRequest = true ↔ w'.state = .HttpCall
  status : w'.state = .HttpCall → w'.status = .Yielded
  threw : threw = true → w'.state = .Running
  waits : w'.state = .WaitForBody → w.endStream = false
  endStream : w'.endStream = w.endStream
  startBody : w'.startBody_ = w.startBody_

/-- `Running`, with no http call on its way. -/
def Idle (w : StreamWrapper) : Prop := w.state = .Running ∧ w.httpRequest = false

theorem Idle.left {w w' : StreamWrapper} (hw : Idle w) (hstate : w'.state = w.state)
    (hhttp : w'.httpRequest = w.httpRequest)
    (hend : w'.endStream = w.endStream) (hbody : w'.startBody_ = w.startBody_) (threw : Bool) : Left w threw w' := by
  have hrunning : w'.state = .Running := hstate.trans hw.1
  have hnone : w'.httpRequest = false := hhttp.trans hw.2
  refine ⟨?_, ?_, fun _ => hrunning, ?_, hend, hbody⟩
  · simp [hrunning, hnone]
  · simp [hrunning]
  · simp [hrunning]

theorem luaResume_left (callbacks : FilterCallbacks H) (script : Script) {w : StreamWrapper}
    (hw : Idle w) (s : Stream H) :
    Left w (luaResume callbacks w s script).1 (luaResume callbacks w s script).2.1 := by
  induction script generalizing w s with
  | finish | error | yield =>
    unfold luaResume
    apply hw.left <;> rfl
  | httpCall => exact ⟨by simp [luaResume], fun _ => rfl, by rintro ⟨⟩, by rintro ⟨⟩, rfl, rfl⟩
  | respond table body raised ih =>
    unfold luaResume
    split
    · exact ih hw s
    · dsimp only
      split
      · exact ih hw _
      · exact ⟨by simp [hw.2], by simp, by simp, by simp, rfl, rfl⟩
  | getBody returned ih =>
    unfold luaResume
    split_ifs with hseen
    · exact ih hw s
    · simp only [Bool.or_eq_true, not_or, Bool.not_eq_true] at hseen
      exact ⟨by simp [hw.2], by simp, by simp, fun _ => hseen.1, rfl, rfl⟩

/-- A call of a coroutine for the direction, from a wrapper that waits for
nothing: at most one entry into its code, and what it leaves. -/
structure Called (d : StreamDirection) (bodies : Nat) (w : StreamWrapper) (s : Stream H) (r : Bool × StreamWrapper × Stream H) :
    Prop extends Left w r.1 r.2.1 where
  bodies : r.2.2.bodies d ≤ s.bodies d + bodies
  resumable : s.AllResumable d → r.2.2.AllResumable d

variable (plugin d) in
theorem resume_called (handler : Handler) (buffer : Option Bytes) {w : StreamWrapper} (hw : Idle w)
    (hstatus : w.status = .Yielded)
    (s : Stream H) :
    Called d (if handler = .body then 1 else 0) w s (resume plugin (filterCallbacks plugin d) handler buffer w s) := by
  have hown : (resume plugin (filterCallbacks plugin d) handler buffer w s).2.2.own d = s.own d ++
      [{ direction := d, handler, headers := w.headers, resumable := true, alive := !s.destroyed, globalCtx := s.globalCtx,
         bufferedBody := buffer }] := by
    unfold resume
    rw [luaResume_own]
    simp [Stream.own, hstatus]
  refine ⟨luaResume_left _ _ hw _, ?_, ?_⟩
  · unfold Stream.bodies
    rw [hown]
    simp only [List.filter_append, List.length_append, List.filter_cons, List.filter_nil, decide_eq_true_eq]
    split_ifs <;> simp
  · intro hall e he
    rw [hown] at he
    rcases List.mem_append.1 he with he | he
    · exact hall e he
    · rw [List.mem_singleton.1 he]

theorem coroutineStart_called (handler : Handler) (buffer : Option Bytes) {w : StreamWrapper}
    (hw : Idle w) (s : Stream H) :
    Called d (if handler = .body then 1 else 0) w s
    (coroutineStart plugin (filterCallbacks plugin d) handler buffer w s) := by
  unfold coroutineStart
  by_cases hdead : w.dead = true
  · rw [if_pos hdead]
    refine ⟨?_, Nat.le_add_right _ _, id⟩
    apply hw.left <;> rfl
  · rw [if_neg hdead]
    have hyielded : Idle { w with status := .Yielded } := hw
    have hcalled := resume_called plugin d (if w.status = .Yielded then .resumed else handler) buffer hyielded rfl s
    refine ⟨⟨hcalled.httpCall, hcalled.status, hcalled.threw, hcalled.waits, hcalled.endStream,
      hcalled.startBody⟩, ?_, hcalled.resumable⟩
    -- code that goes on from a yield is not started
    apply hcalled.bodies.trans
    by_cases hstatus : w.status = .Yielded
    · simp [hstatus]
    · simp [hstatus]

omit [HeaderMap H] in
/-- An error does not change the wrapper, apart from its end. -/
theorem guarded_called {bodies : Nat} {w : StreamWrapper} {s : Stream H} {r : Bool × StreamWrapper × Stream H}
    (h : Called d bodies w s r) :
    Left w false (guarded r).1 ∧ (guarded r).2.bodies d ≤ s.bodies d + bodies ∧
    (s.AllResumable d → (guarded r).2.AllResumable d) := by
  have hleft : Left w false r.2.1 := ⟨h.httpCall, h.status, by simp, h.waits, h.endStream, h.startBody⟩
  unfold guarded
  split_ifs
  · exact ⟨hleft, h.bodies, h.resumable⟩
  · exact ⟨hleft, h.bodies, h.resumable⟩

variable (plugin d) in
theorem startBody_called (buffer : Option Bytes) {w : StreamWrapper} (hw : Idle w) (s : Stream H) :
    let r := guarded (startBody plugin (filterCallbacks plugin d) buffer w s)
    Left w false r.1 ∧ r.2.bodies d ≤ s.bodies d + 1 ∧ (s.AllResumable d → r.2.AllResumable d) := by
  have hcalled : Called d 1 w s.setGlobalCtx (startBody plugin (filterCallbacks plugin d) buffer w s) :=
    coroutineStart_called .body buffer hw s.setGlobalCtx
  obtain ⟨hleft, hbodies, hresumable⟩ := guarded_called hcalled
  exact ⟨hleft, hbodies, hresumable⟩

/-- The wrapper and the status that a callback for data leaves. -/
theorem onDataV2_eq (plugin : Plugin) (callbacks : FilterCallbacks H) (v : DataView)
    (endStream : Bool) (w : StreamWrapper) (s : Stream H) :
    let r := onDataV2 plugin callbacks v endStream w s
    let w₁ := { w with endStream, sawBody := true }
    (r.1 ≠ .Continue ↔ r.2.2.1.state = .HttpCall ∨ r.2.2.1.state = .Responded ∨ endStream = false) ∧
      r.2.2 = if endStream ∧ w.state = .Running then guarded
        (startBody plugin callbacks v.move.buffer w₁ s) else (w₁, s) := by
  have hstatus : ∀ (v : DataView) (w : StreamWrapper) (s : Stream H),
      let r := if w.state = .HttpCall then (FilterDataStatus.StopIterationAndBuffer, v, w, s)
        else if w.state = .Responded then (.StopIterationNoBuffer, v, w, s)
        else if !endStream then (.StopIterationAndBuffer, v, w, s)
        else (.Continue, v, w, s)
      (r.1 ≠ .Continue ↔ r.2.2.1.state = .HttpCall ∨ r.2.2.1.state = .Responded ∨
        endStream = false) ∧ r.2.2 = (w, s) := by
    intro v w s
    dsimp only
    split_ifs <;> simp_all
  intro r w₁
  by_cases hstart : endStream ∧ w.state = .Running
  · simp only [r, onDataV2, if_pos hstart]
    exact hstatus _ _ _
  · simp only [r, onDataV2, if_neg hstart]
    exact hstatus v w₁ s

end EnvoyProxy.Rider
