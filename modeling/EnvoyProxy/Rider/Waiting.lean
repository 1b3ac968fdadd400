import EnvoyProxy.Rider.Coroutines
/-!
# What a wrapper waits for

A wrapper of version 2 with the frames of its message, its http calls as they
end, and what else changes the stream in between, in any order (`Driven`). When
the message stands still at its end, an http call is on its way.
-/

namespace EnvoyProxy.Rider
open Json Http StreamWrapper

variable {H : Type} [HeaderMap H] (plugin : Plugin) (d : StreamDirection)

/-! ## The machine -/

/-- A wrapper and its stream. -/
structure Driven (H : Type) where
  wrapper : Option StreamWrapper := none
  stream : Stream H
  /-- The frame with `end_stream` has come. -/
  ended : Bool := false
  /-- The status for the last frame was one of stopping, and the iteration has
  not been continued since. -/
  stopped : Bool := false

inductive DrivenEvent (H : Type)
  | start (endStream : Bool)
  | onData (v : DataView) (headers endStream : Bool)
  /-- The http call ends, with this in the filter's buffer. -/
  | httpDone (buffer : Option Bytes)
  /-- Something else happens to the stream. -/
  | elsewhere (t : Stream H)

/-- A status of `start`; an exception is as `Continue`. -/
def stops : Option FilterHeadersStatus → Bool
  | none | some .Continue => false
  | some _ => true

namespace Driven

def step (m : Driven H) : DrivenEvent H → Driven H
  | .start endStream =>
    if m.wrapper.isNone && !m.ended && !m.stream.error && plugin.onHeader d then
      let (status, w, s) := startV2 plugin (filterCallbacks plugin d) (newWrapper true endStream) m.stream
      { wrapper := some w, stream := if status.isNone then s.scriptError else s, ended := endStream, stopped := stops status }
    else m
  | .onData v headers endStream =>
    if !m.ended && !m.stream.error && plugin.onBody d then
      let w := m.wrapper.getD (newWrapper headers endStream)
      let (status, _, w, s) := onDataV2 plugin (filterCallbacks plugin d) v endStream w m.stream
      { wrapper := some w, stream := s, ended := endStream, stopped := status ≠ .Continue }
    else m
  | .httpDone buffer =>
    match m.wrapper with
    | some w =>
      if w.httpRequest then
        let (w, s, continues) := onSuccess plugin (filterCallbacks plugin d) buffer w m.stream
        { m with wrapper := some w, stream := s, stopped := m.stopped && !continues }
      else m
    | none => m
  -- code of this direction only runs for the events above
  | .elsewhere t => if t.own d = m.stream.own d then { m with stream := t } else m

def run (m : Driven H) (es : List (DrivenEvent H)) : Driven H := es.foldl (step plugin d) m

/-- No code for the direction has run. -/
def fresh (s : Stream H) : Driven H := { stream := { s with entered := [] } }

end Driven

/-- Nothing hangs, nothing continues twice, and code is started and resumed
when it should be. -/
structure Sound (m : Driven H) : Prop where
  waits : m.ended = true → m.stopped = true →
    ∃ w, m.wrapper = some w ∧ (w.state = .Responded ∨ w.state = .HttpCall ∧ w.httpRequest = true)
  continues : ∀ w buffer, m.wrapper = some w → w.httpRequest = true →
    let r := onSuccess plugin (filterCallbacks plugin d) buffer w m.stream
    r.2.2 = true → m.stopped = true ∧ r.1.state = .Running
  bodies : m.stream.bodies d ≤ 1
  resumable : m.stream.AllResumable d

/-! ## What the calls answer -/

/-- The body handler is still to be started. -/
def StreamWrapper.pending (w : StreamWrapper) : Nat := if w.startBody_ then 1 else 0

/-- A wrapper between its calls. -/
structure Settled (w : StreamWrapper) (ended stopped : Bool) : Prop where
  httpCall : w.httpRequest = true ↔ w.state = .HttpCall
  status : w.state = .HttpCall → w.status = .Yielded
  stops : w.state = .HttpCall → stopped = true
  ends : ended = true → stopped = true → w.state = .HttpCall ∨ w.state = .Responded
  endStream : w.endStream = ended

theorem Settled.idle {w : StreamWrapper} {ended stopped : Bool} (hw : Settled w ended stopped)
    (hstate : w.state = .Running) : Idle w := by
  refine ⟨hstate, Bool.eq_false_iff.2 ?_⟩
  intro hhttp
  exact absurd (hstate.symm.trans (hw.httpCall.1 hhttp)) (by simp)

/-- After a call that leaves a wrapper. -/
theorem Left.settled {w w' : StreamWrapper} {threw : Bool} (h : Left w threw w') {stopped : Bool}
    (hstops : w'.state = .HttpCall → stopped = true)
    (hends : stopped = true → w'.state = .Running → w.endStream = false) : Settled w' w.endStream stopped := by
  refine ⟨h.httpCall, h.status, hstops, ?_, h.endStream⟩
  intro hended hstopped
  cases hstate : w'.state with
  | HttpCall => exact .inl rfl
  | Responded => exact .inr rfl
  | Running => exact absurd (hended.symm.trans (hends hstopped hstate)) (by simp)
  | WaitForBody => exact absurd (hended.symm.trans (h.waits hstate)) (by simp)

/-- The handler for the body at the end of the headers. -/
theorem startBody_settled {w : StreamWrapper} (hw : Idle w) (hbody : w.startBody_ = false)
    (hend : w.endStream = true) (s : Stream H) :
    let r := guarded (startBody plugin (filterCallbacks plugin d) none w s)
    let status : Option FilterHeadersStatus :=
      some (if r.1.state = .HttpCall ∨ r.1.state = .Responded then .StopIteration else .Continue)
    Settled r.1 true (stops status) ∧ r.2.bodies d + r.1.pending ≤ s.bodies d + 1 ∧
      (s.AllResumable d → r.2.AllResumable d) := by
  obtain ⟨hleft, hbodies, hresumable⟩ := startBody_called plugin d none hw s
  intro r status
  have hpending : r.1.pending = 0 := by
    unfold StreamWrapper.pending
    rw [hleft.startBody, hbody]
    rfl
  refine ⟨?_, by rw [hpending]; exact hbodies, hresumable⟩
  rw [← hend]
  apply hleft.settled
  · intro hstate
    simp [status, r, hstate, stops]
  · intro hstops hstate
    simp [status, r, hstate, stops] at hstops

theorem startV2_settled {w : StreamWrapper} (hw : Idle w) (hbody : w.startBody_ = false) (s : Stream H) :
    let r := startV2 plugin (filterCallbacks plugin d) w s
    Settled r.2.1 w.endStream (stops r.1) ∧ r.2.2.bodies d + r.2.1.pending ≤ s.bodies d +
      (if w.endStream then 1 else 0) ∧
      (s.AllResumable d → r.2.2.AllResumable d) := by
  have hstart : Called d 0 w s.setGlobalCtx
      (coroutineStart plugin (filterCallbacks plugin d) .header none w s.setGlobalCtx) :=
    coroutineStart_called .header none hw s.setGlobalCtx
  unfold startV2
  generalize coroutineStart plugin (filterCallbacks plugin d) .header none w s.setGlobalCtx = r at hstart ⊢
  obtain ⟨threw, w', s'⟩ := r
  obtain ⟨hleft, hcount, hresumable⟩ := hstart
  have hbodies : s'.bodies d ≤ s.bodies d := hcount
  have hbody : w'.startBody_ = false := hleft.startBody.trans hbody
  have hpending : w'.pending = 0 := by simp [StreamWrapper.pending, hbody]
  have hkept : s'.bodies d + w'.pending ≤ s.bodies d + (if w.endStream then 1 else 0) := by
    rw [hpending]
    exact hbodies.trans (Nat.le_add_right _ _)
  cases threw with
  | true =>
    refine ⟨hleft.settled ?_ (by rintro ⟨⟩), hkept, hresumable⟩
    exact fun h => absurd ((hleft.threw rfl).symm.trans h) (by simp)
  | false =>
    have hrest : w'.state = .Running ∨ w'.state = .WaitForBody →
        let r := if !w'.endStream then (some FilterHeadersStatus.StopIteration, w', s')
          else if !plugin.onBody d then (some .Continue, w', s')
          else
            let r := guarded (startBody plugin (filterCallbacks plugin d) none w' s')
            (some (if r.1.state = .HttpCall ∨ r.1.state = .Responded then .StopIteration else .Continue), r)
        Settled r.2.1 w.endStream (stops r.1) ∧ r.2.2.bodies d + r.2.1.pending ≤ s.bodies d +
          (if w.endStream then 1 else 0) ∧
          (s.AllResumable d → r.2.2.AllResumable d) := by
      intro hstate
      have hnone : w'.state ≠ .HttpCall := by rcases hstate with h | h <;> simp [h]
      by_cases hend : w'.endStream = true
      · have hended : w.endStream = true := hleft.endStream ▸ hend
        have hrunning : w'.state = .Running := by
          rcases hstate with h | h
          · exact h
          · exact absurd (hended.symm.trans (hleft.waits h)) (by simp)
        by_cases honBody : plugin.onBody d = true
        · have hidle : Idle w' := ⟨hrunning, Bool.eq_false_iff.2 fun h => hnone (hleft.httpCall.1 h)⟩
          obtain ⟨hsettled, hstarted, hall⟩ := startBody_settled plugin d hidle hbody hend s'
          simp only [hend, honBody, hended, Bool.not_true, Bool.false_eq_true, if_false, if_true]
          exact ⟨hsettled, hstarted.trans (Nat.add_le_add_right hbodies 1), fun h => hall (hresumable h)⟩
        · simp only [hend, honBody, Bool.not_true, Bool.not_false, Bool.false_eq_true, if_false, if_true]
          exact ⟨hleft.settled (fun h => absurd h hnone) (by rintro ⟨⟩), hkept, hresumable⟩
      · have hmore : w.endStream = false := hleft.endStream ▸ Bool.eq_false_iff.2 hend
        simp only [hend, Bool.not_false, if_true]
        exact ⟨hleft.settled (fun h => absurd h hnone) (fun _ _ => hmore), hkept, hresumable⟩
    dsimp only
    cases hstate : w'.state with
    | HttpCall =>
      have hsettled : Settled w' w.endStream true := by
        refine hleft.settled (fun _ => rfl) ?_
        exact fun _ h => absurd (hstate.symm.trans h) (by simp)
      simp only [filterCallbacks_direction]
      by_cases hstarts : (w'.endStream && plugin.onBody d) = true
      · rw [if_pos hstarts]
        have hended : w.endStream = true := hleft.endStream ▸ (Bool.and_eq_true_iff.1 hstarts).1
        refine ⟨⟨?_, fun _ => hsettled.status hstate, fun _ => rfl, fun _ _ => .inl rfl,
          hsettled.endStream⟩, ?_, hresumable⟩
        · exact iff_of_true (hsettled.httpCall.2 hstate) rfl
        · rw [hended]
          exact Nat.add_le_add_right hbodies 1
      · rw [if_neg hstarts]
        exact ⟨hsettled, hkept, hresumable⟩
    | Responded =>
      refine ⟨hleft.settled ?_ ?_, hkept, hresumable⟩
      · exact fun h => absurd (hstate.symm.trans h) (by simp)
      · exact fun _ h => absurd (hstate.symm.trans h) (by simp)
    | Running =>
      have h := hrest (.inl hstate)
      simp only [filterCallbacks_direction] at h ⊢
      exact h
    | WaitForBody =>
      have h := hrest (.inr hstate)
      simp only [filterCallbacks_direction] at h ⊢
      exact h

theorem onDataV2_settled {w : StreamWrapper} {ended stopped : Bool} (hw : Settled w ended stopped)
    (hpending : w.pending = 0) (v : DataView)
    (endStream : Bool) (s : Stream H) :
    let r := onDataV2 plugin (filterCallbacks plugin d) v endStream w s
    Settled r.2.2.1 endStream (r.1 ≠ .Continue) ∧ r.2.2.2.bodies d + r.2.2.1.pending ≤ s.bodies d +
      (if endStream then 1 else 0) ∧
      (s.AllResumable d → r.2.2.2.AllResumable d) := by
  obtain ⟨hstatus, hstream⟩ := onDataV2_eq plugin (filterCallbacks plugin d) v endStream w s
  generalize onDataV2 plugin (filterCallbacks plugin d) v endStream w s = r at hstatus hstream ⊢
  obtain ⟨status, v', w', s'⟩ := r
  dsimp only at hstatus hstream ⊢
  by_cases hstart : endStream ∧ w.state = .Running
  · rw [if_pos hstart] at hstream
    have hidle : Idle { w with endStream, sawBody := true } := hw.idle hstart.2
    obtain ⟨hleft, hbodies, hresumable⟩ := startBody_called plugin d v.move.buffer hidle s
    rw [← hstream] at hleft hbodies hresumable
    refine ⟨hleft.settled ?_ ?_, ?_, hresumable⟩
    · exact fun hstate => decide_eq_true (hstatus.2 (.inl hstate))
    · intro hstops hstate
      rcases hstatus.1 (of_decide_eq_true hstops) with h | h | h
      · exact absurd (hstate.symm.trans h) (by simp)
      · exact absurd (hstate.symm.trans h) (by simp)
      · exact h
    · have hnone : w'.pending = 0 := by
        unfold StreamWrapper.pending at hpending ⊢
        rw [hleft.startBody]
        exact hpending
      rw [hnone, if_pos hstart.1]
      exact hbodies
  · rw [if_neg hstart] at hstream
    obtain ⟨rfl, rfl⟩ := Prod.mk.inj hstream
    refine ⟨⟨hw.httpCall, hw.status, ?_, ?_, rfl⟩, ?_, id⟩
    · exact fun hstate => decide_eq_true (hstatus.2 (.inl hstate))
    · intro hend hstops
      rcases hstatus.1 (of_decide_eq_true hstops) with h | h | h
      · exact .inl h
      · exact .inr h
      · exact absurd (hend.symm.trans h) (by simp)
    · have hnone : StreamWrapper.pending { w with endStream, sawBody := true } = 0 := hpending
      rw [hnone]
      exact Nat.le_add_right _ _

/-- The rest of `onSuccess`, once the code has run. -/
theorem continues_settled {w₀ w : StreamWrapper} (hleft : Left w₀ false w) {stopped : Bool}
    (hstopped : stopped = true)
    (buffer : Option Bytes) (s : Stream H) :
    let r := if w.state = .Running then
        if w.startBody_ then
          let (w, s) := guarded (startBody plugin (filterCallbacks plugin d) buffer { w with startBody_ := false } s)
          (w, s, decide (w.state = .Running))
        else (w, s, true)
      else (w, s, false)
    Settled r.1 w₀.endStream (stopped && !r.2.2) ∧ (r.2.2 = true → r.1.state = .Running) ∧
      r.2.1.bodies d + r.1.pending ≤ s.bodies d + w₀.pending ∧ (s.AllResumable d → r.2.1.AllResumable d) := by
  have hpending : w.pending = w₀.pending := by
    unfold StreamWrapper.pending
    rw [hleft.startBody]
  by_cases hrunning : w.state = .Running
  · simp only [if_pos hrunning]
    by_cases hstart : w.startBody_ = true
    · have hidle : Idle { w with startBody_ := false } :=
        ⟨hrunning, Bool.eq_false_iff.2 fun h => absurd (hrunning.symm.trans (hleft.httpCall.1 h)) (by simp)⟩
      obtain ⟨hbody, hbodies, hresumable⟩ := startBody_called plugin d buffer hidle s
      simp only [if_pos hstart]
      generalize guarded (startBody plugin (filterCallbacks plugin d) buffer { w with startBody_ := false } s) = r
        at hbody hbodies hresumable ⊢
      obtain ⟨w', s'⟩ := r
      refine ⟨?_, of_decide_eq_true, ?_, hresumable⟩
      · rw [← hleft.endStream]
        apply hbody.settled
        · intro hstate
          have hnot : ¬ w'.state = .Running := fun h => absurd (hstate.symm.trans h) (by simp)
          simp [hstopped, hnot]
        · intro hstops hstate
          have hrunning : w'.state = .Running := hstate
          simp [hrunning] at hstops
      · have hdone : w'.startBody_ = false := hbody.startBody
        have hnone : w'.pending = 0 := by simp [StreamWrapper.pending, hdone]
        have hone : w.pending = 1 := by simp [StreamWrapper.pending, hstart]
        rw [hnone, ← hpending, hone]
        exact hbodies
    · simp only [if_neg hstart]
      refine ⟨hleft.settled ?_ ?_, fun _ => hrunning, by rw [hpending], id⟩
      · exact fun hstate => absurd (hrunning.symm.trans hstate) (by simp)
      · simp
  · simp only [if_neg hrunning]
    refine ⟨hleft.settled ?_ ?_, by simp, by rw [hpending], id⟩
    · simp [hstopped]
    · exact fun _ hstate => absurd hstate hrunning

theorem onSuccess_settled {w : StreamWrapper} {ended stopped : Bool} (hw : Settled w ended stopped)
    (hhttp : w.httpRequest = true)
    (buffer : Option Bytes) (s : Stream H) :
    let r := onSuccess plugin (filterCallbacks plugin d) buffer w s
    Settled r.1 ended (stopped && !r.2.2) ∧ (r.2.2 = true → r.1.state = .Running) ∧
      r.2.1.bodies d + r.1.pending ≤ s.bodies d + w.pending ∧ (s.AllResumable d → r.2.1.AllResumable d) := by
  have hcall : w.state = .HttpCall := hw.httpCall.1 hhttp
  have hstopped : stopped = true := hw.stops hcall
  have hidle : Idle { w with httpRequest := false, state := .Running } := ⟨rfl, rfl⟩
  have hresume : Called d 0 { w with httpRequest := false, state := .Running } s.setGlobalCtx
      (resume plugin (filterCallbacks plugin d) .resumed buffer
        { w with httpRequest := false, state := .Running } s.setGlobalCtx) :=
    resume_called plugin d .resumed buffer hidle (hw.status hcall) s.setGlobalCtx
  unfold onSuccess
  simp only [if_pos hcall]
  generalize resume plugin (filterCallbacks plugin d) .resumed buffer
    { w with httpRequest := false, state := .Running } s.setGlobalCtx = r
    at hresume ⊢
  obtain ⟨threw, w', s'⟩ := r
  obtain ⟨hleft, hcount, hresumable⟩ := hresume
  have hbodies : s'.bodies d ≤ s.bodies d := hcount
  rw [← hw.endStream]
  cases threw with
  | false =>
    obtain ⟨hsettled, hcontinues, hstarted, hall⟩ := continues_settled plugin d hleft hstopped buffer s'
    exact ⟨hsettled, hcontinues, hstarted.trans (Nat.add_le_add_right hbodies _), fun h => hall (hresumable h)⟩
  | true =>
    -- an error leaves the wrapper as it is
    have hrunning : w'.state = .Running := hleft.threw rfl
    have hcaught : Left { w with httpRequest := false, state := .Running } false { w' with state := .Running } := by
      refine ⟨?_, by simp, by simp, by simp, hleft.endStream, hleft.startBody⟩
      rw [hleft.httpCall, hrunning]
    obtain ⟨hsettled, hcontinues, hstarted, hall⟩ := continues_settled plugin d hcaught hstopped
      buffer s'.scriptError
    exact ⟨hsettled, hcontinues, hstarted.trans (Nat.add_le_add_right hbodies _), fun h => hall (hresumable h)⟩

/-! ## Runs -/

variable {plugin d}

namespace Driven

/-- The handler for the body, when the completion of an http call starts it. -/
def pending (m : Driven H) : Nat := match m.wrapper with
  | some w => w.pending
  | none => 0

variable (d) in
structure Inv (m : Driven H) : Prop where
  /-- The handler for the body starts with the frame that ends the message, or
  later instead. -/
  bodies : m.stream.bodies d + m.pending ≤ if m.ended then 1 else 0
  resumable : m.stream.AllResumable d
  settled : ∀ w, m.wrapper = some w → Settled w m.ended m.stopped
  none : m.wrapper = none → m.ended = false ∧ m.stopped = false

omit [HeaderMap H] in
theorem inv_fresh (s : Stream H) : Inv d (fresh s) where
  bodies := Nat.le_refl _
  resumable := by rintro _ ⟨⟩
  settled := by rintro _ ⟨⟩
  none := fun _ => ⟨rfl, rfl⟩

omit [HeaderMap H] in
/-- A first frame finds a new wrapper, which waits for nothing. -/
theorem settled_getD {m : Driven H} (hm : Inv d m) (hended : m.ended = false) (headers endStream : Bool) :
    let w := m.wrapper.getD (newWrapper headers endStream)
    (∃ ended stopped, Settled w ended stopped) ∧ w.pending = 0 := by
  have hbodies := hm.bodies
  rw [hended] at hbodies
  unfold pending at hbodies
  intro w
  cases hwrapper : m.wrapper with
  | none =>
    simp only [w, hwrapper, Option.getD_none]
    refine ⟨⟨endStream, false, ?_⟩, rfl⟩
    exact ⟨by simp [newWrapper], by rintro ⟨⟩, by rintro ⟨⟩, by simp, rfl⟩
  | some w' =>
    simp only [hwrapper] at hbodies
    simp only [w, hwrapper, Option.getD_some]
    exact ⟨⟨_, _, hm.settled w' hwrapper⟩, by simpa using (Nat.eq_zero_of_add_eq_zero (Nat.le_zero.1 hbodies)).2⟩

theorem inv_step {m : Driven H} (hm : Inv d m) (e : DrivenEvent H) : Inv d (m.step plugin d e) := by
  have hnothing : m.ended = false → m.stream.bodies d = 0 := by
    intro hended
    have hbodies := hm.bodies
    rw [hended] at hbodies
    exact Nat.eq_zero_of_le_zero ((Nat.le_add_right _ _).trans hbodies)
  cases e with
  | start endStream =>
    dsimp only [step]
    split
    · rename_i hfirst
      simp only [Bool.and_eq_true, Bool.not_eq_true', Option.isNone_iff_eq_none] at hfirst
      have hidle : Idle (newWrapper true endStream) := ⟨rfl, rfl⟩
      obtain ⟨hsettled, hbodies, hresumable⟩ := startV2_settled plugin d hidle rfl m.stream
      generalize startV2 plugin (filterCallbacks plugin d) (newWrapper true endStream) m.stream =
        r at hsettled hbodies hresumable ⊢
      obtain ⟨status, w, s⟩ := r
      rw [hnothing hfirst.1.1.2, Nat.zero_add] at hbodies
      have hsame : (if status.isNone then s.scriptError else s).own d = s.own d := by split_ifs <;> rfl
      refine ⟨?_, ?_, ?_, by simp⟩
      · unfold Stream.bodies
        rw [hsame]
        exact hbodies
      · unfold Stream.AllResumable
        rw [hsame]
        exact hresumable hm.resumable
      · intro w' hw
        cases hw
        exact hsettled
    · exact hm
  | onData v headers endStream =>
    dsimp only [step]
    split
    · rename_i hnext
      simp only [Bool.and_eq_true, Bool.not_eq_true'] at hnext
      obtain ⟨⟨ended, stopped, hw⟩, hpending⟩ := settled_getD hm hnext.1.1 headers endStream
      obtain ⟨hsettled, hbodies, hresumable⟩ := onDataV2_settled plugin d hw hpending v endStream m.stream
      rw [hnothing hnext.1.1, Nat.zero_add] at hbodies
      refine ⟨hbodies, hresumable hm.resumable, ?_, by simp⟩
      intro w' hw'
      cases hw'
      exact hsettled
    · exact hm
  | httpDone buffer =>
    dsimp only [step]
    split
    · rename_i w hwrapper
      split
      · rename_i hhttp
        obtain ⟨hsettled, -, hbodies, hresumable⟩ := onSuccess_settled plugin d
          (hm.settled w hwrapper) hhttp buffer m.stream
        refine ⟨?_, hresumable hm.resumable, ?_, by simp⟩
        · have hbefore := hm.bodies
          rw [pending, hwrapper] at hbefore
          exact hbodies.trans hbefore
        · intro w' hw'
          cases hw'
          exact hsettled
      · exact hm
    · exact hm
  | elsewhere t =>
    dsimp only [step]
    split
    · rename_i hown
      refine ⟨?_, ?_, hm.settled, hm.none⟩
      · unfold Stream.bodies
        rw [hown]
        exact hm.bodies
      · unfold Stream.AllResumable
        rw [hown]
        exact hm.resumable
    · exact hm

theorem inv_run {m : Driven H} (hm : Inv d m) (es : List (DrivenEvent H)) : Inv d (m.run plugin d es) := by
  induction es generalizing m with
  | nil => exact hm
  | cons e es ih => exact ih (inv_step hm e)

theorem Inv.sound {m : Driven H} (hm : Inv d m) : Sound plugin d m := by
  refine ⟨?_, ?_, ?_, hm.resumable⟩
  · intro hended hstopped
    cases hwrapper : m.wrapper with
    | none => exact absurd (hended.symm.trans (hm.none hwrapper).1) (by simp)
    | some w =>
      have hw := hm.settled w hwrapper
      refine ⟨w, rfl, ?_⟩
      rcases hw.ends hended hstopped with hstate | hstate
      · exact .inr ⟨hstate, hw.httpCall.2 hstate⟩
      · exact .inl hstate
  · intro w buffer hwrapper hhttp r hcontinues
    have hw := hm.settled w hwrapper
    obtain ⟨-, hrunning, -⟩ := onSuccess_settled plugin d hw hhttp buffer m.stream
    exact ⟨hw.stops (hw.httpCall.1 hhttp), hrunning hcontinues⟩
  · have hbodies := hm.bodies
    split_ifs at hbodies
    · exact (Nat.le_add_right _ _).trans hbodies
    · exact ((Nat.le_add_right _ _).trans hbodies).trans (Nat.zero_le 1)

end Driven

/-- However the frames, the ends of http calls and what else happens are
ordered, the wrapper is `Sound` after them. -/
theorem wrapper_sound (plugin : Plugin) (d : StreamDirection) (s : Stream H) (es : List (DrivenEvent H)) :
    Sound plugin d ((Driven.fresh s).run plugin d es) :=
  (Driven.inv_run (Driven.inv_fresh s) es).sound

end EnvoyProxy.Rider
