import EnvoyProxy.Rider.Filter
/-!
# What the calls of a wrapper do

Every call of a `StreamWrapper` is a sequence of small effects on the wrapper
and the stream (`Effect`). What each effect keeps, the calls keep.
-/

namespace EnvoyProxy.Rider
open Json Http StreamWrapper Relation

variable {H : Type} [HeaderMap H]

section Effect
variable (plugin : Plugin) (callbacks : FilterCallbacks H)

/-- An entry into Lua code. -/
def Stream.enter (s : Stream H) (d : StreamDirection) (handler : Handler) (headers resumable : Bool) (buffer : Option Bytes) :
    Stream H :=
  { s with entered := s.entered ++ [{ direction := d, handler, headers, resumable, alive := !s.destroyed,
                                      globalCtx := s.globalCtx, bufferedBody := buffer }] }

inductive Effect : StreamWrapper × Stream H → StreamWrapper × Stream H → Prop
  /-- A change of the wrapper; its headers stay. -/
  | wrapper {w w' : StreamWrapper} {s : Stream H} : w'.headers = w.headers → Effect (w, s) (w', s)
  | globalCtx {w : StreamWrapper} {s : Stream H} : Effect (w, s) (w, s.setGlobalCtx)
  | error {w : StreamWrapper} {s : Stream H} : Effect (w, s) (w, s.scriptError)
  | raised {w : StreamWrapper} {s : Stream H} : Effect (w, s) (w, { s with responded := true })
  | responded {w : StreamWrapper} {s t : Stream H} {headers : H} {bytes : Option Bytes} :
      callbacks.respond { s with responded := true } headers bytes = some t → Effect (w, s) (w, t)
  /-- Version 1 enters Lua code under any context. -/
  | enterV1 {w : StreamWrapper} {s : Stream H} (handler : Handler) (resumable : Bool) (buffer : Option Bytes) :
      plugin.version = .v1 → Effect (w, s) (w, s.enter callbacks.direction handler w.headers resumable buffer)
  | enter {w : StreamWrapper} {s : Stream H} (handler : Handler) (resumable : Bool) (buffer : Option Bytes) :
      Effect (w, s) (w, s.setGlobalCtx.enter callbacks.direction handler w.headers resumable buffer)

abbrev Effects : StreamWrapper × Stream H → StreamWrapper × Stream H → Prop := ReflTransGen (Effect plugin callbacks)

variable {plugin callbacks}

omit [HeaderMap H] in
/-- An invariant of the effects is one of the calls. -/
theorem Effects.invariant {I : StreamWrapper → Stream H → Prop}
    (hstep : ∀ w s w' s', Effect plugin callbacks (w, s) (w', s') → I w s → I w' s')
    {r r' : StreamWrapper × Stream H}
    (h : Effects plugin callbacks r r') (hi : I r.1 r.2) : I r'.1 r'.2 := by
  induction h with
  | refl => exact hi
  | tail _ he ih => exact hstep _ _ _ _ he ih

omit [HeaderMap H] in
theorem Effects.wrapper {w w' : StreamWrapper} {s : Stream H} (h : w'.headers = w.headers) :
    Effects plugin callbacks (w, s) (w', s) := .single (.wrapper h)

theorem luaResume_effects (script : Script) (w : StreamWrapper) (s : Stream H) :
    Effects plugin callbacks (w, s) (luaResume callbacks w s script).2 := by
  induction script generalizing w s with
  | finish | error | yield | httpCall =>
    unfold luaResume
    exact Effects.wrapper rfl
  | respond table body raised ih =>
    unfold luaResume
    split
    · exact ih w s
    · dsimp only
      split
      · exact (ReflTransGen.single .raised).trans (ih w _)
      · rename_i t hrespond
        have hrespond : Effects plugin callbacks (w, s) (w, t) := .single (.responded hrespond)
        exact hrespond.trans (Effects.wrapper rfl)
  | getBody returned ih =>
    unfold luaResume
    split_ifs
    · exact ih w s
    · exact Effects.wrapper rfl

theorem resume_effects (handler : Handler) (buffer : Option Bytes) (w : StreamWrapper) (s : Stream H) :
    Effects plugin callbacks (w, s) (resume plugin callbacks handler buffer w s.setGlobalCtx).2 := by
  unfold resume
  exact (ReflTransGen.single (.enter handler (w.status = .Yielded) buffer)).trans (luaResume_effects _ w _)

theorem resume_effects_v1 (hversion : plugin.version = .v1) (handler : Handler)
    (buffer : Option Bytes) (w : StreamWrapper)
    (s : Stream H) : Effects plugin callbacks (w, s) (resume plugin callbacks handler buffer w s).2 := by
  unfold resume
  exact (ReflTransGen.single (.enterV1 handler (w.status = .Yielded) buffer hversion)).trans
    (luaResume_effects _ w _)

theorem coroutineStart_effects (handler : Handler) (buffer : Option Bytes) (w : StreamWrapper) (s : Stream H) :
    Effects plugin callbacks (w, s) (coroutineStart plugin callbacks handler buffer w s.setGlobalCtx).2 := by
  unfold coroutineStart
  split
  · have hctx : Effects plugin callbacks (w, s) (w, s.setGlobalCtx) := .single .globalCtx
    exact hctx.trans (Effects.wrapper rfl)
  · have hwrapper : Effects plugin callbacks (w, s) ({ w with status := .Yielded }, s) := Effects.wrapper rfl
    exact hwrapper.trans (resume_effects _ buffer _ s)

theorem coroutineStart_effects_v1 (hversion : plugin.version = .v1) (handler : Handler)
    (buffer : Option Bytes) (w : StreamWrapper)
    (s : Stream H) : Effects plugin callbacks (w, s) (coroutineStart plugin callbacks handler buffer w s).2 := by
  unfold coroutineStart
  split
  · exact Effects.wrapper rfl
  · have hwrapper : Effects plugin callbacks (w, s) ({ w with status := .Yielded }, s) := Effects.wrapper rfl
    exact hwrapper.trans (resume_effects_v1 hversion _ buffer _ s)

omit [HeaderMap H] in
theorem guarded_effects {w : StreamWrapper} {s : Stream H} {r : Bool × StreamWrapper × Stream H}
    (h : Effects plugin callbacks (w, s) r.2) : Effects plugin callbacks (w, s) (guarded r) := by
  unfold guarded
  split_ifs
  · exact h.tail .error
  · exact h

theorem startBody_effects (buffer : Option Bytes) (w : StreamWrapper) (s : Stream H) :
    Effects plugin callbacks (w, s) (guarded (startBody plugin callbacks buffer w s)) :=
  guarded_effects (coroutineStart_effects _ _ _ _)

theorem startV1_effects (hversion : plugin.version = .v1) (w : StreamWrapper) (s : Stream H) :
    Effects plugin callbacks (w, s) (startV1 plugin callbacks w s).2 := by
  have hstart : Effects plugin callbacks (w, s) (coroutineStart plugin callbacks .message none w s).2 :=
    coroutineStart_effects_v1 hversion .message none w s
  unfold startV1
  generalize coroutineStart plugin callbacks .message none w s = r at hstart ⊢
  obtain ⟨threw, w', s'⟩ := r
  cases threw with
  | true => exact hstart
  | false =>
    dsimp only
    split_ifs
    · exact hstart.trans (Effects.wrapper rfl)
    · exact hstart

theorem startV2_effects (w : StreamWrapper) (s : Stream H) :
    Effects plugin callbacks (w, s) (startV2 plugin callbacks w s).2 := by
  have hstart : Effects plugin callbacks (w, s) (coroutineStart plugin callbacks .header none w s.setGlobalCtx).2 :=
    coroutineStart_effects .header none w s
  unfold startV2
  generalize coroutineStart plugin callbacks .header none w s.setGlobalCtx = r at hstart ⊢
  obtain ⟨threw, w', s'⟩ := r
  cases threw with
  | true => exact hstart
  | false =>
    have hbody : Effects plugin callbacks (w, s)
      (if !w'.endStream then (some FilterHeadersStatus.StopIteration, w', s')
        else if !plugin.onBody callbacks.direction then (some .Continue, w', s')
        else
          let r := guarded (startBody plugin callbacks none w' s')
          (some (if r.1.state = .HttpCall ∨ r.1.state = .Responded then .StopIteration else .Continue), r)).2 := by
      split_ifs
      · exact hstart
      · exact hstart
      · exact hstart.trans (startBody_effects none w' s')
    dsimp only
    cases hstate : w'.state with
    | HttpCall =>
      dsimp only
      split_ifs
      · exact hstart.trans (Effects.wrapper rfl)
      · exact hstart
    | Responded => exact hstart
    | Running => exact hbody
    | WaitForBody => exact hbody

theorem onDataV1_effects (hversion : plugin.version = .v1) (v : DataView) (endStream : Bool)
    (w : StreamWrapper) (s : Stream H) :
    Effects plugin callbacks (w, s) (onDataV1 plugin callbacks v endStream w s).2.2 := by
  have hframe : Effects plugin callbacks (w, s) ({ w with endStream, sawBody := true }, s) := Effects.wrapper rfl
  unfold onDataV1
  by_cases hwait : w.state = .WaitForBody ∧ endStream = true
  · have hrunning : Effects plugin callbacks (w, s) ({ w with endStream, sawBody := true, state := .Running }, s) :=
      Effects.wrapper rfl
    have hresume := hrunning.trans (resume_effects_v1 hversion .resumed v.move.buffer _ s)
    simp only [if_pos hwait]
    generalize resume plugin callbacks .resumed v.move.buffer
      { w with endStream, sawBody := true, state := .Running } s = r
      at hresume ⊢
    obtain ⟨threw, w', s'⟩ := r
    dsimp only at hresume ⊢
    split
    · exact hresume
    · split
      · exact hresume
      · exact hresume
      · exact hresume
      · exact hresume.trans (Effects.wrapper rfl)
  · simp only [if_neg hwait, Bool.false_eq_true, if_false]
    split
    · exact hframe
    · exact hframe
    · exact hframe
    · exact hframe.trans (Effects.wrapper rfl)

theorem onDataV2_effects (v : DataView) (endStream : Bool) (w : StreamWrapper) (s : Stream H) :
    Effects plugin callbacks (w, s) (onDataV2 plugin callbacks v endStream w s).2.2 := by
  have hframe : Effects plugin callbacks (w, s) ({ w with endStream, sawBody := true }, s) := Effects.wrapper rfl
  unfold onDataV2
  by_cases hstart : endStream = true ∧ w.state = .Running
  · have hbody := hframe.trans (startBody_effects v.move.buffer _ s)
    simp only [if_pos hstart]
    generalize guarded (startBody plugin callbacks v.move.buffer
      { w with endStream, sawBody := true } s) = r at hbody ⊢
    split_ifs <;> exact hbody
  · simp only [if_neg hstart]
    split_ifs <;> exact hframe

variable (plugin callbacks) in
theorem onSuccess_effects (buffer : Option Bytes) (w : StreamWrapper) (s : Stream H) :
    Effects plugin callbacks (w, s)
      ((onSuccess plugin callbacks buffer w s).1, (onSuccess plugin callbacks buffer w s).2.1) := by
  have hbody : ∀ (w' : StreamWrapper) (s' : Stream H), Effects plugin callbacks (w, s) (w', s') →
      Effects plugin callbacks (w, s)
        (guarded (startBody plugin callbacks buffer { w' with startBody_ := false } s')) := by
    intro w' s' h
    have hstart : Effects plugin callbacks (w, s) ({ w' with startBody_ := false }, s') :=
      h.trans (Effects.wrapper rfl)
    exact hstart.trans (startBody_effects buffer _ s')
  unfold onSuccess
  by_cases hcall : w.state = .HttpCall
  · have hrunning : Effects plugin callbacks (w, s) ({ w with httpRequest := false, state := .Running }, s) :=
      Effects.wrapper rfl
    have hresume := hrunning.trans (resume_effects .resumed buffer _ s)
    simp only [if_pos hcall]
    generalize resume plugin callbacks .resumed buffer
      { w with httpRequest := false, state := .Running } s.setGlobalCtx = r
      at hresume ⊢
    obtain ⟨threw, w', s'⟩ := r
    cases threw with
    | true =>
      have hcaught : Effects plugin callbacks (w, s) ({ w' with state := .Running }, s'.scriptError) :=
        (hresume.tail .error).trans (Effects.wrapper rfl)
      simp only [if_true]
      split_ifs
      · exact hbody _ _ hcaught
      · exact hcaught
    | false =>
      dsimp only
      split_ifs
      · exact hbody _ _ hresume
      · exact hresume
      · exact hresume
  · simp only [if_neg hcall]
    exact Effects.wrapper rfl

end Effect

end EnvoyProxy.Rider
