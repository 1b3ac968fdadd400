import EnvoyProxy.Rider.Outcome
/-!
# Turns of a direction

A turn enters code of one direction, changes its side and leaves the other.
What a handler for a body is to have had, and which arrivals take the end of a
message past it.
-/

namespace EnvoyProxy.Rider
open Json Http StreamWrapper

variable {H : Type} [HeaderMap H]

/-! ## What is to hold -/

/-- A part of the body, or the end of the message, has gone on. -/
def Released (p : Pipe H) : Prop := ∃ x ∈ p.passed, x.bytes ≠ [] ∨ x.ends = true

/-- The message has ended, and code has had its body. -/
def HadBody (handler : Handler) (side : Side H) (own : List Entry) : Prop :=
  side.pipe.complete = true ∧ ∃ e ∈ own, e.handler = handler ∧ e.bufferedBody.getD [] = side.received

/-- A handler has failed, or has responded. -/
def Disturbed (s : Stream H) : Prop :=
  s.error = true ∨ ∃ d w, (s.side d).streamWrapper = some w ∧ w.state = .Responded

/-- Something arrives, and with it the end of the message goes past the
handler. -/
def Early (plugin : Plugin) (d : StreamDirection) (s : Stream H) : Arrival H → Prop :=
  match plugin.version with
  | .v1 => fun
    | .trailers => (s.side d).state = .WaitForBody
    | _ => False
  | .v2 => fun
    | .headers _ true => plugin.onBody d = true ∧ ((gate plugin d s).1 = false ∨ plugin.onHeader d = false ∧ s.responded = false)
    | .data _ true => plugin.onBody d = true ∧ (s.side d).pipe.iteration ≠ .StopAll ∧ (s.side d).state = .WaitForBody
    | .trailers => plugin.onBody d = true ∧ (s.side d).pipe.iteration ≠ .StopAll
    | _ => False

/-! ## Frames -/

/-- Code of a direction has been entered, and the sides are as they were. -/
structure Entered (d : StreamDirection) (s t : Stream H) : Prop where
  request : t.request = s.request
  response : t.response = s.response
  entered : ∃ more, t.entered = s.entered ++ more ∧ ∀ e ∈ more, e.direction = d

/-- A step of a direction. -/
structure Within (d : StreamDirection) (s t : Stream H) : Prop where
  other : ∀ d', d' ≠ d → t.side d' = s.side d'
  entered : ∃ more, t.entered = s.entered ++ more ∧ ∀ e ∈ more, e.direction = d

section Frames
omit [HeaderMap H]
variable {d : StreamDirection} {s t u : Stream H}

theorem Entered.side (h : Entered d s t) (d' : StreamDirection) : t.side d' = s.side d' := by
  cases d' with
  | downstreamToUpstream => exact h.request
  | upstreamToDownstream => exact h.response

theorem Entered.refl (d : StreamDirection) (s : Stream H) : Entered d s s := ⟨rfl, rfl, [], by simp, by simp⟩

theorem Entered.trans (h : Entered d s t) (h' : Entered d t u) : Entered d s u := by
  obtain ⟨more, hmore, hall⟩ := h.entered
  obtain ⟨more', hmore', hall'⟩ := h'.entered
  refine ⟨h'.request.trans h.request, h'.response.trans h.response, more ++ more', ?_, ?_⟩
  · rw [hmore', hmore, List.append_assoc]
  · exact List.forall_mem_append.2 ⟨hall, hall'⟩

theorem Ran.toEntered {handler : Handler} {buffer : Option Bytes} (h : Ran d handler buffer s t) :
    Entered d s t := by
  obtain ⟨e, he, hd, -⟩ := h.entered
  refine ⟨h.request, h.response, [e], he, ?_⟩
  intro e' he'
  rwa [List.mem_singleton.1 he']

/-- The entry is one of the direction's own. -/
theorem Ran.mem_own {handler : Handler} {buffer : Option Bytes} (h : Ran d handler buffer s t) :
    ∃ e ∈ t.own d, e.handler = handler ∧ e.bufferedBody = buffer := by
  obtain ⟨e, he, hd, hhandler, hbuffer⟩ := h.entered
  refine ⟨e, ?_, hhandler, hbuffer⟩
  unfold Stream.own
  rw [he]
  simp [hd]

/-- A callback of a direction, which does not change what has come and gone. -/
structure Turn (d : StreamDirection) (s t : Stream H) : Prop extends Within d s t where
  pipe : (t.side d).pipe = (s.side d).pipe
  received : (t.side d).received = (s.side d).received

theorem Entered.turn (h : Entered d s t) : Turn d s t := by
  have hside := h.side d
  exact ⟨⟨fun d' _ => h.side d', h.entered⟩, by rw [hside], by rw [hside]⟩

theorem Within.trans (h : Within d s t) (h' : Within d t u) : Within d s u := by
  obtain ⟨more, hmore, hall⟩ := h.entered
  obtain ⟨more', hmore', hall'⟩ := h'.entered
  refine ⟨fun d' hd => (h'.other d' hd).trans (h.other d' hd), more ++ more', ?_, ?_⟩
  · rw [hmore', hmore, List.append_assoc]
  · exact List.forall_mem_append.2 ⟨hall, hall'⟩

theorem Turn.trans (h : Turn d s t) (h' : Turn d t u) : Turn d s u :=
  ⟨h.toWithin.trans h'.toWithin, h'.pipe.trans h.pipe, h'.received.trans h.received⟩

/-- The side gets a new wrapper, or a new pipe. -/
theorem Within.setSide (d : StreamDirection) (s : Stream H) (side : Side H) : Within d s (s.setSide d side) :=
  ⟨fun _ hd => Stream.side_setSide_ne hd s side, [], by simp, by simp⟩

theorem Turn.setSide (s : Stream H) {side : Side H} (hpipe : side.pipe = (s.side d).pipe)
    (hreceived : side.received = (s.side d).received) : Turn d s (s.setSide d side) := by
  refine ⟨Within.setSide d s side, ?_, ?_⟩
  · rw [Stream.side_setSide, hpipe]
  · rw [Stream.side_setSide, hreceived]

theorem Entered.setWrapper (h : Entered d s t) (w : StreamWrapper) : Turn d s (t.setWrapper d w) :=
  h.turn.trans (Turn.setSide t rfl rfl)

theorem Stream.streamWrapper_setWrapper (s : Stream H) (d : StreamDirection) (w : StreamWrapper) :
    ((s.setWrapper d w).side d).streamWrapper = some w := by
  unfold Stream.setWrapper
  rw [Stream.side_setSide]

theorem Stream.own_setWrapper (s : Stream H) (d : StreamDirection) (w : StreamWrapper) (d' : StreamDirection) :
    (s.setWrapper d w).own d' = s.own d' := by
  unfold Stream.own Stream.setWrapper
  rw [Stream.entered_setSide]

theorem Stream.own_store (d : StreamDirection) (bytes : Bytes) (r : Stream H × Pipe H) (d' : StreamDirection) :
    (Stream.store d bytes r).own d' = r.1.own d' := by
  unfold Stream.own Stream.store
  rw [Stream.entered_setSide]

theorem Turn.store (h : Turn d s t) (bytes : Bytes) (p : Pipe H) : Within d s (Stream.store d bytes (t, p)) :=
  h.toWithin.trans (Within.setSide d t _)

theorem disturbed_setWrapper {w : StreamWrapper} (h : t.error = true ∨ w.state = .Responded) :
    Disturbed (t.setWrapper d w) := by
  rcases h with herror | hresponded
  · left
    unfold Stream.setWrapper
    rwa [Stream.error_setSide]
  · exact .inr ⟨d, w, Stream.streamWrapper_setWrapper t d w, hresponded⟩

theorem disturbed_store (h : Disturbed t) (bytes : Bytes) (p : Pipe H) :
    Disturbed (Stream.store d bytes (t, p)) := by
  rcases h with herror | ⟨d', w, hw, hresponded⟩
  · left
    rwa [Stream.store, Stream.error_setSide]
  · refine .inr ⟨d', w, ?_, hresponded⟩
    by_cases hd : d' = d
    · subst hd
      rw [Stream.store, Stream.side_setSide]
      exact hw
    · rwa [Stream.store, Stream.side_setSide_ne hd]

theorem Within.own (h : Within d s t) : ∃ more, t.own d = s.own d ++ more := by
  obtain ⟨more, hmore, -⟩ := h.entered
  refine ⟨more.filter (·.direction = d), ?_⟩
  unfold Stream.own
  rw [hmore, List.filter_append]

theorem Within.own_ne (h : Within d s t) {d' : StreamDirection} (hd : d' ≠ d) : t.own d' = s.own d' := by
  obtain ⟨more, hmore, hall⟩ := h.entered
  have hnone : more.filter (·.direction = d') = [] := by
    rw [List.filter_eq_nil_iff]
    intro e he
    rw [decide_eq_true_eq, hall e he]
    exact hd.symm
  unfold Stream.own
  rw [hmore, List.filter_append, hnone, List.append_nil]

theorem HadBody.mono {handler : Handler} (h : HadBody handler (s.side d) (s.own d)) (ht : Within d s t)
    (hcomplete : (t.side d).pipe.complete = (s.side d).pipe.complete)
    (hreceived : (t.side d).received = (s.side d).received) :
    HadBody handler (t.side d) (t.own d) := by
  obtain ⟨hend, e, he, hhandler, hbuffer⟩ := h
  obtain ⟨more, hown⟩ := ht.own
  refine ⟨hcomplete.trans hend, e, ?_, hhandler, hbuffer.trans hreceived.symm⟩
  rw [hown]
  exact List.mem_append_left _ he

end Frames

end EnvoyProxy.Rider
