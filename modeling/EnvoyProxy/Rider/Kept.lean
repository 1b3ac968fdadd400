import EnvoyProxy.Rider.Effects
/-!
# What the callbacks keep

`doHeaders_stream` and `doData_stream` sum up what the callbacks of one
direction do to a stream: at most the effects of one wrapper, which is then
kept. `Kept` says what an invariant of streams needs to be one of the
callbacks of a direction; an invariant of both is one of every run.
-/

namespace EnvoyProxy.Rider
open Json Http StreamWrapper Relation

variable {H : Type} [HeaderMap H]

/-- The state of the wrapper; without one, nothing is awaited. -/
def Side.state (side : Side H) : State := (side.streamWrapper.map StreamWrapper.state).getD .Running

/-- `*wrapper` once a call of it is over. -/
def Stream.setWrapper (d : StreamDirection) (w : StreamWrapper) (s : Stream H) : Stream H :=
  s.setSide d { s.side d with streamWrapper := some w }

/-- `request_headers_ = &headers`, and the same for a response. -/
def Stream.setHeaders (d : StreamDirection) (s : Stream H) : Stream H := s.setSide d { s.side d with headers := true }

section Sides
omit [HeaderMap H]

@[simp] theorem Stream.side_setSide (s : Stream H) (d : StreamDirection) (side : Side H) :
    (s.setSide d side).side d = side := by
  cases d <;> rfl

theorem Stream.side_setSide_ne {d d' : StreamDirection} (h : d' ≠ d) (s : Stream H) (side : Side H) :
    (s.setSide d side).side d' = s.side d' := by
  cases d <;> cases d' <;> first | rfl | exact absurd rfl h

@[simp] theorem Stream.responded_setSide (s : Stream H) (d : StreamDirection) (side : Side H) :
    (s.setSide d side).responded = s.responded := by
  cases d <;> rfl

@[simp] theorem Stream.error_setSide (s : Stream H) (d : StreamDirection) (side : Side H) :
    (s.setSide d side).error = s.error := by
  cases d <;> rfl

@[simp] theorem Stream.entered_setSide (s : Stream H) (d : StreamDirection) (side : Side H) :
    (s.setSide d side).entered = s.entered := by
  cases d <;> rfl

theorem Stream.setWrapper_scriptError (d : StreamDirection) (w : StreamWrapper) (s : Stream H) :
    (s.setWrapper d w).scriptError = s.scriptError.setWrapper d w := by
  cases d <;> rfl

end Sides

omit [HeaderMap H] in
/-- A message with headers that has not ended goes on by data or trailers. -/
theorem fits_more {p : Pipe H} (hfits : p.headers.isSome && !p.complete) :
    p.headers ≠ none ∧ p.complete = false := by
  rw [Bool.and_eq_true, Bool.not_eq_true', Option.isSome_iff_ne_none] at hfits
  exact hfits

omit [HeaderMap H] in
theorem gate_stream (plugin : Plugin) (d : StreamDirection) (s : Stream H) :
    ∃ routeConfig, (gate plugin d s).2 = { s with routeConfig } := by
  unfold gate
  cases d with
  | downstreamToUpstream =>
    dsimp only
    split
    · exact ⟨s.routeConfig, rfl⟩
    · exact ⟨s.routeConfig, rfl⟩
    · exact ⟨true, rfl⟩
  | upstreamToDownstream => exact ⟨s.routeConfig, rfl⟩

section Callbacks
variable {plugin : Plugin} {callbacks : FilterCallbacks H}

omit [HeaderMap H] in
theorem caught_stream {d : StreamDirection} {w₀ : StreamWrapper} {s₀ : Stream H}
    {r : Option FilterHeadersStatus × StreamWrapper × Stream H} (h : Effects plugin callbacks (w₀, s₀) r.2) :
    ∃ w s, Effects plugin callbacks (w₀, s₀) (w, s) ∧ (caught d r).2 = s.setWrapper d w := by
  obtain ⟨status, w, s⟩ := r
  cases status with
  | none => exact ⟨w, s.scriptError, h.tail .error, Stream.setWrapper_scriptError d w s⟩
  | some status => exact ⟨w, s, h, rfl⟩

theorem doHeadersV1_stream (hversion : plugin.version = .v1) (endStream : Bool) (s : Stream H) :
    (doHeadersV1 plugin callbacks endStream s).2 = s ∨
      ∃ w t, Effects plugin callbacks (newWrapper true endStream, s) (w, t) ∧
        (doHeadersV1 plugin callbacks endStream s).2 = t.setWrapper callbacks.direction w := by
  unfold doHeadersV1
  dsimp only
  split_ifs
  · exact .inl rfl
  · exact .inr (caught_stream (startV1_effects hversion _ s))

theorem doHeadersV2_stream (endStream : Bool) (s : Stream H) :
    (doHeadersV2 plugin callbacks endStream s).2 = s ∨ (doHeadersV2 plugin callbacks endStream s).2 = { s with responded := false } ∨
      ∃ w t, Effects plugin callbacks (newWrapper true endStream, s) (w, t) ∧
        (doHeadersV2 plugin callbacks endStream s).2 = t.setWrapper callbacks.direction w := by
  unfold doHeadersV2
  dsimp only
  split_ifs
  · exact .inr (.inl rfl)
  · exact .inl rfl
  · exact .inr (.inr (caught_stream (startV2_effects _ s)))

variable (plugin callbacks) in
/-- What a callback for headers does to a stream. -/
theorem doHeaders_stream (endStream : Bool) (s : Stream H) :
    let t := s.setHeaders callbacks.direction
    (doHeaders plugin callbacks endStream s).2 = t ∨ (doHeaders plugin callbacks endStream s).2 =
      { t with responded := false } ∨
      ∃ w t', Effects plugin callbacks (newWrapper true endStream, t) (w, t') ∧
        (doHeaders plugin callbacks endStream s).2 = t'.setWrapper callbacks.direction w := by
  unfold doHeaders
  cases hversion : plugin.version with
  | v1 =>
    rcases doHeadersV1_stream hversion endStream (s.setHeaders callbacks.direction) with h | h
    · exact .inl h
    · exact .inr (.inr h)
  | v2 => exact doHeadersV2_stream endStream (s.setHeaders callbacks.direction)

variable (plugin callbacks) in
/-- What a callback for data does to a stream. -/
theorem doData_stream (v : DataView) (endStream : Bool) (s : Stream H) :
    let d := callbacks.direction
    (doData plugin callbacks v endStream s).2.2 = s ∨
      ∃ w₀ w t, ((s.side d).streamWrapper = some w₀ ∨
          (s.side d).streamWrapper = none ∧ plugin.version = .v2 ∧ plugin.onBody d = true ∧
            w₀ = newWrapper (s.side d).headers endStream) ∧
        Effects plugin callbacks (w₀, s) (w, t) ∧ (doData plugin callbacks v endStream s).2.2 =
          t.setWrapper d w := by
  intro d
  unfold doData
  cases hversion : plugin.version with
  | v1 =>
    dsimp only
    split
    · exact .inl rfl
    · rename_i w hwrapper
      split_ifs
      · exact .inl rfl
      · have heffects : Effects plugin callbacks (w, s) (onDataV1 plugin callbacks v endStream w s).2.2 :=
          onDataV1_effects hversion v endStream w s
        generalize onDataV1 plugin callbacks v endStream w s = r at heffects ⊢
        obtain ⟨status, v', w', s'⟩ := r
        right
        cases status with
        | none =>
          exact ⟨w, w', s'.scriptError, .inl hwrapper, heffects.tail .error,
            Stream.setWrapper_scriptError _ w' s'⟩
        | some status => exact ⟨w, w', s', .inl hwrapper, heffects, rfl⟩
  | v2 =>
    dsimp only
    split_ifs with hskip
    · exact .inl rfl
    · right
      obtain ⟨-, hbody⟩ : s.error = false ∧ plugin.onBody d = true := by simpa using hskip
      refine ⟨(s.side d).streamWrapper.getD (newWrapper (s.side d).headers endStream), _, _, ?_,
        onDataV2_effects v endStream _ s, rfl⟩
      cases hwrapper : (s.side d).streamWrapper with
      | none => exact .inr ⟨rfl, rfl, hbody, rfl⟩
      | some w => exact .inl rfl

variable (plugin callbacks) in
/-- The parts of a message. -/
theorem receive_stream (s : Stream H) (p : Pipe H) (a : Arrival H) :
    let r := (streamFilter plugin callbacks).receive s p a
    match a with
    | .headers h e =>
      let g := gate plugin callbacks.direction s
      r.1 = (if g.1 then (doHeaders plugin callbacks e g.2).2 else g.2) ∧ r.2.headers = some h ∧ r.2.complete = e
    | .data _ e =>
      (r.1 = s ∨ ∃ v, r.1 = (doData plugin callbacks v e s).2.2) ∧ r.2.headers = p.headers ∧
        r.2.complete = e
    | .trailers => r.1 = s ∧ r.2.headers = p.headers ∧ r.2.complete = true := by
  cases a with
  | headers h e =>
    dsimp only [StreamFilter.receive, streamFilter]
    split_ifs
    · exact ⟨rfl, Pipe.afterHeaders_same _ _⟩
    · exact ⟨rfl, Pipe.afterHeaders_same _ _⟩
  | data bytes e =>
    dsimp only [StreamFilter.receive, streamFilter]
    split_ifs
    · exact ⟨.inl rfl, rfl, rfl⟩
    · exact ⟨.inr ⟨_, rfl⟩, Pipe.afterData_same _ _ _ _⟩
  | trailers => exact ⟨rfl, Pipe.afterTrailers_same _⟩

variable (plugin callbacks) in
theorem resume_stream (s : Stream H) (p : Pipe H) :
    let r := (streamFilter plugin callbacks).resume s p
    (r.1 = s ∨ ∃ v e, r.1 = (doData plugin callbacks v e s).2.2) ∧ p.SameMessage r.2 := by
  have hheaders : ∀ e, p.SameMessage ({ p with iteration := .Continue }.doHeaders e) := by
    intro e
    exact Pipe.doHeaders_same { p with iteration := .Continue } e
  unfold StreamFilter.resume
  split_ifs
  · dsimp only
    split
    · exact ⟨.inl rfl, (hheaders _).trans (Pipe.doTrailers_same _)⟩
    · refine ⟨.inr ⟨_, _, rfl⟩, ?_⟩
      dsimp only
      split_ifs
      · exact ((hheaders _).trans (Pipe.afterData_same _ _ _ _)).trans (Pipe.afterTrailers_same _)
      · exact (hheaders _).trans (Pipe.afterData_same _ _ _ _)
  · exact ⟨.inl rfl, Pipe.commonContinue_same p⟩

end Callbacks

/-! ## Invariants -/

/-- The message has headers and has not ended. -/
def Unfinished (p : Pipe H) : Prop := p.headers.isSome = true ∧ p.complete = false

/-- `J` is kept by the callbacks of a direction, if `I` is kept while a call of
a wrapper runs. -/
structure Kept (plugin : Plugin) (d : StreamDirection) (J : Stream H → Prop) (I : StreamWrapper → Stream H → Prop) : Prop where
  effect : ∀ w s w' s', Effect plugin (filterCallbacks plugin d) (w, s) (w', s') → I w s → I w' s'
  side : ∀ w (s : Stream H) w' s', Effect plugin (filterCallbacks plugin d) (w, s) (w', s') → s'.side d = s.side d
  load : ∀ w s, J s → (s.side d).streamWrapper = some w → I w s
  store : ∀ w s, I w s → J (s.setWrapper d w)
  gate : ∀ s, J s → J (gate plugin d s).2
  setHeaders : ∀ s, J s → J (s.setHeaders d)
  answered : ∀ s, J s → J { s with responded := false }
  passBy : ∀ s, J s → J s.passBy
  create : ∀ e s, J s → (s.side d).headers = true → I (newWrapper true e) s
  createData : ∀ e s, J s → (s.side d).streamWrapper = none → plugin.version = .v2 → plugin.onBody d = true →
    Unfinished (s.side d).pipe → I (newWrapper (s.side d).headers e) s
  pipe : ∀ bytes s p, J s → (Unfinished p → Unfinished (s.side d).pipe ∨ (s.side d).headers = true) → J (Stream.store d bytes (s, p))
  skipped : ∀ bytes s p, J s → (Rider.gate plugin d s).1 = false → J (Stream.store d bytes ((Rider.gate plugin d s).2, p))

@[simp] theorem filterCallbacks_direction (plugin : Plugin) (d : StreamDirection) :
    (filterCallbacks plugin d : FilterCallbacks H).direction = d := by
  cases d <;> rfl

@[simp] theorem DecoderCallbacks_direction (plugin : Plugin) :
    (DecoderCallbacks plugin : FilterCallbacks H).direction = .downstreamToUpstream := rfl

namespace Kept
variable {plugin : Plugin} {d : StreamDirection} {J : Stream H → Prop} {I : StreamWrapper → Stream H → Prop}

theorem effects (hk : Kept plugin d J I) {w w' : StreamWrapper} {s s' : Stream H}
    (h : Effects plugin (filterCallbacks plugin d) (w, s) (w', s')) (hi : I w s) :
    I w' s' ∧ s'.side d = s.side d := by
  refine Effects.invariant (I := fun w' t => I w' t ∧ t.side d = s.side d) ?_ h ⟨hi, rfl⟩
  rintro w s w' s' he ⟨hi, hside⟩
  exact ⟨hk.effect w s w' s' he hi, (hk.side w s w' s' he).trans hside⟩

theorem onHeaders (hk : Kept plugin d J I) (e : Bool) {s : Stream H} (hs : J s) :
    let t := (doHeaders plugin (filterCallbacks plugin d) e s).2
    J t ∧ (t.side d).headers = true := by
  have hset : J (s.setHeaders d) := hk.setHeaders s hs
  have hheaders : ((s.setHeaders d).side d).headers = true := by simp [Stream.setHeaders]
  have hcases := doHeaders_stream plugin (filterCallbacks plugin d) e s
  simp only [filterCallbacks_direction] at hcases
  rcases hcases with h | h | ⟨w, t, heffects, h⟩
  · rw [h]
    exact ⟨hset, hheaders⟩
  · rw [h]
    exact ⟨hk.answered _ hset, by cases d <;> exact hheaders⟩
  · rw [h]
    obtain ⟨hi, hside⟩ := hk.effects heffects (hk.create e _ hset hheaders)
    refine ⟨hk.store w t hi, ?_⟩
    rw [Stream.setWrapper, Stream.side_setSide, hside]
    exact hheaders

/-- The wrapper exists, or it is created for the body of a message. -/
theorem onData (hk : Kept plugin d J I) (v : DataView) (e : Bool) {s : Stream H} (hs : J s)
    (hpipe : (s.side d).streamWrapper = none → Unfinished (s.side d).pipe) :
    let t := (doData plugin (filterCallbacks plugin d) v e s).2.2
    J t ∧ (t.side d).pipe = (s.side d).pipe := by
  have hcases := doData_stream plugin (filterCallbacks plugin d) v e s
  simp only [filterCallbacks_direction] at hcases
  rcases hcases with h | ⟨w₀, w, t, hwrapper, heffects, h⟩
  · rw [h]
    exact ⟨hs, rfl⟩
  · have hload : I w₀ s := by
      rcases hwrapper with hwrapper | ⟨hnone, hversion, hbody, rfl⟩
      · exact hk.load w₀ s hs hwrapper
      · exact hk.createData e s hs hnone hversion hbody (hpipe hnone)
    rw [h]
    obtain ⟨hi, hside⟩ := hk.effects heffects hload
    refine ⟨hk.store w t hi, ?_⟩
    rw [Stream.setWrapper, Stream.side_setSide, hside]

/-- Headers that are shown to the plugin. -/
theorem receive_shown (hk : Kept plugin d J I) {s : Stream H} (hs : J (Rider.gate plugin d s).2)
    (hgate : (Rider.gate plugin d s).1 = true)
    (h : H) (e : Bool) : J (s.receive plugin d (.headers h e)) := by
  have hcases := receive_stream plugin (filterCallbacks plugin d) s (s.side d).pipe (.headers h e)
  unfold Stream.receive
  generalize (streamFilter plugin (filterCallbacks plugin d)).receive s (s.side d).pipe
    (.headers h e) = r at hcases ⊢
  obtain ⟨t, p⟩ := r
  simp only [filterCallbacks_direction, hgate, if_true] at hcases
  obtain ⟨rfl, -⟩ := hcases
  obtain ⟨ht, hheaders⟩ := hk.onHeaders e hs
  exact hk.pipe _ _ p ht fun _ => .inr hheaders

theorem receive_skipped (hk : Kept plugin d J I) {s : Stream H} (hs : J s)
    (hgate : (Rider.gate plugin d s).1 = false) (h : H) (e : Bool) :
    J (s.receive plugin d (.headers h e)) := by
  have hcases := receive_stream plugin (filterCallbacks plugin d) s (s.side d).pipe (.headers h e)
  unfold Stream.receive
  generalize (streamFilter plugin (filterCallbacks plugin d)).receive s (s.side d).pipe
    (.headers h e) = r at hcases ⊢
  obtain ⟨t, p⟩ := r
  simp only [filterCallbacks_direction, hgate, Bool.false_eq_true, if_false] at hcases
  obtain ⟨rfl, -⟩ := hcases
  exact hk.skipped _ s p hs hgate

theorem receive_data (hk : Kept plugin d J I) {s : Stream H} (hs : J s) (bytes : Bytes) (e : Bool)
    (hunfinished : Unfinished (s.side d).pipe) : J (s.receive plugin d (.data bytes e)) := by
  have hcases := receive_stream plugin (filterCallbacks plugin d) s (s.side d).pipe (.data bytes e)
  unfold Stream.receive
  generalize (streamFilter plugin (filterCallbacks plugin d)).receive s (s.side d).pipe
    (.data bytes e) = r at hcases ⊢
  obtain ⟨t, p⟩ := r
  obtain ⟨ht, -⟩ := hcases
  have hkept : J t ∧ (t.side d).pipe = (s.side d).pipe := by
    rcases ht with rfl | ⟨v, rfl⟩
    · exact ⟨hs, rfl⟩
    · exact hk.onData v e hs fun _ => hunfinished
  apply hk.pipe _ t p hkept.1
  intro _
  rw [hkept.2]
  exact .inl hunfinished

theorem receive_trailers (hk : Kept plugin d J I) {s : Stream H} (hs : J s) : J (s.receive plugin d .trailers) := by
  have hcases := receive_stream plugin (filterCallbacks plugin d) s (s.side d).pipe .trailers
  unfold Stream.receive
  generalize (streamFilter plugin (filterCallbacks plugin d)).receive s (s.side d).pipe .trailers = r at hcases ⊢
  obtain ⟨t, p⟩ := r
  obtain ⟨rfl, -, hcomplete⟩ := hcases
  apply hk.pipe _ t p hs
  intro hunfinished
  exact absurd (hcomplete.symm.trans hunfinished.2) Bool.true_eq_false.mp

theorem receive (hk : Kept plugin d J I) {s : Stream H} (hs : J s) (a : Arrival H)
    (hdata : ∀ bytes e, a = .data bytes e → Unfinished (s.side d).pipe) : J (s.receive plugin d a) := by
  cases a with
  | headers h e =>
    cases hgate : (Rider.gate plugin d s).1 with
    | true => exact hk.receive_shown (hk.gate s hs) hgate h e
    | false => exact hk.receive_skipped hs hgate h e
  | data bytes e => exact hk.receive_data hs bytes e (hdata bytes e rfl)
  | trailers => exact hk.receive_trailers hs

theorem continueIteration (hk : Kept plugin d J I) {s : Stream H} (hs : J s)
    (hwrapper : (s.side d).streamWrapper ≠ none) :
    J (s.continueIteration plugin d) := by
  have hcases := resume_stream plugin (filterCallbacks plugin d) s (s.side d).pipe
  unfold Stream.continueIteration
  generalize (streamFilter plugin (filterCallbacks plugin d)).resume s (s.side d).pipe = r at hcases ⊢
  obtain ⟨t, p⟩ := r
  obtain ⟨ht, hp⟩ := hcases
  have hkept : J t ∧ (t.side d).pipe = (s.side d).pipe := by
    rcases ht with rfl | ⟨v, e, rfl⟩
    · exact ⟨hs, rfl⟩
    · exact hk.onData v e hs fun hnone => absurd hnone hwrapper
  apply hk.pipe _ t p hkept.1
  intro hunder
  rw [hkept.2]
  exact .inl ⟨hp.1 ▸ hunder.1, hp.2 ▸ hunder.2⟩

theorem complete (hk : Kept plugin d J I) {s : Stream H} (hs : J s) {w : StreamWrapper}
    (hwrapper : (s.side d).streamWrapper = some w) :
    J (s.complete plugin d w) := by
  have heffects := onSuccess_effects plugin (filterCallbacks plugin d) (s.side d).pipe.buffer w s
  unfold Stream.complete
  generalize onSuccess plugin (filterCallbacks plugin d) (s.side d).pipe.buffer w s = r at heffects ⊢
  obtain ⟨w', t, continues⟩ := r
  obtain ⟨hi, -⟩ := hk.effects heffects (hk.load w s hs hwrapper)
  have hstore : J (t.setWrapper d w') := hk.store w' t hi
  dsimp only
  split_ifs
  · apply hk.continueIteration hstore
    simp [Stream.setWrapper]
  · exact hstore

end Kept

/-- What the callbacks of both directions keep is kept until the stream is
destroyed. -/
theorem step_kept {plugin : Plugin} {J : Stream H → Prop} {I : StreamDirection → StreamWrapper → Stream H → Prop}
    (hk : ∀ d, Kept plugin d J (I d)) {s : Stream H} (hs : J s) {e : Event H}
    (he : e ≠ .onDestroy) : J (s.step plugin e) := by
  cases e with
  | arrival d a =>
    dsimp only [Stream.step]
    split_ifs with hnext
    · apply (hk d).receive hs a
      rintro bytes e rfl
      simp only [fits, Bool.and_eq_true] at hnext
      simpa [Unfinished] using hnext.2
    · exact hs
  | httpDone d =>
    dsimp only [Stream.step]
    split
    · rename_i w hwrapper
      split_ifs
      · exact (hk d).complete hs hwrapper
      · exact hs
    · exact hs
  | onDestroy => exact absurd rfl he

theorem run_kept {plugin : Plugin} {J : Stream H → Prop} {I : StreamDirection → StreamWrapper → Stream H → Prop}
    (hk : ∀ d, Kept plugin d J (I d)) (hdestroy : ∀ s, J s → J s.onDestroy) {s : Stream H}
    (hs : J s) (es : List (Event H)) :
    J (s.run plugin es) := by
  induction es generalizing s with
  | nil => exact hs
  | cons e es ih =>
    apply ih
    cases e with
    | onDestroy => exact hdestroy s hs
    | _ => exact step_kept hk hs (by simp)

/-! ## Responses from within -/

/-- A direction without responses. -/
def silent (d : StreamDirection) : FilterCallbacks H where
  direction := d
  respond _ _ _ := none

/-- What a direction leaves alone, the other direction apart. -/
structure Stream.Same (s t : Stream H) : Prop where
  self : t.self = s.self
  route : t.route = s.route
  destroyed : t.destroyed = s.destroyed
  routeConfig : t.routeConfig = s.routeConfig

omit [HeaderMap H] in
theorem Effect.silent_same {plugin : Plugin} {d : StreamDirection} {w w' : StreamWrapper} {s s' : Stream H}
    (h : Effect plugin (silent d) (w, s) (w', s')) : s.Same s' ∧ s'.request = s.request ∧
    s'.response = s.response := by
  cases h with
  | responded hrespond => cases hrespond
  | _ => exact ⟨⟨rfl, rfl, rfl, rfl⟩, rfl, rfl⟩

/-- An effect of a request is one without a response, or a response. -/
theorem Effect.decoder {plugin : Plugin} {w w' : StreamWrapper} {s s' : Stream H}
    (h : Effect plugin (filterCallbacks plugin .downstreamToUpstream) (w, s) (w', s')) :
    Effect plugin (silent .downstreamToUpstream) (w, s) (w', s') ∨
      w' = w ∧ ∃ headers bytes,
        (DecoderCallbacks plugin).respond { s with responded := true } headers bytes = some s' := by
  cases h with
  | responded hrespond => exact .inr ⟨rfl, _, _, hrespond⟩
  | wrapper hheaders => exact .inl (.wrapper hheaders)
  | globalCtx => exact .inl .globalCtx
  | error => exact .inl .error
  | raised => exact .inl .raised
  | enterV1 handler resumable buffer hversion => exact .inl (.enterV1 handler resumable buffer hversion)
  | enter handler resumable buffer => exact .inl (.enter handler resumable buffer)

theorem receive_headers (plugin : Plugin) (d : StreamDirection) (s : Stream H) (h : H) (e : Bool) :
    ((s.receive plugin d (.headers h e)).side d).pipe.headers = some h ∧
      ((s.receive plugin d (.headers h e)).side d).pipe.complete = e := by
  have hcases := receive_stream plugin (filterCallbacks plugin d) s (s.side d).pipe (.headers h e)
  unfold Stream.receive
  rw [Stream.store, Stream.side_setSide]
  exact hcases.2

/-- What the callbacks for a response keep, a response from within keeps. -/
theorem Kept.respond {plugin : Plugin} {J : Stream H → Prop} {I : StreamWrapper → Stream H → Prop}
    (hk : Kept plugin .upstreamToDownstream J I) {s t : Stream H} (hs : J s) {headers : H} {bytes : Option Bytes}
    (h : (DecoderCallbacks plugin).respond s headers bytes = some t) : J t := by
  have hfirst : J (s.passBy.receiveResponse plugin (.headers headers bytes.isNone)).passBy :=
    hk.passBy _ (hk.receive (hk.passBy s hs) _ (fun bytes e heq => by cases heq))
  dsimp only [DecoderCallbacks] at h
  cases bytes with
  | none =>
    cases h
    exact hfirst
  | some bytes =>
    dsimp only at h
    split_ifs at h
    · cases h
      exact hfirst
    · cases h
      apply hk.passBy
      apply hk.receive hfirst
      intro _ _ _
      obtain ⟨hheaders, hcomplete⟩ := receive_headers plugin .upstreamToDownstream s.passBy headers false
      exact ⟨Option.isSome_iff_exists.2 ⟨headers, hheaders⟩, hcomplete⟩

/-- A response leaves the request alone. -/
theorem respond_same {plugin : Plugin} {s t : Stream H} {headers : H} {bytes : Option Bytes}
    (h : (DecoderCallbacks plugin).respond s headers bytes = some t) : s.Same t ∧ t.request = s.request := by
  have hkept : Kept plugin .upstreamToDownstream (fun t => s.Same t ∧ t.request = s.request)
      (fun _ t => s.Same t ∧ t.request = s.request) :=
    { effect := by
        rintro w u w' u' he ⟨hsame, hrequest⟩
        obtain ⟨h, hrequest', -⟩ := Effect.silent_same he
        exact ⟨⟨h.self.trans hsame.self, h.route.trans hsame.route, h.destroyed.trans hsame.destroyed,
          h.routeConfig.trans hsame.routeConfig⟩, hrequest'.trans hrequest⟩
      side := fun w u w' u' he => (Effect.silent_same he).2.2
      load := fun w u hu _ => hu
      store := fun w u hu => ⟨⟨hu.1.self, hu.1.route, hu.1.destroyed, hu.1.routeConfig⟩, hu.2⟩
      gate := fun u hu => hu
      setHeaders := fun u hu => ⟨⟨hu.1.self, hu.1.route, hu.1.destroyed, hu.1.routeConfig⟩, hu.2⟩
      answered := fun u hu => ⟨⟨hu.1.self, hu.1.route, hu.1.destroyed, hu.1.routeConfig⟩, hu.2⟩
      passBy := fun u hu => ⟨⟨hu.1.self, hu.1.route, hu.1.destroyed, hu.1.routeConfig⟩, hu.2⟩
      create := fun e u hu _ => hu
      createData := fun e u hu _ _ _ _ => hu
      pipe := fun bytes u p hu _ => ⟨⟨hu.1.self, hu.1.route, hu.1.destroyed, hu.1.routeConfig⟩, hu.2⟩
      skipped := fun bytes u p hu _ => ⟨⟨hu.1.self, hu.1.route, hu.1.destroyed, hu.1.routeConfig⟩, hu.2⟩ }
  exact hkept.respond ⟨⟨rfl, rfl, rfl, rfl⟩, rfl⟩ h

/-- A call of a wrapper leaves its own side alone. -/
theorem Effect.same {plugin : Plugin} {d : StreamDirection} {w w' : StreamWrapper} {s s' : Stream H}
    (h : Effect plugin (filterCallbacks plugin d) (w, s) (w', s')) : s.Same s' ∧ s'.side d = s.side d := by
  cases d with
  | downstreamToUpstream =>
    rcases h.decoder with hsilent | ⟨-, headers, bytes, hrespond⟩
    · obtain ⟨hsame, hrequest, -⟩ := hsilent.silent_same
      exact ⟨hsame, hrequest⟩
    · obtain ⟨hsame, hrequest⟩ := respond_same hrespond
      exact ⟨⟨hsame.self, hsame.route, hsame.destroyed, hsame.routeConfig⟩, hrequest⟩
  | upstreamToDownstream =>
    obtain ⟨hsame, -, hresponse⟩ := Effect.silent_same h
    exact ⟨hsame, hresponse⟩

end EnvoyProxy.Rider
