import EnvoyProxy.Rider.BodyV2
/-!
# The end of an http call

Code goes on with the answer, and in version 2 the handler for the body runs
after it where the message has ended meanwhile. Then the message goes on, up
to that handler.
-/

namespace EnvoyProxy.Rider
open Json Http StreamWrapper

variable {H : Type} [HeaderMap H]

variable {plugin : Plugin} {d : StreamDirection}

omit [HeaderMap H] in
/-- Headers that are not the whole message do not matter. -/
theorem doHeaders_unreleased {p : Pipe H} (hp : ¬ Released p) : ¬ Released (p.doHeaders false) := by
  unfold Pipe.doHeaders
  cases p.headers with
  | none => exact hp
  | some h =>
    dsimp only
    split_ifs
    · exact hp
    · rintro ⟨x, hx, hends⟩
      rcases List.mem_append.1 hx with hx | hx
      · exact hp ⟨x, hx, hends⟩
      · cases List.mem_singleton.1 hx
        rcases hends with hbytes | hends
        · exact hbytes rfl
        · cases hends

/-- The iteration goes on, with the callback for data or without. -/
theorem continue_within {t : Stream H}
    (hdata : ∀ v e, Disturbed (doData plugin (filterCallbacks plugin d) v e t).2.2 ∨
      Turn d t (doData plugin (filterCallbacks plugin d) v e t).2.2) :
    let u := t.continueIteration plugin d
    Disturbed u ∨ Within d t u ∧ (t.side d).pipe.SameMessage (u.side d).pipe ∧
      (u.side d).received = (t.side d).received := by
  obtain ⟨hstream, hsame⟩ := resume_stream plugin (filterCallbacks plugin d) t (t.side d).pipe
  unfold Stream.continueIteration
  generalize (streamFilter plugin (filterCallbacks plugin d)).resume t (t.side d).pipe = r at hstream hsame ⊢
  obtain ⟨u, p⟩ := r
  have hturn : Disturbed u ∨ Turn d t u := by
    rcases hstream with rfl | ⟨v, e, rfl⟩
    · exact .inr (Entered.refl d u).turn
    · exact hdata v e
  rcases hturn with hdisturbed | hturn
  · exact .inl (disturbed_store hdisturbed _ _)
  · refine .inr ⟨hturn.store _ _, ?_⟩
    rw [Stream.store, Stream.side_setSide]
    exact ⟨hsame, (List.append_nil _).trans hturn.received⟩

/-- An error of the filter lets everything go. -/
theorem continue_failed {t : Stream H} (herror : t.error = true) : Disturbed (t.continueIteration plugin d) := by
  have hskip : ∀ v e, (doData plugin (filterCallbacks plugin d) v e t).2.2 = t := by
    intro v e
    unfold doData
    simp only [herror, Bool.true_or, if_true]
    cases plugin.version with
    | v1 =>
      dsimp only
      split <;> rfl
    | v2 => rfl
  obtain ⟨hstream, -⟩ := resume_stream plugin (filterCallbacks plugin d) t (t.side d).pipe
  have hsame : ((streamFilter plugin (filterCallbacks plugin d)).resume t (t.side d).pipe).1 = t := by
    rcases hstream with h | ⟨v, e, h⟩
    · exact h
    · exact h.trans (hskip v e)
  unfold Stream.continueIteration
  rw [← Prod.mk.eta (p := (streamFilter plugin (filterCallbacks plugin d)).resume t (t.side d).pipe), hsame]
  exact disturbed_store (.inl herror) _ _

/-- What is held goes on, up to the handler. -/
theorem continue_held (hversion : plugin.version = .v2) {t : Stream H} (herror : t.error = false)
    (hbody : plugin.onBody d = true)
    {w : StreamWrapper} (hwrapper : (t.side d).streamWrapper = some w) (hrunning : w.state = .Running)
    (hstart : w.startBody_ = false) (hside : Held (t.side d)) (hall : (t.side d).pipe.iteration = .StopAll)
    (htrailers : (t.side d).pipe.trailers = false)
    (hbuffered : (t.side d).pipe.complete = true → (t.side d).pipe.buffer ≠ none) :
    let u := t.continueIteration plugin d
    Disturbed u ∨ HadBody .body (u.side d) (u.own d) ∨ Held (u.side d) := by
  have hstate : (t.side d).state = .Running := by simp [Side.state, hwrapper, hrunning]
  have hreleased : ¬ Released { (t.side d).pipe with iteration := .Continue } := hside.released
  have hfirst := doHeaders_unreleased hreleased
  obtain ⟨hbuffer, -, hcomplete, -⟩ := doHeaders_fields { (t.side d).pipe with iteration := .Continue } false
  unfold Stream.continueIteration
  rcases Option.eq_none_or_eq_some (t.side d).pipe.buffer with hheld | ⟨bytes, hheld⟩
  · rw [resume_headers _ _ hall htrailers hheld]
    have hmore : (t.side d).pipe.complete = false := by
      rw [Bool.eq_false_iff]
      exact fun hend => hbuffered hend hheld
    have hmoreHeaders : { (t.side d).pipe with iteration := .Continue }.doHeaders (t.side d).pipe.complete =
        { (t.side d).pipe with iteration := .Continue }.doHeaders false := congrArg _ hmore
    refine .inr (.inr ?_)
    rw [hmoreHeaders, Stream.store, Stream.side_setSide]
    refine ⟨hfirst, ?_, hside.ready, ?_, ?_⟩
    · dsimp only
      rw [hbuffer, List.append_nil]
      exact hside.buffer
    · intro w' hw' hcall
      cases hwrapper.symm.trans hw'
      exact absurd (hrunning.symm.trans hcall) (by simp)
    · intro w' hw' h
      cases hwrapper.symm.trans hw'
      exact absurd (hstart.symm.trans h) (by simp)
  · rw [resume_frame _ _ hall htrailers hheld]
    dsimp only
    generalize { (t.side d).pipe with iteration := .Continue }.doHeaders false = p at hfirst hcomplete ⊢
    have hcall : (t.side d).state ≠ .HttpCall := by simp [hstate]
    have hanswered : (t.side d).state ≠ .Responded := by simp [hstate]
    have hdata := doDataV2_turn plugin d hversion herror hcall hanswered hside.ready ⟨none, some bytes⟩
    have hreceived : bytes = (t.side d).received := by
      rw [← hside.buffer, hheld]
      rfl
    have hcomplete : p.complete = (t.side d).pipe.complete := hcomplete
    dsimp only [streamFilter]
    generalize (t.side d).pipe.complete = complete at hcomplete ⊢
    cases complete with
    | true =>
      rcases hdata true with hdisturbed | ⟨hturn, hran⟩
      · exact .inl (disturbed_store hdisturbed _ _)
      · obtain ⟨e, he, hhandler, hentry⟩ := (hran hbody).1 rfl hstate
        refine .inr (.inl ⟨?_, e, ?_, hhandler, ?_⟩)
        · rw [Stream.store, Stream.side_setSide]
          exact (Pipe.afterData_same _ _ _ _).2.trans hcomplete
        · rwa [Stream.own_store]
        · rw [hentry, Stream.store, Stream.side_setSide]
          exact hreceived.trans ((List.append_nil _).trans hturn.received).symm
    | false =>
      rcases hdata false with hdisturbed | ⟨hturn, hran⟩
      · exact .inl (disturbed_store hdisturbed _ _)
      · have hreceived' := hturn.received
        have hleft := Stream.streamWrapper_setWrapper t d { w with endStream := false, sawBody := true }
        rw [(hran hbody).2 rfl, hwrapper, Option.getD_some] at hreceived' ⊢
        dsimp only
        rw [Stream.store, Stream.side_setSide]
        refine .inr (.inr ⟨hfirst, ?_, ?_, ?_, ?_⟩)
        · exact hreceived.trans ((List.append_nil _).trans hreceived').symm
        · intro w' hw' _
          cases hleft.symm.trans hw'
          exact hside.ready w hwrapper hrunning
        · intro w' hw' h
          cases hleft.symm.trans hw'
          exact absurd (hrunning.symm.trans h) (by simp)
        · intro w' hw' h
          cases hleft.symm.trans hw'
          exact absurd (hstart.symm.trans h) (by simp)

/-- A wrapper that waits for no http call only loses its request. -/
theorem complete_idle {s : Stream H} {w : StreamWrapper} (hw : w.state ≠ .HttpCall) :
    s.complete plugin d w = s.setWrapper d { w with httpRequest := false } := by
  have hdone : onSuccess plugin (filterCallbacks plugin d) (s.side d).pipe.buffer w s =
      ({ w with httpRequest := false }, s, false) := by
    unfold onSuccess
    exact if_neg hw
  unfold Stream.complete
  rw [hdone]
  rfl

variable (plugin) in
/-- Only a running wrapper continues. -/
theorem onSuccess_continues (callbacks : FilterCallbacks H) (buffer : Option Bytes)
    (w : StreamWrapper) (s : Stream H)
    (h : (onSuccess plugin callbacks buffer w s).2.2 = true) :
    (onSuccess plugin callbacks buffer w s).1.state = .Running := by
  unfold onSuccess at h ⊢
  dsimp only at h ⊢
  split_ifs at h ⊢ with hcall hrunning hstart
  · exact of_decide_eq_true h
  · exact hrunning

omit [HeaderMap H] in
/-- Another wrapper for what is held. -/
theorem Held.rewrap {s t : Stream H} (hside : Held (s.side d)) (ht : Turn d s t)
    (hready : ∀ w, (t.side d).streamWrapper = some w → w.state = .Running → w.status ≠ .Yielded)
    (hcalls : ∀ w, (t.side d).streamWrapper = some w → w.state = .HttpCall →
      ∃ w', (s.side d).streamWrapper = some w' ∧ w'.state = .HttpCall ∧ w.startBody_ = w'.startBody_)
    (hstarts : ∀ w, (t.side d).streamWrapper = some w → w.startBody_ = true →
      ∃ w', (s.side d).streamWrapper = some w' ∧ w'.startBody_ = true) : Held (t.side d) := by
  refine ⟨?_, ?_, hready, ?_, ?_⟩
  · rw [ht.pipe]
    exact hside.released
  · rw [ht.pipe, ht.received]
    exact hside.buffer
  · intro w hw hcall
    obtain ⟨w', hw', hcall', hstart⟩ := hcalls w hw hcall
    rw [ht.pipe, hstart]
    exact hside.calls w' hw' hcall'
  · intro w hw hstart
    obtain ⟨w', hw', hstart'⟩ := hstarts w hw hstart
    rw [ht.pipe]
    exact hside.starts w' hw' hstart'

/-- A running wrapper lets the message go. -/
theorem continueV2 (hversion : plugin.version = .v2) {t : Stream H} {w : StreamWrapper}
    (hwrapper : (t.side d).streamWrapper = some w)
    (hrunning : w.state = .Running) (hready : w.status ≠ .Yielded) :
    let u := t.continueIteration plugin d
    Disturbed u ∨ Within d t u ∧ (t.side d).pipe.SameMessage (u.side d).pipe ∧
      (u.side d).received = (t.side d).received := by
  by_cases herror : t.error = true
  · exact .inl (continue_failed herror)
  · have hstate : (t.side d).state = .Running := by simp [Side.state, hwrapper, hrunning]
    apply continue_within
    intro v e
    have hnext : ∀ w', (t.side d).streamWrapper = some w' → w'.state = .Running → w'.status ≠ .Yielded := by
      intro w' hw' _
      cases hwrapper.symm.trans hw'
      exact hready
    have hdata := doDataV2_turn plugin d hversion (Bool.eq_false_iff.2 herror) (by simp [hstate])
      (by simp [hstate]) hnext v e
    exact hdata.imp id And.left

variable (plugin d) in
/-- The end of an http call: its code, then the handler for the body if it has
been put off, and then the message goes on if nothing is awaited. -/
theorem complete_outcome (s : Stream H) {w : StreamWrapper} (hcall : w.state = .HttpCall) :
    Disturbed (s.complete plugin d w) ∨ ∃ state u w', (plugin.script s.entered.length).outcome H d w = some state ∧
      Turn d s u ∧ (u.side d).streamWrapper = some w' ∧
      (state ≠ .Running → w' = w.answered.leave state ∧ s.complete plugin d w = u) ∧
      (state = .Running → w.startBody_ = false →
        w' = w.answered.leave .Running ∧ s.complete plugin d w = u.continueIteration plugin d) ∧
      (state = .Running → w.startBody_ = true →
        (∃ e ∈ u.own d, e.handler = .body ∧ e.bufferedBody = (s.side d).pipe.buffer) ∧
        (s.complete plugin d w = u ∨
          s.complete plugin d w = u.continueIteration plugin d ∧ w'.state = .Running ∧ w'.status ≠ .Yielded)) := by
  have hsuccess := onSuccess_outcome plugin d (s.side d).pipe.buffer hcall s
  have hcontinues := onSuccess_continues plugin (filterCallbacks plugin d) (s.side d).pipe.buffer w s
  have hcomplete : s.complete plugin d w =
      let r := onSuccess plugin (filterCallbacks plugin d) (s.side d).pipe.buffer w s
      if r.2.2 = true then (r.2.1.setWrapper d r.1).continueIteration plugin d else r.2.1.setWrapper d r.1 := rfl
  rw [hcomplete]
  generalize onSuccess plugin (filterCallbacks plugin d) (s.side d).pipe.buffer w s = r at hsuccess hcontinues ⊢
  obtain ⟨w', t, continues⟩ := r
  dsimp only at hsuccess hcontinues ⊢
  rcases hsuccess with hfailed | hresponded | ⟨hentered, state, houtcome, -, hwaits, hgoes, hstarts⟩
  · left
    cases continues with
    | true =>
      apply continue_failed
      rw [Stream.setWrapper, Stream.error_setSide]
      exact hfailed
    | false => exact disturbed_setWrapper (.inl hfailed)
  · left
    cases continues with
    | true => exact absurd ((hcontinues rfl).symm.trans hresponded) (by simp)
    | false => exact disturbed_setWrapper (.inr hresponded)
  · refine .inr ⟨state, t.setWrapper d w', w', houtcome, hentered.setWrapper w',
      Stream.streamWrapper_setWrapper t d w', ?_, ?_, ?_⟩
    · intro hstate
      obtain ⟨hw', rfl⟩ := hwaits hstate
      exact ⟨hw', rfl⟩
    · intro hstate hstart
      obtain ⟨hw', rfl⟩ := hgoes hstate hstart
      exact ⟨hw', rfl⟩
    · intro hstate hstart
      obtain ⟨hran, hready⟩ := hstarts hstate hstart
      rw [Stream.own_setWrapper]
      refine ⟨hran, ?_⟩
      cases continues with
      | true => exact .inr ⟨rfl, hready rfl⟩
      | false => exact .inl rfl

theorem completeV2 (hversion : plugin.version = .v2) {s : Stream H} {w : StreamWrapper}
    (hwrapper : (s.side d).streamWrapper = some w)
    (hbegun : BegunV2 plugin d s)
    (hbypass : ¬ ((s.side d).pipe.trailers = true ∧ w.state = .HttpCall ∧ plugin.onBody d = true ∧
      (plugin.script s.entered.length).outcome H d w = some .Running)) :
    let t := s.complete plugin d w
    Disturbed t ∨ Within d s t ∧ (s.side d).pipe.SameMessage (t.side d).pipe ∧ BegunV2 plugin d t := by
  by_cases hcall : w.state = .HttpCall
  · rcases complete_outcome plugin d s hcall with
      hdisturbed | ⟨state, u, w', houtcome, hturn, hleft, hwaits, hgoes, hstarts⟩
    · exact .inl hdisturbed
    · have hsame : (s.side d).pipe.SameMessage (u.side d).pipe := by
        rw [hturn.pipe]
        exact ⟨rfl, rfl⟩
      have hmono : HadBody .body (s.side d) (s.own d) → HadBody .body (u.side d) (u.own d) :=
        fun h => h.mono hturn.toWithin hsame.2 hturn.received
      by_cases hrunning : state = .Running
      · cases hstart : w.startBody_ with
        | true =>
          obtain ⟨⟨e, he, hhandler, hbuffer⟩, hgo⟩ := hstarts hrunning hstart
          have hhad : plugin.onBody d = true → HadBody .body (u.side d) (u.own d) := by
            intro honBody
            rcases hbegun honBody with hhad | hside
            · exact hmono hhad
            · refine ⟨hsame.2.trans (hside.starts w hwrapper hstart), e, he, hhandler, ?_⟩
              rw [hbuffer, hturn.received]
              exact hside.buffer
          rcases hgo with hstop | ⟨hgo, hstill, hnext⟩
          · rw [hstop]
            exact .inr ⟨hturn.toWithin, hsame, fun honBody => .inl (hhad honBody)⟩
          · rw [hgo]
            rcases continueV2 hversion hleft hstill hnext with hdisturbed | ⟨hwithin, hpipe, hreceived⟩
            · exact .inl hdisturbed
            · refine .inr ⟨hturn.toWithin.trans hwithin, hsame.trans hpipe, fun honBody => .inl ?_⟩
              exact (hhad honBody).mono hwithin hpipe.2 hreceived
        | false =>
          obtain ⟨rfl, hgo⟩ := hgoes hrunning hstart
          rw [hgo]
          rcases continueV2 hversion hleft rfl (by rintro ⟨⟩) with hdisturbed | ⟨hwithin, hpipe, hreceived⟩
          · exact .inl hdisturbed
          · by_cases herror : u.error = true
            · exact .inl (continue_failed herror)
            · have hwhole : Within d s (u.continueIteration plugin d) ∧
                  (s.side d).pipe.SameMessage ((u.continueIteration plugin d).side d).pipe :=
                ⟨hturn.toWithin.trans hwithin, hsame.trans hpipe⟩
              by_cases hbody : plugin.onBody d = true
              · rcases hbegun hbody with hhad | hside
                · exact .inr ⟨hwhole.1, hwhole.2, fun _ => .inl ((hmono hhad).mono hwithin hpipe.2 hreceived)⟩
                · obtain ⟨hall, hput⟩ := hside.calls w hwrapper hcall
                  have htrailers : (s.side d).pipe.trailers = false := by
                    rw [Bool.eq_false_iff]
                    exact fun h => hbypass ⟨h, hcall, hbody, hrunning ▸ houtcome⟩
                  have hheld : Held (u.side d) := by
                    apply hside.rewrap hturn
                    · intro w' hw' _
                      cases hleft.symm.trans hw'
                      rintro ⟨⟩
                    · intro w' hw' h
                      cases hleft.symm.trans hw'
                      cases h
                    · intro w' hw' h
                      cases hleft.symm.trans hw'
                      exact absurd (hstart.symm.trans h) (by simp)
                  rw [← hturn.pipe] at hall hput htrailers
                  have hnever : (u.side d).pipe.complete = true → (u.side d).pipe.buffer ≠ none :=
                    fun hend hnone => absurd (hstart.symm.trans (hput hend htrailers hnone)) (by simp)
                  rcases continue_held hversion (Bool.eq_false_iff.2 herror) hbody hleft rfl hstart
                    hheld hall htrailers hnever with
                    hdisturbed | hfinal
                  · exact .inl hdisturbed
                  · exact .inr ⟨hwhole.1, hwhole.2, fun _ => hfinal⟩
              · exact .inr ⟨hwhole.1, hwhole.2, fun h => absurd h hbody⟩
      · obtain ⟨rfl, hstop⟩ := hwaits hrunning
        have hstate : (w.answered.leave state).state = state := leave_state rfl state
        have hstart : (w.answered.leave state).startBody_ = w.startBody_ := leave_startBody_ _ _
        rw [hstop]
        refine .inr ⟨hturn.toWithin, hsame, fun honBody => ?_⟩
        rcases hbegun honBody with hhad | hside
        · exact .inl (hmono hhad)
        · right
          apply hside.rewrap hturn
          · intro w' hw' h
            cases hleft.symm.trans hw'
            exact absurd (hstate.symm.trans h) hrunning
          · intro w' hw' h
            cases hleft.symm.trans hw'
            exact ⟨w, hwrapper, hcall, hstart⟩
          · intro w' hw' h
            cases hleft.symm.trans hw'
            exact ⟨w, hwrapper, hstart.symm.trans h⟩
  · rw [complete_idle hcall]
    have hturn := (Entered.refl d s).setWrapper { w with httpRequest := false }
    have hleft := Stream.streamWrapper_setWrapper s d { w with httpRequest := false }
    refine .inr ⟨hturn.toWithin, ⟨?_, ?_⟩, fun honBody => ?_⟩
    · rw [hturn.pipe]
    · rw [hturn.pipe]
    · rcases hbegun honBody with hhad | hside
      · exact .inl (hhad.mono hturn.toWithin (by rw [hturn.pipe]) hturn.received)
      · right
        apply hside.rewrap hturn
        · intro w' hw'
          cases hleft.symm.trans hw'
          exact hside.ready w hwrapper
        · intro w' hw' h
          cases hleft.symm.trans hw'
          exact absurd h hcall
        · intro w' hw' h
          cases hleft.symm.trans hw'
          exact ⟨w, hwrapper, h⟩

end EnvoyProxy.Rider
