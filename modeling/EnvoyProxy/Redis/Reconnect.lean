import EnvoyProxy.Redis.Frame
/-!
# Never stuck

A client that may reconnect has a context that will call back, or a timer
that is running. This is kept by every step but two: a `connect` that fails
at once, and a connection that is lost before the reply to AUTH. After either
of them nothing happens any more. `unstuck_iff` says so of whole runs.
-/

namespace EnvoyProxy.Redis
namespace Worker

/-- The client's context will call back, or its timer is running. -/
def Unstuck (w : Worker) : Prop :=
  (∃ i, w.client.redisAsyncContext = some i ∧ (w.contexts i).data = true ∧
    ((w.contexts i).phase = .connecting ∨ (w.contexts i).phase = .connected)) ∨
  w.armed = true

/-- Steps that do not lose the connection for good. -/
def Survives (w : Worker) : Event → Prop
  | .timer attempt => w.armed = true → attempt.succeeds
  | .disconnected i _ => (w.contexts i).phase = .connected → (w.contexts i).data = true → .auth ∉ (w.contexts i).pending
  | _ => True

/-! ## Healthy, lost and retired -/

/-- The client has a context, or waits to make one. -/
structure Healthy (w : Worker) : Prop where
  alive : w.alive = true
  shouldReconnect : w.client.shouldReconnect = true
  /-- Only the client's own context knows it. -/
  data : ∀ k, (w.contexts k).data = true → w.client.redisAsyncContext = some k
  unstuck : (∃ i, w.client.redisAsyncContext = some i ∧ (w.contexts i).data = true ∧ w.armed = false ∧
      ((w.contexts i).phase = .connecting ∨ ((w.contexts i).phase = .connected ∧ w.client.tryReconnecting = false))) ∨
    (w.client.redisAsyncContext = none ∧ w.armed = true ∧ w.client.tryReconnecting = true)

/-- Nobody will call the client. -/
structure Lost (w : Worker) : Prop where
  redisAsyncContext : w.client.redisAsyncContext = none
  armed : w.armed = false
  data : ∀ k, (w.contexts k).data = false

/-- The client is not meant to reconnect any more. -/
def Retired (w : Worker) : Prop := w.alive = false ∨ w.authRefused = true ∨ w.exceeded = true

section Same
variable {w w' : Worker} (h : Same w w')
include h

theorem Same.healthy (hw : Healthy w) : Healthy w' := by
  refine ⟨h.alive.trans hw.alive, h.shouldReconnect.trans hw.shouldReconnect, fun k hk => ?_, ?_⟩
  · rw [h.redisAsyncContext]
    exact hw.data k ((h.data k).symm.trans hk)
  · rcases hw.unstuck with ⟨i, hi, hdata, harmed, hphase⟩ | ⟨hnone, harmed, htry⟩
    · refine .inl ⟨i, h.redisAsyncContext.trans hi, (h.data i).trans hdata, h.armed.trans harmed, ?_⟩
      rw [h.phase, h.tryReconnecting]
      exact hphase
    · exact .inr ⟨h.redisAsyncContext.trans hnone, h.armed.trans harmed, h.tryReconnecting.trans htry⟩

theorem Same.lost (hw : Lost w) : Lost w' :=
  ⟨h.redisAsyncContext.trans hw.redisAsyncContext, h.armed.trans hw.armed, fun k => (h.data k).trans (hw.data k)⟩

theorem Same.retired (hw : Retired w) : Retired w' := by
  unfold Retired
  rw [h.alive, h.authRefused, h.exceeded]
  exact hw

end Same

/-- Once the client has let go of its context and no timer is running, it is
lost. -/
theorem Dropped.lost {w w' : Worker} (h : Dropped w w')
    (hdata : ∀ k, (w.contexts k).data = true → w.client.redisAsyncContext = some k)
    (harmed : w.armed = false) : Lost w' := by
  refine ⟨h.redisAsyncContext, h.armed.trans harmed, fun k => ?_⟩
  cases hk : (w'.contexts k).data with
  | false => rfl
  | true =>
    obtain ⟨hold, hother⟩ := h.data k hk
    exact absurd (hdata k hold) hother

/-- A client that lets go of its context waits to make another, or has tried
too often. -/
theorem waiting_dropped {w w' : Worker} (h : Dropped w w') (halive : w.alive = true)
    (hshould : w.client.shouldReconnect = true)
    (hdata : ∀ k, (w.contexts k).data = true → w.client.redisAsyncContext = some k)
    (htry : w.client.tryReconnecting = false) :
    Healthy w'.waitingToReconnect ∨ Retired w'.waitingToReconnect := by
  have hnodata (k : Nat) (hk : (w'.contexts k).data = true) : w'.client.redisAsyncContext = some k :=
    absurd (hdata k (h.data k hk).1) (h.data k hk).2
  have htry' : ¬ w'.client.tryReconnecting = true := by simp [h.tryReconnecting, htry]
  have hshould' : w'.client.shouldReconnect = true := h.shouldReconnect.trans hshould
  unfold waitingToReconnect
  rw [if_neg htry', if_neg (by simp [hshould'])]
  dsimp only
  split_ifs
  · exact .inr (.inr (.inr rfl))
  · exact .inl ⟨h.alive.trans halive, hshould', hnodata, .inr ⟨h.redisAsyncContext, rfl, rfl⟩⟩

theorem resetAsyncContext_status (w : Worker) (newStatus : Status) :
    (w.resetAsyncContext newStatus).client.clientStatus = newStatus := by
  unfold resetAsyncContext dropContext
  dsimp only
  split
  · rfl
  · split_ifs <;> rfl

/-- A null reply to AUTH is the end. -/
theorem callbacks_completed {w : Worker} {i : Nat}
    (hdata : ∀ k, (w.contexts k).data = true → w.client.redisAsyncContext = some k)
    (hi : (w.contexts i).data = true) (harmed : w.armed = false) {l : List Command} (hl : .auth ∈ l) :
    Lost (l.foldl (fun w command => w.callback i none command) w) ∧
      (l.foldl (fun w command => w.callback i none command) w).client.clientStatus = .COMPLETED := by
  induction l generalizing w with
  | nil => cases hl
  | cons command l ih =>
    by_cases hcommand : command = .auth
    · subst hcommand
      have hlost : Lost (w.callback i none .auth) ∧ (w.callback i none .auth).client.clientStatus = .COMPLETED := by
        simp only [callback, authenticateCb, hi, Bool.not_true, Bool.false_eq_true, if_false]
        exact ⟨(dropped_resetAsyncContext _ _).lost hdata harmed, resetAsyncContext_status _ _⟩
      rw [List.foldl_cons, callbacks_idle (hlost.1.data i)]
      exact hlost
    · have hsame := same_callback w i none hcommand
      refine ih (fun k hk => ?_) ((hsame.data i).trans hi) (hsame.armed.trans harmed) ?_
      · exact hsame.redisAsyncContext.trans (hdata k ((hsame.data k).symm.trans hk))
      · exact (List.mem_cons.1 hl).resolve_left fun h => hcommand h.symm

theorem callbacks_lost {w : Worker} {i : Nat}
    (hdata : ∀ k, (w.contexts k).data = true → w.client.redisAsyncContext = some k)
    (hi : (w.contexts i).data = true) (harmed : w.armed = false) {l : List Command} (hl : .auth ∈ l) :
    Lost (l.foldl (fun w command => w.callback i none command) w) :=
  (callbacks_completed hdata hi harmed hl).1

/-! ## Steps -/

section
variable {w : Worker}

/-- The context of the client is the one that knows it. -/
theorem Healthy.context (hw : Healthy w) {i : Nat} (hi : (w.contexts i).data = true) :
    w.client.redisAsyncContext = some i ∧ w.armed = false ∧
      ((w.contexts i).phase = .connecting ∨
      ((w.contexts i).phase = .connected ∧ w.client.tryReconnecting = false)) := by
  have hptr := hw.data i hi
  rcases hw.unstuck with ⟨k, hk, -, harmed, hphase⟩ | ⟨hnone, -, -⟩
  · obtain rfl := Option.some.inj (hk.symm.trans hptr)
    exact ⟨hptr, harmed, hphase⟩
  · cases hnone.symm.trans hptr

/-- Contexts that do not know the client do not matter. -/
theorem Healthy.setContext (hw : Healthy w) {i : Nat} (hi : (w.contexts i).data = false)
    {c : Context} (hc : c.data = false) :
    Healthy (w.setContext i c) := by
  have hother {k : Nat} (hk : (w.contexts k).data = true) : (w.setContext i c).contexts k = w.contexts k := by
    have hne : k ≠ i := by
      rintro rfl
      cases hi.symm.trans hk
    rw [setContext_contexts, if_neg hne]
  refine ⟨hw.alive, hw.shouldReconnect, fun k hk => ?_, ?_⟩
  · rw [setContext_contexts] at hk
    split_ifs at hk
    · cases hc.symm.trans hk
    · exact hw.data k hk
  · rcases hw.unstuck with ⟨k, hk, hdata, harmed, hphase⟩ | hwaiting
    · refine .inl ⟨k, hk, ?_, harmed, ?_⟩
      · rw [hother hdata]
        exact hdata
      · rw [hother hdata]
        exact hphase
    · exact .inr hwaiting

theorem Retired.redisAsyncFree (hw : Retired w) (i : Nat) : Retired (w.redisAsyncFree i) := hw

theorem Lost.redisAsyncFree (hw : Lost w) (i : Nat) : Lost (w.redisAsyncFree i) :=
  ⟨hw.redisAsyncContext, hw.armed, fun k => (redisAsyncFree_data w i k).trans (hw.data k)⟩

theorem Lost.setContext (hw : Lost w) (i : Nat) {c : Context} (hc : c.data = false) : Lost (w.setContext i c) := by
  refine ⟨hw.redisAsyncContext, hw.armed, fun k => ?_⟩
  rw [setContext_contexts]
  split_ifs
  · exact hc
  · exact hw.data k

/-- The client with its flag cleared. -/
def stopTrying (w : Worker) : Worker := { w with client := { w.client with tryReconnecting := false } }

theorem same_stopTrying (w : Worker) (reconnectCount : UInt32) :
    Same w.stopTrying (if w.client.tryReconnecting then
      { w with client := { w.client with reconnectCount, tryReconnecting := false, reconnectEvent := false } } else w) := by
  split_ifs with htry
  · exact ⟨rfl, rfl, rfl, rfl, rfl, rfl, rfl, fun _ => rfl, fun _ => rfl⟩
  · exact ⟨rfl, rfl, by simpa [stopTrying] using htry, rfl, rfl, rfl, rfl, fun _ => rfl, fun _ => rfl⟩

theorem connectCb_ok {i : Nat} (hi : (w.contexts i).data = true) (accepted : Bool) : Same w.stopTrying (w.connectCb i true accepted) := by
  have hsame (w' : Worker) (h : Same w.stopTrying w') :
      Same w.stopTrying (if !w'.client.password.isEmpty then w'.authenticate accepted
        else { w' with client := { w'.client with clientStatus := .WORKING } }) := by
    split_ifs
    · refine h.trans ?_
      unfold authenticate
      split
      · exact .refl _
      · exact same_redisAsyncCommand _ _ _ _
    · exact h.trans (same_status _ _)
  unfold connectCb
  simp only [hi, Bool.not_true, Bool.false_eq_true, if_false, if_true]
  refine hsame _ (Same.trans ?_ (same_status _ .CONNECTED))
  exact same_stopTrying w 0

theorem connectCb_error {i : Nat} (hi : (w.contexts i).data = true) (accepted : Bool) :
    ∃ w', Dropped w.stopTrying w' ∧ w.connectCb i false accepted = w'.waitingToReconnect := by
  unfold connectCb
  simp only [hi, Bool.not_true, Bool.false_eq_true, if_false]
  refine ⟨_, ?_, rfl⟩
  refine Same.trans_dropped (Same.trans ?_ (same_status _ .NOT_INIT)) (dropped_dropContext _)
  exact same_stopTrying w w.client.reconnectCount

theorem healthy_connected (hw : Healthy w) (i : Nat) (ok accepted : Bool) :
    Healthy (w.step (.connected i ok accepted)) ∨ Retired (w.step (.connected i ok accepted)) := by
  unfold step
  dsimp only
  split_ifs with hphase hok
  · exact .inl hw
  · -- the connection is made
    left
    by_cases hi : (w.contexts i).data = true
    · obtain ⟨hptr, harmed, -⟩ := hw.context hi
      have hcontext : (w.setContext i { w.contexts i with phase := .connected }).contexts i =
        { w.contexts i with phase := .connected } := by
        rw [setContext_contexts, if_pos rfl]
      refine (connectCb_ok ((congrArg Context.data hcontext).trans hi) accepted).healthy ?_
      refine ⟨hw.alive, hw.shouldReconnect, fun k hk => ?_,
        .inl ⟨i, hptr, (congrArg Context.data hcontext).trans hi, harmed, .inr ⟨?_, rfl⟩⟩⟩
      · apply hw.data k
        by_cases hki : k = i
        · rw [hki]
          exact hi
        · simpa [stopTrying, setContext_contexts, hki] using hk
      · exact congrArg Context.phase hcontext
    · have hi' := Bool.eq_false_iff.2 hi
      rw [connectCb_idle]
      · exact hw.setContext hi' hi'
      · rw [setContext_contexts, if_pos rfl]
        exact hi'
  · -- it is not
    by_cases hi : (w.contexts i).data = true
    · obtain ⟨w', hdropped, heq⟩ := connectCb_error hi accepted
      rw [heq]
      have hnodata : ((w'.waitingToReconnect).contexts i).data = false := by
        rw [waitingToReconnect_contexts]
        exact hdropped.not_data hw.data i
      exact (waiting_dropped hdropped hw.alive hw.shouldReconnect hw.data rfl).imp
        (·.setContext hnodata hnodata) (·.redisAsyncFree i)
    · have hi' := Bool.eq_false_iff.2 hi
      rw [connectCb_idle hi']
      exact .inl (hw.setContext hi' hi')

theorem lost_connected (hw : Lost w) (i : Nat) (ok accepted : Bool) : Lost (w.step (.connected i ok accepted)) := by
  unfold step
  dsimp only
  split_ifs
  · exact hw
  · rw [connectCb_idle]
    · exact hw.setContext i (hw.data i)
    · rw [setContext_contexts, if_pos rfl]
      exact hw.data i
  · rw [connectCb_idle (hw.data i)]
    exact hw.redisAsyncFree i

theorem authenticateCb_text (w : Worker) (i : Nat) (str : Bytes) :
    Same w (w.authenticateCb i (some str)) ∨ Retired (w.authenticateCb i (some str)) := by
  unfold authenticateCb
  dsimp only
  split_ifs
  · exact .inl (.refl w)
  · exact .inl (same_status w .WORKING)
  · exact .inr (.inr (.inl (dropped_resetAsyncContext _ _).authRefused))

theorem same_deliver (w : Worker) (i : Nat) (command : Command) (reply : Option Bytes) :
    Same w (w.deliver i command reply) ∨ Retired (w.deliver i command reply) := by
  cases command with
  | auth =>
    cases reply with
    | none => exact .inl (.refl w)
    | some str => exact authenticateCb_text w i str
  | get id call =>
    cases reply with
    | none => exact .inl (same_commandCb w i id none)
    | some str =>
      refine .inl (Same.trans ?_ (same_commandCb _ i id (some str)))
      exact ⟨rfl, rfl, rfl, rfl, rfl, rfl, rfl, fun _ => rfl, fun _ => rfl⟩
  | other => cases reply <;> exact .inl (.refl w)

theorem same_replied (w : Worker) (i j : Nat) (reply : Option Bytes) :
    Same w (w.step (.replied i j reply)) ∨ Retired (w.step (.replied i j reply)) := by
  unfold step
  dsimp only
  split
  · exact (same_deliver _ i _ reply).imp_left (same_setContext w i ((w.contexts i).replied j) rfl rfl).trans
  · exact .inl (.refl w)

theorem healthy_disconnected (hw : Healthy w) (i : Nat) (errstr : Bytes)
    (hsurvives : w.Survives (.disconnected i errstr)) :
    Healthy (w.step (.disconnected i errstr)) ∨ Retired (w.step (.disconnected i errstr)) := by
  unfold step
  dsimp only
  split_ifs with hphase
  · exact .inl hw
  · unfold disconnect
    have hphase : (w.contexts i).phase = .connected := not_not.1 hphase
    set w₁ := w.setContext i ((w.contexts i).disconnect errstr)
    have hdata₁ (k : Nat) : (w₁.contexts k).data = (w.contexts k).data :=
      setContext_data (c := (w.contexts i).disconnect errstr) rfl k
    by_cases hi : (w.contexts i).data = true
    · obtain ⟨-, -, hconnected⟩ := hw.context hi
      have htry : w.client.tryReconnecting = false := (hconnected.resolve_left (by simp [hphase])).2
      have hsame := callbacks_same w₁ i (hsurvives hphase hi)
      set w₂ := (w.contexts i).pending.foldl (fun w command => w.callback i none command) w₁
      have hdata₂ (k : Nat) (hk : (w₂.contexts k).data = true) : w₂.client.redisAsyncContext = some k :=
        hsame.redisAsyncContext.trans (hw.data k ((hdata₁ k).symm.trans ((hsame.data k).symm.trans hk)))
      have hi₂ : (w₂.contexts i).data = true := (hsame.data i).trans ((hdata₁ i).trans hi)
      have hdropped : Dropped w₂ _ := (same_status w₂ .NOT_INIT).trans_dropped (dropped_dropContext _)
      have hcb : w₂.disconnectCb i false =
          { w₂ with client := { w₂.client with clientStatus := .NOT_INIT } }.dropContext.waitingToReconnect := by
        simp [disconnectCb, hi₂]
      show Healthy ((w₂.disconnectCb i false).redisAsyncFree i) ∨
        Retired ((w₂.disconnectCb i false).redisAsyncFree i)
      rw [hcb]
      refine (waiting_dropped hdropped (hsame.alive.trans hw.alive)
        (hsame.shouldReconnect.trans hw.shouldReconnect) hdata₂
        (hsame.tryReconnecting.trans htry)).imp (fun hhealthy => ?_) (·.redisAsyncFree i)
      have hnodata := hdropped.not_data hdata₂ i
      rw [← waitingToReconnect_contexts] at hnodata
      exact hhealthy.setContext hnodata hnodata
    · have hi₁ : (w₁.contexts i).data = false := (hdata₁ i).trans (Bool.eq_false_iff.2 hi)
      dsimp only
      rw [callbacks_idle hi₁, disconnectCb_idle hi₁]
      have hhealthy : Healthy w₁ := hw.setContext (Bool.eq_false_iff.2 hi) (Bool.eq_false_iff.2 hi)
      exact .inl (hhealthy.setContext hi₁ hi₁)

theorem lost_disconnected (hw : Lost w) (i : Nat) (errstr : Bytes) : Lost (w.step (.disconnected i errstr)) := by
  unfold step
  dsimp only
  split_ifs
  · exact hw
  · unfold disconnect
    have hlost := hw.setContext i (c := (w.contexts i).disconnect errstr) (hw.data i)
    dsimp only
    rw [callbacks_idle (hlost.data i), disconnectCb_idle (hlost.data i)]
    exact hlost.redisAsyncFree i

/-- A connection that is lost before the reply to AUTH. -/
theorem disconnected_lost (hw : Healthy w) (i : Nat) (errstr : Bytes)
    (hsurvives : ¬ w.Survives (.disconnected i errstr)) :
    Lost (w.step (.disconnected i errstr)) := by
  simp only [Survives, not_forall, not_not] at hsurvives
  obtain ⟨hphase, hi, hauth⟩ := hsurvives
  obtain ⟨-, harmed, -⟩ := hw.context hi
  unfold step
  dsimp only
  rw [if_neg (not_not.2 hphase)]
  unfold disconnect
  set w₁ := w.setContext i ((w.contexts i).disconnect errstr)
  have hdata₁ (k : Nat) : (w₁.contexts k).data = (w.contexts k).data :=
    setContext_data (c := (w.contexts i).disconnect errstr) rfl k
  have hlost := callbacks_lost (w := w₁) (fun k hk => hw.data k ((hdata₁ k).symm.trans hk))
    ((hdata₁ i).trans hi) harmed hauth
  dsimp only
  rw [disconnectCb_idle (hlost.data i)]
  exact hlost.redisAsyncFree i

/-! ## Connecting -/

/-- A context that nobody uses becomes the client's. -/
theorem healthy_connect (halive : w.alive = true) (hshould : w.client.shouldReconnect = true)
    (hdata : ∀ k, (w.contexts k).data = false)
    (harmed : w.armed = false) {attempt : Attempt} (hsucceeds : attempt.succeeds) : Healthy (w.connect attempt) := by
  obtain ⟨hcontext, hset, hset'⟩ := hsucceeds
  have hnew : (w.newContext true).contexts w.created = { data := true, phase := .connecting } := by
    rw [newContext_contexts, if_pos rfl]
  unfold connect
  simp only [hcontext, hset, hset', Bool.false_eq_true, if_false, Bool.not_true, Bool.or_self]
  refine ⟨halive, hshould, newContext_data hdata true, .inl ⟨w.created, rfl, ?_, harmed, .inl ?_⟩⟩
  · rw [hnew]
  · rw [hnew]

/-- A `connect` that fails at once. -/
theorem lost_connect (hdata : ∀ k, (w.contexts k).data = false) (harmed : w.armed = false)
    {attempt : Attempt} (hfails : ¬ attempt.succeeds) :
    Lost (w.connect attempt) := by
  unfold connect
  split
  · exact (dropped_resetAsyncContext _ _).lost (fun k hk => by cases (hdata k).symm.trans hk) harmed
  · next err hcontext =>
    dsimp only
    split_ifs with herr hset
    · exact (dropped_resetAsyncContext _ _).lost (newContext_data hdata false) harmed
    · exact (dropped_resetAsyncContext _ _).lost (newContext_data hdata true) harmed
    · exact absurd ⟨by simpa [hcontext] using herr, by simpa using hset⟩ hfails

/-! ## Retired clients -/

theorem Dropped.retired {w' : Worker} (h : Dropped w w') (hw : Retired w) : Retired w' := by
  unfold Retired
  rw [h.alive, h.authRefused, h.exceeded]
  exact hw

theorem retired_waitingToReconnect (hw : Retired w) : Retired w.waitingToReconnect := by
  unfold waitingToReconnect
  dsimp only
  split_ifs
  · exact hw
  · exact hw
  · exact .inr (.inr rfl)
  · exact hw

theorem retired_connectCb (hw : Retired w) (i : Nat) (ok accepted : Bool) : Retired (w.connectCb i ok accepted) := by
  by_cases hi : (w.contexts i).data = true
  · cases ok with
    | true => exact (connectCb_ok hi accepted).retired hw
    | false =>
      obtain ⟨w', hdropped, heq⟩ := connectCb_error hi accepted
      rw [heq]
      exact retired_waitingToReconnect (hdropped.retired hw)
  · rw [connectCb_idle (Bool.eq_false_iff.2 hi)]
    exact hw

theorem retired_disconnectCb (hw : Retired w) (i : Nat) : Retired (w.disconnectCb i false) := by
  unfold disconnectCb
  split_ifs
  · exact hw
  · exact retired_waitingToReconnect
      ((dropped_dropContext { w with client := { w.client with clientStatus := .NOT_INIT } }).retired hw)

theorem retired_callback (hw : Retired w) (i : Nat) (command : Command) : Retired (w.callback i none command) := by
  by_cases hcommand : command = .auth
  · subst hcommand
    simp only [callback, authenticateCb]
    split_ifs
    · exact hw
    · exact (dropped_resetAsyncContext
        { w with client := { w.client with shouldReconnect := false } } .COMPLETED).retired hw
  · exact (same_callback w i none hcommand).retired hw

theorem retired_callbacks (hw : Retired w) (i : Nat) (l : List Command) :
    Retired (l.foldl (fun w command => w.callback i none command) w) := by
  induction l generalizing w with
  | nil => exact hw
  | cons command l ih => exact ih (retired_callback hw i command)

theorem retired_connect (hw : Retired w) (attempt : Attempt) : Retired (w.connect attempt) := by
  unfold connect
  split
  · exact (dropped_resetAsyncContext
      { w with client := { w.client with redisAsyncContext := none } } .INIT_ERROR).retired hw
  · dsimp only
    split_ifs
    · exact (dropped_resetAsyncContext _ .INIT_ERROR).retired hw
    · exact (dropped_resetAsyncContext _ .INIT_ERROR).retired hw
    · exact hw

/-! ## Runs -/

/-- One step of a healthy client. -/
theorem healthy_step (hw : Healthy w) (e : Event) (hsurvives : w.Survives e) :
    Healthy (w.step e) ∨ Retired (w.step e) := by
  cases e with
  | connected i ok accepted => exact healthy_connected hw i ok accepted
  | replied i j reply => exact (same_replied w i j reply).imp_left (·.healthy hw)
  | disconnected i errstr => exact healthy_disconnected hw i errstr hsurvives
  | timer attempt =>
    unfold step
    dsimp only
    split_ifs with harmed
    · rcases hw.unstuck with ⟨i, -, -, hnot, -⟩ | ⟨hnone, -, -⟩
      · cases hnot.symm.trans harmed
      · refine .inl (healthy_connect (w := { w with armed := false }) hw.alive hw.shouldReconnect
          (fun k => ?_) rfl (hsurvives harmed))
        exact Bool.eq_false_iff.2 fun hk => by cases hnone.symm.trans (hw.data k hk)
    · exact .inl hw
  | lookupCache accepted => exact .inl ((same_command w (same_lookupCache w accepted)).healthy hw)
  | set expireMs accepted => exact .inl ((same_command w (same_set w expireMs accepted)).healthy hw)
  | del accepted => exact .inl ((same_command w (same_del w accepted)).healthy hw)
  | destroy =>
    unfold step
    dsimp only
    rw [if_pos hw.alive]
    exact .inr (.inl rfl)

/-- The two steps that lose the connection for good. -/
theorem lost_of_not_survives (hw : Healthy w) (e : Event) (hsurvives : ¬ w.Survives e) : Lost (w.step e) := by
  cases e with
  | disconnected i errstr => exact disconnected_lost hw i errstr hsurvives
  | timer attempt =>
    obtain ⟨harmed, hfails⟩ := Classical.not_imp.1 hsurvives
    unfold step
    dsimp only
    rw [if_pos harmed]
    rcases hw.unstuck with ⟨i, -, -, hnot, -⟩ | ⟨hnone, -, -⟩
    · cases hnot.symm.trans harmed
    · refine lost_connect (w := { w with armed := false }) (fun k => ?_) rfl hfails
      exact Bool.eq_false_iff.2 fun hk => by cases hnone.symm.trans (hw.data k hk)
  | connected | replied | lookupCache | set | del | destroy => exact absurd trivial hsurvives

theorem lost_step (hw : Lost w) (e : Event) : Lost (w.step e) ∨ Retired (w.step e) := by
  cases e with
  | connected i ok accepted => exact .inl (lost_connected hw i ok accepted)
  | replied i j reply => exact (same_replied w i j reply).imp_left (·.lost hw)
  | disconnected i errstr => exact .inl (lost_disconnected hw i errstr)
  | timer attempt =>
    left
    unfold step
    dsimp only
    rw [if_neg (by simp [hw.armed])]
    exact hw
  | lookupCache accepted => exact .inl ((same_command w (same_lookupCache w accepted)).lost hw)
  | set expireMs accepted => exact .inl ((same_command w (same_set w expireMs accepted)).lost hw)
  | del accepted => exact .inl ((same_command w (same_del w accepted)).lost hw)
  | destroy =>
    unfold step
    dsimp only
    split_ifs
    · exact .inr (.inl rfl)
    · exact .inl hw

/-- Once retired, always retired. -/
theorem retired_step (hw : Retired w) (e : Event) : Retired (w.step e) := by
  cases e with
  | connected i ok accepted =>
    unfold step
    dsimp only
    split_ifs
    · exact hw
    · exact retired_connectCb (w := w.setContext i { w.contexts i with phase := .connected }) hw i true accepted
    · exact (retired_connectCb hw i false accepted).redisAsyncFree i
  | replied i j reply =>
    rcases same_replied w i j reply with hsame | hretired
    · exact hsame.retired hw
    · exact hretired
  | disconnected i errstr =>
    unfold step
    dsimp only
    split_ifs
    · exact hw
    · exact (retired_disconnectCb
        (retired_callbacks (w := w.setContext i ((w.contexts i).disconnect errstr)) hw i _)
        i).redisAsyncFree i
  | timer attempt =>
    unfold step
    dsimp only
    split_ifs
    · exact retired_connect (w := { w with armed := false }) hw attempt
    · exact hw
  | lookupCache accepted => exact (same_command w (same_lookupCache w accepted)).retired hw
  | set expireMs accepted => exact (same_command w (same_set w expireMs accepted)).retired hw
  | del accepted => exact (same_command w (same_del w accepted)).retired hw
  | destroy =>
    unfold step
    dsimp only
    split_ifs
    · exact .inl rfl
    · exact hw

theorem lost_run (hw : Lost w) (es : List Event) : Lost (w.run es) ∨ Retired (w.run es) := by
  have hrun (es : List Event) (w : Worker) (h : Lost w ∨ Retired w) : Lost (w.run es) ∨ Retired (w.run es) := by
    induction es generalizing w with
    | nil => exact h
    | cons e es ih => exact ih (w.step e) (h.elim (fun h => lost_step h e) fun h => .inr (retired_step h e))
  exact hrun es w (.inl hw)

theorem retired_run (hw : Retired w) (es : List Event) : Retired (w.run es) := by
  induction es generalizing w with
  | nil => exact hw
  | cons e es ih => exact ih (retired_step hw e)

theorem Healthy.is_unstuck (hw : Healthy w) : Unstuck w := by
  rcases hw.unstuck with ⟨i, hi, hdata, -, hphase⟩ | ⟨-, harmed, -⟩
  · exact .inl ⟨i, hi, hdata, hphase.imp_right And.left⟩
  · exact .inr harmed

theorem Lost.not_unstuck (hw : Lost w) : ¬ Unstuck w := by
  rintro (⟨i, hi, -⟩ | harmed)
  · cases hw.redisAsyncContext.symm.trans hi
  · cases hw.armed.symm.trans harmed

/-- A run of a healthy client, along which it is not retired. -/
theorem unstuck_run (hw : Healthy w) (es : List Event) (hactive : ¬ Retired (w.run es)) :
    Unstuck (w.run es) ↔ EachStep step Survives w es := by
  induction es generalizing w with
  | nil => exact ⟨fun _ => trivial, fun _ => hw.is_unstuck⟩
  | cons e es ih =>
    by_cases hsurvives : w.Survives e
    · rcases healthy_step hw e hsurvives with hhealthy | hretired
      · exact (ih hhealthy hactive).trans ⟨fun h => ⟨hsurvives, h⟩, And.right⟩
      · exact absurd (retired_run hretired es) hactive
    · -- the connection is lost for good
      have hlost : Lost ((w.step e).run es) :=
        (lost_run (lost_of_not_survives hw e hsurvives) es).resolve_right hactive
      exact ⟨fun h => absurd h hlost.not_unstuck, fun h => absurd h.1 hsurvives⟩

end

end Worker

open Worker

/-- A client that may reconnect has a context that will call back or a timer
that is running, in every state that a run reaches, unless a `connect` failed
at once or a connection was lost before the reply to AUTH. -/
theorem unstuck_iff (password : Bytes) (maxReconnect : UInt32) (attempt : Attempt) (es : List Event) :
    let start := construct password true maxReconnect attempt
    (start.run es).alive = true → (start.run es).authRefused = false → (start.run es).exceeded = false →
      (Unstuck (start.run es) ↔ attempt.succeeds ∧ EachStep step Survives start es) := by
  intro start halive hauth hexceeded
  have hactive : ¬ Retired (start.run es) := by simp [Retired, halive, hauth, hexceeded]
  by_cases hsucceeds : attempt.succeeds
  · have hhealthy : Healthy start := healthy_connect rfl rfl (fun _ => rfl) rfl hsucceeds
    exact (unstuck_run hhealthy es hactive).trans ⟨fun h => ⟨hsucceeds, h⟩, And.right⟩
  · have hlost : Lost start := lost_connect (fun _ => rfl) rfl hsucceeds
    exact ⟨fun h => absurd h ((lost_run hlost es).resolve_right hactive).not_unstuck, fun h => absurd h.1 hsucceeds⟩

/-- A connection that is made, lost, and made again. -/
def reconnected : List Event :=
  [.connected 0 true true, .replied 0 0 (some (ascii "OK")), .lookupCache true, .disconnected 0 (ascii "reset"), .timer {}, .connected 1 true true]

theorem reconnected_unstuck :
    Unstuck ((construct (ascii "secret") true 3 {}).run reconnected) ↔
      ({} : Attempt).succeeds ∧ EachStep step Survives (construct (ascii "secret") true 3 {}) reconnected :=
  unstuck_iff (ascii "secret") 3 {} reconnected rfl rfl rfl

/-- The connection is lost before the reply to AUTH, or the second `connect`
fails at once: no context is left, and no timer is running. -/
theorem lost_stuck :
    (∃ w, w = (construct (ascii "secret") true 3 {}).run [.connected 0 true true, .disconnected 0 (ascii "reset")] ∧
      w.alive = true ∧ w.authRefused = false ∧ w.exceeded = false ∧ ¬ Unstuck w) ∧
    ∃ w, w = (construct [] true 3 {}).run [.connected 0 false true, .timer { context := some true }] ∧
      w.alive = true ∧ w.authRefused = false ∧ w.exceeded = false ∧ ¬ Unstuck w := by
  refine ⟨⟨_, rfl, rfl, rfl, rfl, ?_⟩, ⟨_, rfl, rfl, rfl, rfl, ?_⟩⟩
  · rintro (⟨i, hi, -⟩ | harmed)
    · cases hi
    · cases harmed
  · rintro (⟨i, hi, -⟩ | harmed)
    · cases hi
    · cases harmed

end EnvoyProxy.Redis
