import EnvoyProxy.Redis.AsyncClient
/-!
# What the client's functions leave alone

`Same`: nothing that has to do with connecting is different, only commands and
their callbacks. `Dropped`: the client has let go of its context, and so that
context does not know it any more. A callback from a context that does not
know the client does nothing.
-/

namespace EnvoyProxy.Redis
namespace Worker

/-! ## What steps leave alone -/

section
variable (w : Worker) (i k : Nat) (c : Context)

theorem setContext_contexts : (w.setContext i c).contexts k = if k = i then c else w.contexts k := Function.update_apply w.contexts i c k

@[simp] theorem setContext_client : (w.setContext i c).client = w.client := rfl
@[simp] theorem setContext_armed : (w.setContext i c).armed = w.armed := rfl
@[simp] theorem setContext_alive : (w.setContext i c).alive = w.alive := rfl
@[simp] theorem setContext_authRefused : (w.setContext i c).authRefused = w.authRefused := rfl
@[simp] theorem setContext_exceeded : (w.setContext i c).exceeded = w.exceeded := rfl

end

/-- Nothing that has to do with reconnecting is different. -/
structure Same (w w' : Worker) : Prop where
  redisAsyncContext : w'.client.redisAsyncContext = w.client.redisAsyncContext
  shouldReconnect : w'.client.shouldReconnect = w.client.shouldReconnect
  tryReconnecting : w'.client.tryReconnecting = w.client.tryReconnecting
  armed : w'.armed = w.armed
  alive : w'.alive = w.alive
  authRefused : w'.authRefused = w.authRefused
  exceeded : w'.exceeded = w.exceeded
  data : ∀ k, (w'.contexts k).data = (w.contexts k).data
  phase : ∀ k, (w'.contexts k).phase = (w.contexts k).phase

theorem Same.refl (w : Worker) : Same w w := ⟨rfl, rfl, rfl, rfl, rfl, rfl, rfl, fun _ => rfl, fun _ => rfl⟩

theorem Same.trans {w w' w'' : Worker} (h : Same w w') (h' : Same w' w'') : Same w w'' where
  redisAsyncContext := h'.redisAsyncContext.trans h.redisAsyncContext
  shouldReconnect := h'.shouldReconnect.trans h.shouldReconnect
  tryReconnecting := h'.tryReconnecting.trans h.tryReconnecting
  armed := h'.armed.trans h.armed
  alive := h'.alive.trans h.alive
  authRefused := h'.authRefused.trans h.authRefused
  exceeded := h'.exceeded.trans h.exceeded
  data k := (h'.data k).trans (h.data k)
  phase k := (h'.phase k).trans (h.phase k)

theorem same_setContext (w : Worker) (i : Nat) (c : Context) (hdata : c.data = (w.contexts i).data)
    (hphase : c.phase = (w.contexts i).phase) :
    Same w (w.setContext i c) := by
  refine ⟨rfl, rfl, rfl, rfl, rfl, rfl, rfl, fun k => ?_, fun k => ?_⟩
  all_goals
    rw [setContext_contexts]
    split_ifs with hk
  · rw [hk, hdata]
  · rfl
  · rw [hk, hphase]
  · rfl

theorem same_redisAsyncCommand (w : Worker) (i : Nat) (command : Command) (accepted : Bool) :
    Same w (w.redisAsyncCommand i command accepted) := by
  unfold redisAsyncCommand
  split_ifs
  · exact same_setContext w i _ rfl rfl
  · exact .refl w

theorem same_commandCb (w : Worker) (i : Nat) (id : UInt64) (reply : Option Bytes) :
    Same w (w.commandCb i id reply) := by
  unfold commandCb
  split_ifs
  · exact .refl w
  · split
    · exact .refl w
    · exact ⟨rfl, rfl, rfl, rfl, rfl, rfl, rfl, fun _ => rfl, fun _ => rfl⟩

theorem same_get (w : Worker) (accepted : Bool) : Same w (w.get accepted) := by
  unfold get
  split
  · exact .refl w
  · split_ifs
    · exact .refl w
    · refine .trans ?_ (same_redisAsyncCommand _ _ _ _)
      exact ⟨rfl, rfl, rfl, rfl, rfl, rfl, rfl, fun _ => rfl, fun _ => rfl⟩

theorem same_set (w : Worker) (expireMs : UInt64) (accepted : Bool) : Same w (w.set expireMs accepted) := by
  unfold set
  split
  · exact .refl w
  · split_ifs
    · exact .refl w
    · exact same_redisAsyncCommand w _ _ _

theorem same_del (w : Worker) (accepted : Bool) : Same w (w.del accepted) := by
  unfold del
  split
  · exact .refl w
  · split_ifs
    · exact .refl w
    · exact same_redisAsyncCommand w _ _ _

theorem same_command (w : Worker) {w' : Worker} (h : Same w w') : Same w (if w.alive then w' else w) := by
  split_ifs
  · exact h
  · exact .refl w

theorem same_lookupCache (w : Worker) (accepted : Bool) : Same w (w.lookupCache accepted) := by
  unfold lookupCache
  split_ifs
  · exact .refl w
  · exact same_get w accepted

theorem setContext_data {w : Worker} {i : Nat} {c : Context} (hc : c.data = (w.contexts i).data) (k : Nat) :
    ((w.setContext i c).contexts k).data = (w.contexts k).data := by
  rw [setContext_contexts]
  split_ifs with hk
  · rw [hc, hk]
  · rfl

/-! ## Letting go of the context -/

theorem drain_same (w : Worker) : Same w w.drain := ⟨rfl, rfl, rfl, rfl, rfl, rfl, rfl, fun _ => rfl, fun _ => rfl⟩

/-- What letting go of the context does, and what else it may do. -/
structure Dropped (w w' : Worker) : Prop where
  redisAsyncContext : w'.client.redisAsyncContext = none
  shouldReconnect : w'.client.shouldReconnect = w.client.shouldReconnect
  tryReconnecting : w'.client.tryReconnecting = w.client.tryReconnecting
  armed : w'.armed = w.armed
  alive : w'.alive = w.alive
  authRefused : w'.authRefused = w.authRefused
  exceeded : w'.exceeded = w.exceeded
  data : ∀ k, (w'.contexts k).data = true → (w.contexts k).data = true ∧ w.client.redisAsyncContext ≠ some k

theorem dropped_dropContext (w : Worker) : Dropped w w.dropContext := by
  unfold dropContext
  split
  · next hnone => exact ⟨hnone, rfl, rfl, rfl, rfl, rfl, rfl, fun k hk => ⟨hk, by simp [hnone]⟩⟩
  · next i hi =>
    refine ⟨rfl, rfl, rfl, rfl, rfl, rfl, rfl, fun k hk => ?_⟩
    have hcontexts := setContext_contexts w i k { w.contexts i with data := false }
    by_cases hki : k = i
    · rw [if_pos hki] at hcontexts
      cases (congrArg Context.data hcontexts).symm.trans hk
    · rw [if_neg hki] at hcontexts
      refine ⟨(congrArg Context.data hcontexts).symm.trans hk, ?_⟩
      rw [hi]
      exact fun h => hki (Option.some.inj h).symm

theorem Dropped.trans_same {w w' w'' : Worker} (h : Dropped w w') (h' : Same w' w'') : Dropped w w'' where
  redisAsyncContext := h'.redisAsyncContext.trans h.redisAsyncContext
  shouldReconnect := h'.shouldReconnect.trans h.shouldReconnect
  tryReconnecting := h'.tryReconnecting.trans h.tryReconnecting
  armed := h'.armed.trans h.armed
  alive := h'.alive.trans h.alive
  authRefused := h'.authRefused.trans h.authRefused
  exceeded := h'.exceeded.trans h.exceeded
  data k hk := h.data k ((h'.data k).symm.trans hk)

theorem Same.trans_dropped {w w' w'' : Worker} (h : Same w w') (h' : Dropped w' w'') : Dropped w w'' where
  redisAsyncContext := h'.redisAsyncContext
  shouldReconnect := h'.shouldReconnect.trans h.shouldReconnect
  tryReconnecting := h'.tryReconnecting.trans h.tryReconnecting
  armed := h'.armed.trans h.armed
  alive := h'.alive.trans h.alive
  authRefused := h'.authRefused.trans h.authRefused
  exceeded := h'.exceeded.trans h.exceeded
  data k hk := by
    obtain ⟨hdata, hptr⟩ := h'.data k hk
    exact ⟨(h.data k).symm.trans hdata, h.redisAsyncContext ▸ hptr⟩

theorem redisAsyncFree_data (w : Worker) (i k : Nat) :
    ((w.redisAsyncFree i).contexts k).data = (w.contexts k).data := by
  rw [redisAsyncFree, setContext_contexts]
  split_ifs with hk
  · rw [hk]
  · rfl

theorem Dropped.trans_free {w w' : Worker} (h : Dropped w w') (i : Nat) : Dropped w (w'.redisAsyncFree i) :=
  ⟨h.redisAsyncContext, h.shouldReconnect, h.tryReconnecting, h.armed, h.alive, h.authRefused, h.exceeded,
    fun k hk => h.data k ((redisAsyncFree_data w' i k).symm.trans hk)⟩

theorem same_status (w : Worker) (status : Status) :
    Same w { w with client := { w.client with clientStatus := status } } :=
  ⟨rfl, rfl, rfl, rfl, rfl, rfl, rfl, fun _ => rfl, fun _ => rfl⟩

theorem dropped_resetAsyncContext (w : Worker) (status : Status) : Dropped w (w.resetAsyncContext status) := by
  refine (same_status w status).trans_dropped ?_
  unfold resetAsyncContext
  dsimp only
  split
  · next hnone =>
    exact ⟨hnone, rfl, rfl, rfl, rfl, rfl, rfl, fun k hk => ⟨hk, fun h => by cases hnone.symm.trans h⟩⟩
  · next i hi =>
    have hdropped := dropped_dropContext { w with client := { w.client with clientStatus := status } }
    split_ifs
    · exact hdropped.trans_same (drain_same _)
    · exact (hdropped.trans_free i).trans_same (drain_same _)

theorem Dropped.not_data {w w' : Worker} (h : Dropped w w')
    (hdata : ∀ k, (w.contexts k).data = true → w.client.redisAsyncContext = some k)
    (k : Nat) : (w'.contexts k).data = false := by
  cases hk : (w'.contexts k).data with
  | false => rfl
  | true => exact absurd (hdata k (h.data k hk).1) (h.data k hk).2

theorem waitingToReconnect_contexts (w : Worker) : w.waitingToReconnect.contexts = w.contexts := by
  unfold waitingToReconnect
  dsimp only
  split_ifs <;> rfl

/-! ## Steps of the callbacks -/

theorem connectCb_idle {w : Worker} {i : Nat} (hdata : (w.contexts i).data = false)
    (ok accepted : Bool) : w.connectCb i ok accepted = w := by
  simp [connectCb, hdata]

theorem disconnectCb_idle {w : Worker} {i : Nat} (hdata : (w.contexts i).data = false) (ok : Bool) :
    w.disconnectCb i ok = w := by
  simp [disconnectCb, hdata]

theorem callback_idle {w : Worker} {i : Nat} (hdata : (w.contexts i).data = false)
    (reply : Option Bytes) (command : Command) :
    w.callback i reply command = w := by
  cases command <;> simp [callback, authenticateCb, commandCb, hdata]

theorem same_callback (w : Worker) (i : Nat) (reply : Option Bytes) {command : Command}
    (hcommand : command ≠ .auth) :
    Same w (w.callback i reply command) := by
  cases command with
  | auth => exact absurd rfl hcommand
  | get id call => exact same_commandCb w i id reply
  | other => exact .refl w

theorem callbacks_same (w : Worker) (i : Nat) {l : List Command} (hl : .auth ∉ l) :
    Same w (l.foldl (fun w command => w.callback i none command) w) := by
  induction l generalizing w with
  | nil => exact .refl w
  | cons command l ih =>
    obtain ⟨hcommand, hl⟩ := List.ne_and_not_mem_of_not_mem_cons hl
    exact (same_callback w i none hcommand.symm).trans (ih _ hl)

theorem callbacks_idle {w : Worker} {i : Nat} (hdata : (w.contexts i).data = false) (l : List Command) :
    l.foldl (fun w command => w.callback i none command) w = w := by
  induction l with
  | nil => rfl
  | cons command l ih =>
    rw [List.foldl_cons, callback_idle hdata]
    exact ih

/-! ## New contexts -/

theorem newContext_contexts (w : Worker) (data : Bool) (k : Nat) :
    (w.newContext data).contexts k = if k = w.created then { data, phase := .connecting } else w.contexts k :=
  setContext_contexts _ _ _ _

/-- When no context knew the client, only the new one does. -/
theorem newContext_data {w : Worker} (hdata : ∀ k, (w.contexts k).data = false) (data : Bool) (k : Nat)
    (hk : ((w.newContext data).contexts k).data = true) : (w.newContext data).client.redisAsyncContext = some k := by
  rw [newContext_contexts] at hk
  split_ifs at hk with hki
  · rw [hki]
    rfl
  · cases (hdata k).symm.trans hk

end Worker
end EnvoyProxy.Redis
