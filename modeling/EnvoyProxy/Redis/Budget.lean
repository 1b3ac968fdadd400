import EnvoyProxy.Redis.Reconnect
/-!
# How often a client reconnects

`waitingToReconnect` compares the counter before it is incremented, and lets
an attempt pass when the counter is at the maximum. We count the calls of
`connect` that the timer makes since the last connection: they agree with the
counter of the client as long as it does not wrap.
-/

namespace EnvoyProxy.Redis

instance : DecidablePred Attempt.succeeds := fun _ => inferInstanceAs (Decidable (_ ∧ _ ∧ _))

namespace Worker

/-- The timer makes the client call `connect`. -/
def reconnects (w : Worker) : Event → Bool
  | .timer _ => w.armed
  | _ => false

/-- The client hears that it is connected. -/
def connects (w : Worker) : Event → Bool
  | .connected i ok _ => ok && decide ((w.contexts i).phase = .connecting) && (w.contexts i).data
  | _ => false

/-- The client cannot connect, at once or later, or hears that its connection
is lost. -/
def fails (w : Worker) : Event → Bool
  | .connected i ok _ => !ok && decide ((w.contexts i).phase = .connecting) && (w.contexts i).data
  | .disconnected i _ => decide ((w.contexts i).phase = .connected) && (w.contexts i).data
  | .timer attempt => w.armed && !decide attempt.succeeds
  | _ => false

/-- The attempts since the last connection, of which there were `n`. -/
def attemptsAfter (w : Worker) (n : Nat) (e : Event) : Nat :=
  if w.reconnects e then n + 1 else if w.connects e then 0 else n

end Worker

open Worker

/-- A worker, with what its client has tried. -/
structure Tally where
  worker : Worker
  /-- The attempts to reconnect since the last connection. -/
  attempts : Nat := 0
  /-- The client failed with no attempt left. -/
  usedUp : Bool := false

namespace Tally

def step (t : Tally) (e : Event) : Tally :=
  let attempts := t.worker.attemptsAfter t.attempts e
  { worker := t.worker.step e
    attempts
    usedUp := t.usedUp || t.worker.fails e && decide (t.worker.client.maxReconnectCount.toNat ≤ attempts) }

def start (password : Bytes) (reconnect : Bool) (maxReconnect : UInt32) (attempt : Attempt) : Tally where
  worker := construct password reconnect maxReconnect attempt
  usedUp := !decide attempt.succeeds && decide (maxReconnect = 0)

/-- With no attempt left, the client is done. -/
def Completed (t : Tally) : Prop := t.usedUp = true → t.worker.client.clientStatus = .COMPLETED

/-- A step keeps to the budget. -/
def Keeps (t : Tally) (e : Event) : Prop :=
  (t.step e).attempts ≤ t.worker.client.maxReconnectCount.toNat ∧ (t.step e).Completed ∧
    (t.usedUp = true → t.worker.reconnects e = false)

end Tally

namespace Worker

/-! ## The counter -/

/-- The counter and its maximum. -/
def budget (w : Worker) : UInt32 × UInt32 := (w.client.reconnectCount, w.client.maxReconnectCount)

section
variable (w : Worker)

@[simp] theorem budget_setContext (i : Nat) (c : Context) : (w.setContext i c).budget = w.budget := rfl

@[simp] theorem budget_redisAsyncFree (i : Nat) : (w.redisAsyncFree i).budget = w.budget := rfl

@[simp] theorem budget_drain : w.drain.budget = w.budget := rfl

@[simp] theorem budget_redisAsyncCommand (i : Nat) (command : Command) (accepted : Bool) :
    (w.redisAsyncCommand i command accepted).budget = w.budget := by
  unfold redisAsyncCommand
  split_ifs <;> rfl

@[simp] theorem budget_dropContext : w.dropContext.budget = w.budget := by
  unfold dropContext
  split <;> rfl

@[simp] theorem budget_resetAsyncContext (newStatus : Status) :
    (w.resetAsyncContext newStatus).budget = w.budget := by
  have hstatus : { w with client := { w.client with clientStatus := newStatus } }.budget = w.budget := rfl
  unfold resetAsyncContext
  dsimp only
  split
  · exact hstatus
  · split_ifs <;> simp [hstatus]

theorem budget_connect (attempt : Attempt) : (w.connect attempt).budget = w.budget := by
  unfold connect
  dsimp only
  split
  · exact budget_resetAsyncContext _ _
  · split_ifs
    · exact budget_resetAsyncContext _ _
    · exact budget_resetAsyncContext _ _
    · rfl

theorem budget_commandCb (i : Nat) (id : UInt64) (reply : Option Bytes) :
    (w.commandCb i id reply).budget = w.budget := by
  unfold commandCb
  split_ifs
  · rfl
  · split <;> rfl

theorem budget_authenticateCb (i : Nat) (reply : Option Bytes) : (w.authenticateCb i reply).budget = w.budget := by
  unfold authenticateCb
  split_ifs
  · rfl
  · split
    · split_ifs
      · rfl
      · exact budget_resetAsyncContext _ _
    · exact budget_resetAsyncContext _ _

theorem budget_callback (i : Nat) (reply : Option Bytes) (command : Command) :
    (w.callback i reply command).budget = w.budget := by
  cases command with
  | auth => exact budget_authenticateCb w i reply
  | get id call => exact budget_commandCb w i id reply
  | other => rfl

theorem budget_deliver (i : Nat) (command : Command) (reply : Option Bytes) :
    (w.deliver i command reply).budget = w.budget := by
  unfold deliver
  split
  · rfl
  · exact budget_callback _ _ _ _
  · exact budget_callback _ _ _ _

theorem budget_callbacks (i : Nat) (l : List Command) :
    (l.foldl (fun w command => w.callback i none command) w).budget = w.budget := by
  induction l generalizing w with
  | nil => rfl
  | cons command l ih => exact (ih _).trans (budget_callback w i none command)

theorem budget_get (accepted : Bool) : (w.get accepted).budget = w.budget := by
  unfold get
  split
  · rfl
  · split_ifs
    · rfl
    · exact budget_redisAsyncCommand _ _ _ _

theorem budget_lookupCache (accepted : Bool) : (w.lookupCache accepted).budget = w.budget := by
  unfold lookupCache
  split_ifs
  · rfl
  · exact budget_get w accepted

theorem budget_set (expireMs : UInt64) (accepted : Bool) : (w.set expireMs accepted).budget = w.budget := by
  unfold set
  split
  · rfl
  · split_ifs
    · rfl
    · exact budget_redisAsyncCommand _ _ _ _

theorem budget_del (accepted : Bool) : (w.del accepted).budget = w.budget := by
  unfold del
  split
  · rfl
  · split_ifs
    · rfl
    · exact budget_redisAsyncCommand _ _ _ _

end

/-! ## Where a client can be -/

/-- The client has no context, and none knows it. -/
structure Detached (w : Worker) : Prop where
  redisAsyncContext : w.client.redisAsyncContext = none
  data : ∀ k, (w.contexts k).data = false

/-- The client has a context, and `n` attempts behind it. The first context is
not one that the timer made, and the counter is still 0. -/
structure Holding (w : Worker) (n : Nat) : Prop where
  armed : w.armed = false
  data : ∀ k, (w.contexts k).data = true → w.client.redisAsyncContext = some k
  context : ∃ i, w.client.redisAsyncContext = some i ∧ (w.contexts i).data = true ∧
    ((w.contexts i).phase = .connecting ∧ (w.client.tryReconnecting = true ∨ w.client.reconnectCount = 0) ∨
      (w.contexts i).phase = .connected ∧ w.client.tryReconnecting = false)
  count : w.client.reconnectCount.toNat = n

/-- The timer will make the next attempt, which the counter counts already. -/
structure Scheduled (w : Worker) (n : Nat) : Prop where
  detached : Detached w
  armed : w.armed = true
  tryReconnecting : w.client.tryReconnecting = true
  reconnectEvent : w.client.reconnectEvent = true
  count : w.client.reconnectCount.toNat = n + 1

/-- No attempt beyond a limit. -/
def Tracked (limit : Nat) (w : Worker) (n : Nat) : Prop :=
  (Holding w n ∨ Scheduled w n) ∧ w.client.reconnectCount.toNat ≤ limit ∨ Lost w ∧ n ≤ limit

variable {w : Worker} {n : Nat}

theorem Lost.detached (hw : Lost w) : Detached w := ⟨hw.redisAsyncContext, hw.data⟩

theorem Detached.setContext (hw : Detached w) (i : Nat) {c : Context} (hc : c.data = false) :
    Detached (w.setContext i c) := by
  refine ⟨hw.redisAsyncContext, fun k => ?_⟩
  rw [setContext_contexts]
  split_ifs
  · exact hc
  · exact hw.data k

theorem Detached.redisAsyncFree (hw : Detached w) (i : Nat) : Detached (w.redisAsyncFree i) := hw.setContext i (hw.data i)

theorem deliver_idle {i : Nat} (hdata : (w.contexts i).data = false) (command : Command) (reply : Option Bytes) :
    (w.deliver i command reply).contexts = w.contexts ∧ (w.deliver i command reply).client = w.client ∧
      (w.deliver i command reply).armed = w.armed := by
  unfold deliver
  split
  · exact ⟨rfl, rfl, rfl⟩
  · next id call str =>
    rw [callback_idle (w := { w with delivered := w.delivered ++ [(call, str)] }) hdata]
    exact ⟨rfl, rfl, rfl⟩
  · rw [callback_idle hdata]
    exact ⟨rfl, rfl, rfl⟩

/-- Only its timer and its end mean something to a client without a context. -/
theorem detached_step (hw : Detached w) (e : Event) (htimer : ∀ attempt, e ≠ .timer attempt)
    (hdestroy : e ≠ .destroy) :
    Detached (w.step e) ∧ (w.step e).client = w.client ∧ (w.step e).armed = w.armed := by
  have hself : Detached w ∧ w.client = w.client ∧ w.armed = w.armed := ⟨hw, rfl, rfl⟩
  cases e with
  | connected i ok accepted =>
    unfold step
    dsimp only
    split_ifs
    · exact hself
    · have hset := hw.setContext i (c := { w.contexts i with phase := .connected }) (hw.data i)
      rw [connectCb_idle (hset.data i)]
      exact ⟨hset, rfl, rfl⟩
    · rw [connectCb_idle (hw.data i)]
      exact ⟨hw.redisAsyncFree i, rfl, rfl⟩
  | replied i j reply =>
    unfold step
    dsimp only
    split
    · next command _ _ =>
      have hset := hw.setContext i (c := (w.contexts i).replied j) (hw.data i)
      obtain ⟨hcontexts, hclient, harmed⟩ := deliver_idle (hset.data i) command reply
      refine ⟨⟨?_, fun k => ?_⟩, hclient, harmed⟩
      · rw [hclient]
        exact hset.redisAsyncContext
      · rw [hcontexts]
        exact hset.data k
    · exact hself
  | disconnected i errstr =>
    unfold step
    dsimp only
    split_ifs
    · exact hself
    · have hset := hw.setContext i (c := (w.contexts i).disconnect errstr) (hw.data i)
      unfold disconnect
      dsimp only
      rw [callbacks_idle (hset.data i), disconnectCb_idle (hset.data i)]
      exact ⟨hset.redisAsyncFree i, rfl, rfl⟩
  | timer attempt => exact absurd rfl (htimer attempt)
  | lookupCache accepted =>
    unfold step lookupCache get
    rw [hw.redisAsyncContext]
    dsimp only
    split_ifs <;> exact hself
  | set expireMs accepted =>
    unfold step set
    rw [hw.redisAsyncContext]
    dsimp only
    split_ifs <;> exact hself
  | del accepted =>
    unfold step del
    rw [hw.redisAsyncContext]
    dsimp only
    split_ifs <;> exact hself
  | destroy => exact absurd rfl hdestroy

/-! ## Failures -/

/-- After a failure the client will try again. -/
def GoesOn (w : Worker) (e : Event) : Prop :=
  w.Survives e ∧ w.client.shouldReconnect = true ∧ w.client.reconnectCount ≤ w.client.maxReconnectCount

theorem waiting_goesOn (hw : Detached w) (htry : w.client.tryReconnecting = false)
    (hshould : w.client.shouldReconnect = true)
    (hle : w.client.reconnectCount ≤ w.client.maxReconnectCount)
    (hroom : w.client.reconnectCount.toNat + 1 < 2 ^ 32) :
    Scheduled w.waitingToReconnect w.client.reconnectCount.toNat := by
  unfold waitingToReconnect
  rw [if_neg (by simp [htry]), if_neg (by simp [hshould])]
  dsimp only
  rw [if_neg (UInt32.not_lt.2 hle)]
  refine ⟨⟨hw.redisAsyncContext, hw.data⟩, rfl, rfl, rfl, ?_⟩
  show (w.client.reconnectCount + 1).toNat = _
  rw [UInt32.toNat_add]
  exact Nat.mod_eq_of_lt hroom

theorem waiting_ends (hw : Detached w) (harmed : w.armed = false) (htry : w.client.tryReconnecting = false)
    (hends : ¬ (w.client.shouldReconnect = true ∧ w.client.reconnectCount ≤ w.client.maxReconnectCount)) :
    Lost w.waitingToReconnect ∧ w.waitingToReconnect.client.clientStatus = .COMPLETED := by
  unfold waitingToReconnect
  rw [if_neg (by simp [htry])]
  split_ifs with hshould hover
  · exact ⟨⟨hw.redisAsyncContext, harmed, hw.data⟩, rfl⟩
  · exact ⟨⟨hw.redisAsyncContext, harmed, hw.data⟩, rfl⟩
  · exact absurd ⟨by simpa using hshould, UInt32.not_lt.1 hover⟩ hends

theorem Holding.context_of_data (hw : Holding w n) {i : Nat} (hi : (w.contexts i).data = true) :
    (w.contexts i).phase = .connecting ∧ (w.client.tryReconnecting = true ∨ w.client.reconnectCount = 0) ∨
      (w.contexts i).phase = .connected ∧ w.client.tryReconnecting = false := by
  obtain ⟨k, hk, -, hphase⟩ := hw.context
  obtain rfl := Option.some.inj (hk.symm.trans (hw.data i hi))
  exact hphase

/-- A connection that is refused, or lost after the reply to AUTH. -/
theorem holding_waits (hw : Holding w n) {e : Event} (hfails : w.fails e = true) (hsurvives : w.Survives e) :
    ∃ i w', w.step e = (waitingToReconnect w').redisAsyncFree i ∧ Detached w' ∧ w'.armed = false ∧
      w'.client.tryReconnecting = false ∧ w'.client.shouldReconnect = w.client.shouldReconnect ∧
      w'.budget = w.budget := by
  cases e with
  | connected i ok accepted =>
    obtain ⟨⟨hok, hphase⟩, hi⟩ : (ok = false ∧ (w.contexts i).phase = .connecting) ∧ (w.contexts i).data = true := by
      simpa [fails] using hfails
    subst hok
    refine ⟨i, _, by unfold step connectCb; simp only [hphase, hi, ne_eq, not_true_eq_false,
      Bool.not_true, Bool.false_eq_true, if_false]; rfl, ?_⟩
    set w₁ : Worker := if w.client.tryReconnecting then
      { w with client := { w.client with tryReconnecting := false, reconnectEvent := false } } else w
    have hsame : Same w.stopTrying w₁ := same_stopTrying w w.client.reconnectCount
    have hdropped := (hsame.trans (same_status _ .NOT_INIT)).trans_dropped (dropped_dropContext _)
    refine ⟨⟨hdropped.redisAsyncContext, hdropped.not_data hw.data⟩, hdropped.armed.trans hw.armed,
      hdropped.tryReconnecting,
      hdropped.shouldReconnect, ?_⟩
    rw [budget_dropContext]
    show w₁.budget = w.budget
    simp only [w₁]
    split_ifs <;> rfl
  | disconnected i errstr =>
    obtain ⟨hphase, hi⟩ : (w.contexts i).phase = .connected ∧ (w.contexts i).data = true :=
      by simpa [fails] using hfails
    have htry : w.client.tryReconnecting = false := ((hw.context_of_data hi).resolve_left (by simp [hphase])).2
    set w₁ := w.setContext i ((w.contexts i).disconnect errstr) with hw₁
    have hdata₁ (k : Nat) : (w₁.contexts k).data = (w.contexts k).data :=
      setContext_data (c := (w.contexts i).disconnect errstr) rfl k
    have hsame := callbacks_same w₁ i (hsurvives hphase hi)
    have hbudget := budget_callbacks w₁ i (w.contexts i).pending
    set w₂ := (w.contexts i).pending.foldl (fun w command => w.callback i none command) w₁ with hw₂
    have hi₂ : (w₂.contexts i).data = true := (hsame.data i).trans ((hdata₁ i).trans hi)
    have hdropped := hsame.trans_dropped ((same_status w₂ .NOT_INIT).trans_dropped (dropped_dropContext _))
    refine ⟨i, { w₂ with client := { w₂.client with clientStatus := .NOT_INIT } }.dropContext, ?_, ?_⟩
    · unfold step disconnect
      dsimp only
      rw [if_neg (not_not.2 hphase), ← hw₁, ← hw₂]
      simp [disconnectCb, hi₂]
    · refine ⟨⟨hdropped.redisAsyncContext, hdropped.not_data fun k hk => hw.data k ((hdata₁ k).symm.trans hk)⟩,
        hdropped.armed.trans hw.armed, hdropped.tryReconnecting.trans htry, hdropped.shouldReconnect, ?_⟩
      rw [budget_dropContext]
      exact hbudget
  | timer attempt => simp [fails, hw.armed] at hfails
  | replied | lookupCache | set | del | destroy => cases hfails

/-- A failure that the client does not hear from hiredis in vain: either an
attempt is scheduled, or the client is done. -/
theorem holding_goesOn (hw : Holding w n) {e : Event} (hfails : w.fails e = true) (hon : w.GoesOn e)
    (hroom : n + 1 < 2 ^ 32) :
    Scheduled (w.step e) n := by
  obtain ⟨i, w', hstep, hdetached, -, htry, hshould, hbudget⟩ := holding_waits hw hfails hon.1
  have hcount : w'.client.reconnectCount = w.client.reconnectCount := congrArg Prod.fst hbudget
  have hmax : w'.client.maxReconnectCount = w.client.maxReconnectCount := congrArg Prod.snd hbudget
  have hscheduled := waiting_goesOn hdetached htry (hshould.trans hon.2.1) (by rw [hcount, hmax]; exact hon.2.2)
    (by rw [hcount, hw.count]; exact hroom)
  rw [hcount, hw.count] at hscheduled
  rw [hstep]
  exact ⟨hscheduled.detached.redisAsyncFree i, hscheduled.armed, hscheduled.tryReconnecting,
    hscheduled.reconnectEvent, hscheduled.count⟩

theorem holding_ends (hw : Holding w n) {e : Event} (hfails : w.fails e = true) (hends : ¬ w.GoesOn e) :
    Lost (w.step e) ∧ (w.step e).client.clientStatus = .COMPLETED := by
  by_cases hsurvives : w.Survives e
  · obtain ⟨i, w', hstep, hdetached, harmed, htry, hshould, hbudget⟩ := holding_waits hw hfails hsurvives
    have hcount : w'.client.reconnectCount = w.client.reconnectCount := congrArg Prod.fst hbudget
    have hmax : w'.client.maxReconnectCount = w.client.maxReconnectCount := congrArg Prod.snd hbudget
    obtain ⟨hlost, hstatus⟩ := waiting_ends hdetached harmed htry (by
      rw [hshould, hcount, hmax]
      exact fun h => hends ⟨hsurvives, h⟩)
    rw [hstep]
    exact ⟨hlost.redisAsyncFree i, hstatus⟩
  · -- the null reply to AUTH comes first
    cases e with
    | disconnected i errstr =>
      simp only [Survives, not_forall, not_not] at hsurvives
      obtain ⟨hphase, hi, hauth⟩ := hsurvives
      set w₁ := w.setContext i ((w.contexts i).disconnect errstr) with hw₁
      have hdata₁ (k : Nat) : (w₁.contexts k).data = (w.contexts k).data :=
        setContext_data (c := (w.contexts i).disconnect errstr) rfl k
      obtain ⟨hlost, hstatus⟩ := callbacks_completed (w := w₁)
        (fun k hk => hw.data k ((hdata₁ k).symm.trans hk)) ((hdata₁ i).trans hi)
        hw.armed hauth
      unfold step disconnect
      dsimp only
      rw [if_neg (not_not.2 hphase), ← hw₁, disconnectCb_idle (hlost.data i)]
      exact ⟨hlost.redisAsyncFree i, hstatus⟩
    | timer attempt => simp [fails, hw.armed] at hfails
    | connected | replied | lookupCache | set | del | destroy => exact absurd trivial hsurvives

/-! ## Steps -/

theorem Same.holding {w' : Worker} (h : Same w w') (hbudget : w'.budget = w.budget)
    (hw : Holding w n) : Holding w' n := by
  have hcount : w'.client.reconnectCount = w.client.reconnectCount := congrArg Prod.fst hbudget
  obtain ⟨i, hi, hdata, hphase⟩ := hw.context
  refine ⟨h.armed.trans hw.armed, fun k hk => ?_, ⟨i, h.redisAsyncContext.trans hi, (h.data i).trans hdata, ?_⟩, ?_⟩
  · rw [h.redisAsyncContext]
    exact hw.data k ((h.data k).symm.trans hk)
  · rw [h.phase, h.tryReconnecting, hcount]
    exact hphase
  · rw [hcount]
    exact hw.count

/-- Contexts that do not know the client do not matter. -/
theorem Holding.setContext (hw : Holding w n) {i : Nat} (hi : (w.contexts i).data = false)
    {c : Context} (hc : c.data = false) :
    Holding (w.setContext i c) n := by
  obtain ⟨k, hk, hdata, hphase⟩ := hw.context
  have hne : k ≠ i := by
    rintro rfl
    cases hi.symm.trans hdata
  have hother : (w.setContext i c).contexts k = w.contexts k := by rw [setContext_contexts, if_neg hne]
  refine ⟨hw.armed, fun l hl => ?_, ⟨k, hk, ?_, ?_⟩, hw.count⟩
  · rw [setContext_contexts] at hl
    split_ifs at hl
    · cases hc.symm.trans hl
    · exact hw.data l hl
  · rw [hother]
    exact hdata
  · rw [hother]
    exact hphase

theorem budget_connectCb_true {i : Nat} (hi : (w.contexts i).data = true) (accepted : Bool) :
    (w.connectCb i true accepted).budget =
      (if w.client.tryReconnecting then 0 else w.client.reconnectCount, w.client.maxReconnectCount) := by
  have hauth (w' : Worker) : (w'.authenticate accepted).budget = w'.budget := by
    unfold authenticate
    split
    · rfl
    · exact budget_redisAsyncCommand _ _ _ _
  unfold connectCb
  simp only [hi, Bool.not_true, Bool.false_eq_true, if_false, if_true]
  split_ifs
  · exact hauth _
  · rfl
  · exact hauth _
  · rfl

/-- The client is connected. -/
theorem holding_connects (hw : Holding w n) {e : Event} (hconnects : w.connects e = true) :
    Holding (w.step e) 0 := by
  cases e with
  | connected i ok accepted =>
    obtain ⟨⟨hok, hphase⟩, hi⟩ : (ok = true ∧ (w.contexts i).phase = .connecting) ∧ (w.contexts i).data = true := by
      simpa [connects] using hconnects
    subst hok
    have hcount : w.client.tryReconnecting = true ∨ w.client.reconnectCount = 0 :=
      ((hw.context_of_data hi).resolve_right (by simp [hphase])).2
    set w₁ := w.setContext i { w.contexts i with phase := .connected } with hw₁
    have hcontext : w₁.contexts i = { w.contexts i with phase := .connected } :=
      by rw [hw₁, setContext_contexts, if_pos rfl]
    have hi₁ : (w₁.contexts i).data = true := (congrArg Context.data hcontext).trans hi
    have hsame := connectCb_ok hi₁ accepted
    have hstep : w.step (.connected i true accepted) = w₁.connectCb i true accepted := by
      unfold step
      simp only [hphase, ne_eq, not_true_eq_false, if_false, if_true]
      rfl
    have hzero : (w₁.connectCb i true accepted).client.reconnectCount = 0 := by
      refine (congrArg Prod.fst (budget_connectCb_true hi₁ accepted)).trans ?_
      show (if w.client.tryReconnecting then 0 else w.client.reconnectCount) = 0
      split_ifs with htry
      · rfl
      · exact hcount.resolve_left htry
    rw [hstep]
    refine ⟨hsame.armed.trans hw.armed, fun k hk => ?_,
      ⟨i, ?_, (hsame.data i).trans hi₁, .inr ⟨?_, hsame.tryReconnecting⟩⟩, ?_⟩
    · rw [hsame.redisAsyncContext]
      exact hw.data k ((setContext_data (c := { w.contexts i with phase := .connected }) rfl
        k).symm.trans ((hsame.data k).symm.trans hk))
    · exact hsame.redisAsyncContext.trans (hw.data i hi)
    · exact (hsame.phase i).trans (congrArg Context.phase hcontext)
    · rw [hzero]
      rfl
  | replied | disconnected | timer | lookupCache | set | del | destroy => cases hconnects

theorem connect_holding (hw : Detached w) (harmed : w.armed = false)
    (hfirst : w.client.tryReconnecting = true ∨ w.client.reconnectCount = 0)
    {attempt : Attempt} (hsucceeds : attempt.succeeds) :
    Holding (w.connect attempt) w.client.reconnectCount.toNat := by
  have hconnect : w.connect attempt = w.newContext true := by
    obtain ⟨hcontext, hset, hset'⟩ := hsucceeds
    unfold connect
    simp [hcontext, hset, hset']
  have hnew : (w.newContext true).contexts w.created = { data := true, phase := .connecting } := by
    rw [newContext_contexts, if_pos rfl]
  rw [hconnect]
  refine ⟨harmed, newContext_data hw.data true, ⟨w.created, rfl, ?_, .inl ⟨?_, hfirst⟩⟩, rfl⟩
  · rw [hnew]
  · rw [hnew]

theorem lost_destroy (hdata : ∀ k, (w.contexts k).data = true → w.client.redisAsyncContext = some k)
    (harmed : w.armed = false ∨ w.client.reconnectEvent = true) : Lost w.destroy := by
  have hdropped := dropped_resetAsyncContext w .COMPLETED
  have hevent : (w.resetAsyncContext .COMPLETED).client.reconnectEvent = w.client.reconnectEvent := by
    unfold resetAsyncContext dropContext
    dsimp only
    split
    · rfl
    · split_ifs <;> rfl
  refine ⟨hdropped.redisAsyncContext, ?_, hdropped.not_data hdata⟩
  show ((w.resetAsyncContext .COMPLETED).armed && !(w.resetAsyncContext .COMPLETED).client.reconnectEvent) = false
  rw [hdropped.armed, hevent]
  rcases harmed with harmed | hevent <;> simp [*]

/-- The reply to AUTH may be the end; another reply changes nothing. -/
theorem replied_cases (hdata : ∀ k, (w.contexts k).data = true → w.client.redisAsyncContext = some k)
    (harmed : w.armed = false) (i j : Nat) (reply : Option Bytes) :
    Same w (w.step (.replied i j reply)) ∧ (w.step (.replied i j reply)).budget = w.budget ∨
      Lost (w.step (.replied i j reply)) := by
  unfold step
  dsimp only
  split
  · next command _ _ =>
    set w₁ := w.setContext i ((w.contexts i).replied j) with hw₁
    have hsame₁ : Same w w₁ := same_setContext w i ((w.contexts i).replied j) rfl rfl
    by_cases hsame : Same w₁ (w₁.deliver i command reply)
    · exact .inl ⟨hsame₁.trans hsame, budget_deliver w₁ i command reply⟩
    · right
      have hdata₁ (k : Nat) (hk : (w₁.contexts k).data = true) : w₁.client.redisAsyncContext = some k :=
        hdata k ((hsame₁.data k).symm.trans hk)
      cases command with
      | auth =>
        cases reply with
        | none => exact absurd (.refl w₁) hsame
        | some str =>
          simp only [deliver, callback, authenticateCb] at hsame ⊢
          split_ifs at hsame ⊢
          · exact absurd (.refl w₁) hsame
          · exact absurd (same_status w₁ .WORKING) hsame
          · exact (dropped_resetAsyncContext _ _).lost hdata₁ harmed
      | get id call =>
        refine absurd ?_ hsame
        cases reply with
        | none => exact same_commandCb w₁ i id none
        | some str =>
          refine Same.trans ?_ (same_commandCb _ i id (some str))
          exact ⟨rfl, rfl, rfl, rfl, rfl, rfl, rfl, fun _ => rfl, fun _ => rfl⟩
      | other => cases reply <;> exact absurd (.refl w₁) hsame
  · exact .inl ⟨.refl w, rfl⟩

/-- What does not fail or connect leaves a client as it is, or ends it. -/
theorem holding_other (hw : Holding w n) {e : Event} (hfails : w.fails e = false)
    (hconnects : w.connects e = false) :
    Holding (w.step e) n ∨ Lost (w.step e) := by
  cases e with
  | connected i ok accepted =>
    left
    unfold step
    dsimp only
    by_cases hphase : (w.contexts i).phase = .connecting
    · have hi : (w.contexts i).data = false := by
        cases ok
        · simpa [fails, hphase] using hfails
        · simpa [connects, hphase] using hconnects
      rw [if_neg (not_not.2 hphase)]
      split_ifs
      · rw [connectCb_idle]
        · exact hw.setContext hi hi
        · rw [setContext_contexts, if_pos rfl]
          exact hi
      · rw [connectCb_idle hi]
        exact hw.setContext hi hi
    · rw [if_pos hphase]
      exact hw
  | replied i j reply =>
    exact (replied_cases hw.data hw.armed i j reply).imp_left fun h => h.1.holding h.2 hw
  | disconnected i errstr =>
    left
    unfold step
    dsimp only
    by_cases hphase : (w.contexts i).phase = .connected
    · have hi : (w.contexts i).data = false := by simpa [fails, hphase] using hfails
      rw [if_neg (not_not.2 hphase)]
      have hw₁ := hw.setContext hi (c := (w.contexts i).disconnect errstr) hi
      have hi₁ : ((w.setContext i ((w.contexts i).disconnect errstr)).contexts i).data = false := by
        rw [setContext_contexts, if_pos rfl]
        exact hi
      unfold disconnect
      dsimp only
      rw [callbacks_idle hi₁, disconnectCb_idle hi₁]
      exact hw₁.setContext hi₁ hi₁
    · rw [if_pos hphase]
      exact hw
  | timer attempt =>
    left
    unfold step
    dsimp only
    rw [if_neg (by simp [hw.armed])]
    exact hw
  | lookupCache accepted =>
    left
    refine (same_command w (same_lookupCache w accepted)).holding ?_ hw
    rw [apply_ite budget, budget_lookupCache, ite_self]
  | set expireMs accepted =>
    left
    refine (same_command w (same_set w expireMs accepted)).holding ?_ hw
    rw [apply_ite budget, budget_set, ite_self]
  | del accepted =>
    left
    refine (same_command w (same_del w accepted)).holding ?_ hw
    rw [apply_ite budget, budget_del, ite_self]
  | destroy =>
    unfold step
    dsimp only
    split_ifs
    · exact .inr (lost_destroy hw.data (.inl hw.armed))
    · exact .inl hw

/-- Nothing happens to a client that is lost. -/
theorem lost_kept (hw : Lost w) (e : Event) : Lost (w.step e) := by
  have hother (htimer : ∀ attempt, e ≠ .timer attempt) (hdestroy : e ≠ .destroy) : Lost (w.step e) := by
    obtain ⟨hdetached, -, harmed⟩ := detached_step hw.detached e htimer hdestroy
    exact ⟨hdetached.redisAsyncContext, harmed.trans hw.armed, hdetached.data⟩
  cases e with
  | timer attempt =>
    unfold step
    dsimp only
    rw [if_neg (by simp [hw.armed])]
    exact hw
  | destroy =>
    unfold step
    dsimp only
    split_ifs
    · exact lost_destroy (fun k hk => by cases (hw.data k).symm.trans hk) (.inl hw.armed)
    · exact hw
  | connected | replied | disconnected | lookupCache | set | del =>
    exact hother (fun _ h => by cases h) (fun h => by cases h)

theorem lost_status (hw : Lost w) (hstatus : w.client.clientStatus = .COMPLETED) (e : Event) :
    (w.step e).client.clientStatus = .COMPLETED := by
  have hother (htimer : ∀ attempt, e ≠ .timer attempt) (hdestroy : e ≠ .destroy) :
      (w.step e).client.clientStatus = .COMPLETED := by
    rw [(detached_step hw.detached e htimer hdestroy).2.1]
    exact hstatus
  cases e with
  | timer attempt =>
    unfold step
    dsimp only
    rw [if_neg (by simp [hw.armed])]
    exact hstatus
  | destroy =>
    unfold step
    dsimp only
    split_ifs
    · exact resetAsyncContext_status w .COMPLETED
    · exact hstatus
  | connected | replied | disconnected | lookupCache | set | del =>
    exact hother (fun _ h => by cases h) (fun h => by cases h)

theorem lost_idle (hw : Lost w) (e : Event) : w.reconnects e = false ∧ w.connects e = false ∧ w.fails e = false := by
  cases e <;> simp [reconnects, connects, fails, hw.armed, hw.data]

/-- The timer of a scheduled attempt. -/
theorem scheduled_timer (hw : Scheduled w n) (attempt : Attempt) :
    (attempt.succeeds → Holding (w.step (.timer attempt)) (n + 1)) ∧
    (¬ attempt.succeeds → Lost (w.step (.timer attempt))) := by
  have hstep : w.step (.timer attempt) = { w with armed := false }.connect attempt := by
    unfold step
    exact if_pos hw.armed
  have hdetached : Detached { w with armed := false } := ⟨hw.detached.redisAsyncContext, hw.detached.data⟩
  rw [hstep]
  constructor
  · intro hsucceeds
    have hholding := connect_holding hdetached rfl (.inl hw.tryReconnecting) hsucceeds
    rwa [show ({ w with armed := false } : Worker).client.reconnectCount.toNat = n + 1 from hw.count] at hholding
  · exact lost_connect hdetached.data rfl

/-- Until its timer fires, a scheduled attempt stays scheduled. -/
theorem scheduled_other (hw : Scheduled w n) {e : Event} (htimer : ∀ attempt, e ≠ .timer attempt) :
    Scheduled (w.step e) n ∨ Lost (w.step e) := by
  by_cases hdestroy : e = .destroy
  · subst hdestroy
    unfold step
    dsimp only
    split_ifs
    · exact .inr (lost_destroy (fun k hk => by cases (hw.detached.data k).symm.trans hk) (.inr hw.reconnectEvent))
    · exact .inl hw
  · left
    obtain ⟨hdetached, hclient, harmed⟩ := detached_step hw.detached e htimer hdestroy
    refine ⟨hdetached, harmed.trans hw.armed, ?_, ?_, ?_⟩
    · rw [hclient]
      exact hw.tryReconnecting
    · rw [hclient]
      exact hw.reconnectEvent
    · rw [hclient]
      exact hw.count

theorem scheduled_idle (hw : Scheduled w n) {e : Event} (htimer : ∀ attempt, e ≠ .timer attempt) :
    w.reconnects e = false ∧ w.connects e = false ∧ w.fails e = false := by
  cases e with
  | timer attempt => exact absurd rfl (htimer attempt)
  | connected | replied | disconnected | lookupCache | set | del | destroy =>
    simp [reconnects, connects, fails, hw.detached.data]

/-! ## The limit -/

theorem holding_reconnects (hw : Holding w n) (e : Event) : w.reconnects e = false := by
  cases e <;> simp [reconnects, hw.armed]

theorem fails_not_connects {e : Event} (hfails : w.fails e = true) : w.connects e = false := by
  cases e with
  | connected i ok accepted => cases ok <;> simp_all [fails, connects]
  | replied | disconnected | timer | lookupCache | set | del | destroy => rfl

/-- One step stays within a limit, if the client goes on only below it. -/
theorem tracked_step {limit : Nat} (hlimit : limit < 2 ^ 32) (hw : Tracked limit w n) (e : Event)
    (hbelow : w.fails e = true → w.GoesOn e → w.client.reconnectCount.toNat < limit) :
    Tracked limit (w.step e) (w.attemptsAfter n e) := by
  unfold attemptsAfter
  rcases hw with ⟨hholding | hscheduled, hcount⟩ | ⟨hlost, hn⟩
  · -- the client has a context
    rw [if_neg (by simp [holding_reconnects hholding e])]
    have hn : n ≤ limit := by
      rw [← hholding.count]
      exact hcount
    by_cases hconnects : w.connects e = true
    · have hconnected := holding_connects hholding hconnects
      rw [if_pos hconnects]
      exact .inl ⟨.inl hconnected, by rw [hconnected.count]; exact Nat.zero_le limit⟩
    · rw [if_neg hconnects]
      by_cases hfails : w.fails e = true
      · by_cases hon : w.GoesOn e
        · have hlt := hbelow hfails hon
          rw [hholding.count] at hlt
          have hnext := holding_goesOn hholding hfails hon (by omega)
          exact .inl ⟨.inr hnext, by rw [hnext.count]; exact hlt⟩
        · exact .inr ⟨(holding_ends hholding hfails hon).1, hn⟩
      · rcases holding_other hholding (Bool.eq_false_iff.2 hfails) (Bool.eq_false_iff.2 hconnects) with hnext | hlost
        · exact .inl ⟨.inl hnext, by rw [hnext.count]; exact hn⟩
        · exact .inr ⟨hlost, hn⟩
  · -- its timer is running
    have hn : n + 1 ≤ limit := by
      rw [← hscheduled.count]
      exact hcount
    by_cases htimer : ∃ attempt, e = .timer attempt
    · obtain ⟨attempt, rfl⟩ := htimer
      rw [if_pos (show w.reconnects (.timer attempt) = true from hscheduled.armed)]
      obtain ⟨hconnect, hfail⟩ := scheduled_timer hscheduled attempt
      by_cases hsucceeds : attempt.succeeds
      · exact .inl ⟨.inl (hconnect hsucceeds), by rw [(hconnect hsucceeds).count]; exact hn⟩
      · exact .inr ⟨hfail hsucceeds, hn⟩
    · have htimer (attempt : Attempt) : e ≠ .timer attempt := fun h => htimer ⟨attempt, h⟩
      obtain ⟨hreconnects, hconnects, -⟩ := scheduled_idle hscheduled htimer
      rw [if_neg (by simp [hreconnects]), if_neg (by simp [hconnects])]
      rcases scheduled_other hscheduled htimer with hnext | hlost
      · exact .inl ⟨.inr hnext, by rw [hnext.count]; exact hn⟩
      · exact .inr ⟨hlost, by omega⟩
  · obtain ⟨hreconnects, hconnects, -⟩ := lost_idle hlost e
    rw [if_neg (by simp [hreconnects]), if_neg (by simp [hconnects])]
    exact .inr ⟨lost_kept hlost e, hn⟩

theorem Tracked.le {limit : Nat} (hw : Tracked limit w n) : n ≤ limit := by
  rcases hw with ⟨hholding | hscheduled, hcount⟩ | ⟨-, hn⟩
  · rw [hholding.count] at hcount
    exact hcount
  · rw [hscheduled.count] at hcount
    omega
  · exact hn

/-! ## The maximum does not change -/

theorem maxReconnectCount_waiting (w : Worker) :
    w.waitingToReconnect.client.maxReconnectCount = w.client.maxReconnectCount := by
  unfold waitingToReconnect
  dsimp only
  split_ifs <;> rfl

theorem maxReconnectCount_dropContext (w : Worker) :
    w.dropContext.client.maxReconnectCount = w.client.maxReconnectCount :=
  congrArg Prod.snd (budget_dropContext w)

theorem maxReconnectCount_connectCb (w : Worker) (i : Nat) (ok accepted : Bool) :
    (w.connectCb i ok accepted).client.maxReconnectCount = w.client.maxReconnectCount := by
  by_cases hi : (w.contexts i).data = true
  · cases ok with
    | true => exact congrArg Prod.snd (budget_connectCb_true hi accepted)
    | false =>
      unfold connectCb
      simp only [hi, Bool.not_true, Bool.false_eq_true, if_false]
      rw [maxReconnectCount_waiting, maxReconnectCount_dropContext]
      split_ifs <;> rfl
  · rw [connectCb_idle (Bool.eq_false_iff.2 hi)]

theorem maxReconnectCount_disconnectCb (w : Worker) (i : Nat) (ok : Bool) :
    (w.disconnectCb i ok).client.maxReconnectCount = w.client.maxReconnectCount := by
  unfold disconnectCb
  split_ifs
  · rfl
  · rw [maxReconnectCount_waiting, maxReconnectCount_dropContext]

theorem maxReconnectCount_step (w : Worker) (e : Event) :
    (w.step e).client.maxReconnectCount = w.client.maxReconnectCount := by
  cases e with
  | connected i ok accepted =>
    unfold step
    dsimp only
    split_ifs
    · rfl
    · exact maxReconnectCount_connectCb _ i true accepted
    · exact maxReconnectCount_connectCb w i false accepted
  | replied i j reply =>
    unfold step
    dsimp only
    split
    · exact congrArg Prod.snd (budget_deliver _ _ _ _)
    · rfl
  | disconnected i errstr =>
    unfold step
    dsimp only
    split_ifs
    · rfl
    · refine (maxReconnectCount_disconnectCb _ i false).trans ?_
      exact congrArg Prod.snd (budget_callbacks _ i _)
  | timer attempt =>
    unfold step
    dsimp only
    split_ifs
    · exact congrArg Prod.snd (budget_connect _ attempt)
    · rfl
  | lookupCache accepted =>
    unfold step
    dsimp only
    split_ifs
    · exact congrArg Prod.snd (budget_lookupCache w accepted)
    · rfl
  | set expireMs accepted =>
    unfold step
    dsimp only
    split_ifs
    · exact congrArg Prod.snd (budget_set w expireMs accepted)
    · rfl
  | del accepted =>
    unfold step
    dsimp only
    split_ifs
    · exact congrArg Prod.snd (budget_del w accepted)
    · rfl
  | destroy =>
    unfold step
    dsimp only
    split_ifs
    · exact congrArg Prod.snd (budget_resetAsyncContext w .COMPLETED)
    · rfl

/-! ## Runs -/

/-- A step that does not meet the counter at its maximum: no connection is
refused or lost then, and no `connect` fails at once. -/
def WithinBudget (w : Worker) : Event → Prop
  | .timer attempt => w.armed = true → w.client.reconnectCount = w.client.maxReconnectCount → attempt.succeeds
  | e => w.fails e = true → w.Survives e → w.client.shouldReconnect = true → w.client.reconnectCount ≠ w.client.maxReconnectCount

theorem withinBudget_below {e : Event} (hw : w.WithinBudget e) (hfails : w.fails e = true) (hon : w.GoesOn e) :
    w.client.reconnectCount < w.client.maxReconnectCount := by
  have hne : w.client.reconnectCount ≠ w.client.maxReconnectCount := by
    obtain ⟨hsurvives, hshould, -⟩ := hon
    cases e with
    | timer attempt =>
      obtain ⟨harmed, hfailed⟩ : w.armed = true ∧ ¬ attempt.succeeds := by simpa [fails] using hfails
      exact absurd (hsurvives harmed) hfailed
    | connected | replied | disconnected | lookupCache | set | del | destroy => exact hw hfails hsurvives hshould
  exact UInt32.lt_of_le_of_ne hon.2.2 hne

theorem connect_status (w : Worker) {attempt : Attempt} (hfailed : ¬ attempt.succeeds) :
    (w.connect attempt).client.clientStatus = .INIT_ERROR := by
  unfold connect
  split
  · exact resetAsyncContext_status _ _
  · next err hcontext =>
    dsimp only
    split_ifs with herr hset
    · exact resetAsyncContext_status _ _
    · exact resetAsyncContext_status _ _
    · exact absurd ⟨by simpa [hcontext] using herr, by simpa using hset⟩ hfailed

theorem holding_status (hw : Holding w n) {e : Event} (hfails : w.fails e = true) (hon : w.GoesOn e) :
    (w.step e).client.clientStatus = .CONNECTING := by
  obtain ⟨i, w', hstep, -, -, htry, hshould, hbudget⟩ := holding_waits hw hfails hon.1
  have hcount : w'.client.reconnectCount = w.client.reconnectCount := congrArg Prod.fst hbudget
  have hmax : w'.client.maxReconnectCount = w.client.maxReconnectCount := congrArg Prod.snd hbudget
  have hover : ¬ w'.client.maxReconnectCount < w'.client.reconnectCount := by
    rw [hcount, hmax]
    exact UInt32.not_lt.2 hon.2.2
  rw [hstep]
  unfold waitingToReconnect
  rw [if_neg (by simp [htry]), if_neg (by simp [hshould, hon.2.1])]
  dsimp only
  rw [if_neg hover]
  rfl

end Worker

namespace Tally

/-- The budget is kept so far. -/
structure Good (maxReconnect : UInt32) (t : Tally) : Prop where
  tracked : Tracked maxReconnect.toNat t.worker t.attempts
  max : t.worker.client.maxReconnectCount = maxReconnect
  done : t.usedUp = true → Lost t.worker ∧ t.worker.client.clientStatus = .COMPLETED

variable {maxReconnect : UInt32} {t : Tally}

/-- A failure with no attempt left, within the budget: the client is done. -/
theorem good_ends (hg : Good maxReconnect t) {e : Event} (hfails : t.worker.fails e = true)
    (hmax : maxReconnect.toNat ≤ t.worker.attemptsAfter t.attempts e) (hwithin : t.worker.WithinBudget e) :
    Lost (t.worker.step e) ∧ (t.worker.step e).client.clientStatus = .COMPLETED := by
  rcases hg.tracked with ⟨hholding | hscheduled, hcount⟩ | ⟨hlost, -⟩
  · rw [attemptsAfter, if_neg (by simp [holding_reconnects hholding e]),
      if_neg (by simp [fails_not_connects hfails]),
      ← hholding.count] at hmax
    refine holding_ends hholding hfails fun hon => ?_
    have hlt := UInt32.lt_iff_toNat_lt.1 (withinBudget_below hwithin hfails hon)
    rw [hg.max] at hlt
    omega
  · by_cases htimer : ∃ attempt, e = .timer attempt
    · obtain ⟨attempt, rfl⟩ := htimer
      rw [attemptsAfter, if_pos
        (show t.worker.reconnects (.timer attempt) = true from hscheduled.armed),
        ← hscheduled.count] at hmax
      obtain ⟨-, hfailed⟩ : t.worker.armed = true ∧ ¬ attempt.succeeds := by simpa [fails] using hfails
      have hfull : t.worker.client.reconnectCount = t.worker.client.maxReconnectCount := by
        rw [hg.max]
        exact UInt32.toNat_inj.1 (by omega)
      exact absurd (hwithin hscheduled.armed hfull) hfailed
    · cases (scheduled_idle hscheduled fun attempt h => htimer ⟨attempt, h⟩).2.2.symm.trans hfails
  · cases (lost_idle hlost e).2.2.symm.trans hfails

/-- A step that meets the counter at its maximum: there is no attempt left, and
the client is not done. -/
theorem good_over (hg : Good maxReconnect t) {e : Event} (hover : ¬ t.worker.WithinBudget e) :
    t.worker.fails e = true ∧ maxReconnect.toNat ≤ t.worker.attemptsAfter t.attempts e ∧
      (t.worker.step e).client.clientStatus ≠ .COMPLETED := by
  by_cases htimer : ∃ attempt, e = .timer attempt
  · obtain ⟨attempt, rfl⟩ := htimer
    simp only [WithinBudget, Classical.not_imp] at hover
    obtain ⟨harmed, hfull, hfailed⟩ := hover
    have hreconnects : t.worker.reconnects (.timer attempt) = true := harmed
    refine ⟨by simp [fails, harmed, hfailed], ?_, ?_⟩
    · -- an armed timer counts the attempt already
      rw [attemptsAfter, if_pos hreconnects]
      rcases hg.tracked with ⟨hholding | hscheduled, -⟩ | ⟨hlost, -⟩
      · cases hholding.armed.symm.trans harmed
      · rw [← hscheduled.count, hfull, hg.max]
      · cases hlost.armed.symm.trans harmed
    · have hstatus := connect_status { t.worker with armed := false } hfailed
      unfold Worker.step
      dsimp only
      rw [if_pos harmed, hstatus]
      decide
  · obtain ⟨hfails, hsurvives, hshould, hfull⟩ : t.worker.fails e = true ∧ t.worker.Survives e ∧
        t.worker.client.shouldReconnect = true ∧ t.worker.client.reconnectCount =
          t.worker.client.maxReconnectCount := by
      cases e with
      | timer attempt => exact absurd ⟨attempt, rfl⟩ htimer
      | connected | replied | disconnected | lookupCache | set | del | destroy =>
        simpa only [WithinBudget, Classical.not_imp, ne_eq, not_not] using hover
    have hholding : Holding t.worker t.attempts := by
      rcases hg.tracked with ⟨hholding | hscheduled, -⟩ | ⟨hlost, -⟩
      · exact hholding
      · cases (scheduled_idle hscheduled fun attempt h => htimer ⟨attempt, h⟩).2.2.symm.trans hfails
      · cases (lost_idle hlost e).2.2.symm.trans hfails
    refine ⟨hfails, ?_, ?_⟩
    · rw [attemptsAfter, if_neg (by simp [holding_reconnects hholding e]),
        if_neg (by simp [fails_not_connects hfails]),
        ← hholding.count, hfull, hg.max]
    · rw [holding_status hholding hfails ⟨hsurvives, hshould, UInt32.le_of_eq hfull⟩]
      decide

theorem good_step (hg : Good maxReconnect t) {e : Event} (hwithin : t.worker.WithinBudget e) :
    Good maxReconnect (t.step e) := by
  refine ⟨?_, (maxReconnectCount_step t.worker e).trans hg.max, fun hused => ?_⟩
  · refine tracked_step (UInt32.toNat_lt_size maxReconnect) hg.tracked e fun hfails hon => ?_
    rw [← hg.max]
    exact UInt32.lt_iff_toNat_lt.1 (withinBudget_below hwithin hfails hon)
  · by_cases hbefore : t.usedUp = true
    · obtain ⟨hlost, hstatus⟩ := hg.done hbefore
      exact ⟨lost_kept hlost e, lost_status hlost hstatus e⟩
    · obtain ⟨hfails, hmax⟩ : t.worker.fails e = true ∧
          t.worker.client.maxReconnectCount.toNat ≤ t.worker.attemptsAfter t.attempts e := by
        simpa [step, hbefore] using hused
      rw [hg.max] at hmax
      exact good_ends hg hfails hmax hwithin

theorem keeps_iff (hg : Good maxReconnect t) (e : Event) : t.Keeps e ↔ t.worker.WithinBudget e := by
  constructor
  · rintro ⟨-, hcompleted, -⟩
    by_contra hover
    obtain ⟨hfails, hmax, hstatus⟩ := good_over hg hover
    refine hstatus (hcompleted ?_)
    simp [step, hfails, hg.max, hmax]
  · intro hwithin
    have hnext := good_step hg hwithin
    refine ⟨?_, fun hused => (hnext.done hused).2, fun hused => (lost_idle (hg.done hused).1 e).1⟩
    rw [hg.max]
    exact hnext.tracked.le

/-- A new client, whose first `connect` may fail at once. -/
theorem start_tracked (limit : Nat) (password : Bytes) (reconnect : Bool) (maxReconnect : UInt32)
    (attempt : Attempt) :
    Tracked limit (construct password reconnect maxReconnect attempt) 0 := by
  by_cases hsucceeds : attempt.succeeds
  · have hholding : Holding (construct password reconnect maxReconnect attempt) 0 :=
      connect_holding ⟨rfl, fun _ => rfl⟩ rfl (.inr rfl) hsucceeds
    exact .inl ⟨.inl hholding, by rw [hholding.count]; exact Nat.zero_le limit⟩
  · exact .inr ⟨lost_connect (fun _ => rfl) rfl hsucceeds, Nat.zero_le limit⟩

theorem start_max (password : Bytes) (reconnect : Bool) (maxReconnect : UInt32) (attempt : Attempt) :
    (construct password reconnect maxReconnect attempt).client.maxReconnectCount = maxReconnect :=
  congrArg Prod.snd (budget_connect _ attempt)

theorem start_good (password : Bytes) (reconnect : Bool) (maxReconnect : UInt32) {attempt : Attempt}
    (h : attempt.succeeds ∨ maxReconnect ≠ 0) :
    Good maxReconnect (start password reconnect maxReconnect attempt) := by
  refine ⟨start_tracked _ password reconnect maxReconnect attempt, start_max password reconnect
    maxReconnect attempt, fun hused => ?_⟩
  rcases h with hsucceeds | hpositive
  · simp [start, hsucceeds] at hused
  · simp [start, hpositive] at hused

/-- A run keeps to the budget, at most `maxReconnect` attempts between two
connections and the client done after a failure with no attempt left, if and
only if nothing fails while the counter is at the maximum. -/
theorem budget_iff (password : Bytes) (reconnect : Bool) (maxReconnect : UInt32) (attempt : Attempt) (es : List Event) :
    (start password reconnect maxReconnect attempt).Completed ∧
        EachStep step Keeps (start password reconnect maxReconnect attempt) es ↔
      (attempt.succeeds ∨ maxReconnect ≠ 0) ∧
        EachStep step (fun t e => t.worker.WithinBudget e) (start password reconnect maxReconnect attempt) es := by
  by_cases hfirst : attempt.succeeds ∨ maxReconnect ≠ 0
  · have hgood := start_good password reconnect maxReconnect hfirst
    have hrun := eachStep_iff_of (Good maxReconnect) (fun t e hg hwithin => good_step hg hwithin)
      (fun t e hg => keeps_iff hg e) hgood es
    exact ⟨fun h => ⟨hfirst, hrun.1 h.2⟩, fun h => ⟨fun hused => (hgood.done hused).2, hrun.2 h.2⟩⟩
  · obtain ⟨hfailed, hzero⟩ := not_or.1 hfirst
    have hused : (start password reconnect maxReconnect attempt).usedUp = true :=
      by simp [start, hfailed, not_not.1 hzero]
    have hstatus : (start password reconnect maxReconnect attempt).worker.client.clientStatus =
        .INIT_ERROR := connect_status _ hfailed
    refine ⟨fun h => ?_, fun h => absurd h.1 hfirst⟩
    cases hstatus.symm.trans (h.1 hused)

/-- What the comparison lets pass: one attempt more than the maximum, in every
run of a client whose counter cannot wrap. -/
theorem attempts_le (password : Bytes) (reconnect : Bool) {maxReconnect : UInt32}
    (attempt : Attempt) (es : List Event)
    (hmax : maxReconnect.toNat + 1 < 2 ^ 32) :
    (es.foldl step (start password reconnect maxReconnect attempt)).attempts ≤ maxReconnect.toNat + 1 := by
  have hrun (t : Tally) (htracked : Tracked (maxReconnect.toNat + 1) t.worker t.attempts)
      (hsame : t.worker.client.maxReconnectCount = maxReconnect) :
        (es.foldl step t).attempts ≤ maxReconnect.toNat + 1 := by
    induction es generalizing t with
    | nil => exact htracked.le
    | cons e es ih =>
      refine ih (t.step e) (tracked_step hmax htracked e fun _ hon => ?_)
        ((maxReconnectCount_step t.worker e).trans hsame)
      have hle := UInt32.le_iff_toNat_le.1 hon.2.2
      rw [hsame] at hle
      omega
  exact hrun _ (start_tracked _ password reconnect maxReconnect attempt)
    (start_max password reconnect maxReconnect attempt)

/-- With a budget of one, the timer makes a second attempt. -/
theorem second_attempt :
    ¬ ((start [] true 1 {}).Completed ∧ EachStep step Keeps (start [] true 1 {})
      [.connected 0 false true, .timer {}, .connected 1 false true, .timer {}]) :=
  fun h => absurd h.2.2.2.2.1.1 (by decide)

end Tally
end EnvoyProxy.Redis
