import EnvoyProxy.Redis.Frame
import EnvoyProxy.Lib.Pending
/-!
# Every GET is answered once

The callbacks of `get` wait in a table that outlives the connections. It is
balanced in every run, as long as no id is taken while it is still waiting,
and it is empty whenever there is no connection, as long as no connection is
lost while a callback waits for a command that hiredis did not accept.
-/

namespace EnvoyProxy.Redis
open Pending

namespace Worker

/-- How often the callback of a call of `get` has been called. -/
def called (w : Worker) (call : Nat) : Nat := w.answers.countP (·.1 = call)

/-- What the calls of `get` can rely on. -/
structure AnsweredOnce (w : Worker) : Prop where
  /-- While the client is working, there is a connection to ask. -/
  working : w.client.clientStatus = .WORKING → ∃ i, w.client.redisAsyncContext = some i ∧ (w.contexts i).phase = .connected
  /-- No callback is called twice. -/
  atMostOnce : ∀ call, w.called call ≤ 1
  /-- It has been called when its connection is gone. -/
  torn : ∀ call i, w.issued[call]? = some i → (w.contexts i).phase = .freed → w.called call = 1
  /-- A reply goes to the call that asked for it. -/
  own : ∀ call str error, (call, ⟨some str, error⟩) ∈ w.answers → (call, str) ∈ w.delivered

/-- No id is taken that is still waiting, and no connection is lost on which
a callback waits for nothing. -/
def Accounted (w : Worker) : Event → Prop
  | .lookupCache _ => w.client.nextCommandId ∉ w.client.commandsMap.map Prod.fst
  | .disconnected i _ => (w.contexts i).phase = .connected → (w.contexts i).data = true →
      ∀ e ∈ w.client.commandsMap, .get e.1 e.2 ∈ (w.contexts i).pending
  | _ => True

instance (w : Worker) : (e : Event) → Decidable (w.Accounted e)
  | .lookupCache _ => inferInstanceAs (Decidable (w.client.nextCommandId ∉ w.client.commandsMap.map Prod.fst))
  | .disconnected i _ => inferInstanceAs (Decidable ((w.contexts i).phase = .connected → (w.contexts i).data = true →
      ∀ e ∈ w.client.commandsMap, .get e.1 e.2 ∈ (w.contexts i).pending))
  | .connected .. | .replied .. | .timer _ | .set .. | .del _ | .destroy => .isTrue trivial

/-! ## The books -/

def books (w : Worker) : Table UInt64 Answer := ⟨w.client.commandsMap, w.answers, w.issued.length⟩

/-- The books and the replies. -/
structure SameBooks (w w' : Worker) : Prop where
  commandsMap : w'.client.commandsMap = w.client.commandsMap
  answers : w'.answers = w.answers
  issued : w'.issued = w.issued
  delivered : w'.delivered = w.delivered

/-- Replies go to the calls that asked for them. -/
def OwnReplies (w : Worker) : Prop := ∀ call str error, (call, ⟨some str, error⟩) ∈ w.answers → (call, str) ∈ w.delivered

structure Kept (w : Worker) : Prop where
  balanced : w.books.Balanced
  own : w.OwnReplies

section
variable {w w' w'' : Worker}

theorem SameBooks.refl (w : Worker) : SameBooks w w := ⟨rfl, rfl, rfl, rfl⟩

theorem SameBooks.trans (h : SameBooks w w') (h' : SameBooks w' w'') : SameBooks w w'' :=
  ⟨h'.commandsMap.trans h.commandsMap, h'.answers.trans h.answers, h'.issued.trans h.issued,
    h'.delivered.trans h.delivered⟩

theorem SameBooks.kept (h : SameBooks w w') (hw : Kept w) : Kept w' := by
  constructor
  · rw [books, h.commandsMap, h.answers, h.issued]
    exact hw.balanced
  · unfold OwnReplies
    rw [h.answers, h.delivered]
    exact hw.own

theorem kept_drain (hw : Kept w) : Kept w.drain := by
  refine ⟨hw.balanced.drain {}, fun call str error hmem => ?_⟩
  rcases List.mem_append.1 hmem with hold | hnew
  · exact hw.own call str error hold
  · obtain ⟨e, -, he⟩ := List.mem_map.1 hnew
    cases he

theorem books_dropContext (w : Worker) : SameBooks w w.dropContext := by
  unfold dropContext
  split <;> exact ⟨rfl, rfl, rfl, rfl⟩

theorem books_waitingToReconnect (w : Worker) : SameBooks w w.waitingToReconnect := by
  unfold waitingToReconnect
  dsimp only
  split_ifs <;> exact ⟨rfl, rfl, rfl, rfl⟩

theorem books_redisAsyncCommand (w : Worker) (i : Nat) (command : Command) (accepted : Bool) :
    SameBooks w (w.redisAsyncCommand i command accepted) := by
  unfold redisAsyncCommand
  split_ifs <;> exact ⟨rfl, rfl, rfl, rfl⟩

theorem kept_resetAsyncContext (hw : Kept w) (status : Status) :
    Kept (w.resetAsyncContext status) ∧ (w.resetAsyncContext status).client.commandsMap = [] ∧
      (w.resetAsyncContext status).client.clientStatus = status ∧
      (w.resetAsyncContext status).issued = w.issued := by
  have hdrop := books_dropContext { w with client := { w.client with clientStatus := status } }
  have hstatus (w : Worker) : w.dropContext.client.clientStatus = w.client.clientStatus := by
    unfold dropContext
    split <;> rfl
  unfold resetAsyncContext
  dsimp only
  split
  · exact ⟨kept_drain (w := { w with client := { w.client with clientStatus := status } })
      ⟨hw.balanced, hw.own⟩, rfl, rfl, rfl⟩
  · next i _ =>
    have hkept : Kept (dropContext { w with client := { w.client with clientStatus := status } }) :=
      hdrop.kept ⟨hw.balanced, hw.own⟩
    split_ifs
    · exact ⟨kept_drain hkept, rfl, hstatus _, hdrop.issued⟩
    · exact ⟨kept_drain (w := redisAsyncFree _ i) ⟨hkept.balanced, hkept.own⟩, rfl, hstatus _, hdrop.issued⟩

/-- A callback is called, once it is known what for. -/
theorem kept_commandCb (hw : Kept w) (i : Nat) (id : UInt64) (reply : Option Bytes)
    (hreply : ∀ call str, (id, call) ∈ w.client.commandsMap → reply = some str → (call, str) ∈ w.delivered) :
    Kept (w.commandCb i id reply) := by
  unfold commandCb
  split_ifs
  · exact hw
  · split
    · exact hw
    · next call hlookup =>
      have hmem : (id, call) ∈ w.client.commandsMap := (lookup_eq_some_iff hw.balanced.keys).1 hlookup
      refine ⟨hw.balanced.answer hmem _, fun call' str error hmem' => ?_⟩
      rcases List.mem_append.1 hmem' with hold | hnew
      · exact hw.own call' str error hold
      · cases reply with
        | none => cases List.mem_singleton.1 hnew
        | some str' =>
          obtain ⟨rfl, hanswer⟩ := Prod.mk.inj (List.mem_singleton.1 hnew)
          cases hanswer
          exact hreply call' str hmem rfl

end

/-! ## The connection -/

/-- What holds of the client's context. -/
structure Attached (w : Worker) (i : Nat) : Prop where
  data : (w.contexts i).data = true
  phase : ((w.contexts i).phase = .connecting ∧ w.client.clientStatus ≠ .WORKING ∧ w.client.commandsMap = []) ∨
    (w.contexts i).phase = .connected
  /-- What waits for a reply has its callback. -/
  waiting : ∀ id call, .get id call ∈ (w.contexts i).pending → (id, call) ∈ w.client.commandsMap
  count : ∀ id call, (w.contexts i).pending.count (.get id call) ≤ 1
  /-- All callbacks are for this context. -/
  issued : ∀ e ∈ w.client.commandsMap, w.issued[e.2]? = some i

structure Linked (w : Worker) : Prop where
  kept : Kept w
  data : ∀ k, (w.contexts k).data = true → w.client.redisAsyncContext = some k
  armed : w.armed = true → w.client.redisAsyncContext = none
  detached : w.client.redisAsyncContext = none → w.client.clientStatus ≠ .WORKING ∧ w.client.commandsMap = []
  attached : ∀ i, w.client.redisAsyncContext = some i → Attached w i

section
variable {w w' : Worker}

theorem Linked.answeredOnce (hw : Linked w) : AnsweredOnce w where
  working hworking := by
    cases hptr : w.client.redisAsyncContext with
    | none => exact absurd hworking (hw.detached hptr).1
    | some i =>
      refine ⟨i, rfl, ?_⟩
      rcases (hw.attached i hptr).phase with ⟨-, hnot, -⟩ | hphase
      · exact absurd hworking hnot
      · exact hphase
  atMostOnce := hw.kept.balanced.called_le
  torn call i hcall hfreed := by
    have hlt : call < w.issued.length := (List.getElem?_eq_some_iff.1 hcall).1
    refine hw.kept.balanced.called_eq hlt fun hmem => ?_
    obtain ⟨e, he, rfl⟩ := List.mem_map.1 hmem
    cases hptr : w.client.redisAsyncContext with
    | none =>
      have hnone : e ∈ w.client.commandsMap := he
      rw [(hw.detached hptr).2] at hnone
      cases hnone
    | some k =>
      -- the callback is for the context that is there
      have hattached := hw.attached k hptr
      obtain rfl := Option.some.inj ((hattached.issued e he).symm.trans hcall)
      rcases hattached.phase with ⟨hphase, -⟩ | hphase
      · cases hphase.symm.trans hfreed
      · cases hphase.symm.trans hfreed
  own := hw.kept.own

/-- Without a connection nothing may be waiting. -/
theorem linked_of_detached (hkept : Kept w) (hptr : w.client.redisAsyncContext = none)
    (hdata : ∀ k, (w.contexts k).data = false)
    (hstatus : w.client.clientStatus ≠ .WORKING) (hmap : w.client.commandsMap = []) : Linked w where
  kept := hkept
  data k hk := by cases (hdata k).symm.trans hk
  armed _ := hptr
  detached _ := ⟨hstatus, hmap⟩
  attached _ hi := by cases hptr.symm.trans hi

/-- Contexts that do not know the client do not matter. -/
theorem Linked.setContext (hw : Linked w) {i : Nat} (hi : (w.contexts i).data = false) {c : Context}
    (hc : c.data = false) :
    Linked (w.setContext i c) where
  kept := ⟨hw.kept.balanced, hw.kept.own⟩
  data k hk := by
    rw [setContext_contexts] at hk
    split_ifs at hk
    · cases hc.symm.trans hk
    · exact hw.data k hk
  armed := hw.armed
  detached := hw.detached
  attached k hk := by
    have hattached := hw.attached k hk
    have hne : k ≠ i := by
      rintro rfl
      cases hi.symm.trans hattached.data
    have hcontext : (w.setContext i c).contexts k = w.contexts k := by rw [setContext_contexts, if_neg hne]
    exact ⟨hcontext ▸ hattached.data, hcontext ▸ hattached.phase, hcontext ▸ hattached.waiting,
      hcontext ▸ hattached.count,
      hattached.issued⟩

theorem linked_resetAsyncContext (hkept : Kept w)
    (hdata : ∀ k, (w.contexts k).data = true → w.client.redisAsyncContext = some k)
    {status : Status} (hstatus : status ≠ .WORKING) : Linked (w.resetAsyncContext status) := by
  obtain ⟨hkept', hmap, hnew, -⟩ := kept_resetAsyncContext hkept status
  have hdropped := dropped_resetAsyncContext w status
  exact linked_of_detached hkept' hdropped.redisAsyncContext (hdropped.not_data hdata)
    (fun h => hstatus (hnew.symm.trans h)) hmap

theorem waitingToReconnect_status (hstatus : w.client.clientStatus ≠ .WORKING) :
    w.waitingToReconnect.client.clientStatus ≠ .WORKING := by
  unfold waitingToReconnect
  dsimp only
  split_ifs
  · exact hstatus
  · simp
  · simp
  · simp

theorem waitingToReconnect_redisAsyncContext (w : Worker) :
    w.waitingToReconnect.client.redisAsyncContext = w.client.redisAsyncContext := by
  unfold waitingToReconnect
  dsimp only
  split_ifs <;> rfl

/-- The client lets go of a connection, and nothing is waiting. -/
theorem linked_waitingToReconnect (hkept : Kept w) (hmap : w.client.commandsMap = [])
    (hstatus : w.client.clientStatus ≠ .WORKING)
    (hdata : ∀ k, (w.contexts k).data = true → w.client.redisAsyncContext = some k) :
    Linked w.dropContext.waitingToReconnect := by
  have hbooks := (books_dropContext w).trans (books_waitingToReconnect w.dropContext)
  have hdropped := dropped_dropContext w
  have hstatus' : w.dropContext.client.clientStatus ≠ .WORKING := by
    unfold dropContext
    split <;> exact hstatus
  refine linked_of_detached (hbooks.kept hkept) ?_ (fun k => ?_)
    (waitingToReconnect_status hstatus') (hbooks.commandsMap.trans hmap)
  · rw [waitingToReconnect_redisAsyncContext]
    exact hdropped.redisAsyncContext
  · rw [waitingToReconnect_contexts]
    exact hdropped.not_data hdata k

/-! ## Steps -/

/-- A connection that is made leaves the books alone, and queues AUTH at
most. -/
theorem connectCb_eq {i : Nat} (hi : (w.contexts i).data = true)
    (hptr : w.client.redisAsyncContext = some i) (accepted : Bool) :
    ∃ client, client.redisAsyncContext = some i ∧ client.commandsMap = w.client.commandsMap ∧
      (w.connectCb i true accepted = { w with client } ∨
        w.connectCb i true accepted = { w with client }.redisAsyncCommand i .auth accepted) := by
  unfold connectCb
  simp only [hi, Bool.not_true, Bool.false_eq_true, if_false, if_true]
  cases htry : w.client.tryReconnecting <;> cases hpassword : w.client.password.isEmpty
  all_goals
    simp only [htry, hpassword, authenticate, hptr, Bool.not_true, Bool.not_false,
      Bool.false_eq_true, if_false, if_true]
  · refine ⟨_, ?_, ?_, .inr rfl⟩ <;> rfl
  · refine ⟨_, ?_, ?_, .inl rfl⟩ <;> rfl
  · refine ⟨_, ?_, ?_, .inr rfl⟩ <;> rfl
  · refine ⟨_, ?_, ?_, .inl rfl⟩ <;> rfl

/-- A command is sent that has no callback, or a new one. -/
theorem Linked.redisAsyncCommand (hw : Linked w) {i : Nat}
    (hi : w.client.redisAsyncContext = some i) {command : Command}
    (hcommand : ∀ id call, command = .get id call → (id, call) ∈ w.client.commandsMap ∧
    .get id call ∉ (w.contexts i).pending)
    (accepted : Bool) : Linked (w.redisAsyncCommand i command accepted) := by
  have hsame := same_redisAsyncCommand w i command accepted
  have hbooks := books_redisAsyncCommand w i command accepted
  unfold Worker.redisAsyncCommand at hsame hbooks ⊢
  split_ifs at hsame hbooks ⊢ with haccepted
  · refine ⟨hbooks.kept hw.kept, fun k hk => hw.data k ((hsame.data k).symm.trans hk), hw.armed,
      hw.detached, fun k hk => ?_⟩
    obtain rfl := Option.some.inj (hi.symm.trans hk)
    have hattached := hw.attached i hi
    have hcontext : (w.setContext i
        { w.contexts i with pending := (w.contexts i).pending ++ [command] }).contexts i =
        { w.contexts i with pending := (w.contexts i).pending ++ [command] } := by
      rw [setContext_contexts, if_pos rfl]
    refine ⟨?_, ?_, ?_, ?_, hattached.issued⟩
    · rw [hcontext]
      exact hattached.data
    · rw [hcontext]
      exact hattached.phase
    · rw [hcontext]
      intro id call hmem
      rcases List.mem_append.1 hmem with hold | hnew
      · exact hattached.waiting id call hold
      · exact (hcommand id call (List.mem_singleton.1 hnew).symm).1
    · rw [hcontext]
      intro id call
      have hcount := hattached.count id call
      rw [List.count_append, List.count_singleton]
      split_ifs with heq
      · rw [List.count_eq_zero.2 (hcommand id call (by simpa using heq)).2]
      · exact hcount
  · exact hw

theorem connectCb_error_eq {i : Nat} (hi : (w.contexts i).data = true) (accepted : Bool) :
    ∃ client, client.redisAsyncContext = w.client.redisAsyncContext ∧ client.commandsMap = w.client.commandsMap ∧
      client.clientStatus = .NOT_INIT ∧ w.connectCb i false accepted =
      { w with client }.dropContext.waitingToReconnect := by
  unfold connectCb
  simp only [hi, Bool.not_true, Bool.false_eq_true, if_false]
  cases htry : w.client.tryReconnecting
  · refine ⟨_, ?_, ?_, ?_, rfl⟩ <;> rfl
  · refine ⟨_, ?_, ?_, ?_, rfl⟩ <;> rfl

theorem dropped_waitingToReconnect (w : Worker) : w.dropContext.waitingToReconnect.client.redisAsyncContext = none :=
  (waitingToReconnect_redisAsyncContext _).trans (dropped_dropContext w).redisAsyncContext

theorem Linked.redisAsyncFree (hw : Linked w) (hptr : w.client.redisAsyncContext = none) (i : Nat) :
    Linked (w.redisAsyncFree i) := by
  have hi : (w.contexts i).data = false := Bool.eq_false_iff.2 fun h => by cases hptr.symm.trans (hw.data i h)
  exact hw.setContext hi hi

/-- The client's context becomes connected. -/
theorem Linked.connect (hw : Linked w) {i : Nat} (hi : w.client.redisAsyncContext = some i) {client : AsyncClient}
    (hptr : client.redisAsyncContext = some i) (hmap : client.commandsMap = w.client.commandsMap) :
    Linked { w.setContext i { w.contexts i with phase := .connected } with client } := by
  have hattached := hw.attached i hi
  have hcontext : (w.setContext i { w.contexts i with phase := .connected }).contexts i =
    { w.contexts i with phase := .connected } := by
    rw [setContext_contexts, if_pos rfl]
  have hbooks : SameBooks w
      { w.setContext i { w.contexts i with phase := .connected } with client } := ⟨hmap, rfl, rfl, rfl⟩
  refine ⟨hbooks.kept hw.kept, fun k hk => ?_, fun harmed => ?_, fun hnone => ?_, fun k hk => ?_⟩
  · have hdata : ((w.setContext i { w.contexts i with phase := .connected }).contexts k).data =
      (w.contexts k).data :=
      setContext_data (c := { w.contexts i with phase := .connected }) rfl k
    exact hptr.trans (hi.symm.trans (hw.data k (hdata.symm.trans hk)))
  · cases hi.symm.trans (hw.armed harmed)
  · cases hptr.symm.trans hnone
  · obtain rfl := Option.some.inj (hptr.symm.trans hk)
    refine ⟨?_, .inr ?_, ?_, ?_, ?_⟩
    · exact (congrArg Context.data hcontext).trans hattached.data
    · exact congrArg Context.phase hcontext
    · intro id call hmem
      rw [congrArg Context.pending hcontext] at hmem
      exact hmap ▸ hattached.waiting id call hmem
    · intro id call
      rw [congrArg Context.pending hcontext]
      exact hattached.count id call
    · intro e he
      exact hattached.issued e (hmap ▸ he)

theorem linked_connected (hw : Linked w) (i : Nat) (ok accepted : Bool) :
    Linked (w.step (.connected i ok accepted)) := by
  unfold step
  dsimp only
  split_ifs with hphase hok
  · exact hw
  · by_cases hi : (w.contexts i).data = true
    · have hptr := hw.data i hi
      have hdata : ((w.setContext i { w.contexts i with phase := .connected }).contexts i).data = true := by
        rw [setContext_contexts, if_pos rfl]
        exact hi
      obtain ⟨client, hptr', hmap, heq | heq⟩ := connectCb_eq hdata hptr accepted
      · rw [heq]
        exact hw.connect hptr hptr' hmap
      · rw [heq]
        exact (hw.connect hptr hptr' hmap).redisAsyncCommand hptr' (by simp) accepted
    · have hi' := Bool.eq_false_iff.2 hi
      rw [connectCb_idle]
      · exact hw.setContext hi' hi'
      · rw [setContext_contexts, if_pos rfl]
        exact hi'
  · by_cases hi : (w.contexts i).data = true
    · -- nothing is waiting on a context that is not connected
      have hmap : w.client.commandsMap = [] := by
        rcases (hw.attached i (hw.data i hi)).phase with ⟨-, -, hmap⟩ | hconnected
        · exact hmap
        · exact absurd (not_not.1 hphase) (by simp [hconnected])
      obtain ⟨client, hptr, hsame, hstatus, heq⟩ := connectCb_error_eq hi accepted
      rw [heq]
      have hbooks : SameBooks w { w with client } := ⟨hsame, rfl, rfl, rfl⟩
      exact (linked_waitingToReconnect (hbooks.kept hw.kept) (hsame.trans hmap) (by simp [hstatus])
        fun k hk => hptr.trans (hw.data k hk)).redisAsyncFree (dropped_waitingToReconnect _) i
    · have hi' := Bool.eq_false_iff.2 hi
      rw [connectCb_idle hi']
      exact hw.setContext hi' hi'

/-- A command that has got its reply does not wait any more. -/
theorem Linked.erase (hw : Linked w) {i : Nat} (hi : w.client.redisAsyncContext = some i) (j : Nat) :
    Linked (w.setContext i ((w.contexts i).replied j)) := by
  have hattached := hw.attached i hi
  have hcontext : (w.setContext i ((w.contexts i).replied j)).contexts i = (w.contexts i).replied j := by
    rw [setContext_contexts, if_pos rfl]
  have hsub := List.eraseIdx_sublist (w.contexts i).pending j
  refine ⟨⟨hw.kept.balanced, hw.kept.own⟩, fun k hk => ?_, hw.armed, hw.detached, fun k hk => ?_⟩
  · exact hw.data k ((setContext_data (c := (w.contexts i).replied j) rfl k).symm.trans hk)
  · obtain rfl := Option.some.inj (hi.symm.trans hk)
    refine ⟨?_, ?_, ?_, ?_, hattached.issued⟩
    all_goals rw [hcontext]
    · exact hattached.data
    · exact hattached.phase
    · exact fun id call hmem => hattached.waiting id call (hsub.subset hmem)
    · exact fun id call => (hsub.count_le _).trans (hattached.count id call)

theorem linked_commandCb (hw : Linked w) (i : Nat) {id : UInt64} {call : Nat} (reply : Option Bytes)
    (hnot : ∀ call', .get id call' ∉ (w.contexts i).pending)
    (hreply : ∀ str, reply = some str → (call, str) ∈ w.delivered)
    (hmem : (w.contexts i).data = true → (id, call) ∈ w.client.commandsMap) : Linked (w.commandCb i id reply) := by
  by_cases hi : (w.contexts i).data = true
  · have hlookup : w.client.commandsMap.lookup id = some call :=
      (lookup_eq_some_iff hw.kept.balanced.keys).2 (hmem hi)
    have hkept : Kept (w.commandCb i id reply) := kept_commandCb hw.kept i id reply fun call' str hmem' hstr => by
      rw [eq_of_mem hw.kept.balanced.keys hmem' (hmem hi)]
      exact hreply str hstr
    have hptr := hw.data i hi
    have hattached := hw.attached i hptr
    have hmap : (w.commandCb i id reply).client.commandsMap = others w.client.commandsMap id := by
      simp only [commandCb, hi, Bool.not_true, Bool.false_eq_true, if_false, hlookup]
      rfl
    have hsame := same_commandCb w i id reply
    have hcontexts : (w.commandCb i id reply).contexts = w.contexts ∧ (w.commandCb i id reply).issued = w.issued ∧
        (w.commandCb i id reply).client.clientStatus = w.client.clientStatus := by
      simp only [commandCb, hi, Bool.not_true, Bool.false_eq_true, if_false, hlookup, and_self]
    obtain ⟨hcontexts, hissued, hstatus⟩ := hcontexts
    refine ⟨hkept, fun k hk => ?_, fun harmed => ?_, fun hnone => ?_, fun k hk => ?_⟩
    · exact hsame.redisAsyncContext.trans (hw.data k ((hsame.data k).symm.trans hk))
    · exact hsame.redisAsyncContext.trans (hw.armed (hsame.armed.symm.trans harmed))
    · cases (hsame.redisAsyncContext.symm.trans hnone).symm.trans hptr
    · obtain rfl := Option.some.inj (hptr.symm.trans (hsame.redisAsyncContext.symm.trans hk))
      refine ⟨hcontexts ▸ hattached.data, .inr ?_, fun id' call' hpending => ?_, hcontexts ▸
        hattached.count, fun e he => ?_⟩
      · rw [hcontexts]
        rcases hattached.phase with ⟨-, -, hempty⟩ | hphase
        · exact absurd (hmem hi) (by simp [hempty])
        · exact hphase
      · rw [hcontexts] at hpending
        rw [hmap, mem_others]
        refine ⟨hattached.waiting id' call' hpending, ?_⟩
        rintro rfl
        exact hnot call' hpending
      · rw [hmap, mem_others] at he
        rw [hissued]
        exact hattached.issued e he.1
  · have hidle : w.commandCb i id reply = w := by simp [commandCb, Bool.eq_false_iff.2 hi]
    rw [hidle]
    exact hw

theorem linked_working (hw : Linked w) {i : Nat} (hi : w.client.redisAsyncContext = some i)
    (hphase : (w.contexts i).phase = .connected) :
    Linked { w with client := { w.client with clientStatus := .WORKING } } where
  kept := ⟨hw.kept.balanced, hw.kept.own⟩
  data := hw.data
  armed := hw.armed
  detached hnone := by cases hi.symm.trans hnone
  attached k hk := by
    obtain rfl := Option.some.inj (hi.symm.trans hk)
    have hattached := hw.attached i hi
    exact ⟨hattached.data, .inr hphase, hattached.waiting, hattached.count, hattached.issued⟩

theorem linked_delivered (hw : Linked w) (replies : List (Nat × Bytes)) : Linked { w with delivered := w.delivered ++ replies } where
  kept := ⟨hw.kept.balanced, fun call str error hmem => List.mem_append_left _ (hw.kept.own call str error hmem)⟩
  data := hw.data
  armed := hw.armed
  detached := hw.detached
  attached k hk := by
    have hattached := hw.attached k hk
    exact ⟨hattached.data, hattached.phase, hattached.waiting, hattached.count, hattached.issued⟩

theorem linked_authenticateCb (hw : Linked w) {i : Nat} (hphase : (w.contexts i).phase = .connected) (str : Bytes) :
    Linked (w.authenticateCb i (some str)) := by
  unfold authenticateCb
  dsimp only
  split_ifs with hi
  · exact hw
  · exact linked_working hw (hw.data i (by simpa using hi)) hphase
  · exact linked_resetAsyncContext
      (w := { w with client := { w.client with shouldReconnect := false }, authRefused := true })
      ⟨hw.kept.balanced, hw.kept.own⟩ hw.data (by simp)

theorem linked_deliver (hw : Linked w) {i : Nat} (hphase : (w.contexts i).phase = .connected)
    (command : Command) (reply : Option Bytes)
    (hget : ∀ id call, command = .get id call → (∀ call', .get id call' ∉ (w.contexts i).pending) ∧
      ((w.contexts i).data = true → (id, call) ∈ w.client.commandsMap)) :
    Linked (w.deliver i command reply) := by
  cases command with
  | auth =>
    cases reply with
    | none => exact hw
    | some str => exact linked_authenticateCb hw hphase str
  | get id call =>
    obtain ⟨hnot, hmem⟩ := hget id call rfl
    cases reply with
    | none => exact linked_commandCb hw i none hnot (fun _ h => by cases h) hmem
    | some str =>
      refine linked_commandCb (linked_delivered hw [(call, str)]) i (some str) hnot ?_ hmem
      rintro _ ⟨rfl⟩
      exact List.mem_append_right _ List.mem_cons_self
  | other => cases reply <;> exact hw

/-- Nothing comes of a reply on another context. -/
theorem linked_deliver_idle (hw : Linked w) {i : Nat} (hi : (w.contexts i).data = false)
    (command : Command) (reply : Option Bytes) :
    Linked (w.deliver i command reply) := by
  unfold deliver
  split
  · exact hw
  · next id call str =>
    rw [callback_idle (w := { w with delivered := w.delivered ++ [(call, str)] }) hi]
    exact linked_delivered hw _
  · rw [callback_idle hi]
    exact hw

theorem linked_replied (hw : Linked w) (i j : Nat) (reply : Option Bytes) :
    Linked (w.step (.replied i j reply)) := by
  unfold step
  dsimp only
  split
  · next command hphase hj =>
    have hcontext : (w.setContext i ((w.contexts i).replied j)).contexts i = (w.contexts i).replied j := by
      rw [setContext_contexts, if_pos rfl]
    have hphase' := (congrArg Context.phase hcontext).trans hphase
    by_cases hi : (w.contexts i).data = true
    · have hptr := hw.data i hi
      have hattached := hw.attached i hptr
      refine linked_deliver (hw.erase hptr j) hphase' command reply ?_
      rintro id call rfl
      obtain ⟨hlt, hget⟩ := List.getElem?_eq_some_iff.1 hj
      have hmem : (id, call) ∈ w.client.commandsMap := hattached.waiting id call (hget ▸ List.getElem_mem hlt)
      refine ⟨fun call' hmem' => ?_, fun _ => hmem⟩
      -- another command of its id would be the same command
      rw [hcontext] at hmem'
      have hother := hattached.waiting id call' ((List.eraseIdx_sublist _ j).subset hmem')
      obtain rfl := eq_of_mem hw.kept.balanced.keys hother hmem
      have hperm := List.getElem_cons_eraseIdx_perm hlt
      rw [hget] at hperm
      have hcount := hperm.count_eq (.get id call')
      have hpos := List.count_pos_iff.2 hmem'
      have hle := hattached.count id call'
      rw [List.count_cons_self] at hcount
      have hsame : ((w.contexts i).replied j).pending = (w.contexts i).pending.eraseIdx j := rfl
      rw [hsame] at hpos
      omega
    · have hi' := Bool.eq_false_iff.2 hi
      have herase : Linked (w.setContext i ((w.contexts i).replied j)) := hw.setContext hi' hi'
      have hidle : ((w.setContext i ((w.contexts i).replied j)).contexts i).data = false :=
        (congrArg Context.data hcontext).trans hi'
      exact linked_deliver_idle herase hidle command reply
  · exact hw

/-! ## A connection that is lost -/

/-- The null replies call every callback that waits. -/
structure Emptying (w : Worker) (i : Nat) (rest : List Command) : Prop where
  kept : Kept w
  data : ∀ k, (w.contexts k).data = true → w.client.redisAsyncContext = some k
  known : (w.contexts i).data = true
  waiting : ∀ e ∈ w.client.commandsMap, .get e.1 e.2 ∈ rest

/-- Nothing waits any more; the context may have been let go. -/
structure Emptied (w : Worker) (i : Nat) : Prop where
  kept : Kept w
  data : ∀ k, (w.contexts k).data = true → w.client.redisAsyncContext = some k
  commandsMap : w.client.commandsMap = []
  link : (w.contexts i).data = true ∨ (w.client.redisAsyncContext = none ∧ w.client.clientStatus ≠ .WORKING)

/-- The entry of a command does not wait after its callback. -/
theorem mem_commandCb {i : Nat} (hi : (w.contexts i).data = true) {id : UInt64}
    {reply : Option Bytes} {e : UInt64 × Nat}
    (he : e ∈ (w.commandCb i id reply).client.commandsMap) : e ∈ w.client.commandsMap ∧ e.1 ≠ id := by
  unfold commandCb at he
  simp only [hi, Bool.not_true, Bool.false_eq_true, if_false] at he
  split at he
  · next hlookup =>
    refine ⟨he, ?_⟩
    rintro rfl
    have hsome := List.lookup_eq_none_iff.1 hlookup e he
    simp at hsome
  · exact mem_others.1 he

theorem emptied_callbacks {i : Nat} {rest : List Command} (hw : Emptying w i rest) :
    Emptied (rest.foldl (fun w command => w.callback i none command) w) i := by
  -- by induction on the commands; after AUTH the context knows nobody
  induction rest generalizing w with
  | nil =>
    refine ⟨hw.kept, hw.data, List.eq_nil_iff_forall_not_mem.2 fun e he => ?_, .inl hw.known⟩
    cases hw.waiting e he
  | cons command rest ih =>
    rw [List.foldl_cons]
    cases command with
    | auth =>
      have heq : w.callback i none .auth =
          { w with client := { w.client with shouldReconnect := false } }.resetAsyncContext .COMPLETED := by
        simp [callback, authenticateCb, hw.known]
      have hkept : Kept { w with client := { w.client with shouldReconnect := false } } :=
        ⟨hw.kept.balanced, hw.kept.own⟩
      have hlinked : Linked (w.callback i none .auth) := heq ▸ linked_resetAsyncContext hkept hw.data (by simp)
      have hptr : (w.callback i none .auth).client.redisAsyncContext = none :=
        heq ▸ (dropped_resetAsyncContext _ _).redisAsyncContext
      rw [callbacks_idle (Bool.eq_false_iff.2 fun h => by cases hptr.symm.trans (hlinked.data i h))]
      exact ⟨hlinked.kept, hlinked.data, (hlinked.detached hptr).2, .inr ⟨hptr, (hlinked.detached hptr).1⟩⟩
    | get id call =>
      have hsame := same_commandCb w i id none
      refine ih ⟨kept_commandCb hw.kept i id none (fun _ _ _ h => by cases h), fun k hk => ?_,
        (hsame.data i).trans hw.known,
        fun e he => ?_⟩
      · exact hsame.redisAsyncContext.trans (hw.data k ((hsame.data k).symm.trans hk))
      · obtain ⟨hmem, hne⟩ := mem_commandCb hw.known he
        refine (List.mem_cons.1 (hw.waiting e hmem)).resolve_left fun heq => ?_
        cases heq
        exact hne rfl
    | other =>
      refine ih ⟨hw.kept, hw.data, hw.known, fun e he => ?_⟩
      exact (List.mem_cons.1 (hw.waiting e he)).resolve_left (by simp)

/-- The end of a connection on which nothing waits. -/
theorem linked_emptied {i : Nat} (hw : Emptied w i) : Linked ((w.disconnectCb i false).redisAsyncFree i) := by
  unfold disconnectCb
  by_cases hi : (w.contexts i).data = true
  · -- the client waits to reconnect
    rw [if_neg (by simp [hi])]
    refine Linked.redisAsyncFree ?_ (dropped_waitingToReconnect _) i
    exact linked_waitingToReconnect (w := { w with client := { w.client with clientStatus := .NOT_INIT } })
      ⟨hw.kept.balanced, hw.kept.own⟩ hw.commandsMap (by simp) hw.data
  · -- AUTH has failed
    obtain ⟨hptr, hstatus⟩ := hw.link.resolve_left hi
    rw [if_pos (by simp [hi])]
    refine Linked.redisAsyncFree (linked_of_detached hw.kept hptr (fun k => ?_) hstatus hw.commandsMap) hptr i
    exact Bool.eq_false_iff.2 fun h => by cases hptr.symm.trans (hw.data k h)

theorem linked_disconnected (hw : Linked w) (i : Nat) (errstr : Bytes)
    (haccounted : w.Accounted (.disconnected i errstr)) :
    Linked (w.step (.disconnected i errstr)) := by
  unfold step
  dsimp only
  split_ifs with hphase
  · exact hw
  · have hphase := not_not.1 hphase
    unfold disconnect
    have hcontext : (w.setContext i ((w.contexts i).disconnect errstr)).contexts i =
        (w.contexts i).disconnect errstr := by
      rw [setContext_contexts, if_pos rfl]
    have hdata (k : Nat) : ((w.setContext i ((w.contexts i).disconnect errstr)).contexts k).data =
        (w.contexts k).data :=
      setContext_data (c := (w.contexts i).disconnect errstr) rfl k
    dsimp only
    by_cases hi : (w.contexts i).data = true
    · have hemptying : Emptying (w.setContext i ((w.contexts i).disconnect errstr)) i (w.contexts i).pending :=
        ⟨⟨hw.kept.balanced, hw.kept.own⟩, fun k hk => hw.data k ((hdata k).symm.trans hk),
          (hdata i).trans hi, haccounted hphase hi⟩
      exact linked_emptied (emptied_callbacks hemptying)
    · have hi' := Bool.eq_false_iff.2 hi
      have hlinked : Linked (w.setContext i ((w.contexts i).disconnect errstr)) := hw.setContext hi' hi'
      have hidle := (hdata i).trans hi'
      rw [callbacks_idle hidle, disconnectCb_idle hidle]
      exact hlinked.setContext hidle hidle

/-! ## The other steps -/

theorem linked_register (hw : Linked w) {i : Nat} (hptr : w.client.redisAsyncContext = some i)
    (hphase : (w.contexts i).phase = .connected)
    (hfree : w.client.nextCommandId ∉ w.client.commandsMap.map Prod.fst) :
    Linked (w.register i) := by
  have hattached := hw.attached i hptr
  have hlength : (w.issued ++ [i]).length = w.issued.length + 1 := by simp
  refine ⟨⟨?_, hw.kept.own⟩, hw.data, hw.armed, fun hnone => (by cases hptr.symm.trans hnone), fun k hk => ?_⟩
  · have hbooks : (w.register i).books = w.books.register w.client.nextCommandId := by
      unfold books register
      dsimp only
      rw [hlength]
      rfl
    rw [hbooks]
    exact hw.kept.balanced.register hfree
  · obtain rfl := Option.some.inj (hptr.symm.trans hk)
    refine ⟨hattached.data, .inr hphase, fun id call hmem => ?_, hattached.count, fun e he => ?_⟩
    · have hold := hattached.waiting id call hmem
      refine List.mem_append_left _ (mem_others.2 ⟨hold, ?_⟩)
      rintro rfl
      exact hfree (List.mem_map_of_mem hold)
    · rcases List.mem_append.1 he with hold | hnew
      · have hissued := hattached.issued e (mem_others.1 hold).1
        have hlt := (List.getElem?_eq_some_iff.1 hissued).1
        exact (List.getElem?_append_left hlt).trans hissued
      · obtain rfl := List.mem_singleton.1 hnew
        exact List.getElem?_concat_length

theorem linked_get (hw : Linked w) (accepted : Bool)
    (hfree : w.client.nextCommandId ∉ w.client.commandsMap.map Prod.fst) :
    Linked (w.get accepted) := by
  unfold get
  split
  · exact hw
  · next i hptr =>
    split_ifs with hworking
    · exact hw
    · have hattached := hw.attached i hptr
      have hphase := hattached.phase.resolve_left fun h => hworking h.2.1
      refine (linked_register hw hptr hphase hfree).redisAsyncCommand hptr ?_ accepted
      rintro id call heq
      cases heq
      refine ⟨List.mem_append_right _ List.mem_cons_self, fun hmem => ?_⟩
      exact hfree (List.mem_map_of_mem (hattached.waiting _ _ hmem))

theorem linked_connect (hw : Linked w) (hptr : w.client.redisAsyncContext = none)
    (harmed : w.armed = false) (attempt : Attempt) :
    Linked (w.connect attempt) := by
  obtain ⟨hstatus, hmap⟩ := hw.detached hptr
  have hnodata (k : Nat) : (w.contexts k).data = false := Bool.eq_false_iff.2 fun h =>
    by cases hptr.symm.trans (hw.data k h)
  unfold connect
  split
  · exact linked_resetAsyncContext (w := { w with client := { w.client with redisAsyncContext := none } })
      ⟨hw.kept.balanced, hw.kept.own⟩ (fun k hk => by cases (hnodata k).symm.trans hk) (by simp)
  · dsimp only
    split_ifs
    · exact linked_resetAsyncContext (w := w.newContext false) ⟨hw.kept.balanced, hw.kept.own⟩
        (newContext_data hnodata false) (by simp)
    · exact linked_resetAsyncContext (w := w.newContext true) ⟨hw.kept.balanced, hw.kept.own⟩
        (newContext_data hnodata true) (by simp)
    · refine ⟨⟨hw.kept.balanced, hw.kept.own⟩, newContext_data hnodata true, fun h =>
        (by cases harmed.symm.trans h), by rintro ⟨⟩, fun k hk => ?_⟩
      obtain rfl := Option.some.inj hk
      have hnew : (w.newContext true).contexts w.created = { data := true, phase := .connecting } := by
        rw [newContext_contexts, if_pos rfl]
      refine ⟨?_, .inl ⟨?_, hstatus, hmap⟩, ?_, ?_, fun e he => ?_⟩
      · rw [hnew]
      · rw [hnew]
      · rw [hnew]
        simp
      · rw [hnew]
        exact fun _ _ => Nat.zero_le 1
      · have hnone : e ∈ w.client.commandsMap := he
        rw [hmap] at hnone
        cases hnone

theorem linked_destroy (hw : Linked w) : Linked w.destroy := by
  obtain ⟨hkept, hmap, hstatus, -⟩ := kept_resetAsyncContext hw.kept .COMPLETED
  have hdropped := dropped_resetAsyncContext w .COMPLETED
  exact linked_of_detached ⟨hkept.balanced, hkept.own⟩ hdropped.redisAsyncContext (hdropped.not_data hw.data)
    (fun h => by cases hstatus.symm.trans h) hmap

theorem linked_step (hw : Linked w) (e : Event) (haccounted : w.Accounted e) : Linked (w.step e) := by
  cases e with
  | connected i ok accepted => exact linked_connected hw i ok accepted
  | replied i j reply => exact linked_replied hw i j reply
  | disconnected i errstr => exact linked_disconnected hw i errstr haccounted
  | timer attempt =>
    unfold step
    dsimp only
    split_ifs with harmed
    · have hptr := hw.armed harmed
      refine linked_connect (w := { w with armed := false })
        ⟨⟨hw.kept.balanced, hw.kept.own⟩, hw.data, by simp, hw.detached, ?_⟩
        hptr rfl attempt
      exact fun i hi => by cases hptr.symm.trans hi
    · exact hw
  | lookupCache accepted =>
    unfold step
    dsimp only
    split_ifs
    · unfold lookupCache
      split_ifs
      · exact hw
      · exact linked_get hw accepted haccounted
    · exact hw
  | set expireMs accepted =>
    unfold step
    dsimp only
    split_ifs
    · unfold set
      split
      · exact hw
      · next i hptr =>
        split_ifs
        · exact hw
        · exact hw.redisAsyncCommand hptr (by simp) accepted
    · exact hw
  | del accepted =>
    unfold step
    dsimp only
    split_ifs
    · unfold del
      split
      · exact hw
      · next i hptr =>
        split_ifs
        · exact hw
        · exact hw.redisAsyncCommand hptr (by simp) accepted
    · exact hw
  | destroy =>
    unfold step
    dsimp only
    split_ifs
    · exact linked_destroy hw
    · exact hw

theorem linked_run (hw : Linked w) (es : List Event) (haccounted : EachStep step Accounted w es) :
    Linked (w.run es) := by
  induction es generalizing w with
  | nil => exact hw
  | cons e es ih => exact ih (linked_step hw e haccounted.1) haccounted.2

end

end Worker

open Worker

/-- Every GET is answered once by the time its connection is gone, with its
own reply, as long as ids that wait are not taken again and no connection is
lost while a callback waits for a command that was not accepted. -/
theorem answered_once (password : Bytes) (reconnect : Bool) (maxReconnect : UInt32) (attempt : Attempt) (es : List Event)
    (haccounted : EachStep step Accounted (construct password reconnect maxReconnect attempt) es) :
    AnsweredOnce ((construct password reconnect maxReconnect attempt).run es) := by
  refine (linked_run ?_ es haccounted).answeredOnce
  refine linked_connect ?_ rfl rfl attempt
  refine linked_of_detached ⟨⟨List.nodup_nil, fun n => ?_⟩, fun call str error h => ?_⟩ rfl
    (fun _ => rfl) (by simp) rfl
  · rfl
  · cases h

/-- Two calls on one connection, the second of which is answered first, and
one on the next. -/
def twoConnections : List Event :=
  [.connected 0 true true, .lookupCache true, .lookupCache true, .replied 0 1 (some (ascii "b")), .disconnected 0 (ascii "reset"),
    .timer {}, .connected 1 true true, .lookupCache true, .destroy]

theorem twoConnections_answered : AnsweredOnce ((construct [] true 3 {}).run twoConnections) :=
  answered_once [] true 3 {} twoConnections
    ⟨trivial, by decide, by decide, trivial, by decide, trivial, trivial, by decide, trivial, trivial⟩

/-- The connection is lost after a command was not accepted: its callback is
not called. -/
theorem rejected_unanswered :
    ¬ AnsweredOnce ((construct [] true 3 {}).run [.connected 0 true true, .lookupCache false, .disconnected 0 (ascii "reset")]) := by
  intro h
  exact absurd (h.torn 0 0 rfl rfl) (by decide)

end EnvoyProxy.Redis
