import EnvoyProxy.Http.Filter
/-!
# The WAF filter

`WafFilter` (waf.cc) shows the messages of a stream to one or two ModSecurity
transactions, that of the listener and that of the route. A transaction is a
state with the calls the filter makes of it (`Modsecurity`). Each call of the
filter returns the filter, its status and what happened.
-/

namespace EnvoyProxy.Waf
open Http HeaderMap

inductive RuleEngine
  | DisabledRuleEngine
  | EnabledRuleEngine
  | DetectionOnlyRuleEngine
  | PropertyNotSetRuleEngine
  deriving DecidableEq, Repr

/-- `modsecurity::Transaction`. `intervention` gives the status of an
intervention once. -/
structure Modsecurity (T : Type) where
  getRuleEngineState : T → RuleEngine
  processConnection : T → (client : Bytes) → (clientPort : Nat) → (server : Bytes) → (serverPort : Nat) → T
  processURI : T → (uri method version : Bytes) → T
  addRequestHeader : T → (key value : Bytes) → T
  processRequestHeaders : T → T
  getRequestBodyLength : T → Nat
  appendRequestBody : T → Bytes → T × Bool
  processRequestBody : T → T
  addResponseHeader : T → (key value : Bytes) → T
  processResponseHeaders : T → (code : Nat) → (version : Bytes) → T
  getResponseBodyLength : T → Nat
  appendResponseBody : T → Bytes → T × Bool
  processResponseBody : T → T
  intervention : T → T × Option Nat

inductive Protocol
  | Http10
  | Http11
  | Http2
  | Http3
  deriving DecidableEq, Repr

def getProtocolString : Protocol → Bytes
  | .Http10 => ascii "1.0"
  | .Http11 => ascii "1.1"
  | .Http2 => ascii "2.0"
  | .Http3 => ascii "3.0"

/-- What the filter learns from Envoy about a stream. -/
structure StreamEnv (H : Type) where
  downstreamAddress : Bytes × Nat
  localAddress : Bytes × Nat
  protocol : Option Protocol
  /-- `Utility::getResponseStatus` -/
  getResponseStatus : H → Nat

/-- The transaction of the listener and that of the route. -/
inductive Who
  | global
  | route
  deriving DecidableEq, Repr

inductive Phase
  | connection
  | uri
  | requestHeaders
  | requestBody
  | responseHeaders
  | responseBody
  deriving DecidableEq, Repr

/-- What happens to a stream. `released` is done by Envoy. -/
inductive Happening
  | called (who : Who) (phase : Phase)
  | intervened (who : Who)
  | localReply (status : Nat)
  | released (headers : Bool) (data : Bytes)
  deriving DecidableEq

/-- A piece of the encoding buffer, by where its bytes come from. -/
inductive Piece
  | original (bytes : Bytes)
  | reply (bytes : Bytes)
  deriving DecidableEq

structure WafFilter (T H : Type) where
  transaction : Option T := none
  transactionRoute : Option T := none
  intervined : Bool := false
  requestProcessed : Bool := false
  responseProcessed : Bool := false
  endStream : Bool := false
  isSendLocalReply : Bool := false
  status : Nat := 0
  /-- What `response_headers_` points to. -/
  responseHeaders : Option H := none

namespace WafFilter
variable {T H : Type} (modsec : Modsecurity T)

def transactionOf (f : WafFilter T H) : Who → Option T
  | .global => f.transaction
  | .route => f.transactionRoute

def setTransaction (f : WafFilter T H) (t : T) : Who → WafFilter T H
  | .global => { f with transaction := some t }
  | .route => { f with transactionRoute := some t }

/-- There is no transaction. -/
def isIdle (f : WafFilter T H) : Bool := f.transaction.isNone && f.transactionRoute.isNone

/-- `intervention` and `interventionRoute`, with the transaction as it is after
the call before it. -/
def intervention (f : WafFilter T H) (who : Who) (t : T) : WafFilter T H :=
  -- the other transaction may have intervened before
  if f.intervined then f.setTransaction t who
  else
    match modsec.intervention t with
    | (t, none) => f.setTransaction t who
    | (t, some status) => { f.setTransaction t who with intervined := true, status }

/-- One phase after the other, until there is an intervention. -/
def runPhases (f : WafFilter T H) : List (Who × Phase × (T → T)) → WafFilter T H × List Happening
  | [] => (f, [])
  | (who, phase, call) :: rest =>
    match f.transactionOf who with
    | none => f.runPhases rest
    | some t =>
      let f := f.intervention modsec who (call t)
      if f.intervined then (f, [.called who phase, .intervened who])
      else
        let (f, log) := f.runPhases rest
        (f, .called who phase :: log)

/-- The same phase for both transactions. -/
def both (phase : Phase) (call : T → T) : List (Who × Phase × (T → T)) := [(.global, phase, call), (.route, phase, call)]

/-- The route's state wins. -/
def enabledRuleEngine (f : WafFilter T H) : Bool :=
  let enabled := match f.transaction with
    | none => false
    | some t => modsec.getRuleEngineState t = .EnabledRuleEngine
  match f.transactionRoute with
  | none => enabled
  | some t => modsec.getRuleEngineState t = .EnabledRuleEngine

/-! ## Bodies -/

/-- The calls that show a body to a transaction. -/
structure BodyCalls (T : Type) where
  length : T → Nat
  append : T → Bytes → T × Bool

def requestBody : BodyCalls T := ⟨modsec.getRequestBodyLength, modsec.appendRequestBody⟩

def responseBody : BodyCalls T := ⟨modsec.getResponseBodyLength, modsec.appendResponseBody⟩

/-- One slice for one transaction, and whether the limit is reached. -/
def BodyCalls.appendSlice (calls : BodyCalls T) (slice : Bytes) : Option T → Option T × Bool
  | none => (none, false)
  | some t =>
    let (t', ok) := calls.append t slice
    (some t', !ok || (decide (0 < slice.length) && decide (calls.length t = calls.length t')))

/-- The loop over the slices of a frame; it ends when a limit is reached. -/
def BodyCalls.appendSlices (calls : BodyCalls T) (f : WafFilter T H) : List Bytes → WafFilter T H × Bool
  | [] => (f, false)
  | slice :: slices =>
    let (t, reached) := calls.appendSlice slice f.transaction
    let f := { f with transaction := t }
    if reached then (f, true)
    else
      let (t, reached) := calls.appendSlice slice f.transactionRoute
      let f := { f with transactionRoute := t }
      if reached then (f, true) else calls.appendSlices f slices

/-! ## The request -/

def getRequestHeadersStatus (f : WafFilter T H) : FilterHeadersStatus :=
  if f.intervined then .StopIteration
  else if f.requestProcessed then .Continue
  else if f.enabledRuleEngine modsec then .StopIteration else .Continue

def getRequestStatus (f : WafFilter T H) : FilterDataStatus :=
  if f.intervined then .StopIterationNoBuffer
  else if f.requestProcessed then .Continue
  else if f.enabledRuleEngine modsec then .StopIterationAndBuffer else .Continue

variable [HeaderMap H]

/-- The header is added for both; a host also under its old name. -/
def addRequestHeader (t : T) (e : HeaderEntry) : T :=
  let t := modsec.addRequestHeader t e.key.bytes e.value.bytes
  if e.key = headerName ":authority" then modsec.addRequestHeader t (ascii "host") e.value.bytes else t

def addRequestHeaders (f : WafFilter T H) (headers : H) : WafFilter T H :=
  let add (t : T) : T := (iterate headers).foldl (addRequestHeader modsec) t
  { f with transaction := f.transaction.map add, transactionRoute := f.transactionRoute.map add }

/-- Everything that is asked before the body. -/
def inspectHead (env : StreamEnv H) (f : WafFilter T H) (request : RequestHeaders H) (endStream : Bool) :
    WafFilter T H × List Happening :=
  let connection (t : T) : T := modsec.processConnection t env.downstreamAddress.1 env.downstreamAddress.2
    env.localAddress.1 env.localAddress.2
  let uri (t : T) : T := modsec.processURI t request.path.bytes request.method.bytes
    (getProtocolString (env.protocol.getD .Http11))
  let (f, log) := f.runPhases modsec (both .connection connection ++ both .uri uri)
  if f.intervined then (f, log)
  else
    let f := f.addRequestHeaders modsec request.headers
    -- a request that is only headers counts as processed before it is looked at
    let f := if endStream then { f with requestProcessed := true } else f
    let (f, log') := f.runPhases modsec (both .requestHeaders modsec.processRequestHeaders)
    (f, log ++ log')

/-- `sendLocalReply` with the status of the intervention. -/
def localReply (f : WafFilter T H) (log : List Happening) : WafFilter T H × List Happening :=
  ({ f with isSendLocalReply := true }, log ++ [.localReply f.status])

/-- `route` is the new transaction of the route, if it has rules. -/
def decodeHeaders (env : StreamEnv H) (f : WafFilter T H) (request : RequestHeaders H) (endStream : Bool) (route : Option T) :
    WafFilter T H × FilterHeadersStatus × List Happening :=
  if f.intervined ∨ f.requestProcessed then (f, f.getRequestHeadersStatus modsec, [])
  else
    let f := { f with transactionRoute := route.or f.transactionRoute }
    if f.isIdle then (f, .Continue, [])
    else
      let (f, log) := f.inspectHead modsec env request endStream
      if f.intervined then
        let (f, log) := f.localReply log
        (f, .StopIteration, log)
      else (f, f.getRequestHeadersStatus modsec, log)

omit [HeaderMap H] in
def decodeData (f : WafFilter T H) (slices : List Bytes) (endStream : Bool) :
    WafFilter T H × FilterDataStatus × List Happening :=
  if f.isIdle then (f, .Continue, [])
  else if f.intervined ∨ f.requestProcessed then (f, f.getRequestStatus modsec, [])
  else
    let (f, reached) := (requestBody modsec).appendSlices f slices
    if endStream || reached then
      let f := { f with requestProcessed := true }
      let (f, log) := f.runPhases modsec (both .requestBody modsec.processRequestBody)
      if f.intervined then
        let (f, log) := f.localReply log
        (f, .StopIterationNoBuffer, log)
      else (f, f.getRequestStatus modsec, log)
    else (f, f.getRequestStatus modsec, [])

/-! ## The response -/

def getResponseHeadersStatus (f : WafFilter T H) : FilterHeadersStatus :=
  if f.intervined ∨ f.responseProcessed then .Continue
  else if f.enabledRuleEngine modsec then .StopIteration else .Continue

def getResponseStatus (f : WafFilter T H) : FilterDataStatus :=
  if f.intervined ∨ f.responseProcessed then .Continue
  else if f.enabledRuleEngine modsec then .StopIterationAndBuffer else .Continue

/-- What the reply says. -/
def replyBody : Bytes := ascii "ModSecurity Action."

/-- The headers of a reply. -/
def replyHeaders (status : Nat) (headers : H) : H :=
  let headers := HeaderMap.set headers (headerName ":status") (headerNumber status)
  setContentLength (remove headers (headerName "content-length")) replyBody.length

/-- The filter and its encoding buffer. -/
def sendEncodeReply (f : WafFilter T H) (buffer : Option (List Piece)) : WafFilter T H × Option (List Piece) :=
  -- the member `end_stream_`; a body limit sets only the local flag
  if f.endStream then
    let f := { f with responseHeaders := f.responseHeaders.map (replyHeaders f.status) }
    match buffer with
    | none => (f, some [.reply replyBody])
    | some _ => (f, some [.reply replyBody])
  else (f, buffer)

def addResponseHeaders (f : WafFilter T H) (headers : H) : WafFilter T H :=
  let add (t : T) : T := (iterate headers).foldl (fun t e => modsec.addResponseHeader t e.key.bytes e.value.bytes) t
  { f with transaction := f.transaction.map add, transactionRoute := f.transactionRoute.map add }

def processResponseHeaders (env : StreamEnv H) (headers : H) (t : T) : T :=
  modsec.processResponseHeaders t (env.getResponseStatus headers) (getProtocolString (env.protocol.getD .Http11))

def encodeHeaders (env : StreamEnv H) (f : WafFilter T H) (headers : H) (endStream : Bool) (buffer : Option (List Piece)) :
    WafFilter T H × FilterHeadersStatus × Option (List Piece) :=
  if f.isIdle then (f, .Continue, buffer)
  else if f.intervined ∨ f.responseProcessed then (f, f.getResponseHeadersStatus modsec, buffer)
  else
    let f := { f with endStream, responseHeaders := some headers }
    let f := f.addResponseHeaders modsec headers
    let f := (f.runPhases modsec (both .responseHeaders (processResponseHeaders modsec env headers))).1
    if f.intervined then
      let (f, buffer) := f.sendEncodeReply buffer
      (f, .StopIteration, buffer)
    else (f, f.getResponseHeadersStatus modsec, buffer)

/-- The filter, its status, the data it leaves in the frame and its buffer. -/
def encodeData (f : WafFilter T H) (slices : List Bytes) (endStream : Bool) (buffer : Option (List Piece)) :
    WafFilter T H × FilterDataStatus × List Bytes × Option (List Piece) :=
  if f.isIdle then (f, .Continue, slices, buffer)
  else if f.responseProcessed ∨ f.isSendLocalReply then (f, f.getResponseStatus modsec, slices, buffer)
  else
    let f := { f with endStream }
    if f.intervined then
      if f.endStream then
        let (f, buffer) := f.sendEncodeReply buffer
        (f, f.getResponseStatus modsec, [], buffer)
      else (f, .StopIterationNoBuffer, [], buffer)
    else
      let (f, reached) := (responseBody modsec).appendSlices f slices
      if endStream || reached then
        let f := { f with responseProcessed := true }
        let f := (f.runPhases modsec (both .responseBody modsec.processResponseBody)).1
        if f.intervined then
          let (f, buffer) := f.sendEncodeReply buffer
          -- the frame is not drained here
          (f, .Continue, slices, buffer)
        else (f, f.getResponseStatus modsec, slices, buffer)
      else (f, f.getResponseStatus modsec, slices, buffer)

end WafFilter

/-! ## What the calls leave alone -/

/-- Calls of some phases, and nothing else. -/
def CallsOf (phases : List Phase) (log : List Happening) : Prop := ∀ x ∈ log, ∃ who, ∃ phase ∈ phases, x = .called who phase

theorem CallsOf.append {phases : List Phase} {log log' : List Happening} (h : CallsOf phases log)
    (h' : CallsOf phases log') :
    CallsOf phases (log ++ log') := by
  intro x hx
  rcases List.mem_append.1 hx with hx | hx
  · exact h x hx
  · exact h' x hx

theorem CallsOf.mono {phases phases' : List Phase} {log : List Happening} (h : CallsOf phases log)
    (hsub : phases ⊆ phases') :
    CallsOf phases' log := by
  intro x hx
  obtain ⟨who, phase, hphase, rfl⟩ := h x hx
  exact ⟨who, phase, hsub hphase, rfl⟩

section Frame
variable {T H : Type} {modsec : Modsecurity T} {f : WafFilter T H}

/-- The filter with two transactions that have seen nothing. -/
def fresh (global route : Option T) : WafFilter T H := { transaction := global, transactionRoute := route }

/-- The same but for the transactions and what they say. -/
structure Keeps (f f' : WafFilter T H) : Prop where
  requestProcessed : f'.requestProcessed = f.requestProcessed
  responseProcessed : f'.responseProcessed = f.responseProcessed
  endStream : f'.endStream = f.endStream
  isSendLocalReply : f'.isSendLocalReply = f.isSendLocalReply
  responseHeaders : f'.responseHeaders = f.responseHeaders
  present : ∀ who, (f'.transactionOf who).isSome = (f.transactionOf who).isSome

theorem Keeps.refl (f : WafFilter T H) : Keeps f f := ⟨rfl, rfl, rfl, rfl, rfl, fun _ => rfl⟩

theorem Keeps.trans {f₁ f₂ f₃ : WafFilter T H} (h : Keeps f₁ f₂) (h' : Keeps f₂ f₃) : Keeps f₁ f₃ where
  requestProcessed := h'.requestProcessed.trans h.requestProcessed
  responseProcessed := h'.responseProcessed.trans h.responseProcessed
  endStream := h'.endStream.trans h.endStream
  isSendLocalReply := h'.isSendLocalReply.trans h.isSendLocalReply
  responseHeaders := h'.responseHeaders.trans h.responseHeaders
  present who := (h'.present who).trans (h.present who)

theorem isIdle_congr {f' : WafFilter T H} (h : ∀ who, (f'.transactionOf who).isSome = (f.transactionOf who).isSome) :
    f'.isIdle = f.isIdle := by
  have hglobal : f'.transaction.isSome = f.transaction.isSome := h .global
  have hroute : f'.transactionRoute.isSome = f.transactionRoute.isSome := h .route
  simp only [WafFilter.isIdle, ← Option.not_isSome, hglobal, hroute]

theorem Keeps.isIdle {f' : WafFilter T H} (h : Keeps f f') : f'.isIdle = f.isIdle := isIdle_congr h.present

theorem keeps_setTransaction (t : T) {who : Who} (h : (f.transactionOf who).isSome) :
    Keeps f (f.setTransaction t who) := by
  cases who with
  | global =>
    refine ⟨rfl, rfl, rfl, rfl, rfl, ?_⟩
    rintro (_ | _)
    · exact h.symm
    · rfl
  | route =>
    refine ⟨rfl, rfl, rfl, rfl, rfl, ?_⟩
    rintro (_ | _)
    · rfl
    · exact h.symm

theorem keeps_intervention (modsec : Modsecurity T) (t : T) {who : Who} (h : (f.transactionOf who).isSome) :
    Keeps f (f.intervention modsec who t) := by
  unfold WafFilter.intervention
  split
  · exact keeps_setTransaction t h
  · split
    · exact keeps_setTransaction _ h
    · obtain ⟨h₁, h₂, h₃, h₄, h₅, h₆⟩ := keeps_setTransaction (f := f) ‹T› h
      exact ⟨h₁, h₂, h₃, h₄, h₅, h₆⟩

section Phases
variable {who : Who} {phase : Phase} {call : T → T} {rest : List (Who × Phase × (T → T))} {t : T}

theorem runPhases_absent (h : f.transactionOf who = none) :
    f.runPhases modsec ((who, phase, call) :: rest) = f.runPhases modsec rest := by
  rw [WafFilter.runPhases, h]

theorem runPhases_stop (h : f.transactionOf who = some t)
    (hint : (f.intervention modsec who (call t)).intervined = true) :
    f.runPhases modsec ((who, phase, call) :: rest) =
      (f.intervention modsec who (call t), [.called who phase, .intervened who]) := by
  rw [WafFilter.runPhases, h]
  exact if_pos hint

theorem runPhases_next (h : f.transactionOf who = some t)
    (hint : (f.intervention modsec who (call t)).intervined = false) :
    f.runPhases modsec ((who, phase, call) :: rest) =
      (((f.intervention modsec who (call t)).runPhases modsec rest).1,
        .called who phase :: ((f.intervention modsec who (call t)).runPhases modsec rest).2) := by
  rw [WafFilter.runPhases, h]
  exact if_neg (by simp [hint])

end Phases

theorem keeps_runPhases (modsec : Modsecurity T) (f : WafFilter T H) (phases : List (Who × Phase × (T → T))) :
    Keeps f (f.runPhases modsec phases).1 := by
  -- by induction on the phases; an intervention ends the list early
  induction phases generalizing f with
  | nil => exact .refl f
  | cons p phases ih =>
    obtain ⟨who, phase, call⟩ := p
    rcases ht : f.transactionOf who with _ | t
    · rw [runPhases_absent ht]
      exact ih f
    · have hkeeps := keeps_intervention modsec (call t) (Option.isSome_of_eq_some ht)
      cases hint : (f.intervention modsec who (call t)).intervined with
      | true => rwa [runPhases_stop ht hint]
      | false =>
        rw [runPhases_next ht hint]
        exact hkeeps.trans (ih _)

/-- Without an intervention every phase was run. -/
theorem runPhases_calls {f : WafFilter T H} {phases : List (Who × Phase × (T → T))}
    (h : (f.runPhases modsec phases).1.intervined = false) :
    CallsOf (phases.map (·.2.1)) (f.runPhases modsec phases).2 ∧
      ∀ p ∈ phases, (f.transactionOf p.1).isSome → .called p.1 p.2.1 ∈ (f.runPhases modsec phases).2 := by
  induction phases generalizing f with
  | nil => exact ⟨by simp [CallsOf, WafFilter.runPhases], by simp⟩
  | cons p phases ih =>
    obtain ⟨who, phase, call⟩ := p
    rcases ht : f.transactionOf who with _ | t
    · rw [runPhases_absent ht] at h ⊢
      obtain ⟨hcalls, hall⟩ := ih h
      refine ⟨hcalls.mono (by simp), ?_⟩
      intro q hq hsome
      rcases List.mem_cons.1 hq with rfl | hq
      · simp [ht] at hsome
      · exact hall q hq hsome
    · have hkeeps := keeps_intervention modsec (call t) (Option.isSome_of_eq_some ht)
      cases hint : (f.intervention modsec who (call t)).intervined with
      | true =>
        rw [runPhases_stop ht hint] at h
        rw [hint] at h
        cases h
      | false =>
        rw [runPhases_next ht hint] at h ⊢
        obtain ⟨hcalls, hall⟩ := ih h
        refine ⟨?_, ?_⟩
        · intro x hx
          rcases List.mem_cons.1 hx with rfl | hx
          · exact ⟨who, phase, by simp, rfl⟩
          · exact hcalls.mono (by simp) x hx
        · intro q hq hsome
          rcases List.mem_cons.1 hq with rfl | hq
          · exact List.mem_cons_self
          · exact List.mem_cons_of_mem _ (hall q hq ((hkeeps.present q.1).trans hsome))

/-- An intervention is the last that happens. -/
theorem runPhases_intervened {f : WafFilter T H} {phases : List (Who × Phase × (T → T))} (hf : f.intervined = false)
    (h : (f.runPhases modsec phases).1.intervined = true) :
    ∃ calls who, (f.runPhases modsec phases).2 = calls ++ [.intervened who] ∧
      CallsOf (phases.map (·.2.1)) calls := by
  induction phases generalizing f with
  | nil =>
    rw [WafFilter.runPhases, hf] at h
    cases h
  | cons p phases ih =>
    obtain ⟨who, phase, call⟩ := p
    rcases ht : f.transactionOf who with _ | t
    · rw [runPhases_absent ht] at h ⊢
      obtain ⟨calls, who', heq, hcalls⟩ := ih hf h
      exact ⟨calls, who', heq, hcalls.mono (by simp)⟩
    · cases hint : (f.intervention modsec who (call t)).intervined with
      | true =>
        rw [runPhases_stop ht hint]
        refine ⟨[.called who phase], who, rfl, ?_⟩
        intro x hx
        exact ⟨who, phase, by simp, List.mem_singleton.1 hx⟩
      | false =>
        rw [runPhases_next ht hint] at h ⊢
        obtain ⟨calls, who', heq, hcalls⟩ := ih hint h
        refine ⟨.called who phase :: calls, who', by rw [heq]; rfl, ?_⟩
        intro x hx
        rcases List.mem_cons.1 hx with rfl | hx
        · exact ⟨who, phase, by simp, rfl⟩
        · exact hcalls.mono (by simp) x hx

theorem appendSlice_isSome (calls : WafFilter.BodyCalls T) (slice : Bytes) (t : Option T) :
    (calls.appendSlice slice t).1.isSome = t.isSome := by
  cases t <;> rfl

theorem keeps_appendSlices (calls : WafFilter.BodyCalls T) (f : WafFilter T H) (slices : List Bytes) :
    Keeps f (calls.appendSlices f slices).1 ∧ (calls.appendSlices f slices).1.intervined = f.intervined := by
  induction slices generalizing f with
  | nil => exact ⟨.refl f, rfl⟩
  | cons slice slices ih =>
    unfold WafFilter.BodyCalls.appendSlices
    dsimp only
    have hglobal : Keeps f { f with transaction := (calls.appendSlice slice f.transaction).1 } := by
      refine ⟨rfl, rfl, rfl, rfl, rfl, ?_⟩
      rintro (_ | _)
      · exact appendSlice_isSome calls slice f.transaction
      · rfl
    have hroute : ∀ g : WafFilter T H, Keeps g
        { g with transactionRoute := (calls.appendSlice slice g.transactionRoute).1 } := by
      intro g
      refine ⟨rfl, rfl, rfl, rfl, rfl, ?_⟩
      rintro (_ | _)
      · rfl
      · exact appendSlice_isSome calls slice g.transactionRoute
    split
    · exact ⟨hglobal, rfl⟩
    · split
      · exact ⟨hglobal.trans (hroute _), rfl⟩
      · obtain ⟨hkeeps, hint⟩ := ih _
        exact ⟨(hglobal.trans (hroute _)).trans hkeeps, hint⟩

/-- What the loop does depends on the transactions alone. -/
theorem appendSlices_eq (calls : WafFilter.BodyCalls T) (f : WafFilter T H) (slices : List Bytes) :
    calls.appendSlices f slices =
      ({ f with
        transaction := (calls.appendSlices (fresh f.transaction f.transactionRoute : WafFilter T H) slices).1.transaction
        transactionRoute :=
          (calls.appendSlices (fresh f.transaction f.transactionRoute : WafFilter T H) slices).1.transactionRoute },
      (calls.appendSlices (fresh f.transaction f.transactionRoute : WafFilter T H) slices).2) := by
  induction slices generalizing f with
  | nil => rfl
  | cons slice slices ih =>
    simp only [WafFilter.BodyCalls.appendSlices, fresh]
    by_cases hglobal : (calls.appendSlice slice f.transaction).2 = true
    · simp [hglobal]
    · by_cases hroute : (calls.appendSlice slice f.transactionRoute).2 = true
      · simp [hglobal, hroute]
      · simp only [hglobal, hroute, Bool.false_eq_true, if_false]
        exact ih _

theorem appendSlices_congr (calls : WafFilter.BodyCalls T) {f g : WafFilter T H} (h : f.transaction = g.transaction)
    (h' : f.transactionRoute = g.transactionRoute) (slices : List Bytes) :
    (calls.appendSlices f slices).1.transaction = (calls.appendSlices g slices).1.transaction ∧
      (calls.appendSlices f slices).1.transactionRoute = (calls.appendSlices g slices).1.transactionRoute ∧
      (calls.appendSlices f slices).2 = (calls.appendSlices g slices).2 := by
  rw [appendSlices_eq calls f, appendSlices_eq calls g, h, h']
  exact ⟨rfl, rfl, rfl⟩

/-- The transaction intervenes after a call. -/
def asks (modsec : Modsecurity T) (call : T → T) : Option T → Bool
  | none => false
  | some t => (modsec.intervention (call t)).2.isSome

/-- The status that it intervenes with. -/
def askedStatus (modsec : Modsecurity T) (call : T → T) (t : Option T) : Option Nat := t.bind fun t => (modsec.intervention (call t)).2

/-- The transaction after a call and the question that follows it. -/
def asked (modsec : Modsecurity T) (call : T → T) (t : Option T) : Option T := t.map fun t => (modsec.intervention (call t)).1

theorem intervention_quiet (who : Who) {call : T → T} {t : T} (hf : f.intervined = false)
    (h : asks modsec call (some t) = false) :
    f.intervention modsec who (call t) = f.setTransaction (modsec.intervention (call t)).1 who := by
  rcases hm : modsec.intervention (call t) with ⟨t', _ | status⟩
  · simp [WafFilter.intervention, hf, hm]
  · simp [asks, hm] at h

/-- An intervention that is the first. -/
theorem intervention_asks (who : Who) {call : T → T} {t : T} (hf : f.intervined = false)
    (h : asks modsec call (some t) = true) :
    (f.intervention modsec who (call t)).intervined = true ∧
      some (f.intervention modsec who (call t)).status = askedStatus modsec call (some t) := by
  rcases hm : modsec.intervention (call t) with ⟨t', _ | status⟩
  · simp [asks, hm] at h
  · simp [WafFilter.intervention, askedStatus, hf, hm]

/-- Neither transaction intervenes. -/
theorem runPhases_both_quiet (phase : Phase) {call : T → T} (hf : f.intervined = false)
    (h : asks modsec call f.transaction = false) (h' : asks modsec call f.transactionRoute = false) :
    (f.runPhases modsec (WafFilter.both phase call)).1 =
      { f with transaction := asked modsec call f.transaction, transactionRoute := asked modsec call f.transactionRoute } := by
  -- the route's turn, whatever the other transaction has become
  have hroute : ∀ g : WafFilter T H, g.intervined = false → g.transactionRoute = f.transactionRoute →
      (g.runPhases modsec [(.route, phase, call)]).1 =
        { g with transactionRoute := asked modsec call g.transactionRoute } := by
    intro g hg heq
    rcases ht : g.transactionRoute with _ | t
    · have habsent : g.transactionOf .route = none := ht
      rw [runPhases_absent habsent, WafFilter.runPhases, asked, Option.map_none, ← ht]
    · have hpresent : g.transactionOf .route = some t := ht
      have hquiet := intervention_quiet .route hg (h := (heq.symm.trans ht) ▸ h')
      rw [runPhases_next hpresent (by rw [hquiet]; exact hg), hquiet]
      rfl
  rcases ht : f.transaction with _ | t
  · have habsent : f.transactionOf .global = none := ht
    rw [WafFilter.both, runPhases_absent habsent, hroute f hf rfl]
    simp [asked, ht]
  · have hpresent : f.transactionOf .global = some t := ht
    have hquiet := intervention_quiet .global hf (h := ht ▸ h)
    rw [WafFilter.both, runPhases_next hpresent (by rw [hquiet]; exact hf), hquiet]
    exact hroute (f.setTransaction (modsec.intervention (call t)).1 .global) hf rfl

/-- One of them does, and the first that does gives the status. -/
theorem runPhases_both_asks {phase : Phase} {call : T → T} (hf : f.intervined = false)
    (h : asks modsec call f.transaction = true ∨ asks modsec call f.transactionRoute = true) :
    (f.runPhases modsec (WafFilter.both phase call)).1.intervined = true ∧
      some (f.runPhases modsec (WafFilter.both phase call)).1.status =
        (askedStatus modsec call f.transaction).or (askedStatus modsec call f.transactionRoute) := by
  have hroute : ∀ g : WafFilter T H, g.intervined = false → g.transactionRoute = f.transactionRoute →
      asks modsec call f.transactionRoute = true →
      (g.runPhases modsec [(.route, phase, call)]).1.intervined = true ∧
        some (g.runPhases modsec [(.route, phase, call)]).1.status = askedStatus modsec call f.transactionRoute := by
    intro g hg heq hasks
    rcases ht : g.transactionRoute with _ | t
    · rw [← heq, ht] at hasks
      cases hasks
    · have hpresent : g.transactionOf .route = some t := ht
      have hint := intervention_asks .route hg (h := (heq.symm.trans ht) ▸ hasks)
      rw [runPhases_stop hpresent hint.1, ← heq, ht]
      exact hint
  rcases ht : f.transaction with _ | t
  · rw [ht] at h
    have habsent : f.transactionOf .global = none := ht
    rw [WafFilter.both, runPhases_absent habsent]
    exact hroute f hf rfl (by simpa [asks] using h)
  · have hpresent : f.transactionOf .global = some t := ht
    by_cases hasks : asks modsec call (some t) = true
    · have hint := intervention_asks .global hf hasks
      rw [WafFilter.both, runPhases_stop hpresent hint.1, ← hint.2]
      exact ⟨hint.1, rfl⟩
    · have hquiet := intervention_quiet .global hf (h := by simpa using hasks)
      have hsilent : askedStatus modsec call (some t) = none := by
        simpa [asks, askedStatus] using hasks
      rw [ht] at h
      rw [WafFilter.both, runPhases_next hpresent (by rw [hquiet]; exact hf), hquiet, hsilent, Option.none_or]
      exact hroute _ hf rfl (by simpa [hasks] using h)

end Frame

/-- A transaction without rules: its rule engine and the lengths of the two
bodies. -/
def withoutRules : Modsecurity (RuleEngine × Nat × Nat) where
  getRuleEngineState t := t.1
  processConnection t _ _ _ _ := t
  processURI t _ _ _ := t
  addRequestHeader t _ _ := t
  processRequestHeaders t := t
  getRequestBodyLength t := t.2.1
  appendRequestBody t slice := ((t.1, t.2.1 + slice.length, t.2.2), true)
  processRequestBody t := t
  addResponseHeader t _ _ := t
  processResponseHeaders t _ _ := t
  getResponseBodyLength t := t.2.2
  appendResponseBody t slice := ((t.1, t.2.1, t.2.2 + slice.length), true)
  processResponseBody t := t
  intervention t := (t, none)

/-- A stream over HTTP/1.1. -/
def plainStream : StreamEnv HeaderList where
  downstreamAddress := (ascii "10.0.0.1", 80)
  localAddress := (ascii "10.0.0.1", 80)
  protocol := some .Http11
  getResponseStatus _ := 200

end EnvoyProxy.Waf
