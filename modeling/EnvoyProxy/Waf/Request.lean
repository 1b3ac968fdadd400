import EnvoyProxy.Waf.Filter
import EnvoyProxy.Lib.Runs
/-!
# Requests through the WAF

A request comes as headers, frames of data and maybe trailers. What the
filter stops is held by Envoy until a later callback lets it go; the callback
for trailers is not the filter's own and lets everything go. A local reply
ends the request. `Mediated`: nothing goes on before every transaction has
seen headers and body, and nothing goes on after an intervention.
`mediated_iff` says for which requests that is so.
-/

namespace EnvoyProxy.Waf
open Http
open WafFilter (requestBody both)

section Runs
variable {T H : Type} (modsec : Modsecurity T)

/-- What was held goes to the next filter. -/
def release (held : Bool) (data : Bytes) : List Happening := if held ∨ data ≠ [] then [.released held data] else []

/-- The frames behind the headers. `held` says whether the headers are held,
`buffered` is the data that is. -/
def decodeFrames (f : WafFilter T H) (held : Bool) (buffered : Bytes) (trailers : Bool) : List (List Bytes) → List Happening
  | [] => if trailers then release held buffered else []
  | slices :: rest =>
    let (f, status, log) := f.decodeData modsec slices (rest.isEmpty && !trailers)
    if f.isSendLocalReply then log
    else
      match status with
      | .Continue => log ++ (release held (buffered ++ slices.flatten) ++ decodeFrames f false [] trailers rest)
      | .StopIterationAndBuffer => log ++ decodeFrames f held (buffered ++ slices.flatten) trailers rest
      | .StopIterationNoBuffer => log ++ decodeFrames f held buffered trailers rest

/-- A whole request. -/
def decodeRequest [HeaderMap H] (env : StreamEnv H) (f : WafFilter T H) (request : RequestHeaders H) (route : Option T)
    (data : List (List Bytes)) (trailers : Bool) : List Happening :=
  let (f, status, log) := f.decodeHeaders modsec env request (data.isEmpty && !trailers) route
  if f.isSendLocalReply then log
  else
    match status with
    | .Continue => log ++ (release true [] ++ decodeFrames modsec f false [] trailers data)
    | _ => log ++ decodeFrames modsec f true [] trailers data

def Happening.isLocalReply : Happening → Bool
  | .localReply _ => true
  | _ => false

/-- Complete mediation, for the transactions that are present. -/
structure Mediated (present : Who → Prop) (log : List Happening) : Prop where
  checked : ∀ pre headers data post, log = pre ++ .released headers data :: post →
    (∀ who, present who → .called who .requestHeaders ∈ pre ∧ .called who .requestBody ∈ pre) ∧ ∀ who, .intervened who ∉ pre
  blocked : ∀ who, .intervened who ∈ log → log.countP Happening.isLocalReply = 1 ∧ ∀ headers data, .released headers data ∉ log

/-- Whether the body is shown to the transactions before anything goes on:
the last frame ends the request or a limit is reached before, and up to there
the rule engine holds everything. -/
def BodyInspected (f : WafFilter T H) (trailers : Bool) : List (List Bytes) → Prop
  | [] => False
  | slices :: rest =>
    ((requestBody modsec).appendSlices f slices).2 = true ∨ (rest = [] ∧ trailers = false) ∨
      (((requestBody modsec).appendSlices f slices).1.enabledRuleEngine modsec = true ∧
        BodyInspected ((requestBody modsec).appendSlices f slices).1 trailers rest)

/-! ## Logs -/

theorem CallsOf.countP {phases : List Phase} {log : List Happening} (h : CallsOf phases log) :
    log.countP Happening.isLocalReply = 0 := by
  apply List.countP_eq_zero.2
  intro x hx
  obtain ⟨who, phase, -, rfl⟩ := h x hx
  simp [Happening.isLocalReply]

theorem CallsOf.not_intervened {phases : List Phase} {log : List Happening} (h : CallsOf phases log) (who : Who) :
    .intervened who ∉ log := by
  intro hx
  obtain ⟨_, _, -, hx⟩ := h _ hx
  cases hx

theorem CallsOf.not_released {phases : List Phase} {log : List Happening} (h : CallsOf phases log)
    (headers : Bool) (data : Bytes) :
    .released headers data ∉ log := by
  intro hx
  obtain ⟨_, _, -, hx⟩ := h _ hx
  cases hx

section Mediation
variable {present : Who → Prop}

/-- An intervention that is answered. -/
theorem mediated_of_reply {phases : List Phase} {calls : List Happening} (h : CallsOf phases calls)
    (who : Who) (status : Nat) :
    Mediated present (calls ++ [.intervened who] ++ [.localReply status]) where
  checked pre headers data post hsplit := by
    have hmem : (.released headers data : Happening) ∈ calls ++ [.intervened who] ++ [.localReply status] :=
      hsplit ▸ List.mem_append_right _ List.mem_cons_self
    simp [h.not_released] at hmem
  blocked _ _ := by
    refine ⟨?_, fun headers data => by simp [h.not_released]⟩
    simp [h.countP, Happening.isLocalReply]

/-- Everything is let go after all calls. -/
theorem mediated_of_calls {phases : List Phase} {calls post : List Happening} (h : CallsOf phases calls)
    (hcalls : ∀ who, present who → .called who .requestHeaders ∈ calls ∧ .called who .requestBody ∈ calls)
    (hpost : ∀ x ∈ post, ∃ headers data, x = .released headers data) : Mediated present (calls ++ post) where
  checked pre headers data post' hsplit := by
    -- a release stands behind the calls
    obtain ⟨rest, hcs, -⟩ | ⟨rest, rfl, heq⟩ := split_append hsplit
    · exact absurd (hcs ▸ List.mem_append_right _ List.mem_cons_self) (h.not_released headers data)
    · refine ⟨fun who hwho => ?_, fun who hmem => ?_⟩
      · obtain ⟨hheaders, hbody⟩ := hcalls who hwho
        exact ⟨List.mem_append_left _ hheaders, List.mem_append_left _ hbody⟩
      · rcases List.mem_append.1 hmem with hmem | hmem
        · exact h.not_intervened who hmem
        · obtain ⟨_, _, hx⟩ := hpost _ (heq ▸ List.mem_append_left _ hmem)
          cases hx
  blocked who hmem := by
    rcases List.mem_append.1 hmem with hmem | hmem
    · exact absurd hmem (h.not_intervened who)
    · obtain ⟨_, _, hx⟩ := hpost _ hmem
      cases hx

/-- Something is let go before the body was shown. -/
theorem not_mediated {phases : List Phase} {calls post : List Happening} {headers : Bool} {data : Bytes} {who : Who}
    (h : CallsOf phases calls) (hphases : .requestBody ∉ phases) (hwho : present who) :
    ¬ Mediated present (calls ++ .released headers data :: post) := by
  intro hmediated
  obtain ⟨hcalls, -⟩ := hmediated.checked calls headers data post rfl
  obtain ⟨_, phase, hphase, heq⟩ := h _ (hcalls who hwho).2
  cases heq
  exact hphases hphase

end Mediation

/-! ## The headers -/

section Head
variable [HeaderMap H] {modsec} {env : StreamEnv H} {f : WafFilter T H} {request : RequestHeaders H} {endStream : Bool}

theorem addRequestHeaders_present (headers : H) (who : Who) :
    ((f.addRequestHeaders modsec headers).transactionOf who).isSome = (f.transactionOf who).isSome := by
  cases who <;> simp [WafFilter.addRequestHeaders, WafFilter.transactionOf]

/-- What is asked before the body, step by step. -/
theorem inspectHead_cases (modsec : Modsecurity T) (env : StreamEnv H) (request : RequestHeaders H)
    (endStream : Bool)
    (hf : f.intervined = false) :
    (∃ calls who, (f.inspectHead modsec env request endStream).1.intervined = true ∧
      (f.inspectHead modsec env request endStream).2 = calls ++ [.intervened who] ∧
      CallsOf [.connection, .uri, .requestHeaders] calls) ∨
    ((f.inspectHead modsec env request endStream).1.intervined = false ∧
      CallsOf [.connection, .uri, .requestHeaders] (f.inspectHead modsec env request endStream).2 ∧
      (∀ who, (f.transactionOf who).isSome → .called who .requestHeaders ∈
      (f.inspectHead modsec env request endStream).2) ∧
      (∀ who, ((f.inspectHead modsec env request endStream).1.transactionOf who).isSome =
      (f.transactionOf who).isSome) ∧
      (f.inspectHead modsec env request endStream).1.requestProcessed = (endStream || f.requestProcessed) ∧
      (f.inspectHead modsec env request endStream).1.isSendLocalReply = f.isSendLocalReply) := by
  unfold WafFilter.inspectHead
  dsimp only
  set first := both Phase.connection _ ++ both Phase.uri _
  have hfirst : first.map (·.2.1) ⊆ [Phase.connection, .uri, .requestHeaders] := by simp [first, both]
  cases hint : (f.runPhases modsec first).1.intervined with
  | true =>
    obtain ⟨calls, who, hlog, hcalls⟩ := runPhases_intervened hf hint
    exact .inl ⟨calls, who, by simpa using hint, by simpa using hlog, hcalls.mono hfirst⟩
  | false =>
    simp only [Bool.false_eq_true, if_false]
    obtain ⟨hcalls, -⟩ := runPhases_calls hint
    have hkeeps := keeps_runPhases modsec f first
    set g := (f.runPhases modsec first).1.addRequestHeaders modsec request.headers
    have hg : ∀ who, (g.transactionOf who).isSome = (f.transactionOf who).isSome := fun who =>
      (addRequestHeaders_present request.headers who).trans (hkeeps.present who)
    set g' := if endStream = true then { g with requestProcessed := true } else g with hg'
    have hpresent : ∀ who, (g'.transactionOf who).isSome = (f.transactionOf who).isSome := by
      intro who
      rw [← hg who, hg']
      cases endStream <;> cases who <;> rfl
    have hprocessed : g'.requestProcessed = (endStream || f.requestProcessed) := by
      rw [hg']
      cases endStream
      · exact hkeeps.requestProcessed
      · rfl
    have hopen : g'.intervined = false := by
      rw [hg']
      cases endStream <;> exact hint
    have hreply : g'.isSendLocalReply = f.isSendLocalReply := by
      rw [hg']
      cases endStream <;> exact hkeeps.isSendLocalReply
    have hlast : (both Phase.requestHeaders modsec.processRequestHeaders).map (·.2.1) ⊆
        [Phase.connection, .uri, .requestHeaders] := by simp [both]
    have hkeeps' := keeps_runPhases modsec g' (both .requestHeaders modsec.processRequestHeaders)
    cases hint' : (g'.runPhases modsec (both .requestHeaders modsec.processRequestHeaders)).1.intervined with
    | true =>
      obtain ⟨calls, who, hlog, hcalls'⟩ := runPhases_intervened hopen hint'
      refine .inl ⟨(f.runPhases modsec first).2 ++ calls, who, rfl, ?_, (hcalls.mono hfirst).append
        (hcalls'.mono hlast)⟩
      rw [hlog, List.append_assoc]
    | false =>
      obtain ⟨hcalls', hall⟩ := runPhases_calls hint'
      refine .inr ⟨rfl, (hcalls.mono hfirst).append (hcalls'.mono hlast), ?_, ?_, ?_, ?_⟩
      · intro who hwho
        refine List.mem_append_right _
          (hall (who, .requestHeaders, modsec.processRequestHeaders) ?_ ((hpresent who).trans hwho))
        cases who <;> simp [both]
      · intro who
        rw [hkeeps'.present who, hpresent who]
      · rw [hkeeps'.requestProcessed, hprocessed]
      · rw [hkeeps'.isSendLocalReply, hreply]

end Head

/-! ## The frames -/

section Frames
variable {modsec} {f : WafFilter T H} {trailers : Bool}

/-- An open request: some transaction looks at it, and none has intervened. -/
structure Open (f : WafFilter T H) : Prop where
  busy : f.isIdle = false
  intervined : f.intervined = false
  isSendLocalReply : f.isSendLocalReply = false

theorem decodeData_processed (h : Open f) (hp : f.requestProcessed = true) (slices : List Bytes) (endStream : Bool) :
    f.decodeData modsec slices endStream = (f, .Continue, []) := by
  simp [WafFilter.decodeData, WafFilter.getRequestStatus, h.busy, h.intervined, hp]

/-- A frame that is not the last to be looked at. -/
theorem decodeData_more (h : Open f) (hp : f.requestProcessed = false) {slices : List Bytes}
    (hreached : ((requestBody modsec).appendSlices f slices).2 = false) :
    f.decodeData modsec slices false = (((requestBody modsec).appendSlices f slices).1,
      if ((requestBody modsec).appendSlices f slices).1.enabledRuleEngine modsec then .StopIterationAndBuffer
      else .Continue, []) := by
  obtain ⟨hkeeps, hint⟩ := keeps_appendSlices (requestBody modsec) f slices
  simp [WafFilter.decodeData, WafFilter.getRequestStatus, h.busy, h.intervined, hp, hreached,
    hkeeps.requestProcessed, hint]

/-- The frame with which the body is looked at: an intervention is answered,
or everything goes on. -/
theorem decodeData_last (h : Open f) (hp : f.requestProcessed = false) {slices : List Bytes} {endStream : Bool}
    (hlast : endStream = true ∨ ((requestBody modsec).appendSlices f slices).2 = true) :
    (∃ f' status calls who, f.decodeData modsec slices endStream =
        (f', status, calls ++ [.intervened who] ++ [.localReply f'.status]) ∧ f'.isSendLocalReply = true ∧
        CallsOf [.requestBody] calls) ∨
    (∃ f' calls, f.decodeData modsec slices endStream = (f', .Continue, calls) ∧ Open f' ∧
    f'.requestProcessed = true ∧
        CallsOf [.requestBody] calls ∧ ∀ who, (f.transactionOf who).isSome → .called who .requestBody ∈ calls) := by
  obtain ⟨hkeeps, hint⟩ := keeps_appendSlices (requestBody modsec) f slices
  have hlast' : (endStream || ((requestBody modsec).appendSlices f slices).2) = true := by simpa using hlast
  set g : WafFilter T H := { ((requestBody modsec).appendSlices f slices).1 with requestProcessed := true } with hg
  have hpresent : ∀ who, (g.transactionOf who).isSome = (f.transactionOf who).isSome := by
    intro who
    rw [← hkeeps.present who, hg]
    cases who <;> rfl
  set body := both Phase.requestBody modsec.processRequestBody with hbody
  have hphases : body.map (·.2.1) ⊆ [Phase.requestBody] := by simp [hbody, both]
  have hkeeps' := keeps_runPhases modsec g body
  have hdecode : f.decodeData modsec slices endStream =
      if (g.runPhases modsec body).1.intervined then
        ({ (g.runPhases modsec body).1 with isSendLocalReply := true }, .StopIterationNoBuffer,
          (g.runPhases modsec body).2 ++ [.localReply (g.runPhases modsec body).1.status])
      else ((g.runPhases modsec body).1, (g.runPhases modsec body).1.getRequestStatus modsec,
        (g.runPhases modsec body).2) := by
    simp only [WafFilter.decodeData, h.busy, h.intervined, hp, hlast', if_true, Bool.false_eq_true,
      if_false, or_self]
    rfl
  cases hint' : (g.runPhases modsec body).1.intervined with
  | true =>
    obtain ⟨calls, who, hlog, hcalls⟩ := runPhases_intervened (hg ▸ hint.trans h.intervined) hint'
    refine .inl ⟨{ (g.runPhases modsec body).1 with isSendLocalReply := true },
      .StopIterationNoBuffer, calls, who, ?_, rfl,
      hcalls.mono hphases⟩
    rw [hdecode, if_pos hint', hlog]
  | false =>
    obtain ⟨hcalls, hall⟩ := runPhases_calls hint'
    refine .inr ⟨(g.runPhases modsec body).1, (g.runPhases modsec body).2, ?_, ⟨?_, hint', ?_⟩,
      hkeeps'.requestProcessed,
      hcalls.mono hphases, ?_⟩
    · rw [hdecode, if_neg (by simp [hint'])]
      have hdone : (g.runPhases modsec body).1.requestProcessed = true := hkeeps'.requestProcessed
      simp [WafFilter.getRequestStatus, hint', hdone]
    · rw [hkeeps'.isIdle, ← h.busy, ← hkeeps.isIdle]
      rfl
    · rw [hkeeps'.isSendLocalReply, ← h.isSendLocalReply, ← hkeeps.isSendLocalReply]
    · intro who hwho
      refine hall (who, .requestBody, modsec.processRequestBody) ?_ ((hpresent who).trans hwho)
      cases who <;> simp [hbody, both]

theorem mem_release {held : Bool} {data : Bytes} {x : Happening} (h : x ∈ release held data) :
    ∃ headers data, x = .released headers data := by
  unfold release at h
  split at h
  · exact ⟨held, data, List.mem_singleton.1 h⟩
  · cases h

/-- Once the body was looked at, everything goes on. -/
theorem decodeFrames_processed (h : Open f) (hp : f.requestProcessed = true) (held : Bool) (buffered : Bytes)
    (data : List (List Bytes)) :
    ∀ x ∈ decodeFrames modsec f held buffered trailers data, ∃ headers data, x = .released headers data := by
  induction data generalizing held buffered with
  | nil =>
    intro x hx
    rw [decodeFrames] at hx
    split at hx
    · exact mem_release hx
    · cases hx
  | cons slices data ih =>
    intro x hx
    rw [decodeFrames, decodeData_processed h hp] at hx
    simp only [h.isSendLocalReply, Bool.false_eq_true, if_false, List.nil_append] at hx
    rcases List.mem_append.1 hx with hx | hx
    · exact mem_release hx
    · exact ih false [] x hx

/-- With the headers held, the frames decide. -/
theorem decodeFrames_mediated (modsec : Modsecurity T) {present : Who → Prop} {head : List Happening} {who : Who}
    (hhead : CallsOf [.connection, .uri, .requestHeaders] head) (hwho : present who)
    (hheaders : ∀ who, present who → .called who .requestHeaders ∈ head) (h : Open f)
    (hp : f.requestProcessed = false)
    (hpresent : ∀ who, present who → (f.transactionOf who).isSome) (buffered : Bytes) (data : List (List Bytes))
    (hmore : data = [] → trailers = true) :
    Mediated present (head ++ decodeFrames modsec f true buffered trailers data) ↔
    BodyInspected modsec f trailers data := by
  induction data generalizing f buffered with
  | nil =>
    -- only trailers are left, and let the headers go
    refine iff_of_false ?_ (by simp [BodyInspected])
    rw [decodeFrames, if_pos (hmore rfl), release, if_pos (.inl rfl)]
    exact not_mediated hhead (by simp) hwho
  | cons slices rest ih =>
    by_cases hlast : ((requestBody modsec).appendSlices f slices).2 = true ∨ (rest = [] ∧ trailers = false)
    · have hend : (rest.isEmpty && !trailers) = true ∨ ((requestBody modsec).appendSlices f slices).2 = true := by
        rcases hlast with hreached | ⟨rfl, rfl⟩
        · exact .inr hreached
        · exact .inl rfl
      -- with this frame the body phase is run, whatever it says
      have hboth : ∀ calls, CallsOf [.requestBody] calls →
          CallsOf [.connection, .uri, .requestHeaders, .requestBody] (head ++ calls) :=
        fun calls hcalls => (hhead.mono (by simp)).append (hcalls.mono (by simp))
      refine iff_of_true ?_ ?_
      · rw [decodeFrames]
        obtain ⟨f', status, calls, who', hdecode, hreply, hcalls⟩ | ⟨f', calls, hdecode, hopen, hp', hcalls, hall⟩ :=
          decodeData_last h hp hend
        · simp only [hdecode, hreply, if_true]
          rw [← List.append_assoc, ← List.append_assoc]
          exact mediated_of_reply (hboth calls hcalls) who' _
        · simp only [hdecode, hopen.isSendLocalReply, Bool.false_eq_true, if_false]
          rw [← List.append_assoc]
          refine mediated_of_calls (hboth calls hcalls) ?_ ?_
          · intro who' hwho'
            exact ⟨List.mem_append_left _ (hheaders who' hwho'), List.mem_append_right _
              (hall who' (hpresent who' hwho'))⟩
          · intro x hx
            rcases List.mem_append.1 hx with hx | hx
            · exact mem_release hx
            · exact decodeFrames_processed hopen hp' false [] rest x hx
      · rcases hlast with hreached | hend
        · exact .inl hreached
        · exact .inr (.inl hend)
    · rw [not_or] at hlast
      have hreached : ((requestBody modsec).appendSlices f slices).2 = false := by simpa using hlast.1
      have hend : (rest.isEmpty && !trailers) = false := endStream_eq_false hlast.2
      obtain ⟨hkeeps, hint⟩ := keeps_appendSlices (requestBody modsec) f slices
      have hopen : Open ((requestBody modsec).appendSlices f slices).1 :=
        ⟨hkeeps.isIdle.trans h.busy, hint.trans h.intervined, hkeeps.isSendLocalReply.trans h.isSendLocalReply⟩
      rw [decodeFrames, hend, decodeData_more h hp hreached]
      simp only [hopen.isSendLocalReply, Bool.false_eq_true, if_false]
      cases henabled : ((requestBody modsec).appendSlices f slices).1.enabledRuleEngine modsec with
      | true =>
        simp only [if_true, List.nil_append]
        rw [ih hopen (hkeeps.requestProcessed.trans hp)
          (fun who' hwho' => (hkeeps.present who').trans (hpresent who' hwho'))]
        · simp [BodyInspected, hreached, henabled, hlast.2]
        · rintro rfl
          simpa using hend
      | false =>
        -- nothing holds the frame
        refine iff_of_false ?_ ?_
        · simp only [Bool.false_eq_true, if_false, List.nil_append]
          rw [release, if_pos (.inl rfl)]
          exact not_mediated hhead (by simp) hwho
        · simp [BodyInspected, hreached, henabled, hlast.2]

end Frames

/-! ## Requests -/

section Requests
variable [HeaderMap H]

omit [HeaderMap H] in
theorem fresh_busy {global route : Option T} (h : global.isSome ∨ route.isSome) :
    (fresh global route : WafFilter T H).isIdle = false := by
  rcases h with h | h <;> simp [fresh, WafFilter.isIdle, ← Option.not_isSome, h]

theorem decodeHeaders_fresh (modsec : Modsecurity T) (env : StreamEnv H) {global route : Option T}
    (hpresent : global.isSome ∨ route.isSome) (request : RequestHeaders H) (endStream : Bool) :
    WafFilter.decodeHeaders modsec env { transaction := global } request endStream route =
      let head := (fresh global route).inspectHead modsec env request endStream
      if head.1.intervined then ({ head.1 with isSendLocalReply := true }, .StopIteration,
        head.2 ++ [.localReply head.1.status])
      else (head.1, head.1.getRequestHeadersStatus modsec, head.2) := by
  have hbusy : ({ transaction := global, transactionRoute := route } : WafFilter T H).isIdle =
    false := fresh_busy hpresent
  simp only [WafFilter.decodeHeaders, Bool.false_eq_true, or_self, if_false, Option.or_none, hbusy]
  rfl

/-- For every request and every two transactions: nothing goes on unseen when
a transaction intervenes before the body, or when the request has a body or
trailers, the rule engine that counts holds the headers, and the body is
inspected. -/
theorem mediated_iff (modsec : Modsecurity T) (env : StreamEnv H) (global route : Option T)
    (hpresent : global.isSome ∨ route.isSome) (request : RequestHeaders H) (data : List (List Bytes)) (trailers : Bool) :
    Mediated (fun who => ((fresh global route : WafFilter T H).transactionOf who).isSome)
        (decodeRequest modsec env { transaction := global } request route data trailers) ↔
      ((fresh global route).inspectHead modsec env request (data.isEmpty && !trailers)).1.intervined = true ∨
      (¬ (data = [] ∧ trailers = false) ∧
        ((fresh global route).inspectHead modsec env request (data.isEmpty && !trailers)).1.enabledRuleEngine
          modsec = true ∧
        BodyInspected modsec ((fresh global route).inspectHead modsec env request (data.isEmpty && !trailers)).1
          trailers data) := by
  obtain ⟨who, hwho⟩ : ∃ who, ((fresh global route : WafFilter T H).transactionOf who).isSome := by
    rcases hpresent with h | h
    · exact ⟨.global, h⟩
    · exact ⟨.route, h⟩
  unfold decodeRequest
  rw [decodeHeaders_fresh modsec env hpresent]
  set head := (fresh global route).inspectHead modsec env request (data.isEmpty && !trailers) with hhead
  obtain ⟨calls, who', hint, hlog, hcalls⟩ | ⟨hint, hcalls, hheaders, hsome, hprocessed, hreply⟩ :=
    inspectHead_cases modsec env request (data.isEmpty && !trailers) (f := fresh global route) rfl
  · rw [← hhead] at hint hlog
    refine iff_of_true ?_ (.inl hint)
    simp only [hint, if_true, hlog]
    exact mediated_of_reply hcalls who' _
  · rw [← hhead] at hint hcalls hheaders hsome hprocessed hreply
    have hreply' : head.1.isSendLocalReply = false := hreply
    simp only [hint, Bool.false_eq_true, if_false, hreply', false_or]
    have hgone : ¬ Mediated (fun who => ((fresh global route : WafFilter T H).transactionOf who).isSome)
        (head.2 ++ (release true [] ++ decodeFrames modsec head.1 false [] trailers data)) := by
      rw [release, if_pos (.inl rfl)]
      exact not_mediated hcalls (by simp) hwho
    by_cases hend : data = [] ∧ trailers = false
    · -- the headers are all there is, and go on
      obtain ⟨rfl, rfl⟩ := hend
      have hstatus : head.1.getRequestHeadersStatus modsec = .Continue := by
        simp [WafFilter.getRequestHeadersStatus, hint, hprocessed]
      rw [hstatus]
      exact iff_of_false hgone (by simp)
    · have hprocessed' : head.1.requestProcessed = false := by
        rw [hprocessed, endStream_eq_false hend]
        rfl
      cases henabled : head.1.enabledRuleEngine modsec with
      | true =>
        have hstatus : head.1.getRequestHeadersStatus modsec = .StopIteration := by
          simp [WafFilter.getRequestHeadersStatus, hint, hprocessed', henabled]
        have hopen : Open head.1 := ⟨(isIdle_congr hsome).trans (fresh_busy hpresent), hint, hreply'⟩
        have hmore : data = [] → trailers = true := by
          intro hnil
          by_contra htrailers
          exact hend ⟨hnil, by simpa using htrailers⟩
        rw [hstatus]
        have hframes := decodeFrames_mediated modsec hcalls hwho hheaders hopen hprocessed'
          (fun who' hwho' => (hsome who').trans hwho') [] data hmore
        simpa [hend] using hframes
      | false =>
        have hstatus : head.1.getRequestHeadersStatus modsec = .Continue := by
          simp [WafFilter.getRequestHeadersStatus, hint, hprocessed', henabled]
        rw [hstatus]
        exact iff_of_false hgone (by simp)

end Requests

end Runs

/-- A request with a body in one frame. -/
theorem one_frame_mediated :
    Mediated (fun who => ((fresh (some (.EnabledRuleEngine, 0, 0)) none :
        WafFilter (RuleEngine × Nat × Nat) HeaderList).transactionOf who).isSome)
      (decodeRequest withoutRules plainStream { transaction := some (.EnabledRuleEngine, 0, 0) }
        (plainRequest "POST" "h" "/") none [[ascii "a=1"]] false) :=
  (mediated_iff withoutRules plainStream (some (.EnabledRuleEngine, 0, 0)) none (.inl rfl) (plainRequest "POST" "h" "/")
    [[ascii "a=1"]] false).2 (.inr ⟨by simp, rfl, .inr (.inl ⟨rfl, rfl⟩)⟩)

/-- A request without a body goes on before its transaction has run the body
phase. -/
theorem headers_only_unmediated :
    ¬ Mediated (fun who => ((fresh (some (.EnabledRuleEngine, 0, 0)) none :
        WafFilter (RuleEngine × Nat × Nat) HeaderList).transactionOf who).isSome)
      (decodeRequest withoutRules plainStream { transaction := some (.EnabledRuleEngine, 0, 0) }
        (plainRequest "GET" "h" "/?q=attack") none [] false) := by
  intro hmediated
  have hrelease := (hmediated.checked [.called .global .connection, .called .global .uri,
    .called .global .requestHeaders]
    true [] [] rfl).1 .global rfl
  exact absurd hrelease.2 (by decide)

end EnvoyProxy.Waf
