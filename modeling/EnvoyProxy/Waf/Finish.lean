import EnvoyProxy.Waf.Request
import EnvoyProxy.Waf.Response
/-!
# The end of a message

The filter has no work of its own that could let a message go later, so the
end of a message must not be stopped. A run is any order of the filter's
callbacks; `Held` says that a callback stops the end of a response, or that of
a request that has got no local reply. `never_held_iff` says for which runs
that does not happen.
-/

namespace EnvoyProxy.Waf
open Http
open WafFilter (responseBody requestBody both)

section Runs
variable (T H : Type) [HeaderMap H]

/-- A call of the filter; `buffer` is Envoy's encoding buffer. -/
inductive Callback
  | decodeHeaders (request : RequestHeaders H) (endStream : Bool) (route : Option T)
  | decodeData (slices : List Bytes) (endStream : Bool)
  | encodeHeaders (headers : H) (endStream : Bool) (buffer : Option (List Piece))
  | encodeData (slices : List Bytes) (endStream : Bool) (buffer : Option (List Piece))

/-- The filter of a stream and what has happened. -/
structure Watch where
  filter : WafFilter T H := {}
  log : List Happening := []

variable {T H}

def Callback.endStream : Callback T H → Bool
  | .decodeHeaders _ endStream _ | .decodeData _ endStream | .encodeHeaders _ endStream _ | .encodeData _ endStream _ => endStream

def Callback.isRequest : Callback T H → Bool
  | .decodeHeaders .. | .decodeData .. => true
  | .encodeHeaders .. | .encodeData .. => false

/-- What the filter answers. -/
inductive Answer
  | headers (status : FilterHeadersStatus)
  | data (status : FilterDataStatus)
  deriving DecidableEq

def Answer.continues (a : Answer) : Prop := a = .headers .Continue ∨ a = .data .Continue

def Watch.call (modsec : Modsecurity T) (env : StreamEnv H) (w : Watch T H) : Callback T H → Watch T H × Answer
  | .decodeHeaders request endStream route =>
    let (filter, status, log) := w.filter.decodeHeaders modsec env request endStream route
    ({ filter, log := w.log ++ log }, .headers status)
  | .decodeData slices endStream =>
    let (filter, status, log) := w.filter.decodeData modsec slices endStream
    ({ filter, log := w.log ++ log }, .data status)
  | .encodeHeaders headers endStream buffer =>
    let (filter, status, _) := w.filter.encodeHeaders modsec env headers endStream buffer
    ({ w with filter }, .headers status)
  | .encodeData slices endStream buffer =>
    let (filter, status, _) := w.filter.encodeData modsec slices endStream buffer
    ({ w with filter }, .data status)

def Watch.next (modsec : Modsecurity T) (env : StreamEnv H) (w : Watch T H) (c : Callback T H) : Watch T H := (w.call modsec env c).1

/-- The request has got a local reply of the filter. -/
def Answered (log : List Happening) : Prop := ∃ status, .localReply status ∈ log

/-- The end of a message is stopped. -/
def Held (modsec : Modsecurity T) (env : StreamEnv H) (w : Watch T H) (c : Callback T H) : Prop :=
  c.endStream = true ∧ ¬ (w.call modsec env c).2.continues ∧ (c.isRequest = true → ¬ Answered (w.next modsec env c).log)

/-- A response that is only headers is let go when nobody looks at it any
more, or when nobody intervenes and the rule engine is not enabled; a request
ends before an intervention of the response. -/
def LetGo (modsec : Modsecurity T) (env : StreamEnv H) (w : Watch T H) : Callback T H → Prop
  | .encodeHeaders headers true _ =>
    w.filter.isIdle = true ∨ w.filter.intervined = true ∨ w.filter.responseProcessed = true ∨
      (headIntervenes modsec env w.filter.transaction w.filter.transactionRoute headers = false ∧
        (afterHead modsec env w.filter.transaction w.filter.transactionRoute headers).enabledRuleEngine modsec = false)
  | .decodeHeaders _ true _ | .decodeData _ true => w.filter.intervined = true → Answered w.log
  | _ => True

/-- A transaction intervenes only if there is one; a local reply is sent only
after that, and the filter knows of it. -/
structure Honest (w : Watch T H) : Prop where
  busy : w.filter.intervined = true → w.filter.isIdle = false
  intervined : w.filter.isSendLocalReply = true → w.filter.intervined = true
  answered : w.filter.isSendLocalReply = true ↔ Answered w.log

/-! ## What a callback changes -/

theorem answered_append {log log' : List Happening} : Answered (log ++ log') ↔ Answered log ∨ Answered log' := by
  simp [Answered, exists_or]

theorem CallsOf.not_answered {phases : List Phase} {log : List Happening} (h : CallsOf phases log) :
    ¬ Answered log := by
  rintro ⟨status, hmem⟩
  obtain ⟨who, phase, -, heq⟩ := h _ hmem
  cases heq

theorem not_answered_nil : ¬ Answered [] := by
  rintro ⟨status, hmem⟩
  cases hmem

/-- A filter that was busy stays so, an intervention stays, and a local reply
comes with one. -/
structure Follows (f f' : WafFilter T H) (log : List Happening) : Prop where
  busy : f.isIdle = false → f'.isIdle = false
  stays : f.intervined = true → f'.intervined = true
  watched : f'.intervined = true → f.intervined = true ∨ f'.isIdle = false
  reply : (f'.isSendLocalReply = f.isSendLocalReply ∧ ¬ Answered log) ∨
    (f'.isSendLocalReply = true ∧ f'.intervined = true ∧ Answered log)

omit [HeaderMap H] in
theorem Follows.refl (f : WafFilter T H) : Follows f f [] := ⟨id, id, .inl, .inl ⟨rfl, not_answered_nil⟩⟩

omit [HeaderMap H] in
theorem Honest.next {w : Watch T H} (hw : Honest w) {f : WafFilter T H} {log : List Happening}
    (h : Follows w.filter f log) :
    Honest { filter := f, log := w.log ++ log } where
  busy hint := by
    rcases h.watched hint with hbefore | hbusy
    · exact h.busy (hw.busy hbefore)
    · exact hbusy
  intervined hreply := by
    rcases h.reply with ⟨hsame, -⟩ | ⟨-, hint, -⟩
    · exact h.stays (hw.intervined (hsame ▸ hreply))
    · exact hint
  answered := by
    rw [answered_append]
    rcases h.reply with ⟨hsame, hnot⟩ | ⟨hsent, -, hanswered⟩
    · show f.isSendLocalReply = true ↔ _
      rw [hsame, hw.answered]
      simp [hnot]
    · exact iff_of_true hsent (.inr hanswered)

variable {modsec : Modsecurity T} {env : StreamEnv H} {f : WafFilter T H}

theorem inspectHead_present (request : RequestHeaders H) (endStream : Bool) (who : Who) :
    ((f.inspectHead modsec env request endStream).1.transactionOf who).isSome = (f.transactionOf who).isSome := by
  unfold WafFilter.inspectHead
  dsimp only
  set first := both Phase.connection _ ++ both Phase.uri _
  have hkeeps := keeps_runPhases modsec f first
  split
  · exact hkeeps.present who
  · rw [(keeps_runPhases modsec _ _).present who, ← hkeeps.present who]
    cases endStream <;> cases who <;> simp [WafFilter.addRequestHeaders, WafFilter.transactionOf]

/-- The end of a request passes or is answered, unless an intervention is
already there. -/
theorem decodeHeaders_follows (modsec : Modsecurity T) (env : StreamEnv H) (f : WafFilter T H)
    (request : RequestHeaders H) (endStream : Bool) (route : Option T) :
    Follows f (f.decodeHeaders modsec env request endStream route).1
        (f.decodeHeaders modsec env request endStream route).2.2 ∧
      (f.intervined = true → f.decodeHeaders modsec env request endStream route = (f, .StopIteration, [])) ∧
      (f.intervined = false → endStream = true →
        (f.decodeHeaders modsec env request endStream route).2.1 = .Continue ∨
          Answered (f.decodeHeaders modsec env request endStream route).2.2) := by
  unfold WafFilter.decodeHeaders
  split_ifs with hseen
  · refine ⟨.refl f, ?_, ?_⟩
    · intro hint
      simp [WafFilter.getRequestHeadersStatus, hint]
    · intro hint _
      have hprocessed : f.requestProcessed = true := by simpa [hint] using hseen
      exact .inl (by simp [WafFilter.getRequestHeadersStatus, hint, hprocessed])
  · obtain ⟨hint, hprocessed⟩ : f.intervined = false ∧ f.requestProcessed = false := by simpa using hseen
    dsimp only
    set g : WafFilter T H := { f with transactionRoute := route.or f.transactionRoute } with hg
    have hbusy : f.isIdle = false → g.isIdle = false := by
      simp only [hg, WafFilter.isIdle]
      cases f.transaction <;> cases f.transactionRoute <;> cases route <;> simp
    split_ifs with hidle hasks
    · refine ⟨⟨hbusy, ?_, ?_, .inl ⟨rfl, not_answered_nil⟩⟩, ?_, fun _ _ => .inl rfl⟩
      · intro hbefore
        exact hbefore
      · intro hafter
        exact .inl hafter
      · intro hbefore
        exact absurd hbefore (by simp [hint])
    · have hpresent : (g.inspectHead modsec env request endStream).1.isIdle = false := by
        rw [isIdle_congr (inspectHead_present request endStream)]
        simpa using hidle
      have hanswered : Answered ((g.inspectHead modsec env request endStream).2 ++
          [.localReply (g.inspectHead modsec env request endStream).1.status]) :=
        answered_append.2 (.inr ⟨_, List.mem_singleton_self _⟩)
      refine ⟨⟨fun _ => hpresent, fun _ => hasks, fun _ => .inr hpresent,
        .inr ⟨rfl, hasks, hanswered⟩⟩, ?_, fun _ _ => .inr hanswered⟩
      intro hbefore
      exact absurd hbefore (by simp [hint])
    · rcases inspectHead_cases modsec env request endStream
        (f := g) hint with ⟨_, _, hintervened, -, -⟩ | ⟨hquiet, hcalls, -, hpresent, hend, hsent⟩
      · exact absurd hintervened hasks
      · refine ⟨⟨?_, ?_, ?_, .inl ⟨hsent, hcalls.not_answered⟩⟩, ?_, ?_⟩
        · intro hbefore
          rw [isIdle_congr hpresent]
          exact hbusy hbefore
        · intro hbefore
          exact absurd hbefore (by simp [hint])
        · intro hafter
          exact absurd hafter hasks
        · intro hbefore
          exact absurd hbefore (by simp [hint])
        · rintro - rfl
          left
          simp [WafFilter.getRequestHeadersStatus, hquiet, hend]

omit [HeaderMap H] in
theorem decodeData_follows (modsec : Modsecurity T) (f : WafFilter T H) (slices : List Bytes) (endStream : Bool) :
    Follows f (f.decodeData modsec slices endStream).1 (f.decodeData modsec slices endStream).2.2 ∧
      (f.isIdle = false → f.intervined = true →
        f.decodeData modsec slices endStream = (f, .StopIterationNoBuffer, [])) ∧
      (f.intervined = false → endStream = true →
        (f.decodeData modsec slices endStream).2.1 = .Continue ∨
          Answered (f.decodeData modsec slices endStream).2.2) := by
  unfold WafFilter.decodeData
  split_ifs with hidle hseen
  · refine ⟨.refl f, ?_, fun _ _ => .inl rfl⟩
    intro hbusy
    exact absurd hidle (by simp [hbusy])
  · refine ⟨.refl f, ?_, ?_⟩
    · intro _ hint
      simp [WafFilter.getRequestStatus, hint]
    · intro hint _
      have hprocessed : f.requestProcessed = true := by simpa [hint] using hseen
      exact .inl (by simp [WafFilter.getRequestStatus, hint, hprocessed])
  · obtain ⟨hint, -⟩ : f.intervined = false ∧ f.requestProcessed = false := by simpa using hseen
    obtain ⟨hkeeps, hopen⟩ := keeps_appendSlices (requestBody modsec) f slices
    have hnever : ∀ {p : Prop}, f.intervined = true → p := fun hbefore => absurd hbefore (by simp [hint])
    dsimp only
    split_ifs with hlast hasks
    · have hphases := keeps_runPhases modsec
        { ((requestBody modsec).appendSlices f slices).1 with requestProcessed := true }
        (both .requestBody modsec.processRequestBody)
      have hpresent : f.isIdle = _ := (hphases.isIdle.trans hkeeps.isIdle).symm
      have hanswered : ∀ log status, Answered (log ++ [.localReply status]) := fun _ status =>
        answered_append.2 (.inr ⟨status, List.mem_singleton_self _⟩)
      refine ⟨⟨?_, fun _ => hasks, ?_, .inr ⟨rfl, hasks, hanswered _ _⟩⟩, fun _ => hnever,
        fun _ _ => .inr (hanswered _ _)⟩
      · intro hbusy
        exact hpresent.symm.trans hbusy
      · intro _
        exact .inr (hpresent.symm.trans (by simpa using hidle))
    · have hphases := keeps_runPhases modsec
        { ((requestBody modsec).appendSlices f slices).1 with requestProcessed := true }
        (both .requestBody modsec.processRequestBody)
      obtain ⟨hcalls, -⟩ := runPhases_calls (Bool.not_eq_true _ ▸ hasks)
      refine ⟨⟨?_, hnever, ?_, .inl ⟨?_, hcalls.not_answered⟩⟩, fun _ => hnever, ?_⟩
      · intro hbusy
        exact (hphases.isIdle.trans hkeeps.isIdle).trans hbusy
      · intro hafter
        exact absurd hafter hasks
      · exact hphases.isSendLocalReply.trans hkeeps.isSendLocalReply
      · intro _ _
        exact .inl (by simp [WafFilter.getRequestStatus, hasks, hphases.requestProcessed])
    · refine ⟨⟨?_, hnever, ?_, .inl ⟨hkeeps.isSendLocalReply, not_answered_nil⟩⟩, fun _ => hnever, ?_⟩
      · intro hbusy
        exact hkeeps.isIdle.trans hbusy
      · intro hafter
        exact hnever (hopen ▸ hafter)
      · rintro - rfl
        simp at hlast

theorem keeps_sendEncodeReply (f : WafFilter T H) (buffer : Option (List Piece)) :
    (f.sendEncodeReply buffer).1.intervined = f.intervined ∧
      (f.sendEncodeReply buffer).1.isSendLocalReply = f.isSendLocalReply ∧
      (f.sendEncodeReply buffer).1.isIdle = f.isIdle := by
  unfold WafFilter.sendEncodeReply
  split
  · cases buffer <;> exact ⟨rfl, rfl, rfl⟩
  · exact ⟨rfl, rfl, rfl⟩

omit [HeaderMap H] in
/-- A callback of the response while some transaction looks at it. -/
theorem follows_response {f g : WafFilter T H} (hbusy : g.isIdle = false)
    (hstays : f.intervined = true → g.intervined = true)
    (hsent : g.isSendLocalReply = f.isSendLocalReply) : Follows f g [] where
  busy _ := hbusy
  stays := hstays
  watched _ := .inr hbusy
  reply := .inl ⟨hsent, not_answered_nil⟩

theorem encodeHeaders_follows (modsec : Modsecurity T) (env : StreamEnv H) (f : WafFilter T H)
    (headers : H) (endStream : Bool)
    (buffer : Option (List Piece)) :
    Follows f (f.encodeHeaders modsec env headers endStream buffer).1 [] ∧
      ((f.encodeHeaders modsec env headers endStream buffer).2.1 = .Continue ↔
        f.isIdle = true ∨ f.intervined = true ∨ f.responseProcessed = true ∨
          (headIntervenes modsec env f.transaction f.transactionRoute headers = false ∧
            (afterHead modsec env f.transaction f.transactionRoute headers).enabledRuleEngine modsec = false)) := by
  by_cases hidle : f.isIdle = true
  · simp [WafFilter.encodeHeaders, hidle, Follows.refl]
  · by_cases hseen : f.intervined = true ∨ f.responseProcessed = true
    · have hstatus : f.encodeHeaders modsec env headers endStream buffer = (f, .Continue, buffer) := by
        simp [WafFilter.encodeHeaders, WafFilter.getResponseHeadersStatus, hidle, hseen]
      rw [hstatus]
      refine ⟨.refl f, iff_of_true rfl ?_⟩
      rcases hseen with hint | hprocessed
      · exact .inr (.inl hint)
      · exact .inr (.inr (.inl hprocessed))
    · have hbusy : f.isIdle = false := by simpa using hidle
      obtain ⟨hint, hprocessed⟩ : f.intervined = false ∧ f.responseProcessed = false := by simpa using hseen
      obtain ⟨g, hkeeps, hasks, hquiet, hencode⟩ := encodeHeaders_open modsec env hbusy hint
        hprocessed headers endStream buffer
      have hbusy' : g.isIdle = false := hkeeps.isIdle.trans hbusy
      have hnever : ∀ {p : Prop}, f.intervined = true → p := fun hbefore => absurd hbefore (by simp [hint])
      rw [hencode]
      simp only [hbusy, hint, hprocessed, ← hasks, Bool.false_eq_true, false_or]
      cases hint' : g.intervined with
      | true =>
        obtain ⟨-, hsent, hidle'⟩ := keeps_sendEncodeReply g buffer
        exact ⟨follows_response (hidle'.trans hbusy') hnever (hsent.trans hkeeps.isSendLocalReply), by simp⟩
      | false =>
        obtain ⟨hglobal, hroute⟩ := hquiet hint'
        refine ⟨follows_response hbusy' hnever hkeeps.isSendLocalReply, ?_⟩
        rw [← enabledRuleEngine_congr hglobal hroute]
        have hprocessed' : g.responseProcessed = false := hkeeps.responseProcessed.trans hprocessed
        simp [WafFilter.getResponseHeadersStatus, hint', hprocessed']

/-- A filter that has sent a reply knows that it has intervened, so the end of
a response in frames passes. -/
theorem encodeData_follows (modsec : Modsecurity T) {f : WafFilter T H}
    (hsent : f.isSendLocalReply = true → f.intervined = true)
    (slices : List Bytes) (endStream : Bool) (buffer : Option (List Piece)) :
    Follows f (f.encodeData modsec slices endStream buffer).1 [] ∧
      (endStream = true → (f.encodeData modsec slices endStream buffer).2.1 = .Continue) := by
  unfold WafFilter.encodeData
  split_ifs with hidle hseen
  · exact ⟨.refl f, fun _ => rfl⟩
  · refine ⟨.refl f, fun _ => if_pos ?_⟩
    rcases hseen with hprocessed | hreply
    · exact .inr hprocessed
    · exact .inl (hsent hreply)
  · set g : WafFilter T H := { f with endStream } with hg
    have hbusy : g.isIdle = false := Bool.eq_false_iff.2 hidle
    obtain ⟨hkeeps, -⟩ := keeps_appendSlices (responseBody modsec) g slices
    -- the filter once the body has been looked at
    set seen := (WafFilter.runPhases modsec
      { ((responseBody modsec).appendSlices g slices).1 with responseProcessed := true }
      (both .responseBody modsec.processResponseBody)).1 with hseen'
    have hphases := keeps_runPhases modsec
      { ((responseBody modsec).appendSlices g slices).1 with responseProcessed := true }
      (both .responseBody modsec.processResponseBody)
    have hbusy' : seen.isIdle = false := (hphases.isIdle.trans hkeeps.isIdle).trans hbusy
    have hsent' : seen.isSendLocalReply = f.isSendLocalReply :=
      hphases.isSendLocalReply.trans hkeeps.isSendLocalReply
    dsimp only
    split_ifs with hint hend hlast hasks
    · obtain ⟨hint', hsame, hidle'⟩ := keeps_sendEncodeReply g buffer
      refine ⟨follows_response (hidle'.trans hbusy) (fun _ => hint'.trans hint) hsame, fun _ => if_pos ?_⟩
      exact .inl (hint'.trans hint)
    · refine ⟨follows_response hbusy (fun hbefore => hbefore) rfl, ?_⟩
      intro hlast
      exact absurd hlast hend
    · obtain ⟨-, hsame, hidle'⟩ := keeps_sendEncodeReply seen buffer
      refine ⟨follows_response (hidle'.trans hbusy') ?_ (hsame.trans hsent'), fun _ => rfl⟩
      intro hbefore
      exact absurd hbefore hint
    · refine ⟨follows_response hbusy' ?_ hsent', fun _ => if_pos ?_⟩
      · intro hbefore
        exact absurd hbefore hint
      · exact .inr hphases.responseProcessed
    · refine ⟨follows_response (hkeeps.isIdle.trans hbusy) ?_ hkeeps.isSendLocalReply, ?_⟩
      · intro hbefore
        exact absurd hbefore hint
      · rintro rfl
        simp at hlast

/-! ## Runs -/

theorem honest_next (modsec : Modsecurity T) (env : StreamEnv H) (w : Watch T H) (c : Callback T H) (hw : Honest w) :
    Honest (w.next modsec env c) := by
  cases c with
  | decodeHeaders request endStream route =>
    exact hw.next (decodeHeaders_follows modsec env w.filter request endStream route).1
  | decodeData slices endStream => exact hw.next (decodeData_follows modsec w.filter slices endStream).1
  | encodeHeaders headers endStream buffer =>
    have h := hw.next (encodeHeaders_follows modsec env w.filter headers endStream buffer).1
    rwa [List.append_nil] at h
  | encodeData slices endStream buffer =>
    have h := hw.next (encodeData_follows modsec hw.intervined slices endStream buffer).1
    rwa [List.append_nil] at h

theorem not_held_iff (modsec : Modsecurity T) (env : StreamEnv H) (w : Watch T H) (c : Callback T H)
    (hw : Honest w) :
    ¬ Held modsec env w c ↔ LetGo modsec env w c := by
  cases c with
  | decodeHeaders request endStream route =>
    obtain ⟨-, hstop, hpass⟩ := decodeHeaders_follows modsec env w.filter request endStream route
    cases endStream with
    | false => simp [Held, LetGo, Callback.endStream]
    | true =>
      simp only [Held, LetGo, Callback.endStream, Callback.isRequest, Watch.next, Watch.call,
        answered_append, true_and,
        forall_const, Answer.continues, reduceCtorEq, or_false, Answer.headers.injEq]
      cases hint : w.filter.intervined with
      | true => simp [hstop hint, not_answered_nil]
      | false =>
        rcases hpass hint rfl with hcontinue | hanswered
        · simp [hcontinue]
        · simp [hanswered]
  | decodeData slices endStream =>
    obtain ⟨-, hstop, hpass⟩ := decodeData_follows modsec w.filter slices endStream
    cases endStream with
    | false => simp [Held, LetGo, Callback.endStream]
    | true =>
      simp only [Held, LetGo, Callback.endStream, Callback.isRequest, Watch.next, Watch.call,
        answered_append, true_and,
        forall_const, Answer.continues, reduceCtorEq, false_or, Answer.data.injEq]
      cases hint : w.filter.intervined with
      | true => simp [hstop (hw.busy hint) hint, not_answered_nil]
      | false =>
        rcases hpass hint rfl with hcontinue | hanswered
        · simp [hcontinue]
        · simp [hanswered]
  | encodeHeaders headers endStream buffer =>
    obtain ⟨-, hiff⟩ := encodeHeaders_follows modsec env w.filter headers endStream buffer
    cases endStream with
    | false => simp [Held, LetGo, Callback.endStream]
    | true => simpa [Held, LetGo, Callback.endStream, Callback.isRequest, Watch.call, Answer.continues] using hiff
  | encodeData slices endStream buffer =>
    obtain ⟨-, hpass⟩ := encodeData_follows modsec hw.intervined slices endStream buffer
    cases endStream with
    | false => simp [Held, LetGo, Callback.endStream]
    | true => simp [Held, LetGo, Callback.endStream, Callback.isRequest, Watch.call, Answer.continues, hpass rfl]

/-- For every transaction and every run: the ends of the messages pass exactly
when each of them meets `LetGo`. -/
theorem never_held_iff (modsec : Modsecurity T) (env : StreamEnv H) (global : Option T) (cs : List (Callback T H)) :
    EachStep (Watch.next modsec env) (fun w c => ¬ Held modsec env w c) { filter := { transaction := global } } cs ↔
      EachStep (Watch.next modsec env) (LetGo modsec env) { filter := { transaction := global } } cs := by
  apply eachStep_iff Honest (honest_next modsec env) (not_held_iff modsec env)
  refine ⟨by simp, by simp, ?_⟩
  exact iff_of_false (by simp) not_answered_nil

end Runs

/-- A response without a body, with the rule engine enabled: its headers are
held and nothing follows them. -/
theorem headers_only_held :
    ¬ EachStep (Watch.next withoutRules plainStream) (fun w c => ¬ Held withoutRules plainStream w c)
      { filter := { transaction := some (.EnabledRuleEngine, 0, 0) } }
      [.decodeHeaders (plainRequest "GET" "example.com" "/") true none, .encodeHeaders plainResponse true none] := by
  rintro ⟨-, hnot, -⟩
  apply hnot
  refine ⟨rfl, ?_, by rintro ⟨⟩⟩
  rintro (h | h)
  · exact absurd h (by decide)
  · cases h

end EnvoyProxy.Waf
