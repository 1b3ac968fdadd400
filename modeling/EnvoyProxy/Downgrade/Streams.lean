import EnvoyProxy.Downgrade.Auxiliary
/-!
# All or nothing

A stream with a downgrade filter: parts of the response arrive, the request
for the other response is answered once or cancelled, the stream is
destroyed, in any order. `all_or_nothing_iff` says when downstream gets one of
the two responses as a whole.
-/

namespace EnvoyProxy.Downgrade
open Http HeaderMap DowngradeFilter

variable {H : Type} [HeaderMap H]

structure Stream (H : Type) where
  filter : DowngradeFilter H
  pipe : Pipe H := {}
  /-- The request is on its way: it has been sent, and neither answered nor
  cancelled. -/
  pending : Bool := false
  destroyed : Bool := false
  /-- How often `continueEncoding` was called. -/
  continued : Nat := 0

inductive Event (H : Type)
  | arrival (a : Arrival H)
  | onSuccess (response : ResponseMessage H)
  | onFailure
  | onDestroy

def Event.isHeaders : Event H → Bool
  | .arrival (.headers ..) => true
  | _ => false

namespace Stream
variable (kind : Kind H) (answer : Answer H)

/-- `continueEncoding` -/
def continueEncoding (s : Stream H) : Stream H :=
  let (filter, pipe) := (encoder kind answer).resume s.filter s.pipe
  { s with filter, pipe, continued := s.continued + 1 }

def arrive (s : Stream H) (a : Arrival H) : Stream H :=
  let (filter, pipe) := (encoder kind answer).receive s.filter s.pipe a
  { s with filter, pipe, pending := match a with
    | .headers .. => filter.isSendingRequest
    | _ => s.pending }

/-- A sender calls back only while its request is on its way, and a stream
that is destroyed gets nothing more. -/
def step (s : Stream H) : Event H → Stream H
  | .arrival a => if s.destroyed then s else s.arrive kind answer a
  | .onSuccess response =>
    if s.pending then
      let (filter, result) := s.filter.onSuccess kind response
      let s := { s with filter, pending := false }
      match result with
      | none => s
      | some (headers, added) =>
        let buffer := match added with
          | some bytes => some (s.pipe.buffer.getD [] ++ bytes)
          | none => s.pipe.buffer
        { s with pipe := { s.pipe with headers := some headers, buffer } }.continueEncoding kind answer
    else s
  | .onFailure =>
    if s.pending then
      let (filter, continues) := s.filter.onFailure
      let s := { s with filter, pending := false }
      if continues then s.continueEncoding kind answer else s
    else s
  | .onDestroy =>
    if s.destroyed then s
    else
      let (filter, cancelled) := kind.onDestroy s.filter
      { s with filter, pending := s.pending && !cancelled, destroyed := true }

def run (s : Stream H) (es : List (Event H)) : Stream H := es.foldl (step kind answer) s

end Stream

/-! ## Responses -/

/-- A request that is refused or over at once. -/
def Answer.failed (answer : Answer H) : Bool := decide (answer.status = .FAILED) || answer.callback.isSome

/-- What becomes of the request for the other response, once some parts of the
response have arrived after the headers. -/
inductive Fate (H : Type)
  | refused (answer : Answer H) (failed : answer.failed = true)
  | success (after : Nat) (response : ResponseMessage H)
  | failure (after : Nat)
  | destroyed (after : Nat)

def Fate.answer : Fate H → Answer H
  | .refused answer _ => answer
  | _ => ⟨.ONCALL, none⟩

/-- The response with the answer in its place. -/
def Fate.timeline (headers : H) (data : List Bytes) (trailers : Bool) (fate : Fate H) : List (Event H) :=
  let arrivals (l : List (Arrival H)) : List (Event H) := l.map .arrival
  let rest : List (Arrival H) := frames trailers data
  .arrival (.headers headers (data.isEmpty && !trailers)) ::
    match fate with
    | .refused .. => arrivals rest
    | .success after response => arrivals (rest.take after) ++ .onSuccess response :: arrivals (rest.drop after)
    | .failure after => arrivals (rest.take after) ++ .onFailure :: arrivals (rest.drop after)
    | .destroyed after => arrivals (rest.take after) ++ .onDestroy :: arrivals (rest.drop after)

/-- The response as it came. -/
def Original (headers : H) (data : List Bytes) (trailers : Bool) (passed : List (Passed H)) : Prop :=
  Delivered (· = headers) data.flatten trailers passed

/-- The other response with its mark. -/
def Downgraded (kind : Kind H) (response : ResponseMessage H) (passed : List (Passed H)) : Prop :=
  Delivered (fun h => iterate h = iterate response.headers ++ [⟨headerName "x-downgrade-status", kind.mark⟩]) response.body false passed

/-- Downstream gets one of the two responses, or nothing when the stream is
destroyed first. -/
def AllOrNothing (kind : Kind H) (headers : H) (data : List Bytes) (trailers : Bool) (passed : List (Passed H)) : Fate H → Prop
  | .refused .. | .failure _ => Original headers data trailers passed
  | .success _ response => Original headers data trailers passed ∨ Downgraded kind response passed
  | .destroyed _ => passed = []

/-- When the answer makes one whole response: its body needs an end of the
response that is data, and that data must not be the only frame if it comes
after the answer. -/
def Whole (kind : Kind H) (headers : H) (data : List Bytes) (trailers : Bool) : Fate H → Prop
  | .success after response =>
    (trailers = false ∧ (data.length ≠ 1 ∨ 0 < after ∨ response.body = [])) ∨
      (downgradeHeaders kind response = headers ∧ data.flatten = [])
  | _ => True

/-- The filter after a request with its route. -/
def requested (kind : Kind H) (config : RouteConfig H) (request : H) (body : List Bytes) : DowngradeFilter H :=
  body.foldl (fun f d => (f.decodeData kind d).1) (({} : DowngradeFilter H).decodeHeaders (some config) request).1

namespace Stream
variable (kind : Kind H) (answer : Answer H)

/-! ## A filter that has nothing to do -/

/-- Nothing is held, and data is left alone. -/
structure Flowing (s : Stream H) : Prop where
  filter : (s.filter.downgradeComplete || s.filter.downgradeSuspend || (!s.filter.shouldDowngrade && !s.filter.shouldCacheRpx)) = true
  iteration : s.pipe.iteration = .Continue
  destroyed : s.destroyed = false

omit [HeaderMap H] in
theorem encodeData_idle {f : DowngradeFilter H} (v : DataView) (endStream : Bool)
    (hf : (f.downgradeComplete || f.downgradeSuspend || (!f.shouldDowngrade && !f.shouldCacheRpx)) = true) :
    f.encodeData v endStream = (f, v, .Continue) := by
  unfold encodeData
  rw [if_pos hf]

theorem flowing_step {s : Stream H} (hs : Flowing s) (a : Arrival H) (ha : ∀ h e, a ≠ .headers h e) :
    Flowing (s.step kind answer (.arrival a)) ∧
      (s.step kind answer (.arrival a)).pipe.passed = s.pipe.passed ++ [a.passed] := by
  unfold step arrive
  simp only [hs.destroyed, Bool.false_eq_true, if_false]
  cases a with
  | headers h e => exact absurd rfl (ha h e)
  | data bytes e =>
    simp only [StreamFilter.receive, encoder, hs.iteration, reduceCtorEq, if_false, encodeData_idle
      _ _ hs.filter, Pipe.afterData]
    exact ⟨⟨hs.filter, rfl, rfl⟩, rfl⟩
  | trailers =>
    simp only [StreamFilter.receive, Pipe.afterTrailers, hs.iteration]
    exact ⟨⟨hs.filter, rfl, rfl⟩, rfl⟩

theorem flowing_run {s : Stream H} (hs : Flowing s) (l : List (Arrival H)) (hl : ∀ a ∈ l, ∀ h e, a ≠ .headers h e) :
    (s.run kind answer (l.map .arrival)).pipe.passed = s.pipe.passed ++ l.map Arrival.passed := by
  induction l generalizing s with
  | nil => simp [run]
  | cons a l ih =>
    obtain ⟨hflowing, hpassed⟩ := flowing_step kind answer hs a (hl a List.mem_cons_self)
    have hrest := ih hflowing fun b hb => hl b (List.mem_cons_of_mem _ hb)
    rw [hpassed, List.append_assoc] at hrest
    exact hrest

/-! ## A response that is held -/

/-- Everything is held until the request is over. -/
structure Suspended (h : H) (buffer : Option Bytes) (complete trailers : Bool) (s : Stream H) : Prop where
  headers : s.pipe.headers = some h
  iteration : s.pipe.iteration = .StopAll
  headersContinued : s.pipe.headersContinued = false
  buffer : s.pipe.buffer = buffer
  complete : s.pipe.complete = complete
  trailers : s.pipe.trailers = trailers
  passed : s.pipe.passed = []
  pending : s.pending = true
  destroyed : s.destroyed = false
  isSendingRequest : s.filter.isSendingRequest = true
  headersOnlyResp : s.filter.headersOnlyResp = false
  shouldDowngrade : s.filter.shouldDowngrade = true
  downgradeComplete : s.filter.downgradeComplete = false
  downgradeSuspend : s.filter.downgradeSuspend = false
  bufferedRpxBody : s.filter.bufferedRpxBody = []

variable {h : H} {buffer : Option Bytes} {complete : Bool}

theorem suspended_data {s : Stream H} (hs : Suspended h buffer false false s) (bytes : Bytes) (e : Bool) :
    Suspended h (some (buffer.getD [] ++ bytes)) e false (s.step kind answer (.arrival (.data bytes e))) := by
  unfold step arrive
  simp only [hs.destroyed, Bool.false_eq_true, if_false, StreamFilter.receive, hs.iteration, if_true, hs.buffer]
  exact ⟨hs.headers, rfl, hs.headersContinued, rfl, rfl, hs.trailers, hs.passed, hs.pending, rfl,
    hs.isSendingRequest,
    hs.headersOnlyResp, hs.shouldDowngrade, hs.downgradeComplete, hs.downgradeSuspend, hs.bufferedRpxBody⟩

theorem suspended_trailers {s : Stream H} (hs : Suspended h buffer false false s) :
    Suspended h buffer true true (s.step kind answer (.arrival .trailers)) := by
  unfold step arrive
  simp only [hs.destroyed, Bool.false_eq_true, if_false, StreamFilter.receive, Pipe.afterTrailers, hs.iteration]
  exact ⟨hs.headers, rfl, hs.headersContinued, hs.buffer, rfl, rfl, hs.passed, hs.pending, rfl, hs.isSendingRequest,
    hs.headersOnlyResp, hs.shouldDowngrade, hs.downgradeComplete, hs.downgradeSuspend, hs.bufferedRpxBody⟩

/-- What has arrived is in the buffer, and the rest is still to come. -/
theorem suspended_take {s : Stream H} {data : List Bytes} {trailers : Bool} (hs : Suspended h buffer false false s)
    (hmore : ¬ (data = [] ∧ trailers = false)) (after : Nat) :
    ∃ buffer', (buffer' = none ↔ buffer = none ∧ (after = 0 ∨ data = [])) ∧
      ((∃ data', (frames trailers data : List (Arrival H)).drop after = frames trailers data' ∧
      ¬ (data' = [] ∧ trailers = false) ∧
          Suspended h buffer' false false (s.run kind answer (((frames trailers data).take after).map .arrival)) ∧
          buffer'.getD [] ++ data'.flatten = buffer.getD [] ++ data.flatten ∧ (buffer' = none → data' = data)) ∨
        ((frames trailers data : List (Arrival H)).drop after = [] ∧
          Suspended h buffer' true trailers (s.run kind answer (((frames trailers data).take after).map .arrival)) ∧
          buffer'.getD [] = buffer.getD [] ++ data.flatten)) := by
  induction data generalizing buffer s after with
  | nil =>
    have htrailers : trailers = true := by simpa using hmore
    subst htrailers
    refine ⟨buffer, by simp, ?_⟩
    cases after with
    | zero => exact .inl ⟨[], rfl, hmore, hs, rfl, fun _ => rfl⟩
    | succ after =>
      exact .inr ⟨by simp [frames], by simpa [frames, run] using suspended_trailers kind answer hs,
        by simp⟩
  | cons bytes rest ih =>
    cases after with
    | zero => exact ⟨buffer, by simp, .inl ⟨bytes :: rest, rfl, hmore, hs, rfl, fun _ => rfl⟩⟩
    | succ after =>
      have hstep := suspended_data kind answer hs bytes (rest.isEmpty && !trailers)
      by_cases hlast : rest = [] ∧ trailers = false
      · obtain ⟨rfl, rfl⟩ := hlast
        refine ⟨some (buffer.getD [] ++ bytes), by simp, .inr ⟨by simp [frames], ?_, by simp⟩⟩
        simpa [frames, run] using hstep
      · rw [endStream_eq_false hlast] at hstep
        obtain ⟨buffer', hnone, hrest⟩ := ih hstep hlast after
        have hsome : buffer' ≠ none := fun h => by cases (hnone.1 h).1
        refine ⟨buffer', by simp [hsome], ?_⟩
        rw [frames, endStream_eq_false hlast]
        rcases hrest with ⟨data', hdrop, hmore', hs', hbytes, -⟩ | ⟨hdrop, hs', hbytes⟩
        · exact .inl ⟨data', hdrop, hmore', hs', by simpa using hbytes, fun h => absurd h hsome⟩
        · exact .inr ⟨hdrop, hs', by simpa using hbytes⟩

/-! ## A request that fails -/

/-- The headers, the buffer and the trailers that are held go on. -/
def released (h : H) (buffer : Option Bytes) (complete trailers : Bool) : List (Passed H) :=
  .headers h (complete && buffer.isNone && !trailers) ::
    ((match buffer with
      | some bytes => [.data bytes (complete && !trailers)]
      | none => []) ++ if trailers then [.trailers] else [])

theorem failure_step {s : Stream H} {trailers : Bool} (hs : Suspended h buffer complete trailers s) :
    Flowing (s.step kind answer .onFailure) ∧
      (s.step kind answer .onFailure).pipe.passed = released h buffer complete trailers := by
  obtain ⟨f, ⟨headers, c, t, iteration, continued, b, passed⟩, pending, destroyed, count⟩ := s
  obtain ⟨rfl, rfl, rfl, rfl, rfl, rfl, rfl, rfl, rfl, hsending, -, -, -, -, -⟩ := hs
  have hfailure : f.onFailure = ({ f with downgradeSuspend := true, isSendingRequest := false }, true) := by
    unfold onFailure
    exact if_pos hsending
  have hidle : ∀ v e, ({ f with downgradeSuspend := true, isSendingRequest := false } :
    DowngradeFilter H).encodeData v e =
      ({ f with downgradeSuspend := true, isSendingRequest := false }, v, .Continue) :=
        fun v e => encodeData_idle v e (by simp)
  cases b with
  | none =>
    cases t <;> simp [step, continueEncoding, StreamFilter.resume, hfailure, Pipe.doHeaders,
      Pipe.doTrailers, Pipe.pass, released]
    · exact ⟨by simp, rfl, rfl⟩
    · exact ⟨by simp, rfl, rfl⟩
  | some bytes =>
    cases t <;> simp [step, continueEncoding, StreamFilter.resume, hfailure, encoder, hidle,
      Pipe.doHeaders, Pipe.afterData,
      Pipe.afterTrailers, Pipe.pass, released, DataView.data]
    · exact ⟨by simp, rfl, rfl⟩
    · exact ⟨by simp, rfl, rfl⟩

/-! ## A request that is answered -/

/-- The headers have gone on, and the old body is thrown away until its end. -/
structure Emptying (body : Bytes) (buffer : Option Bytes) (iteration : IterationState) (s : Stream H) : Prop where
  iteration : s.pipe.iteration = iteration
  headersContinued : s.pipe.headersContinued = true
  buffer : s.pipe.buffer = buffer
  trailers : s.pipe.trailers = false
  destroyed : s.destroyed = false
  shouldDowngrade : s.filter.shouldDowngrade = true
  downgradeComplete : s.filter.downgradeComplete = false
  downgradeSuspend : s.filter.downgradeSuspend = false
  bufferedRpxBody : s.filter.bufferedRpxBody = body

variable {body : Bytes} {iteration : IterationState}

omit [HeaderMap H] in
theorem encodeData_empty {f : DowngradeFilter H} (hshould : f.shouldDowngrade = true)
    (hcomplete : f.downgradeComplete = false)
    (hsuspend : f.downgradeSuspend = false) (v : DataView) (endStream : Bool) :
    f.encodeData v endStream =
      if endStream then ({ f with downgradeComplete := true, bufferedRpxBody := [] }, v.drain.add f.bufferedRpxBody, .Continue)
      else (f, v.drain, .StopIterationNoBuffer) := by
  simp [encodeData, hshould, hcomplete, hsuspend]

theorem emptying_data {s : Stream H} (hs : Emptying body buffer iteration s)
    (hnot : iteration ≠ .StopAll) (bytes : Bytes) :
    Emptying body buffer .StopSingleIteration (s.step kind answer (.arrival (.data bytes false))) ∧
      (s.step kind answer (.arrival (.data bytes false))).pipe.passed = s.pipe.passed := by
  have hencode := encodeData_empty hs.shouldDowngrade hs.downgradeComplete hs.downgradeSuspend
    ⟨some bytes, s.pipe.buffer⟩ false
  unfold step arrive
  simp only [hs.destroyed, Bool.false_eq_true, if_false, StreamFilter.receive, hs.iteration,
    if_neg hnot, encoder, hencode,
    Pipe.afterData, Bool.false_and]
  refine ⟨?_, trivial⟩
  exact ⟨rfl, hs.headersContinued, hs.buffer, hs.trailers, rfl, hs.shouldDowngrade,
    hs.downgradeComplete, hs.downgradeSuspend,
    hs.bufferedRpxBody⟩

/-- The last frame, when the filter has stopped before: the body goes on. -/
theorem emptying_end {s : Stream H} (hs : Emptying body buffer .StopSingleIteration s)
    (hempty : buffer.getD [] = []) (bytes : Bytes) :
    (s.step kind answer (.arrival (.data bytes true))).pipe.passed = s.pipe.passed ++ [.data body true] := by
  have hencode := encodeData_empty hs.shouldDowngrade hs.downgradeComplete hs.downgradeSuspend
    ⟨some bytes, s.pipe.buffer⟩ true
  unfold step arrive
  simp only [hs.destroyed, Bool.false_eq_true, if_false, StreamFilter.receive, hs.iteration,
    reduceCtorEq, encoder, hencode,
    Pipe.afterData, if_true, Pipe.passed_commonContinue]
  rw [Pipe.held_of_continued]
  · simp [Pipe.bufferData, DataView.drain, DataView.add, DataView.move, hs.trailers, hs.buffer,
      hs.bufferedRpxBody, hempty]
  · exact hs.headersContinued

/-- The last frame, when it has not: the frame goes on, and the body stays. -/
theorem emptying_lost {s : Stream H} (hs : Emptying body none .Continue s) (bytes : Bytes) :
    (s.step kind answer (.arrival (.data bytes true))).pipe.passed = s.pipe.passed ++ [.data [] true] := by
  have hencode := encodeData_empty hs.shouldDowngrade hs.downgradeComplete hs.downgradeSuspend
    ⟨some bytes, s.pipe.buffer⟩ true
  unfold step arrive
  simp only [hs.destroyed, Bool.false_eq_true, if_false, StreamFilter.receive, hs.iteration,
    reduceCtorEq, encoder, hencode,
    Pipe.afterData, if_true]
  rfl

theorem emptying_trailers {s : Stream H} (hs : Emptying body buffer iteration s) (hempty : buffer.getD [] = [])
    (hnot : iteration ≠ .StopAll) (hnone : iteration = .Continue → buffer = none) :
    ∃ X : List Bytes, X.flatten = [] ∧
      (s.step kind answer (.arrival .trailers)).pipe.passed = s.pipe.passed ++ (frames true X).map
      Arrival.passed := by
  unfold step arrive
  simp only [hs.destroyed, Bool.false_eq_true, if_false, StreamFilter.receive, Pipe.afterTrailers, hs.iteration]
  cases iteration with
  | Continue => exact ⟨[], rfl, rfl⟩
  | StopAll => exact absurd rfl hnot
  | StopSingleIteration =>
    simp only [Pipe.passed_commonContinue]
    rw [Pipe.held_of_continued]
    · simp only [hs.buffer]
      rcases buffer with _ | bytes
      · exact ⟨[], rfl, rfl⟩
      · have hbytes : bytes = [] := hempty
        subst hbytes
        exact ⟨[[]], rfl, rfl⟩
    · exact hs.headersContinued

theorem emptying_run {s : Stream H} {trailers : Bool} {data : List Bytes}
    (hs : Emptying body buffer .StopSingleIteration s)
    (hempty : buffer.getD [] = []) (hmore : ¬ (data = [] ∧ trailers = false)) :
    ∃ X : List Bytes, X.flatten = (if trailers then [] else body) ∧ ¬ (X = [] ∧ trailers = false) ∧
      (s.run kind answer ((frames trailers data).map .arrival)).pipe.passed = s.pipe.passed ++
      (frames trailers X).map Arrival.passed := by
  induction data generalizing s with
  | nil =>
    have htrailers : trailers = true := by simpa using hmore
    subst htrailers
    obtain ⟨X, hX, hpassed⟩ := emptying_trailers kind answer hs hempty (by simp) (by simp)
    exact ⟨X, hX, by simp, hpassed⟩
  | cons bytes rest ih =>
    by_cases hlast : rest = [] ∧ trailers = false
    · obtain ⟨rfl, rfl⟩ := hlast
      exact ⟨[body], by simp, by simp, emptying_end kind answer hs hempty bytes⟩
    · obtain ⟨hs', hpassed⟩ := emptying_data kind answer hs (by simp) bytes
      obtain ⟨X, hX, hne, hrest⟩ := ih hs' hlast
      rw [hpassed] at hrest
      rw [frames, endStream_eq_false hlast]
      exact ⟨X, hX, hne, hrest⟩

/-- The answer comes before any of the body: a body in one frame is lost. -/
theorem emptying_first {s : Stream H} {trailers : Bool} {data : List Bytes} (hs : Emptying body none .Continue s)
    (hmore : ¬ (data = [] ∧ trailers = false)) :
    ∃ X : List Bytes, X.flatten = (if trailers = true ∨ data.length = 1 then [] else body) ∧
    ¬ (X = [] ∧ trailers = false) ∧
      (s.run kind answer ((frames trailers data).map .arrival)).pipe.passed = s.pipe.passed ++
      (frames trailers X).map Arrival.passed := by
  cases data with
  | nil =>
    have htrailers : trailers = true := by simpa using hmore
    subst htrailers
    obtain ⟨X, hX, hpassed⟩ := emptying_trailers kind answer hs rfl (by simp) fun _ => rfl
    exact ⟨X, by simpa using hX, by simp, hpassed⟩
  | cons bytes rest =>
    by_cases hlast : rest = [] ∧ trailers = false
    · obtain ⟨rfl, rfl⟩ := hlast
      exact ⟨[[]], by simp, by simp, emptying_lost kind answer hs bytes⟩
    · obtain ⟨hs', hpassed⟩ := emptying_data kind answer hs (by simp) bytes
      obtain ⟨X, hX, hne, hrest⟩ := emptying_run kind answer hs' rfl hlast
      rw [hpassed] at hrest
      refine ⟨X, ?_, hne, ?_⟩
      · rw [hX]
        cases trailers
        · have hlong : rest ≠ [] := fun h => hlast ⟨h, rfl⟩
          simp [hlong]
        · simp
      · rw [frames, endStream_eq_false hlast]
        exact hrest

/-- The filter after the answer to a request for a response with a body. -/
def replaced (f : DowngradeFilter H) (response : ResponseMessage H) : DowngradeFilter H :=
  { f with isSendingRequest := false, downgradeComplete := false, bufferedRpxBody := response.body }

omit [HeaderMap H] in
theorem replaced_bufferedRpxBody (f : DowngradeFilter H) (response : ResponseMessage H) :
    (replaced f response).bufferedRpxBody = response.body := rfl

theorem onSuccess_held {f : DowngradeFilter H} (hsending : f.isSendingRequest = true)
    (honly : f.headersOnlyResp = false)
    (hbody : f.bufferedRpxBody = []) (response : ResponseMessage H) :
    f.onSuccess kind response = (replaced f response, some (downgradeHeaders kind response, none)) := by
  simp [onSuccess, hsending, honly, hbody, replaced]

/-- The answer, once the whole response is held. -/
theorem success_whole {s : Stream H} {trailers : Bool} (hs : Suspended h buffer true trailers s)
    (hsome : buffer = none → trailers = true)
    (response : ResponseMessage H) :
    ∃ X : List Bytes, X.flatten = (if trailers then [] else response.body) ∧ ¬ (X = [] ∧ trailers = false) ∧
      (s.step kind answer (.onSuccess response)).pipe.passed =
        .headers (downgradeHeaders kind response) false :: (frames trailers X).map Arrival.passed := by
  obtain ⟨f, ⟨headers, c, t, iteration, continued, b, passed⟩, pending, destroyed, count⟩ := s
  obtain ⟨rfl, rfl, rfl, rfl, rfl, rfl, rfl, rfl, rfl, hsending, honly, hshould, -, hsuspend, hbody⟩ := hs
  have hsuccess := onSuccess_held kind hsending honly hbody response
  have hempty (v : DataView) (e : Bool) := encodeData_empty (f := replaced f response) hshould rfl hsuspend v e
  cases b with
  | none =>
    obtain rfl := hsome rfl
    refine ⟨[], rfl, by simp, ?_⟩
    simp [step, continueEncoding, StreamFilter.resume, hsuccess, Pipe.doHeaders, Pipe.doTrailers,
      Pipe.pass, frames, Arrival.passed]
  | some bytes =>
    cases t with
    | true =>
      refine ⟨[[]], rfl, by simp, ?_⟩
      simp [step, continueEncoding, StreamFilter.resume, hsuccess, encoder, hempty, Pipe.doHeaders,
        Pipe.doData, Pipe.doTrailers,
        Pipe.afterData, Pipe.afterTrailers, Pipe.commonContinue, Pipe.pass, DataView.drain, frames, Arrival.passed]
    | false =>
      refine ⟨[response.body], by simp, by simp, ?_⟩
      simp [step, continueEncoding, StreamFilter.resume, hsuccess, encoder, hempty, Pipe.doHeaders,
        Pipe.afterData, Pipe.pass,
        DataView.drain, DataView.add, DataView.data, replaced_bufferedRpxBody, frames, Arrival.passed]

/-- The answer, before any of the body. -/
theorem success_first {s : Stream H} (hs : Suspended h none false false s) (response : ResponseMessage H) :
    Emptying response.body none .Continue (s.step kind answer (.onSuccess response)) ∧
      (s.step kind answer (.onSuccess response)).pipe.passed =
      [.headers (downgradeHeaders kind response) false] := by
  obtain ⟨f, ⟨headers, c, t, iteration, continued, b, passed⟩, pending, destroyed, count⟩ := s
  obtain ⟨rfl, rfl, rfl, rfl, rfl, rfl, rfl, rfl, rfl, hsending, honly, hshould, -, hsuspend, hbody⟩ := hs
  have hsuccess := onSuccess_held kind hsending honly hbody response
  have hstep : step kind answer ⟨f, ⟨some h, false, false, .StopAll, false, none, []⟩, true, false,
    count⟩ (.onSuccess response) =
      ⟨replaced f response, ⟨some (downgradeHeaders kind response), false, false, .Continue, true, none,
        [.headers (downgradeHeaders kind response) false]⟩, false, false, count + 1⟩ := by
    simp [step, continueEncoding, StreamFilter.resume, hsuccess, Pipe.doHeaders, Pipe.doTrailers, Pipe.pass]
  rw [hstep]
  exact ⟨⟨rfl, rfl, rfl, rfl, rfl, hshould, rfl, hsuspend, rfl⟩, rfl⟩

/-- The answer, in the middle of the body. -/
theorem success_partial {s : Stream H} {bytes : Bytes} (hs : Suspended h (some bytes) false false s)
    (response : ResponseMessage H) :
    Emptying response.body (some []) .StopSingleIteration (s.step kind answer (.onSuccess response)) ∧
      (s.step kind answer (.onSuccess response)).pipe.passed =
      [.headers (downgradeHeaders kind response) false] := by
  obtain ⟨f, ⟨headers, c, t, iteration, continued, b, passed⟩, pending, destroyed, count⟩ := s
  obtain ⟨rfl, rfl, rfl, rfl, rfl, rfl, rfl, rfl, rfl, hsending, honly, hshould, -, hsuspend, hbody⟩ := hs
  have hsuccess := onSuccess_held kind hsending honly hbody response
  have hempty (v : DataView) (e : Bool) := encodeData_empty (f := replaced f response) hshould rfl hsuspend v e
  have hstep : step kind answer ⟨f, ⟨some h, false, false, .StopAll, false, some bytes, []⟩, true,
    false, count⟩ (.onSuccess response) =
      ⟨replaced f response,
        ⟨some (downgradeHeaders kind response), false, false, .StopSingleIteration, true, some [],
        [.headers (downgradeHeaders kind response) false]⟩, false, false, count + 1⟩ := by
    simp [step, continueEncoding, StreamFilter.resume, hsuccess, encoder, hempty, Pipe.doHeaders,
      Pipe.afterData, Pipe.pass,
      DataView.drain]
  rw [hstep]
  exact ⟨⟨rfl, rfl, rfl, rfl, rfl, hshould, rfl, hsuspend, rfl⟩, rfl⟩

/-! ## The headers -/

/-- The filter, once the request has matched. -/
structure Ready (config : RouteConfig H) (f : DowngradeFilter H) : Prop where
  routerConfig : f.routerConfig = some config
  shouldDowngrade : f.shouldDowngrade = true
  isSendingRequest : f.isSendingRequest = false
  localRequestOver : f.localRequestOver = false
  downgradeComplete : f.downgradeComplete = false
  downgradeSuspend : f.downgradeSuspend = false
  bufferedRpxBody : f.bufferedRpxBody = []

variable {config : RouteConfig H}

omit [HeaderMap H] in
theorem ready_requested {request : H} (hmatch : config.shouldDowngrade request .DECODE = true) (body : List Bytes) :
    Ready config (requested kind config request body) := by
  have hdata {f : DowngradeFilter H} (hf : Ready config f) (d : Bytes) : Ready config (f.decodeData kind d).1 := by
    unfold decodeData
    rw [hf.routerConfig]
    dsimp only
    split_ifs
    · exact ⟨rfl, hf.shouldDowngrade, hf.isSendingRequest, hf.localRequestOver, hf.downgradeComplete,
        hf.downgradeSuspend, hf.bufferedRpxBody⟩
    · exact hf
  have hrun (f : DowngradeFilter H) (hf : Ready config f) :
      Ready config (body.foldl (fun f d => (f.decodeData kind d).1) f) := by
    induction body generalizing f with
    | nil => exact hf
    | cons d body ih => exact ih _ (hdata hf d)
  exact hrun _ ⟨rfl, hmatch, rfl, rfl, rfl, rfl, rfl⟩

/-- The filter, while it waits for its request. -/
structure Asking (endStream : Bool) (f : DowngradeFilter H) : Prop where
  isSendingRequest : f.isSendingRequest = true
  headersOnlyResp : f.headersOnlyResp = endStream
  shouldDowngrade : f.shouldDowngrade = true
  downgradeComplete : f.downgradeComplete = false
  downgradeSuspend : f.downgradeSuspend = false
  bufferedRpxBody : f.bufferedRpxBody = []

theorem encodeHeaders_asking {f : DowngradeFilter H} (hf : Ready config f)
    (hmatch : config.shouldDowngrade h .ENCODE = true)
    (endStream : Bool) :
    ∃ f', f.encodeHeaders kind ⟨.ONCALL, none⟩ h endStream =
        (f', h, none, if endStream then .StopIteration else .StopAllIterationAndBuffer) ∧ Asking endStream f' := by
  refine ⟨{ ({ f with shouldDowngrade := true, headersOnlyResp := endStream } : DowngradeFilter
    H).sendRequest kind config ⟨.ONCALL, none⟩ with
    isSendingRequest := true }, ?_, rfl, rfl, rfl, hf.downgradeComplete, hf.downgradeSuspend, hf.bufferedRpxBody⟩
  simp [encodeHeaders, hf.shouldDowngrade, hf.routerConfig, hmatch]
  exact (if_pos hf.localRequestOver).trans rfl

theorem encodeHeaders_refused {f : DowngradeFilter H} (hf : Ready config f) (hmatch : config.shouldDowngrade h .ENCODE = true)
    (hfailed : answer.failed = true) (endStream : Bool) :
    ∃ f', f.encodeHeaders kind answer h endStream = (f', h, none, .Continue) ∧ f'.downgradeSuspend = true := by
  obtain ⟨status, callback⟩ := answer
  have hrefused : ¬ (status = .ONCALL ∧
      (({ f with routerConfig := some config, shouldDowngrade := true, headersOnlyResp := endStream } : DowngradeFilter H).sendRequest kind config
        ⟨status, callback⟩).localRequestOver = false) := by
    rintro ⟨rfl, hover⟩
    rcases callback with _ | _ | response
    · cases hfailed
    · simp [sendRequest, onFailure, hf.isSendingRequest] at hover
    · simp [sendRequest, onSuccess, hf.isSendingRequest] at hover
  refine ⟨{ ({ f with routerConfig := some config, shouldDowngrade := true, headersOnlyResp := endStream } : DowngradeFilter H).sendRequest kind config
    ⟨status, callback⟩ with downgradeSuspend := true }, ?_, rfl⟩
  simp only [encodeHeaders, hf.shouldDowngrade, hf.routerConfig, hmatch, Bool.not_true,
    Bool.false_eq_true, if_false, Bool.false_and, if_true]
  exact (if_neg hrefused).trans rfl

/-- The headers of a response with a body. -/
theorem suspended_headers {f : DowngradeFilter H} (hf : Ready config f)
    (hmatch : config.shouldDowngrade h .ENCODE = true) :
    Suspended h none false false (step kind ⟨.ONCALL, none⟩ { filter := f } (.arrival (.headers h false))) := by
  obtain ⟨f', hencode, hasking⟩ := encodeHeaders_asking kind hf hmatch false
  unfold step arrive
  simp only [Bool.false_eq_true, if_false, StreamFilter.receive, encoder, hencode, Pipe.afterHeaders]
  exact ⟨rfl, rfl, rfl, rfl, rfl, rfl, rfl, hasking.isSendingRequest, rfl, hasking.isSendingRequest,
    hasking.headersOnlyResp,
    hasking.shouldDowngrade, hasking.downgradeComplete, hasking.downgradeSuspend, hasking.bufferedRpxBody⟩

theorem flowing_headers {f : DowngradeFilter H} (hf : Ready config f)
    (hmatch : config.shouldDowngrade h .ENCODE = true)
    (hfailed : answer.failed = true) (endStream : Bool) :
    Flowing (step kind answer { filter := f } (.arrival (.headers h endStream))) ∧
      (step kind answer { filter := f } (.arrival (.headers h endStream))).pipe.passed = [.headers h endStream] := by
  obtain ⟨f', hencode, hsuspend⟩ := encodeHeaders_refused kind answer hf hmatch hfailed endStream
  unfold step arrive
  simp only [Bool.false_eq_true, if_false, StreamFilter.receive, encoder, hencode, Pipe.afterHeaders]
  cases endStream
  · exact ⟨⟨by simp [hsuspend], rfl, rfl⟩, rfl⟩
  · exact ⟨⟨by simp [hsuspend], rfl, rfl⟩, rfl⟩

/-! ## What downstream gets -/

variable {f : DowngradeFilter H} {data : List Bytes} {trailers : Bool}

theorem run_append (s : Stream H) (l₁ l₂ : List (Event H)) :
    s.run kind answer (l₁ ++ l₂) = (s.run kind answer l₁).run kind answer l₂ :=
  List.foldl_append

theorem passed_refused (hf : Ready config f) (hmatch : config.shouldDowngrade h .ENCODE = true)
    (hfailed : answer.failed = true) :
    (run kind answer { filter := f } ((Fate.refused answer hfailed).timeline h data trailers)).pipe.passed =
      (message h data trailers).map Arrival.passed := by
  obtain ⟨hflowing, hpassed⟩ := flowing_headers kind answer hf hmatch hfailed (data.isEmpty && !trailers)
  have hrest := flowing_run kind answer hflowing (frames trailers data) (frames_ne_headers trailers data)
  rw [hpassed] at hrest
  exact hrest

/-- The headers of a response without a body. -/
theorem step_headers_only (hf : Ready config f) (hmatch : config.shouldDowngrade h .ENCODE = true) :
    ∃ f', Asking true f' ∧ step kind ⟨.ONCALL, none⟩ { filter := f } (.arrival (.headers h true)) =
      ⟨f', { headers := some h, complete := true, iteration := .StopSingleIteration }, true, false, 0⟩ := by
  obtain ⟨f', hencode, hasking⟩ := encodeHeaders_asking kind hf hmatch true
  refine ⟨f', hasking, ?_⟩
  unfold step arrive
  simp only [Bool.false_eq_true, if_false, StreamFilter.receive, encoder, hencode,
    Pipe.afterHeaders, if_true, hasking.isSendingRequest]

omit [HeaderMap H] in
theorem message_released (hmore : ¬ (data = [] ∧ trailers = false)) (buffer : Option Bytes) :
    released h buffer false false ++ (frames trailers data).map Arrival.passed =
      (message h (buffer.toList ++ data) trailers).map Arrival.passed := by
  cases buffer with
  | none => simp [released, message, endStream_eq_false hmore, Arrival.passed]
  | some bytes => simp [released, message, frames, endStream_eq_false hmore, Arrival.passed]

omit [HeaderMap H] in
theorem message_released_complete (h : H) (buffer : Option Bytes) (trailers : Bool) :
    released h buffer true trailers = (message h buffer.toList trailers).map Arrival.passed := by
  cases buffer <;> cases trailers <;> rfl

theorem passed_failure (data : List Bytes) (trailers : Bool) (hf : Ready config f)
    (hmatch : config.shouldDowngrade h .ENCODE = true) (after : Nat) :
    ∃ X : List Bytes, X.flatten = data.flatten ∧
      (run kind ⟨.ONCALL, none⟩ { filter := f } ((Fate.failure after).timeline h data trailers)).pipe.passed =
        (message h X trailers).map Arrival.passed := by
  by_cases honly : data = [] ∧ trailers = false
  · obtain ⟨rfl, rfl⟩ := honly
    obtain ⟨f', hasking, hstep⟩ := step_headers_only kind hf hmatch
    refine ⟨[], rfl, ?_⟩
    simp only [Fate.timeline, frames, Bool.false_eq_true, if_false, List.take_nil, List.drop_nil]
    show (step kind ⟨.ONCALL, none⟩ (step kind ⟨.ONCALL, none⟩ _ (.arrival (.headers h true)))
      .onFailure).pipe.passed = _
    rw [hstep]
    simp [step, onFailure, hasking.isSendingRequest, continueEncoding, StreamFilter.resume,
      Pipe.passed_commonContinue, Pipe.held,
      message, frames, Arrival.passed]
  · obtain ⟨buffer', -, hrest⟩ := suspended_take kind ⟨.ONCALL, none⟩ (suspended_headers kind hf hmatch) honly after
    simp only [Fate.timeline, endStream_eq_false honly]
    rw [← List.cons_append, run_append]
    rcases hrest with ⟨data', hdrop, hmore, hs, hbytes, -⟩ | ⟨hdrop, hs, hbytes⟩
    · obtain ⟨hflowing, hpassed⟩ := failure_step kind ⟨.ONCALL, none⟩ hs
      have hrun := flowing_run kind ⟨.ONCALL, none⟩ hflowing _ (frames_ne_headers trailers data')
      rw [hpassed, message_released hmore] at hrun
      rw [hdrop]
      refine ⟨buffer'.toList ++ data', ?_, hrun⟩
      cases buffer' <;> simpa using hbytes
    · obtain ⟨-, hpassed⟩ := failure_step kind ⟨.ONCALL, none⟩ hs
      rw [message_released_complete] at hpassed
      rw [hdrop]
      refine ⟨buffer'.toList, ?_, hpassed⟩
      cases buffer' <;> simpa using hbytes

theorem passed_success (data : List Bytes) (trailers : Bool) (hf : Ready config f)
    (hmatch : config.shouldDowngrade h .ENCODE = true) (after : Nat)
    (response : ResponseMessage H) :
    ∃ X : List Bytes, X.flatten = (if trailers = true ∨ (data.length = 1 ∧ after = 0) then [] else response.body) ∧
      (run kind ⟨.ONCALL, none⟩ { filter := f } ((Fate.success after response).timeline h data trailers)).pipe.passed =
        (message (downgradeHeaders kind response) X trailers).map Arrival.passed := by
  by_cases honly : data = [] ∧ trailers = false
  · obtain ⟨rfl, rfl⟩ := honly
    obtain ⟨f', hasking, hstep⟩ := step_headers_only kind hf hmatch
    refine ⟨[response.body], by simp, ?_⟩
    simp only [Fate.timeline, frames, Bool.false_eq_true, if_false, List.take_nil, List.drop_nil]
    show (step kind ⟨.ONCALL, none⟩ (step kind ⟨.ONCALL, none⟩ _ (.arrival (.headers h true)))
      (.onSuccess response)).pipe.passed = _
    rw [hstep]
    simp [step, onSuccess, hasking.isSendingRequest, hasking.headersOnlyResp, continueEncoding, StreamFilter.resume,
      Pipe.passed_commonContinue, Pipe.held, message, frames, Arrival.passed]
  · have hmessage (X : List Bytes) (hX : ¬ (X = [] ∧ trailers = false)) :
        (message (downgradeHeaders kind response) X trailers).map Arrival.passed =
          .headers (downgradeHeaders kind response) false :: (frames trailers X).map Arrival.passed := by
      rw [message, endStream_eq_false hX]
      rfl
    obtain ⟨buffer', hnone, hrest⟩ := suspended_take kind ⟨.ONCALL, none⟩
      (suspended_headers kind hf hmatch) honly after
    simp only [Fate.timeline, endStream_eq_false honly]
    rw [← List.cons_append, run_append]
    rcases hrest with ⟨data', hdrop, hmore, hs, -, hsame⟩ | ⟨hdrop, hs, -⟩
    · rw [hdrop]
      cases buffer' with
      | none =>
        obtain rfl := hsame rfl
        obtain ⟨hemptying, hpassed⟩ := success_first kind ⟨.ONCALL, none⟩ hs response
        obtain ⟨X, hX, hne, hrun⟩ := emptying_first kind ⟨.ONCALL, none⟩ hemptying hmore
        rw [hpassed] at hrun
        refine ⟨X, hX.trans ?_, hrun.trans (hmessage X hne).symm⟩
        -- the answer came first, or there was no body
        rcases (hnone.1 rfl).2 with rfl | rfl
        · simp
        · have htrailers : trailers = true := by simpa using hmore
          simp [htrailers]
      | some bytes =>
        obtain ⟨hemptying, hpassed⟩ := success_partial kind ⟨.ONCALL, none⟩ hs response
        obtain ⟨X, hX, hne, hrun⟩ := emptying_run kind ⟨.ONCALL, none⟩ hemptying rfl hmore
        rw [hpassed] at hrun
        have hafter : after ≠ 0 := fun h0 => by cases hnone.2 ⟨rfl, .inl h0⟩
        exact ⟨X, by simp [hX, hafter], hrun.trans (hmessage X hne).symm⟩
    · have hafter : after ≠ 0 := by
        rintro rfl
        exact frames_ne_nil honly hdrop
      have htrailers : buffer' = none → trailers = true := by
        intro h0
        rcases (hnone.1 h0).2 with h0 | rfl
        · exact absurd h0 hafter
        · simpa using honly
      obtain ⟨X, hX, hne, hpassed⟩ := success_whole kind ⟨.ONCALL, none⟩ hs htrailers response
      rw [hdrop]
      exact ⟨X, by simp [hX, hafter], hpassed.trans (hmessage X hne).symm⟩

theorem run_destroyed {s : Stream H} (hs : s.destroyed = true) (l : List (Arrival H)) :
    s.run kind answer (l.map .arrival) = s := by
  induction l with
  | nil => rfl
  | cons a l ih =>
    have hstep : s.step kind answer (.arrival a) = s := if_pos hs
    rw [List.map_cons, run, List.foldl_cons, hstep]
    exact ih

theorem passed_destroyed (data : List Bytes) (trailers : Bool) (hf : Ready config f)
    (hmatch : config.shouldDowngrade h .ENCODE = true) (after : Nat) :
    (run kind ⟨.ONCALL, none⟩ { filter := f }
    ((Fate.destroyed after).timeline h data trailers)).pipe.passed = [] := by
  have hdestroy {s : Stream H} (hs : s.destroyed = false) (hpassed : s.pipe.passed = []) (l : List (Arrival H)) :
      (run kind ⟨.ONCALL, none⟩ s (.onDestroy :: l.map .arrival)).pipe.passed = [] := by
    rw [run, List.foldl_cons]
    have hstep : (s.step kind ⟨.ONCALL, none⟩ .onDestroy).destroyed = true ∧
        (s.step kind ⟨.ONCALL, none⟩ .onDestroy).pipe = s.pipe := by
      simp [step, hs]
    have hrun := run_destroyed kind ⟨.ONCALL, none⟩ hstep.1 l
    rw [run] at hrun
    rw [hrun, hstep.2, hpassed]
  by_cases honly : data = [] ∧ trailers = false
  · obtain ⟨rfl, rfl⟩ := honly
    obtain ⟨f', -, hstep⟩ := step_headers_only kind hf hmatch
    have hheld := hdestroy
      (s := ⟨f', { headers := some h, complete := true, iteration := .StopSingleIteration }, true,
      false, 0⟩) rfl rfl []
    rw [← hstep] at hheld
    simp only [Fate.timeline, frames, Bool.false_eq_true, if_false, List.take_nil, List.drop_nil]
    exact hheld
  · obtain ⟨buffer', -, hrest⟩ := suspended_take kind ⟨.ONCALL, none⟩ (suspended_headers kind hf hmatch) honly after
    simp only [Fate.timeline, endStream_eq_false honly]
    rw [← List.cons_append, run_append]
    rcases hrest with ⟨data', -, -, hs, -, -⟩ | ⟨-, hs, -⟩
    · exact hdestroy hs.destroyed hs.passed _
    · exact hdestroy hs.destroyed hs.passed _

/-! ## Continuing -/

/-- The request on its way is known to the filter, and to nobody once the
stream is destroyed. -/
structure Tracked (s : Stream H) : Prop where
  pending : s.pending = true → s.filter.isSendingRequest = true
  destroyed : s.destroyed = true → s.pending = false

omit [HeaderMap H] in
theorem encodeData_isSendingRequest (f : DowngradeFilter H) (v : DataView) (endStream : Bool) :
    (f.encodeData v endStream).1.isSendingRequest = f.isSendingRequest := by
  rcases hcache : f.responseToCache with _ | response
  · simp only [encodeData, hcache]
    split_ifs <;> rfl
  · simp only [encodeData, hcache]
    split_ifs <;> rfl

theorem tracked_step {s : Stream H} (hs : Tracked s) (e : Event H) :
    Tracked (s.step kind answer e) ∧
      (s.step kind answer e).continued + (s.step kind answer e).pending.toNat ≤ s.continued +
      s.pending.toNat + e.isHeaders.toNat := by
  obtain ⟨hpending, hdestroyed⟩ := hs
  cases e with
  | arrival a =>
    by_cases hgone : s.destroyed = true
    · have hstep : s.step kind answer (.arrival a) = s := if_pos hgone
      rw [hstep]
      exact ⟨⟨hpending, hdestroyed⟩, Nat.le_add_right _ _⟩
    · have hstep : s.step kind answer (.arrival a) = s.arrive kind answer a := if_neg hgone
      rw [hstep]
      cases a with
      | headers h endStream =>
        refine ⟨⟨id, fun h => absurd h hgone⟩, ?_⟩
        have hbool := Bool.toNat_le (s.arrive kind answer (.headers h endStream)).pending
        show s.continued + _ ≤ s.continued + _ + 1
        omega
      | data bytes endStream =>
        refine ⟨⟨fun h => ?_, fun h => absurd h hgone⟩, Nat.le_refl _⟩
        show ((encoder kind answer).receive s.filter s.pipe (.data bytes endStream)).1.isSendingRequest = true
        rw [← hpending h]
        simp only [StreamFilter.receive]
        split_ifs
        · rfl
        · exact encodeData_isSendingRequest _ _ _
      | trailers => exact ⟨⟨hpending, fun h => absurd h hgone⟩, Nat.le_refl _⟩
  | onSuccess response =>
    cases hp : s.pending with
    | false =>
      have hstep : s.step kind answer (.onSuccess response) = s := if_neg (by simp [hp])
      rw [hstep]
      exact ⟨⟨hpending, hdestroyed⟩, by simp [hp]⟩
    | true =>
      have hsending := hpending hp
      simp only [step, hp, if_true, onSuccess, hsending]
      split_ifs
      · exact ⟨⟨by rintro ⟨⟩, fun _ => rfl⟩, Nat.le_refl _⟩
      · exact ⟨⟨by rintro ⟨⟩, fun _ => rfl⟩, Nat.le_refl _⟩
  | onFailure =>
    cases hp : s.pending with
    | false =>
      have hstep : s.step kind answer .onFailure = s := if_neg (by simp [hp])
      rw [hstep]
      exact ⟨⟨hpending, hdestroyed⟩, by simp [hp]⟩
    | true =>
      have hsending := hpending hp
      simp only [step, hp, if_true, onFailure, hsending]
      exact ⟨⟨by rintro ⟨⟩, fun _ => rfl⟩, Nat.le_refl _⟩
  | onDestroy =>
    by_cases hgone : s.destroyed = true
    · have hstep : s.step kind answer .onDestroy = s := if_pos hgone
      rw [hstep]
      exact ⟨⟨hpending, hdestroyed⟩, Nat.le_add_right _ _⟩
    · -- a request on its way is cancelled
      have hnone : (s.pending && !s.filter.isSendingRequest) = false := by
        cases hp : s.pending
        · rfl
        · simp [hpending hp]
      simp only [step, if_neg hgone, kind.cancels, hnone]
      exact ⟨⟨by simp, fun _ => rfl⟩, by simp [Event.isHeaders]⟩

theorem tracked_run {s : Stream H} (hs : Tracked s) (es : List (Event H)) :
    Tracked (s.run kind answer es) ∧ (s.run kind answer es).continued ≤ s.continued +
    s.pending.toNat + es.countP Event.isHeaders := by
  induction es generalizing s with
  | nil => exact ⟨hs, by simp [run]⟩
  | cons e es ih =>
    obtain ⟨htracked, hweight⟩ := tracked_step kind answer hs e
    obtain ⟨hrun, hsum⟩ := ih htracked
    refine ⟨hrun, ?_⟩
    have hcons : s.run kind answer (e :: es) = (s.step kind answer e).run kind answer es := rfl
    rw [hcons, List.countP_cons]
    cases hheaders : e.isHeaders <;> simp [hheaders] at hweight ⊢ <;> omega

theorem destroyed_step (s : Stream H) :
    (s.step kind answer .onDestroy).destroyed = true ∧ (s.step kind answer .onDestroy).continued = s.continued := by
  unfold step
  dsimp only
  split_ifs with hgone
  · exact ⟨hgone, rfl⟩
  · exact ⟨rfl, rfl⟩

/-- A stream that is destroyed is not continued. -/
theorem destroyed_run {s : Stream H} (hs : Tracked s) (hgone : s.destroyed = true)
    (es : List (Event H)) : s.run kind answer es = s := by
  induction es with
  | nil => rfl
  | cons e es ih =>
    have hpending : ¬ s.pending = true := by simp [hs.destroyed hgone]
    have hstep : s.step kind answer e = s := by
      cases e with
      | arrival | onDestroy => exact if_pos hgone
      | onSuccess | onFailure => exact if_neg hpending
    rw [run, List.foldl_cons, hstep]
    exact ih

theorem continued_destroyed {s : Stream H} (hs : Tracked s) (es later : List (Event H)) :
    (s.run kind answer (es ++ .onDestroy :: later)).continued = (s.run kind answer es).continued := by
  obtain ⟨htracked, -⟩ := tracked_run kind answer hs es
  obtain ⟨hgone, hcontinued⟩ := destroyed_step kind answer (s.run kind answer es)
  obtain ⟨hkept, -⟩ := tracked_step kind answer htracked .onDestroy
  rw [run_append]
  exact (congrArg continued (destroyed_run kind answer hkept hgone later)).trans hcontinued

end Stream

/-! ## The whole response -/

section
variable [LawfulAddCopy H] (kind : Kind H)

theorem iterate_downgradeHeaders (response : ResponseMessage H) :
    iterate (downgradeHeaders kind response) = iterate response.headers ++ [⟨headerName "x-downgrade-status", kind.mark⟩] := by
  rw [downgradeHeaders, iterate_addCopy _ _ _ LawfulAddCopy.isInline_xDowngradeStatus, iterate_copyFrom]

omit [HeaderMap H] [LawfulAddCopy H] in
theorem original_iff (h headers : H) (X data : List Bytes) (trailers : Bool) :
    Original headers data trailers ((message h X trailers).map Arrival.passed) ↔ h = headers ∧
    X.flatten = data.flatten := by
  rw [Original, delivered_iff]
  simp

theorem downgraded_iff (response : ResponseMessage H) (X : List Bytes) (trailers : Bool) :
    Downgraded kind response ((message (downgradeHeaders kind response) X trailers).map Arrival.passed) ↔
      X.flatten = response.body ∧ trailers = false := by
  rw [Downgraded, delivered_iff]
  simp [iterate_downgradeHeaders]

omit [LawfulAddCopy H] in
theorem whole_iff {headers : H} {data : List Bytes} {trailers : Bool} {after : Nat} {response : ResponseMessage H} :
    (downgradeHeaders kind response = headers ∧
          (if trailers = true ∨ (data.length = 1 ∧ after = 0) then [] else response.body) = data.flatten) ∨
        ((if trailers = true ∨ (data.length = 1 ∧ after = 0) then [] else response.body) =
        response.body ∧ trailers = false) ↔
      Whole kind headers data trailers (.success after response) := by
  have hnil (l : Bytes) : [] = l ↔ l = [] := eq_comm
  unfold Whole
  by_cases hlost : trailers = true ∨ (data.length = 1 ∧ after = 0)
  · -- the body is lost
    rw [if_pos hlost, hnil, hnil]
    rcases hlost with rfl | ⟨hone, rfl⟩
    · simp
    · simp [hone, and_comm, or_comm]
  · obtain ⟨htrailers, hkept⟩ := not_or.1 hlost
    have hpos : data.length ≠ 1 ∨ 0 < after := by omega
    rw [if_neg hlost]
    constructor
    · intro _
      exact .inl ⟨by simpa using htrailers, hpos.imp_right .inl⟩
    · intro _
      exact .inr ⟨rfl, by simpa using htrailers⟩

/-- Downstream gets one of the two responses as a whole unless trailers come,
or the only data frame comes after the answer; the response is continued at
most once, and not after the stream is destroyed. -/
theorem all_or_nothing_iff (config : RouteConfig H) {request headers : H} (body : List Bytes)
    (hdecode : config.shouldDowngrade request .DECODE = true) (hencode : config.shouldDowngrade headers .ENCODE = true)
    (data : List Bytes) (trailers : Bool) (fate : Fate H) :
    (AllOrNothing kind headers data trailers
        (Stream.run kind fate.answer { filter := requested kind config request body }
          (fate.timeline headers data trailers)).pipe.passed fate ↔
      Whole kind headers data trailers fate) ∧
    ∀ (answer : Answer H) (es : List (Event H)),
      (es.countP Event.isHeaders ≤ 1 →
        (Stream.run kind answer { filter := requested kind config request body } es).continued ≤ 1) ∧
      ∀ later, (Stream.run kind answer { filter := requested kind config request body }
        (es ++ .onDestroy :: later)).continued =
        (Stream.run kind answer { filter := requested kind config request body } es).continued := by
  have hready := Stream.ready_requested kind hdecode body
  refine ⟨?_, fun answer es => ?_⟩
  · cases fate with
    | refused answer hfailed =>
      show Original _ _ _ (Stream.run kind answer _ _).pipe.passed ↔ True
      rw [Stream.passed_refused kind answer hready hencode hfailed, original_iff]
      simp
    | failure after =>
      obtain ⟨X, hX, hpassed⟩ := Stream.passed_failure kind data trailers hready hencode after
      show Original _ _ _ (Stream.run kind ⟨.ONCALL, none⟩ _ _).pipe.passed ↔ True
      rw [hpassed, original_iff]
      simp [hX]
    | destroyed after =>
      show (Stream.run kind (⟨.ONCALL, none⟩ : Answer H) _ _).pipe.passed = [] ↔ True
      rw [Stream.passed_destroyed kind data trailers hready hencode after]
      simp
    | success after response =>
      obtain ⟨X, hX, hpassed⟩ := Stream.passed_success kind data trailers hready hencode after response
      show Original _ _ _ (Stream.run kind ⟨.ONCALL, none⟩ _ _).pipe.passed ∨
        Downgraded _ _ (Stream.run kind ⟨.ONCALL, none⟩ _ _).pipe.passed ↔ _
      rw [hpassed, original_iff, downgraded_iff, hX]
      exact whole_iff kind
  · have hstart : Stream.Tracked
        (⟨requested kind config request body, {}, false, false, 0⟩ : Stream H) := ⟨by simp, by simp⟩
    refine ⟨fun honce => ?_, fun later => ?_⟩
    · exact (Stream.tracked_run kind answer hstart es).2.trans (by simpa using honce)
    · exact Stream.continued_destroyed kind answer hstart es later

end

/-! ## Answers in time and not -/

/-- Every response is asked for again. -/
def retryConfig : RouteConfig HeaderList where
  downgradeRpx := [fun _ => true]

def retryRequest : HeaderList := (plainRequest "GET" "example.com" "/").headers

/-- The answer comes in the middle of the body. -/
theorem partial_all_or_nothing :
    let fate : Fate HeaderList := .success 1 ⟨plainResponse, ascii "other"⟩
    (AllOrNothing serviceDowngrade plainResponse [ascii "ab", [], ascii "c"] false
        (Stream.run serviceDowngrade fate.answer { filter := requested serviceDowngrade retryConfig retryRequest [] }
          (fate.timeline plainResponse [ascii "ab", [], ascii "c"] false)).pipe.passed fate ↔
      Whole serviceDowngrade plainResponse [ascii "ab", [], ascii "c"] false fate) ∧
    ∀ (answer : Answer HeaderList) (es : List (Event HeaderList)),
      (es.countP Event.isHeaders ≤ 1 →
        (Stream.run serviceDowngrade answer
        { filter := requested serviceDowngrade retryConfig retryRequest [] } es).continued ≤ 1) ∧
      ∀ later,
        (Stream.run serviceDowngrade answer { filter := requested serviceDowngrade retryConfig retryRequest [] }
          (es ++ .onDestroy :: later)).continued =
        (Stream.run serviceDowngrade answer
          { filter := requested serviceDowngrade retryConfig retryRequest [] } es).continued :=
  all_or_nothing_iff serviceDowngrade retryConfig [] rfl rfl [ascii "ab", [], ascii "c"] false
    (.success 1 ⟨plainResponse, ascii "other"⟩)

/-- The answer comes before the only data frame: downstream gets the headers
of the other response and no body. -/
theorem single_frame_not_whole :
    ¬ AllOrNothing serviceDowngrade plainResponse [ascii "abc"] false
      (Stream.run serviceDowngrade ⟨.ONCALL, none⟩ { filter := requested serviceDowngrade retryConfig retryRequest [] }
        ((Fate.success 0 ⟨plainResponse, ascii "other"⟩).timeline plainResponse [ascii "abc"] false)).pipe.passed
      (.success 0 ⟨plainResponse, ascii "other"⟩) := by
  rintro (horiginal | hdowngraded)
  · exact absurd horiginal.body (by decide)
  · exact absurd hdowngraded.body (by decide)

end EnvoyProxy.Downgrade
