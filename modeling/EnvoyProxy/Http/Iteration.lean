import EnvoyProxy.Http.Filter
/-!
# Iteration at one filter

What Envoy does around the callbacks of one filter, for one direction of a
stream. A `Pipe` holds the headers, the data that is buffered for the filter,
where the iteration has stopped, and what has been passed on. A filter that
has stopped one callback is still called with what comes next, and its next
`Continue` lets everything go; a filter that has stopped all is not called
until it resumes, and then with the buffer as its frame. Filters that do not
have a callback for trailers answer `Continue` to them.
-/

namespace EnvoyProxy.Http

inductive IterationState
  | Continue
  | StopSingleIteration
  | StopAll
  deriving DecidableEq, Repr

/-- What goes to the next filter. -/
inductive Passed (H : Type)
  | headers (headers : H) (endStream : Bool)
  | data (bytes : Bytes) (endStream : Bool)
  | trailers
  deriving DecidableEq

/-- What comes from the filter before. -/
inductive Arrival (H : Type)
  | headers (headers : H) (endStream : Bool)
  | data (bytes : Bytes) (endStream : Bool)
  | trailers

/-- What a data callback has before it: its frame, or none when the frame is
the buffer itself, and the buffer. -/
structure DataView where
  frame : Option Bytes
  buffer : Option Bytes
  deriving DecidableEq

namespace DataView

/-- `data.drain(data.length())` -/
def drain (v : DataView) : DataView :=
  match v.frame with
  | some _ => { v with frame := some [] }
  | none => { v with buffer := some [] }

/-- `addEncodedData` with data of the filter's own. -/
def add (v : DataView) (bytes : Bytes) : DataView := { v with buffer := some (v.buffer.getD [] ++ bytes) }

/-- `addEncodedData` with the frame: it moves to the end of the buffer, if it
is not the buffer. -/
def move (v : DataView) : DataView :=
  match v.frame with
  | some bytes => { frame := some [], buffer := some (v.buffer.getD [] ++ bytes) }
  | none => v

/-- The bytes of the frame. -/
def data (v : DataView) : Bytes := v.frame.getD (v.buffer.getD [])

end DataView

structure Pipe (H : Type) where
  headers : Option H := none
  /-- The end of the message has arrived. -/
  complete : Bool := false
  trailers : Bool := false
  iteration : IterationState := .Continue
  headersContinued : Bool := false
  buffer : Option Bytes := none
  passed : List (Passed H) := []

namespace Pipe
variable {H : Type}

def pass (p : Pipe H) (x : Passed H) : Pipe H := { p with passed := p.passed ++ [x] }

/-- The headers go on, if they have not. -/
def doHeaders (p : Pipe H) (endStream : Bool) : Pipe H :=
  match p.headers with
  | some headers => if p.headersContinued then p else { p.pass (.headers headers endStream) with headersContinued := true }
  | none => p

/-- The buffer goes on, if there is one. -/
def doData (p : Pipe H) : Pipe H :=
  match p.buffer with
  | some bytes => { p.pass (.data bytes (p.complete && !p.trailers)) with buffer := some [] }
  | none => p

def doTrailers (p : Pipe H) : Pipe H := if p.trailers then p.pass .trailers else p

/-- Everything that is held goes on. -/
def commonContinue (p : Pipe H) : Pipe H :=
  (({ p with iteration := .Continue }.doHeaders (p.complete && p.buffer.isNone && !p.trailers)).doData).doTrailers

/-- After a callback for headers. Headers without a body may have got one. -/
def afterHeaders (p : Pipe H) (status : FilterHeadersStatus) : Pipe H :=
  match status with
  | .Continue => if p.complete then p.commonContinue else p.doHeaders false
  | .StopIteration => { p with iteration := .StopSingleIteration }
  | .StopAllIterationAndBuffer | .StopAllIterationAndWatermark => { p with iteration := .StopAll }

/-- The frame goes to the end of the buffer, if it is not the buffer. -/
def bufferData (p : Pipe H) (v : DataView) : Pipe H := { p with buffer := v.move.buffer }

/-- After a callback for data. -/
def afterData (p : Pipe H) (v : DataView) (endStream : Bool) (status : FilterDataStatus) : Pipe H :=
  match status with
  | .Continue =>
    if p.iteration = .StopSingleIteration then (p.bufferData v).commonContinue
    else
      match v.frame with
      -- what is in the buffer stays there
      | some bytes => { p with buffer := v.buffer }.pass (.data bytes endStream)
      | none => { p with buffer := some [] }.pass (.data v.data endStream)
  | .StopIterationAndBuffer => { p.bufferData v with iteration := .StopSingleIteration }
  | .StopIterationNoBuffer =>
    { p with
      iteration := .StopSingleIteration
      -- an empty buffer stands for the end of the message
      buffer := if endStream && v.buffer.isNone then some [] else v.buffer }

/-- Trailers, which the filter does not look at. -/
def afterTrailers (p : Pipe H) : Pipe H :=
  match p.iteration with
  | .Continue => p.pass .trailers
  | .StopSingleIteration => p.commonContinue
  | .StopAll => p

/-- What is held: the headers, the buffer and the trailers. -/
def held (p : Pipe H) : List (Passed H) :=
  let headers := match p.headers with
    | some headers => if p.headersContinued then [] else [.headers headers (p.complete && p.buffer.isNone && !p.trailers)]
    | none => []
  let data := match p.buffer with
    | some bytes => [.data bytes (p.complete && !p.trailers)]
    | none => []
  headers ++ (data ++ if p.trailers then [.trailers] else [])

theorem held_of_continued {p : Pipe H} (h : p.headersContinued = true) :
    p.held = (match p.buffer with
      | some bytes => [.data bytes (p.complete && !p.trailers)]
      | none => []) ++ if p.trailers then [.trailers] else [] := by
  unfold held
  cases p.headers <;> simp [h]

theorem passed_commonContinue (p : Pipe H) : p.commonContinue.passed = p.passed ++ p.held := by
  obtain ⟨headers, complete, trailers, iteration, continued, buffer, passed⟩ := p
  unfold commonContinue held
  cases headers <;> cases continued <;> cases buffer <;> cases trailers <;> simp [doHeaders, doData,
    doTrailers, pass]

end Pipe

/-- The callbacks of a filter for one direction; that for headers may add
data. -/
structure StreamFilter (F H : Type) where
  onHeaders : F → H → (endStream : Bool) → F × H × Option Bytes × FilterHeadersStatus
  onData : F → DataView → (endStream : Bool) → F × DataView × FilterDataStatus

namespace StreamFilter
variable {F H : Type} (s : StreamFilter F H)

/-- The next part of a message. -/
def receive (f : F) (p : Pipe H) : Arrival H → F × Pipe H
  | .headers headers endStream =>
    let (f, headers, added, status) := s.onHeaders f headers endStream
    let buffer := match added with
      | some bytes => some (p.buffer.getD [] ++ bytes)
      | none => p.buffer
    (f, { p with headers := some headers, complete := endStream, buffer }.afterHeaders status)
  | .data bytes endStream =>
    let p := { p with complete := endStream }
    if p.iteration = .StopAll then (f, { p with buffer := some (p.buffer.getD [] ++ bytes) })
    else
      let (f, v, status) := s.onData f ⟨some bytes, p.buffer⟩ endStream
      (f, p.afterData v endStream status)
  | .trailers => (f, { p with complete := true, trailers := true }.afterTrailers)

/-- The parts of a message until the stream is over. -/
def run (isOver : F → Bool) (f : F) (p : Pipe H) : List (Arrival H) → F × Pipe H
  | [] => (f, p)
  | a :: rest =>
    if isOver f then (f, p)
    else
      let (f, p) := s.receive f p a
      run isOver f p rest

/-- A filter that has stopped all is called with the buffer first. -/
def resume (f : F) (p : Pipe H) : F × Pipe H :=
  if p.iteration = .StopAll then
    let p := { p with iteration := .Continue }.doHeaders (p.complete && p.buffer.isNone && !p.trailers)
    match p.buffer with
    | none => (f, p.doTrailers)
    | some _ =>
      let endStream := p.complete && !p.trailers
      let (f, v, status) := s.onData f ⟨none, p.buffer⟩ endStream
      let p := p.afterData v endStream status
      (f, if p.trailers then p.afterTrailers else p)
  else (f, p.commonContinue)

end StreamFilter

/-! ## Messages -/

/-- What arrives, passed on as it is. -/
def Arrival.passed {H : Type} : Arrival H → Passed H
  | .headers h endStream => .headers h endStream
  | .data bytes endStream => .data bytes endStream
  | .trailers => .trailers

/-- The frames behind the headers. -/
def frames {H : Type} (trailers : Bool) : List Bytes → List (Arrival H)
  | [] => if trailers then [.trailers] else []
  | bytes :: rest => .data bytes (rest.isEmpty && !trailers) :: frames trailers rest

/-- A message as it arrives. -/
def message {H : Type} (headers : H) (data : List Bytes) (trailers : Bool) : List (Arrival H) :=
  .headers headers (data.isEmpty && !trailers) :: frames trailers data

namespace Passed
variable {H : Type}

def bytes : Passed H → Bytes
  | .headers .. | .trailers => []
  | .data bytes _ => bytes

def ends : Passed H → Bool
  | .headers _ endStream | .data _ endStream => endStream
  | .trailers => true

end Passed

/-- The body among what was passed on. -/
def bodyOf {H : Type} (passed : List (Passed H)) : Bytes := (passed.map Passed.bytes).flatten

/-- Headers, then a body, then trailers if there are any, ended once. -/
structure Delivered {H : Type} (headers : H → Prop) (body : Bytes) (trailers : Bool) (passed : List (Passed H)) : Prop where
  headers : ∃ h endStream rest, passed = .headers h endStream :: rest ∧ headers h ∧ ∀ h' e, .headers h' e ∉ rest
  body : bodyOf passed = body
  trailers : .trailers ∈ passed ↔ trailers = true
  ends : ∃ first last, passed = first ++ [last] ∧ last.ends = true ∧ ∀ x ∈ first, x.ends = false

section Delivered
variable {H : Type}

theorem frames_ne_nil {trailers : Bool} {data : List Bytes} (hmore : ¬ (data = [] ∧ trailers = false)) :
    (frames trailers data : List (Arrival H)) ≠ [] := by
  intro hnil
  cases data with
  | nil => exact hmore ⟨rfl, by simpa [frames] using hnil⟩
  | cons => cases hnil

theorem frames_ne_headers (trailers : Bool) (data : List Bytes) :
    ∀ a ∈ (frames trailers data : List (Arrival H)), ∀ h e, a ≠ .headers h e := by
  induction data with
  | nil =>
    intro a ha
    cases trailers
    · cases ha
    · rw [List.mem_singleton.1 ha]
      simp
  | cons bytes rest ih =>
    intro a ha
    rcases List.mem_cons.1 ha with rfl | ha
    · simp
    · exact ih a ha

theorem bodyOf_frames (trailers : Bool) (data : List Bytes) :
    bodyOf ((frames trailers data : List (Arrival H)).map Arrival.passed) = data.flatten := by
  induction data with
  | nil => cases trailers <;> rfl
  | cons bytes rest ih => simpa [bodyOf, frames, Arrival.passed, Passed.bytes] using ih

theorem trailers_mem_frames (trailers : Bool) (data : List Bytes) :
    .trailers ∈ (frames trailers data : List (Arrival H)).map Arrival.passed ↔ trailers = true := by
  induction data with
  | nil => cases trailers <;> simp [frames, Arrival.passed]
  | cons bytes rest ih => simpa [frames, Arrival.passed] using ih

theorem headers_not_mem_frames (trailers : Bool) (data : List Bytes) (h : H) (e : Bool) :
    .headers h e ∉ (frames trailers data : List (Arrival H)).map Arrival.passed := by
  induction data with
  | nil => cases trailers <;> simp [frames, Arrival.passed]
  | cons bytes rest ih => simpa [frames, Arrival.passed] using ih

/-- Frames end with the last of them. -/
theorem frames_end {trailers : Bool} {data : List Bytes} (hmore : ¬ (data = [] ∧ trailers = false)) :
    ∃ first last, (frames trailers data : List (Arrival H)).map Arrival.passed = first ++ [last] ∧ last.ends = true ∧
      ∀ x ∈ first, x.ends = false := by
  induction data with
  | nil =>
    have htrailers : trailers = true := by simpa using hmore
    subst htrailers
    exact ⟨[], .trailers, rfl, rfl, by simp⟩
  | cons bytes rest ih =>
    by_cases hlast : rest = [] ∧ trailers = false
    · obtain ⟨rfl, rfl⟩ := hlast
      exact ⟨[], .data bytes true, rfl, rfl, by simp⟩
    · obtain ⟨first, last, heq, hends, hfirst⟩ := ih hlast
      refine ⟨.data bytes false :: first, last, ?_, hends, ?_⟩
      · rw [frames, List.map_cons, heq, endStream_eq_false hlast]
        rfl
      · intro x hx
        rcases List.mem_cons.1 hx with rfl | hx
        · rfl
        · exact hfirst x hx

/-- A message that is passed on is delivered as what it is, and as nothing
else. -/
theorem delivered_iff {P : H → Prop} {body : Bytes} {trailers trailers' : Bool} (h : H) (data : List Bytes) :
    Delivered P body trailers ((message h data trailers').map Arrival.passed) ↔ P h ∧
    data.flatten = body ∧ trailers' = trailers := by
  have hbody : bodyOf ((message h data trailers').map Arrival.passed) = data.flatten := by
    simpa [message, bodyOf, Arrival.passed, Passed.bytes] using bodyOf_frames (H := H) trailers' data
  have htrailers : .trailers ∈ (message h data trailers').map Arrival.passed ↔ trailers' = true := by
    simpa [message, Arrival.passed] using trailers_mem_frames (H := H) trailers' data
  constructor
  · intro hdelivered
    obtain ⟨h', endStream, rest, heq, hP, -⟩ := hdelivered.headers
    rw [message, List.map_cons] at heq
    obtain ⟨hheaders, -⟩ := List.cons.inj heq
    cases hheaders
    refine ⟨hP, hbody.symm.trans hdelivered.body, ?_⟩
    have hiff := htrailers.symm.trans hdelivered.trailers
    cases trailers' <;> cases trailers <;> simp_all
  · rintro ⟨hP, rfl, rfl⟩
    refine ⟨⟨h, _, _, rfl, hP, headers_not_mem_frames trailers' data⟩, hbody, htrailers, ?_⟩
    by_cases hmore : data = [] ∧ trailers' = false
    · obtain ⟨rfl, rfl⟩ := hmore
      exact ⟨[], .headers h true, rfl, rfl, by simp⟩
    · obtain ⟨first, last, heq, hends, hfirst⟩ := frames_end (H := H) hmore
      refine ⟨.headers h false :: first, last, ?_, hends, ?_⟩
      · rw [message, List.map_cons, heq, endStream_eq_false hmore]
        rfl
      · intro x hx
        rcases List.mem_cons.1 hx with rfl | hx
        · rfl
        · exact hfirst x hx

end Delivered

end EnvoyProxy.Http
