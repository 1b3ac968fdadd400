import EnvoyProxy.Http.Iteration
/-!
# Messages under way

A filter that keeps the body passes on what it has received and no more. While
it holds something back, what has been passed on and the buffer are the body
(`Pipe.Holds`); while it does not, everything has been passed on
(`Pipe.Flows`). The lemmas say how the two follow from one another.
-/

namespace EnvoyProxy.Http
variable {H : Type} {h : H} {body : Bytes} {passed : List (Passed H)}

/-- Headers and a part of the body, not ended. -/
structure Underway (h : H) (body : Bytes) (passed : List (Passed H)) : Prop where
  shape : ∃ rest, passed = .headers h false :: rest ∧ ∀ x ∈ rest, ∃ bytes, x = .data bytes false
  body : bodyOf passed = body

theorem bodyOf_append (passed passed' : List (Passed H)) :
    bodyOf (passed ++ passed') = bodyOf passed ++ bodyOf passed' := by
  simp [bodyOf]

theorem bodyOf_singleton (x : Passed H) : bodyOf [x] = x.bytes := by simp [bodyOf]

theorem underway_headers (h : H) : Underway h [] [.headers h false] where
  shape := ⟨[], rfl, by simp⟩
  body := rfl

theorem Underway.data (hunder : Underway h body passed) (bytes : Bytes) :
    Underway h (body ++ bytes) (passed ++ [.data bytes false]) where
  shape := by
    obtain ⟨rest, rfl, hrest⟩ := hunder.shape
    refine ⟨rest ++ [.data bytes false], rfl, ?_⟩
    intro x hx
    rcases List.mem_append.1 hx with hx | hx
    · exact hrest x hx
    · exact ⟨bytes, List.mem_singleton.1 hx⟩
  body := by rw [bodyOf_append, hunder.body, bodyOf_singleton, Passed.bytes]

theorem Underway.no_ends (hunder : Underway h body passed) : ∀ x ∈ passed, x.ends = false := by
  obtain ⟨rest, rfl, hrest⟩ := hunder.shape
  intro x hx
  rcases List.mem_cons.1 hx with rfl | hx
  · rfl
  · obtain ⟨bytes, rfl⟩ := hrest x hx
    rfl

/-- The last part ends the message; it has no other headers. -/
theorem Underway.delivered (hunder : Underway h body passed) {last : Passed H} (hends : last.ends = true)
    (hnot : ∀ h' e, last ≠ .headers h' e) {trailers : Bool} (htrailers : last = .trailers ↔ trailers = true) :
    Delivered (· = h) (body ++ last.bytes) trailers (passed ++ [last]) where
  headers := by
    obtain ⟨rest, rfl, hrest⟩ := hunder.shape
    refine ⟨h, false, rest ++ [last], rfl, rfl, ?_⟩
    intro h' e hmem
    rcases List.mem_append.1 hmem with hmem | hmem
    · obtain ⟨bytes, hdata⟩ := hrest _ hmem
      cases hdata
    · exact hnot h' e (List.mem_singleton.1 hmem).symm
  body := by rw [bodyOf_append, hunder.body, bodyOf_singleton]
  trailers := by
    rw [List.mem_append, List.mem_singleton, ← htrailers]
    constructor
    · rintro (hmem | heq)
      · exact absurd (hunder.no_ends _ hmem) (by rintro ⟨⟩)
      · exact heq.symm
    · exact fun heq => .inr heq.symm
  ends := ⟨passed, last, rfl, hends, hunder.no_ends⟩

theorem Underway.delivered_data (hunder : Underway h body passed) (bytes : Bytes) :
    Delivered (· = h) (body ++ bytes) false (passed ++ [.data bytes true]) := by
  have hends : (Passed.data bytes true : Passed H).ends = true := rfl
  apply hunder.delivered hends
  · exact fun h' e heq => by cases heq
  · exact iff_of_false (fun heq => by cases heq) Bool.false_ne_true

theorem Underway.delivered_trailers (hunder : Underway h body passed) :
    Delivered (· = h) body true (passed ++ [.trailers]) := by
  have hends : (Passed.trailers : Passed H).ends = true := rfl
  have hall := hunder.delivered hends (fun h' e heq => by cases heq) (iff_of_true rfl (Eq.refl true))
  rwa [Passed.bytes, List.append_nil] at hall

/-- A buffer and trailers behind what has been passed on. -/
theorem Underway.rest (hunder : Underway h body passed) {complete trailers : Bool} {buffer : Option Bytes}
    (htrailers : trailers = true → complete = true)
    (hends : complete = true → trailers = false → buffer.isSome = true) :
    let rest := (match buffer with
      | some bytes => [.data bytes (complete && !trailers)]
      | none => []) ++ if trailers then [.trailers] else []
    if complete then Delivered (· = h) (body ++ buffer.getD []) trailers (passed ++ rest)
      else trailers = false ∧ Underway h (body ++ buffer.getD []) (passed ++ rest) := by
  cases complete with
  | false =>
    obtain rfl : trailers = false := by simpa using htrailers
    cases buffer with
    | none => simpa using hunder
    | some bytes => exact ⟨rfl, hunder.data bytes⟩
  | true =>
    cases trailers with
    | false =>
      cases buffer with
      | none => cases hends rfl rfl
      | some bytes => exact hunder.delivered_data bytes
    | true =>
      cases buffer with
      | none => simpa using hunder.delivered_trailers
      | some bytes => simpa using (hunder.data bytes).delivered_trailers

/-- Headers that are the whole message. -/
theorem delivered_headers (h : H) : Delivered (· = h) [] false [.headers h true] :=
  (@delivered_iff H (· = h) [] false false h []).2 ⟨rfl, rfl, rfl⟩

namespace Pipe
variable {p : Pipe H} {received : Bytes}

/-- What has been passed on, of a message that has not ended. -/
def Begun (h : H) (body : Bytes) (p : Pipe H) : Prop :=
  if p.headersContinued then Underway h body p.passed else p.passed = [] ∧ body = []

/-- What has been passed on and the buffer are what has been received. -/
structure Carries (h : H) (received : Bytes) (p : Pipe H) : Prop where
  headers : p.headers = some h
  body : ∃ body, p.Begun h body ∧ body ++ p.buffer.getD [] = received
  trailers : p.trailers = true → p.complete = true

/-- Something may be held back, and there is something that ends the message
when it is complete. -/
structure Holds (h : H) (received : Bytes) (p : Pipe H) : Prop extends Carries h received p where
  ends : p.complete = true → p.trailers = false → p.headersContinued = true → p.buffer.isSome = true

/-- Nothing is held back. -/
structure Flows (h : H) (received : Bytes) (p : Pipe H) : Prop where
  headers : p.headers = some h
  iteration : p.iteration = .Continue
  continued : p.headersContinued = true
  buffer : p.buffer.getD [] = []
  passed : if p.complete then Delivered (· = h) received p.trailers p.passed
    else p.trailers = false ∧ Underway h received p.passed

theorem Flows.carries (hp : p.Flows h received) (hmore : p.complete = false) : p.Carries h received := by
  obtain ⟨htrailers, hunder⟩ : p.trailers = false ∧ Underway h received p.passed := by simpa [hmore] using hp.passed
  refine ⟨hp.headers, ⟨received, ?_, ?_⟩, ?_⟩
  · simpa [Begun, hp.continued] using hunder
  · rw [hp.buffer, List.append_nil]
  · simp [htrailers]

/-- Nothing of the body is lost. -/
theorem Carries.conserves (hp : p.Carries h received) : bodyOf p.passed ++ p.buffer.getD [] = received := by
  obtain ⟨body, hbegun, rfl⟩ := hp.body
  unfold Begun at hbegun
  split_ifs at hbegun
  · rw [hbegun.body]
  · rw [hbegun.1, hbegun.2]
    rfl

/-- Continuing empties the buffer and changes nothing that has arrived. -/
theorem commonContinue_fields (p : Pipe H) :
    p.commonContinue.headers = p.headers ∧ p.commonContinue.complete = p.complete ∧
    p.commonContinue.trailers = p.trailers ∧
      p.commonContinue.iteration = .Continue ∧ p.commonContinue.buffer.getD [] = [] := by
  obtain ⟨headers, complete, trailers, iteration, continued, buffer, passed⟩ := p
  unfold commonContinue
  cases headers <;> cases continued <;> cases buffer <;> cases trailers <;>
    exact ⟨rfl, rfl, rfl, rfl, rfl⟩

/-- The same headers, ended or not. -/
def SameMessage (p q : Pipe H) : Prop := q.headers = p.headers ∧ q.complete = p.complete

theorem SameMessage.trans {p q r : Pipe H} (h : p.SameMessage q) (h' : q.SameMessage r) : p.SameMessage r :=
  ⟨h'.1.trans h.1, h'.2.trans h.2⟩

theorem doHeaders_same (p : Pipe H) (e : Bool) : p.SameMessage (p.doHeaders e) := by
  unfold doHeaders
  cases hheaders : p.headers with
  | none => exact ⟨rfl, rfl⟩
  | some h =>
    dsimp only
    split_ifs
    · exact ⟨rfl, rfl⟩
    · exact ⟨rfl, rfl⟩

theorem commonContinue_same (p : Pipe H) : p.SameMessage p.commonContinue :=
  ⟨(commonContinue_fields p).1, (commonContinue_fields p).2.1⟩

theorem afterHeaders_same (p : Pipe H) (status : FilterHeadersStatus) : p.SameMessage (p.afterHeaders status) := by
  unfold afterHeaders
  cases status with
  | Continue =>
    dsimp only
    split_ifs
    · exact commonContinue_same p
    · exact doHeaders_same p false
  | _ => exact ⟨rfl, rfl⟩

theorem afterData_same (p : Pipe H) (v : DataView) (e : Bool) (status : FilterDataStatus) :
    p.SameMessage (p.afterData v e status) := by
  unfold afterData
  cases status with
  | Continue =>
    dsimp only
    split_ifs
    · exact commonContinue_same _
    · cases v.frame <;> exact ⟨rfl, rfl⟩
  | _ => exact ⟨rfl, rfl⟩

theorem afterData_trailers (p : Pipe H) (v : DataView) (e : Bool) (status : FilterDataStatus) :
    (p.afterData v e status).trailers = p.trailers := by
  unfold afterData
  cases status with
  | Continue =>
    dsimp only
    split_ifs
    · exact (commonContinue_fields _).2.2.1
    · cases v.frame <;> rfl
  | _ => rfl

theorem afterTrailers_same (p : Pipe H) : p.SameMessage p.afterTrailers := by
  unfold afterTrailers
  split
  · exact ⟨rfl, rfl⟩
  · exact commonContinue_same p
  · exact ⟨rfl, rfl⟩

theorem doTrailers_same (p : Pipe H) : p.SameMessage p.doTrailers := by
  unfold doTrailers
  split_ifs <;> exact ⟨rfl, rfl⟩

theorem commonContinue_continued {p : Pipe H} (hheaders : p.headers = some h) :
    p.commonContinue.headersContinued = true := by
  obtain ⟨headers, complete, trailers, iteration, continued, buffer, passed⟩ := p
  cases hheaders
  unfold commonContinue
  cases continued <;> cases buffer <;> cases trailers <;> rfl

/-- The headers, when they have not gone on, and the buffer go on. -/
theorem Holds.flows (hp : p.Holds h received) : p.commonContinue.Flows h received := by
  obtain ⟨hheaders, hcomplete, htrailers, hiteration, hbuffer⟩ := commonContinue_fields p
  refine ⟨hheaders.trans hp.headers, hiteration, commonContinue_continued hp.headers, hbuffer, ?_⟩
  rw [hcomplete, htrailers, passed_commonContinue]
  obtain ⟨body, hbegun, hbody⟩ := hp.body
  unfold Begun at hbegun
  split_ifs at hbegun with hcontinued
  · rw [held_of_continued hcontinued, ← hbody]
    exact hbegun.rest hp.trailers fun hcomplete htrailers => hp.ends hcomplete htrailers hcontinued
  · obtain ⟨hpassed, rfl⟩ := hbegun
    rw [hpassed, List.nil_append, ← hbody]
    unfold held
    simp only [hp.headers, hcontinued, Bool.false_eq_true, if_false]
    by_cases hwhole : (p.complete && p.buffer.isNone && !p.trailers) = true
    · -- headers that are the whole message
      simp only [Bool.and_eq_true, Option.isNone_iff_eq_none, Bool.not_eq_true'] at hwhole
      obtain ⟨⟨hcomplete, hbuffer⟩, htrailers⟩ := hwhole
      simpa [hcomplete, hbuffer, htrailers] using delivered_headers h
    · rw [Bool.not_eq_true] at hwhole
      rw [hwhole]
      apply (underway_headers h).rest hp.trailers
      intro hcomplete htrailers
      simpa [hcomplete, htrailers] using hwhole

/-! ## After a callback -/

/-- The frame goes to the buffer. -/
theorem Carries.buffered (hp : p.Carries h received) (hmore : p.complete = false) (bytes : Bytes)
    (e : Bool) (s : IterationState) :
    { p with complete := e, buffer := some (p.buffer.getD [] ++ bytes), iteration := s }.Holds h (received ++ bytes) where
  headers := hp.headers
  body := by
    obtain ⟨body, hbegun, rfl⟩ := hp.body
    exact ⟨body, hbegun, by rw [List.append_assoc]; rfl⟩
  trailers := fun htrailers => absurd (hp.trailers htrailers) (by simp [hmore])
  ends := fun _ _ _ => rfl

/-- Headers, with nothing behind them yet. -/
theorem holds_headers {p : Pipe H} (hheaders : p.headers = some h)
    (hcontinued : p.headersContinued = false) (hpassed : p.passed = [])
    (hbuffer : p.buffer.getD [] = []) (htrailers : p.trailers = true → p.complete = true) : p.Holds h [] where
  headers := hheaders
  body := ⟨[], by simp [Begun, hcontinued, hpassed], hbuffer⟩
  trailers := htrailers
  ends := fun _ _ h => absurd (hcontinued.symm.trans h) (by simp)

/-- The next part of the body goes on. -/
theorem Flows.pass_data (hp : p.Flows h received) (hmore : p.complete = false) (bytes : Bytes)
    (e : Bool) {buffer : Option Bytes}
    (hbuffer : buffer.getD [] = []) : ({ p with complete := e, buffer }.pass (.data bytes e)).Flows h (received ++ bytes) where
  headers := hp.headers
  iteration := hp.iteration
  continued := hp.continued
  buffer := hbuffer
  passed := by
    obtain ⟨htrailers, hunder⟩ : p.trailers = false ∧ Underway h received p.passed :=
      by simpa [hmore] using hp.passed
    cases e with
    | false => exact ⟨htrailers, hunder.data bytes⟩
    | true =>
      have hdelivered := hunder.delivered_data bytes
      rw [← htrailers] at hdelivered
      exact hdelivered

theorem Flows.pass_trailers (hp : p.Flows h received) (hmore : p.complete = false) :
    ({ p with complete := true, trailers := true }.pass .trailers).Flows h received where
  headers := hp.headers
  iteration := hp.iteration
  continued := hp.continued
  buffer := hp.buffer
  passed := by
    obtain ⟨-, hunder⟩ : p.trailers = false ∧ Underway h received p.passed := by simpa [hmore] using hp.passed
    exact hunder.delivered_trailers

/-- A frame that the callback has not touched, or has moved to the buffer. -/
def Untaken (v₀ v : DataView) : Prop := v = v₀ ∨ v = v₀.move

theorem Untaken.move_buffer {bytes : Bytes} {buffer : Option Bytes} {v : DataView}
    (hv : Untaken ⟨some bytes, buffer⟩ v) :
    v.move.buffer = some (buffer.getD [] ++ bytes) := by
  rcases hv with rfl | rfl
  · rfl
  · simp [DataView.move]

/-- A callback for data stops. -/
theorem Carries.afterData_stop (hp : p.Carries h received) (hmore : p.complete = false)
    {bytes : Bytes} {v : DataView}
    (hv : Untaken ⟨some bytes, p.buffer⟩ v) (e : Bool) :
    let p' := { p with complete := e }.afterData v e .StopIterationAndBuffer
    p'.Holds h (received ++ bytes) ∧ p'.iteration = .StopSingleIteration := by
  refine ⟨?_, rfl⟩
  have hbuffered := hp.buffered hmore bytes e .StopSingleIteration
  rw [← hv.move_buffer] at hbuffered
  exact hbuffered

/-- A callback for data continues after one has stopped. -/
theorem Carries.afterData_continue (hp : p.Carries h received) (hmore : p.complete = false)
    (hheld : p.iteration = .StopSingleIteration)
    {bytes : Bytes} {v : DataView} (hv : Untaken ⟨some bytes, p.buffer⟩ v) (e : Bool) :
    ({ p with complete := e }.afterData v e .Continue).Flows h (received ++ bytes) := by
  have hbuffered := (hp.buffered hmore bytes e p.iteration).flows
  rw [← hv.move_buffer] at hbuffered
  unfold afterData
  simp only [hheld, if_true]
  rw [hheld] at hbuffered
  exact hbuffered

/-- A callback for data continues, and none has stopped. The frame is gone when
it is in the buffer. -/
theorem Flows.afterData_continue (hp : p.Flows h received) (hmore : p.complete = false)
    {bytes : Bytes} {v : DataView}
    (hv : Untaken ⟨some bytes, p.buffer⟩ v) (hkept : bytes = [] ∨ v = ⟨some bytes, p.buffer⟩) (e : Bool) :
    ({ p with complete := e }.afterData v e .Continue).Flows h (received ++ bytes) := by
  have hbuffer := hp.buffer
  have hflows : ¬ p.iteration = .StopSingleIteration := by simp [hp.iteration]
  unfold afterData
  dsimp only
  rw [if_neg hflows]
  have hunmoved : v = ⟨some bytes, p.buffer⟩ ∨ bytes = [] ∧ v = ⟨some [], some (p.buffer.getD [] ++ bytes)⟩ := by
    rcases hv with rfl | rfl
    · exact .inl rfl
    · rcases hkept with rfl | h
      · exact .inr ⟨rfl, rfl⟩
      · exact .inl h
  rcases hunmoved with rfl | ⟨rfl, rfl⟩
  · exact hp.pass_data hmore bytes e hbuffer
  · apply hp.pass_data hmore [] e
    simp [hbuffer]

/-- Trailers, behind a message that is not held by a filter that has stopped
all. -/
theorem afterTrailers_flows
    (hp : p.Flows h received ∨ p.Holds h received ∧ p.iteration = .StopSingleIteration)
    (hmore : p.complete = false) :
    ({ p with complete := true, trailers := true }.afterTrailers).Flows h received := by
  unfold afterTrailers
  rcases hp with hp | ⟨hp, hheld⟩
  · have hpassed := hp.pass_trailers hmore
    rw [hp.iteration] at hpassed
    simp only [hp.iteration]
    exact hpassed
  · simp only [hheld]
    apply Holds.flows
    exact ⟨⟨hp.headers, hp.body, fun _ => rfl⟩, fun _ h => absurd h (by simp)⟩

end Pipe

/-! ## After a filter that has stopped all -/

section Resume
variable {F : Type} (s : StreamFilter F H) (f : F) {p : Pipe H} {received : Bytes}

/-- The headers go on. -/
theorem doHeaders_fields (p : Pipe H) (e : Bool) :
    (p.doHeaders e).buffer = p.buffer ∧ (p.doHeaders e).trailers = p.trailers ∧
    (p.doHeaders e).complete = p.complete ∧
      (p.doHeaders e).iteration = p.iteration := by
  unfold Pipe.doHeaders
  cases p.headers with
  | none => exact ⟨rfl, rfl, rfl, rfl⟩
  | some h =>
    dsimp only
    split_ifs <;> exact ⟨rfl, rfl, rfl, rfl⟩

/-- Only the headers are held. -/
theorem resume_headers (hall : p.iteration = .StopAll) (htrailers : p.trailers = false) (hbuffer : p.buffer = none) :
    s.resume f p = (f, { p with iteration := .Continue }.doHeaders p.complete) := by
  have hflag : (p.complete && p.buffer.isNone && !p.trailers) = p.complete := by simp [hbuffer, htrailers]
  obtain ⟨hnone, hmore, -, -⟩ := doHeaders_fields { p with iteration := .Continue } p.complete
  unfold StreamFilter.resume
  rw [if_pos hall, hflag]
  dsimp only
  generalize { p with iteration := .Continue }.doHeaders p.complete = q at hnone hmore ⊢
  rw [hnone.trans hbuffer]
  unfold Pipe.doTrailers
  rw [hmore.trans htrailers]
  rfl

/-- Headers and data are held. -/
theorem resume_frame (hall : p.iteration = .StopAll) (htrailers : p.trailers = false)
    {bytes : Bytes} (hbuffer : p.buffer = some bytes) :
    s.resume f p =
      let r := s.onData f ⟨none, some bytes⟩ p.complete
      (r.1, ({ p with iteration := .Continue }.doHeaders false).afterData r.2.1 p.complete r.2.2) := by
  have hflag : (p.complete && p.buffer.isNone && !p.trailers) = false := by simp [hbuffer]
  obtain ⟨hsome, hmore, hcomplete, -⟩ := doHeaders_fields { p with iteration := .Continue } false
  unfold StreamFilter.resume
  rw [if_pos hall, hflag]
  dsimp only
  generalize { p with iteration := .Continue }.doHeaders false = q at hsome hmore hcomplete ⊢
  have hnone : q.trailers = false := hmore.trans htrailers
  have hend : q.complete = p.complete := hcomplete
  rw [hsome.trans hbuffer]
  simp only [hnone, hend, Bool.not_false, Bool.and_true, Pipe.afterData_trailers, Bool.false_eq_true, if_false]

/-- Without data, the headers and trailers go on. -/
theorem resume_empty (hp : p.Holds h received) (hall : p.iteration = .StopAll) (hbuffer : p.buffer = none) :
    (s.resume f p).1 = f ∧ (s.resume f p).2.Flows h received := by
  have hflows := hp.flows
  unfold Pipe.commonContinue at hflows
  have hnone : ({ p with iteration := .Continue }.doHeaders
    (p.complete && p.buffer.isNone && !p.trailers)).buffer = none := by
    unfold Pipe.doHeaders
    simp only [hp.headers]
    split_ifs <;> exact hbuffer
  unfold StreamFilter.resume
  simp only [hall, if_true]
  generalize { p with iteration := .Continue }.doHeaders
    (p.complete && p.buffer.isNone && !p.trailers) = q at hflows hnone ⊢
  rw [Pipe.doData, hnone] at hflows
  rw [hnone]
  exact ⟨rfl, hflows⟩

/-- With data, the callback gets it as its frame. -/
theorem resume_data (hp : p.Holds h received) (hall : p.iteration = .StopAll)
    (hcontinued : p.headersContinued = false) {bytes : Bytes}
    (hbuffer : p.buffer = some bytes) {f' : F} {status : FilterDataStatus}
    (hcall : s.onData f ⟨none, some bytes⟩ (p.complete && !p.trailers) = (f', ⟨none, some bytes⟩, status)) :
    (s.resume f p).1 = f' ∧
      (status = .Continue ∨ status = .StopIterationAndBuffer ∧ p.trailers = true → (s.resume f p).2.Flows h received) ∧
      (status = .StopIterationAndBuffer → p.trailers = false →
        (s.resume f p).2.Holds h received ∧ (s.resume f p).2.iteration = .StopSingleIteration) := by
  obtain ⟨body, hbegun, hbody⟩ := hp.body
  rw [Pipe.Begun, hcontinued] at hbegun
  obtain ⟨hpassed, rfl⟩ := hbegun
  rw [hbuffer] at hbody
  -- the headers go on first
  have hfirst : { p with iteration := .Continue }.doHeaders (p.complete && p.buffer.isNone && !p.trailers) =
      { p with iteration := .Continue, headersContinued := true, passed := [.headers h false] } := by
    simp [Pipe.doHeaders, Pipe.pass, hp.headers, hcontinued, hpassed, hbuffer]
  have hflows := hp.flows
  unfold Pipe.commonContinue at hflows
  rw [hfirst] at hflows
  unfold StreamFilter.resume
  simp only [hall, if_true]
  rw [hfirst]
  simp only [hbuffer, hcall]
  have hheld : Pipe.Holds h received
      { p with iteration := .StopSingleIteration, headersContinued := true, buffer := some bytes, passed := [.headers h false] } := by
    refine ⟨⟨hp.headers, ⟨[], ?_, hbody⟩, hp.trailers⟩, fun _ _ _ => rfl⟩
    simpa [Pipe.Begun] using underway_headers h
  refine ⟨trivial, ?_, ?_⟩
  · rintro (rfl | ⟨rfl, htrailers⟩)
    · -- what goes on is what would go on without the callback
      simp only [Pipe.doData, hbuffer] at hflows
      cases htrailers : p.trailers with
      | false => simpa [Pipe.doTrailers, Pipe.afterData, Pipe.pass, DataView.data, htrailers] using hflows
      | true =>
        simpa [Pipe.doTrailers, Pipe.afterData, Pipe.afterTrailers, Pipe.pass, DataView.data,
          htrailers] using hflows
    · simpa [Pipe.afterData, Pipe.bufferData, Pipe.afterTrailers, DataView.move, htrailers] using hheld.flows
  · rintro rfl htrailers
    simpa [Pipe.afterData, Pipe.bufferData, DataView.move, htrailers] using hheld

end Resume

end EnvoyProxy.Http
