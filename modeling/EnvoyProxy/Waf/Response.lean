import EnvoyProxy.Waf.Filter
/-!
# Responses through the WAF

A response comes as headers, frames of data and maybe trailers. When the
filter lets something go on, Envoy sends the headers if they were held, then
what is in the encoding buffer, then the current frame. `Blocked`: downstream
gets the reply in place of the response. `blocked_iff` says which
interventions are answered so.
-/

namespace EnvoyProxy.Waf
open Http
open WafFilter (responseBody both replyBody replyHeaders)

def Piece.bytes : Piece → Bytes
  | .original bytes => bytes
  | .reply bytes => bytes

/-- What downstream has got. -/
structure Sent (H : Type) where
  headers : Option H := none
  body : List Piece := []

/-- The headers if they were held, the buffer and the data of a frame. -/
def Sent.add {H : Type} (sent : Sent H) (held : Bool) (headers : H) (buffer : Option (List Piece)) (data : Bytes) : Sent H :=
  ⟨if held then some headers else sent.headers, sent.body ++ (buffer.getD [] ++ [.original data])⟩

section Runs
variable {T H : Type} [HeaderMap H] (modsec : Modsecurity T)

/-- The frames behind the headers. -/
def encodeFrames (f : WafFilter T H) (headers : H) (held : Bool) (buffer : Option (List Piece)) (sent : Sent H)
    (trailers : Bool) : List (List Bytes) → WafFilter T H × Sent H
  | [] => (f, if trailers then sent.add held (f.responseHeaders.getD headers) buffer [] else sent)
  | slices :: rest =>
    let (f, status, data, buffer) := f.encodeData modsec slices (rest.isEmpty && !trailers) buffer
    match status with
    | .Continue =>
      encodeFrames f headers false none (sent.add held (f.responseHeaders.getD headers) buffer data.flatten) trailers rest
    | .StopIterationAndBuffer =>
      encodeFrames f headers held (some (buffer.getD [] ++ [.original data.flatten])) sent trailers rest
    | .StopIterationNoBuffer => encodeFrames f headers held buffer sent trailers rest

/-- A whole response. -/
def encodeResponse (env : StreamEnv H) (f : WafFilter T H) (headers : H) (data : List (List Bytes)) (trailers : Bool) :
    WafFilter T H × Sent H :=
  let (f, status, buffer) := f.encodeHeaders modsec env headers (data.isEmpty && !trailers) none
  match status with
  | .Continue => encodeFrames modsec f headers false buffer { headers := some (f.responseHeaders.getD headers) } trailers data
  | _ => encodeFrames modsec f headers true buffer {} trailers data

/-- Downstream gets the status of the intervention and the text of the reply
with its length, and no byte of the response. -/
structure Blocked (status : Nat) (sent : Sent H) : Prop where
  headers : ∃ h, sent.headers = some h ∧
    HeaderMap.get h (headerName ":status") = [⟨headerName ":status", headerNumber status⟩] ∧
    HeaderMap.get h (headerName "content-length") = [⟨headerName "content-length", headerNumber replyBody.length⟩]
  body : (sent.body.map Piece.bytes).flatten = replyBody
  original : ∀ bytes, .original bytes ∈ sent.body → bytes = []

/-- A transaction intervenes in the header phase. -/
def headIntervenes (env : StreamEnv H) (global route : Option T) (headers : H) : Bool :=
  let f := (fresh global route).addResponseHeaders modsec headers
  asks modsec (WafFilter.processResponseHeaders modsec env headers) f.transaction ||
    asks modsec (WafFilter.processResponseHeaders modsec env headers) f.transactionRoute

/-- The transactions after a header phase without intervention. -/
def afterHead (env : StreamEnv H) (global route : Option T) (headers : H) : WafFilter T H :=
  let f := (fresh global route).addResponseHeaders modsec headers
  fresh (asked modsec (WafFilter.processResponseHeaders modsec env headers) f.transaction)
    (asked modsec (WafFilter.processResponseHeaders modsec env headers) f.transactionRoute)

/-- A transaction intervenes once it has seen the frame. -/
def bodyIntervenes (f : WafFilter T H) (slices : List Bytes) : Bool :=
  asks modsec modsec.processResponseBody ((responseBody modsec).appendSlices f slices).1.transaction ||
    asks modsec modsec.processResponseBody ((responseBody modsec).appendSlices f slices).1.transactionRoute

/-- The status of that intervention. -/
def bodyStatus (f : WafFilter T H) (slices : List Bytes) : Nat :=
  let seen := ((responseBody modsec).appendSlices f slices).1
  ((askedStatus modsec modsec.processResponseBody seen.transaction).or
    (askedStatus modsec modsec.processResponseBody seen.transactionRoute)).getD 0

/-- Headers that are already those of a reply. -/
def RepliesAlready (h : H) (status : Nat) : Prop :=
  HeaderMap.get h (headerName ":status") = [⟨headerName ":status", headerNumber status⟩] ∧
    HeaderMap.get h (headerName "content-length") = [⟨headerName "content-length", headerNumber replyBody.length⟩]

/-- An intervention in the body phase can be answered: it comes with the frame
that ends the response, that frame is empty, and nothing was let go before,
neither data nor headers that are not those of the reply. While the combined
flag says that no rule engine is enabled, what comes is let go. -/
def BodyBlockable (h : H) (trailers : Bool) :
    (f : WafFilter T H) → (held : Bool) → (waiting gone : Bytes) → List (List Bytes) → Prop
  | _, _, _, _, [] => True
  | f, held, waiting, gone, slices :: rest =>
    let seen := (responseBody modsec).appendSlices f slices
    if rest = [] ∧ trailers = false then
      bodyIntervenes modsec f slices = true →
        slices.flatten = [] ∧ gone = [] ∧ (held = true ∨ RepliesAlready h (bodyStatus modsec f slices))
    else if seen.2 then bodyIntervenes modsec f slices = false
    else if seen.1.enabledRuleEngine modsec then BodyBlockable h trailers seen.1 held (waiting ++ slices.flatten) gone rest
    else BodyBlockable h trailers seen.1 false [] (gone ++ waiting ++ slices.flatten) rest

/-! ## What is sent -/

theorem get_replyHeaders (status : Nat) (headers : H) : RepliesAlready (replyHeaders status headers) status := by
  refine ⟨?_, HeaderMap.get_set _ _ _⟩
  rw [replyHeaders, HeaderMap.setContentLength, HeaderMap.get_set_ne _ _ (by decide),
    HeaderMap.get_remove_ne _ (by decide),
    HeaderMap.get_set]

/-- Nothing of a reply is among the pieces. -/
def OnlyOriginal (pieces : List Piece) : Prop := ∀ p ∈ pieces, ∃ bytes, p = .original bytes

theorem onlyOriginal_nil : OnlyOriginal [] := by
  intro p hp
  cases hp

theorem OnlyOriginal.snoc {pieces : List Piece} (h : OnlyOriginal pieces) (bytes : Bytes) :
    OnlyOriginal (pieces ++ [.original bytes]) := by
  intro p hp
  rcases List.mem_append.1 hp with hp | hp
  · exact h p hp
  · exact ⟨bytes, List.mem_singleton.1 hp⟩

/-- Nothing that is sent without the reply blocks. -/
theorem not_blocked {status : Nat} (sent : Sent H) (h : OnlyOriginal sent.body) : ¬ Blocked status sent := by
  intro hblocked
  have hempty : (sent.body.map Piece.bytes).flatten = [] := by
    apply List.flatten_eq_nil_iff.2
    intro l hl
    obtain ⟨p, hp, rfl⟩ := List.mem_map.1 hl
    obtain ⟨bytes, rfl⟩ := h p hp
    exact hblocked.original bytes hp
  rw [hblocked.body] at hempty
  exact absurd hempty (by decide)

/-! ## The frames -/

section Frames
variable {modsec} {f : WafFilter T H} {trailers : Bool} {headers h : H}

/-- A response that is looked at. -/
structure Watched (f : WafFilter T H) (h : H) : Prop where
  busy : f.isIdle = false
  responseProcessed : f.responseProcessed = false
  isSendLocalReply : f.isSendLocalReply = false
  responseHeaders : f.responseHeaders = some h

section Next
variable {held : Bool} {buffer buffer' : Option (List Piece)} {sent : Sent H} {slices data : List Bytes} {rest : List (List Bytes)}
  {g : WafFilter T H}

theorem encodeFrames_continue
    (h : f.encodeData modsec slices (rest.isEmpty && !trailers) buffer = (g, .Continue, data, buffer')) :
    encodeFrames modsec f headers held buffer sent trailers (slices :: rest) =
      encodeFrames modsec g headers false none
        (sent.add held (g.responseHeaders.getD headers) buffer' data.flatten) trailers rest := by
  rw [encodeFrames, h]

theorem encodeFrames_buffer
    (h : f.encodeData modsec slices (rest.isEmpty && !trailers) buffer =
      (g, .StopIterationAndBuffer, data, buffer')) :
    encodeFrames modsec f headers held buffer sent trailers (slices :: rest) =
      encodeFrames modsec g headers held (some (buffer'.getD [] ++ [.original data.flatten])) sent trailers rest := by
  rw [encodeFrames, h]

theorem encodeFrames_drop
    (h : f.encodeData modsec slices (rest.isEmpty && !trailers) buffer =
      (g, .StopIterationNoBuffer, data, buffer')) :
    encodeFrames modsec f headers held buffer sent trailers (slices :: rest) =
      encodeFrames modsec g headers held buffer' sent trailers rest := by
  rw [encodeFrames, h]

end Next

/-- After an intervention in the header phase the frames are dropped. The
last one brings the reply, when it ends the response. -/
theorem encodeFrames_intervined (modsec : Modsecurity T) (headers : H) (trailers : Bool)
    (hf : Watched f h) (hint : f.intervined = true) (data : List (List Bytes)) :
    (encodeFrames modsec f headers true none {} trailers data).1.intervined = true ∧
      (Blocked (encodeFrames modsec f headers true none {} trailers data).1.status
        (encodeFrames modsec f headers true none {} trailers data).2 ↔ data ≠ [] ∧ trailers = false) := by
  induction data generalizing f with
  | nil =>
    -- the trailers take the headers along, without a reply
    refine ⟨hint, iff_of_false (not_blocked _ ?_) (by simp)⟩
    cases trailers with
    | true => exact onlyOriginal_nil.snoc []
    | false => exact onlyOriginal_nil
  | cons slices rest ih =>
    by_cases hend : rest = [] ∧ trailers = false
    · -- the frame is drained and the reply stands in the buffer
      obtain ⟨rfl, rfl⟩ := hend
      have hdata : f.encodeData modsec slices true none =
          ({ f with endStream := true, responseHeaders := some (replyHeaders f.status h) },
            .Continue, [], some [.reply replyBody]) := by
        simp [WafFilter.encodeData, WafFilter.sendEncodeReply, WafFilter.getResponseStatus, hf.busy,
          hf.responseProcessed,
          hf.isSendLocalReply, hint, hf.responseHeaders]
      rw [encodeFrames_continue hdata, encodeFrames]
      refine ⟨hint, iff_of_true ⟨?_, ?_, ?_⟩ (by simp)⟩
      · exact ⟨replyHeaders f.status h, rfl, get_replyHeaders f.status h⟩
      · simp [Sent.add, Piece.bytes]
      · intro bytes hbytes
        simpa [Sent.add] using hbytes
    · have hend' : (rest.isEmpty && !trailers) = false := endStream_eq_false hend
      have hdata : f.encodeData modsec slices (rest.isEmpty && !trailers) none =
          ({ f with endStream := false }, .StopIterationNoBuffer, [], none) := by
        simp [WafFilter.encodeData, hend', hf.busy, hf.responseProcessed, hf.isSendLocalReply, hint]
      rw [encodeFrames_drop hdata]
      obtain ⟨hint', hiff⟩ := ih (f := { f with endStream := false })
        ⟨hf.busy, hf.responseProcessed, hf.isSendLocalReply, hf.responseHeaders⟩ hint
      refine ⟨hint', hiff.trans ?_⟩
      constructor
      · exact fun hall => ⟨by simp, hall.2⟩
      · exact fun hall => ⟨fun hnil => hend ⟨hnil, hall.2⟩, hall.2⟩

/-- Once the body was looked at, everything goes on as it is. -/
theorem encodeFrames_processed (modsec : Modsecurity T) (headers : H) (trailers : Bool) (hbusy : f.isIdle = false)
    (hp : f.responseProcessed = true) (held : Bool) (sent : Sent H) (data : List (List Bytes)) :
    (encodeFrames modsec f headers held none sent trailers data).1 = f ∧
      (OnlyOriginal sent.body →
      OnlyOriginal (encodeFrames modsec f headers held none sent trailers data).2.body) := by
  induction data generalizing held sent with
  | nil =>
    refine ⟨rfl, fun hsent => ?_⟩
    cases trailers with
    | true => exact hsent.snoc []
    | false => exact hsent
  | cons slices rest ih =>
    have hdata : ∀ e, f.encodeData modsec slices e none = (f, .Continue, slices, none) := by
      intro e
      simp [WafFilter.encodeData, WafFilter.getResponseStatus, hbusy, hp]
    rw [encodeFrames_continue (hdata _)]
    obtain ⟨hf, hsent⟩ := ih false (sent.add held (f.responseHeaders.getD headers) none slices.flatten)
    exact ⟨hf, fun hall => hsent (hall.snoc slices.flatten)⟩

omit [HeaderMap H] in
theorem enabledRuleEngine_congr {f f' : WafFilter T H} (h : f.transaction = f'.transaction)
    (h' : f.transactionRoute = f'.transactionRoute) : f.enabledRuleEngine modsec = f'.enabledRuleEngine modsec := by
  rw [WafFilter.enabledRuleEngine, WafFilter.enabledRuleEngine, h, h']

theorem bodyBlockable_congr {f f' : WafFilter T H} (hglobal : f.transaction = f'.transaction)
    (hroute : f.transactionRoute = f'.transactionRoute) (held : Bool) (waiting gone : Bytes) (data : List (List Bytes)) :
    BodyBlockable modsec h trailers f held waiting gone data ↔ BodyBlockable modsec h trailers f' held waiting gone data := by
  induction data generalizing f f' held waiting gone with
  | nil => exact Iff.rfl
  | cons slices rest ih =>
    obtain ⟨hglobal', hroute', hreached⟩ := appendSlices_congr (responseBody modsec) hglobal hroute slices
    simp only [BodyBlockable, bodyIntervenes, bodyStatus, hglobal', hroute', hreached, ih hglobal' hroute',
      enabledRuleEngine_congr hglobal' hroute']

/-- Without transactions nobody intervenes. -/
theorem bodyBlockable_idle (hidle : f.isIdle = true) (held : Bool) (waiting gone : Bytes) (data : List (List Bytes)) :
    BodyBlockable modsec h trailers f held waiting gone data := by
  induction data generalizing f held waiting gone with
  | nil => trivial
  | cons slices rest ih =>
    have hseen : ((responseBody modsec).appendSlices f slices).1.isIdle = true :=
      (keeps_appendSlices (responseBody modsec) f slices).1.isIdle.trans hidle
    obtain ⟨hglobal, hroute⟩ : ((responseBody modsec).appendSlices f slices).1.transaction = none ∧
        ((responseBody modsec).appendSlices f slices).1.transactionRoute = none := by simpa [WafFilter.isIdle] using hseen
    have hquiet : bodyIntervenes modsec f slices = false := by simp [bodyIntervenes, hglobal, hroute, asks]
    unfold BodyBlockable
    simp only [hquiet]
    split_ifs
    · rintro ⟨⟩
    · exact ih hseen ..
    · exact ih hseen ..

/-- A frame that is looked at. -/
theorem encodeData_open (hf : Watched f h) (hint : f.intervined = false) (slices : List Bytes) (endStream : Bool)
    (buffer : Option (List Piece)) :
    f.encodeData modsec slices endStream buffer =
      let out := (responseBody modsec).appendSlices { f with endStream } slices
      if endStream || out.2 then
        let g := (WafFilter.runPhases modsec { out.1 with responseProcessed := true }
          (both .responseBody modsec.processResponseBody)).1
        if g.intervined then ((g.sendEncodeReply buffer).1, .Continue, slices, (g.sendEncodeReply buffer).2)
        else (g, g.getResponseStatus modsec, slices, buffer)
      else (out.1, out.1.getResponseStatus modsec, slices, buffer) := by
  unfold WafFilter.encodeData
  rw [if_neg (by simp [hf.busy]), if_neg (by simp [hf.responseProcessed, hf.isSendLocalReply])]
  exact if_neg (by simp [hint])

omit [HeaderMap H] in
/-- The filter that has seen a frame, before the body phase. -/
theorem append_frame (modsec : Modsecurity T) (hf : Watched f h) (slices : List Bytes) (endStream : Bool) :
    ∃ g, (responseBody modsec).appendSlices { f with endStream } slices =
    (g, ((responseBody modsec).appendSlices f slices).2) ∧
      Watched g h ∧ g.intervined = f.intervined ∧ g.endStream = endStream ∧
      g.transaction = ((responseBody modsec).appendSlices f slices).1.transaction ∧
      g.transactionRoute = ((responseBody modsec).appendSlices f slices).1.transactionRoute := by
  obtain ⟨hkeeps, hint⟩ := keeps_appendSlices (responseBody modsec) { f with endStream } slices
  obtain ⟨hglobal, hroute, hreached⟩ := appendSlices_congr (responseBody modsec)
    (f := { f with endStream }) (g := f) rfl rfl slices
  refine ⟨((responseBody modsec).appendSlices { f with endStream } slices).1, Prod.ext rfl hreached,
    ⟨?_, ?_, ?_, ?_⟩, hint,
    hkeeps.endStream, hglobal, hroute⟩
  · exact hkeeps.isIdle.trans hf.busy
  · exact hkeeps.responseProcessed.trans hf.responseProcessed
  · exact hkeeps.isSendLocalReply.trans hf.isSendLocalReply
  · exact hkeeps.responseHeaders.trans hf.responseHeaders

theorem encodeData_more (hf : Watched f h) (hint : f.intervined = false) {slices : List Bytes}
    (hreached : ((responseBody modsec).appendSlices f slices).2 = false)
    (buffer : Option (List Piece)) :
    ∃ g, f.encodeData modsec slices false buffer = (g,
        if ((responseBody modsec).appendSlices f slices).1.enabledRuleEngine modsec then .StopIterationAndBuffer else .Continue,
        slices, buffer) ∧ Watched g h ∧
      g.intervined = false ∧ g.transaction = ((responseBody modsec).appendSlices f slices).1.transaction ∧
      g.transactionRoute = ((responseBody modsec).appendSlices f slices).1.transactionRoute := by
  obtain ⟨g, happend, hg, hint', -, hglobal, hroute⟩ := append_frame modsec hf slices false
  refine ⟨g, ?_, hg, hint'.trans hint, hglobal, hroute⟩
  rw [encodeData_open hf hint, happend]
  simp [WafFilter.getResponseStatus, hreached, hint', hint, hg.responseProcessed,
    enabledRuleEngine_congr hglobal hroute]

/-- The frame with which the body is looked at. The reply is made when it ends
the response, and the frame stays as it is. -/
theorem encodeData_last (hf : Watched f h) (hint : f.intervined = false) {slices : List Bytes} (endStream : Bool)
    (hlast : endStream = true ∨ ((responseBody modsec).appendSlices f slices).2 = true)
    (buffer : Option (List Piece)) :
    ∃ g, g.intervined = bodyIntervenes modsec f slices ∧ g.isIdle = false ∧ g.responseProcessed = true ∧
      f.encodeData modsec slices endStream buffer = (g, .Continue, slices,
        if bodyIntervenes modsec f slices ∧ endStream then some [.reply replyBody] else buffer) ∧
      (bodyIntervenes modsec f slices = true → endStream = true →
        g.status = bodyStatus modsec f slices ∧ g.responseHeaders = some (replyHeaders g.status h)) := by
  obtain ⟨g, happend, hg, hint', hend, hglobal, hroute⟩ := append_frame modsec hf slices endStream
  have hlast' : (endStream || ((responseBody modsec).appendSlices f slices).2) = true := by simpa using hlast
  set g' : WafFilter T H := { g with responseProcessed := true } with hg'
  have hopen : g'.intervined = false := hint'.trans hint
  set body := both Phase.responseBody modsec.processResponseBody with hbody
  have hkeeps := keeps_runPhases modsec g' body
  have hidle : (g'.runPhases modsec body).1.isIdle = false := hkeeps.isIdle.trans hg.busy
  have hdone : (g'.runPhases modsec body).1.responseProcessed = true := hkeeps.responseProcessed
  have hheaders : (g'.runPhases modsec body).1.responseHeaders = some h :=
    hkeeps.responseHeaders.trans hg.responseHeaders
  have hmember : (g'.runPhases modsec body).1.endStream = endStream := hkeeps.endStream.trans hend
  have hdata : f.encodeData modsec slices endStream buffer =
      if (g'.runPhases modsec body).1.intervined then (((g'.runPhases modsec body).1.sendEncodeReply
        buffer).1, .Continue, slices,
        ((g'.runPhases modsec body).1.sendEncodeReply buffer).2)
      else ((g'.runPhases modsec body).1, (g'.runPhases modsec body).1.getResponseStatus modsec,
        slices, buffer) := by
    rw [encodeData_open hf hint, happend]
    exact if_pos hlast'
  cases hasks : bodyIntervenes modsec f slices with
  | true =>
    have hint'' : (g'.runPhases modsec body).1.intervined = true ∧
        some (g'.runPhases modsec body).1.status = (askedStatus modsec modsec.processResponseBody g'.transaction).or
          (askedStatus modsec modsec.processResponseBody g'.transactionRoute) := by
      refine runPhases_both_asks hopen ?_
      rw [hg', hglobal, hroute]
      simpa [bodyIntervenes] using hasks
    have hstatus : (g'.runPhases modsec body).1.status = bodyStatus modsec f slices := by
      rw [bodyStatus, ← hglobal, ← hroute]
      exact (Option.getD_eq_iff.2 (.inl hint''.2.symm)).symm
    rw [hdata, if_pos hint''.1]
    cases endStream with
    | true =>
      -- whatever was buffered gives way to the reply
      have hreply : (g'.runPhases modsec body).1.sendEncodeReply buffer =
          ({ (g'.runPhases modsec body).1 with
            responseHeaders := some (replyHeaders (g'.runPhases modsec body).1.status h) },
            some [.reply replyBody]) := by
        cases buffer <;> simp [WafFilter.sendEncodeReply, hmember, hheaders]
      rw [hreply]
      exact ⟨{ (g'.runPhases modsec body).1 with
        responseHeaders := some (replyHeaders (g'.runPhases modsec body).1.status h) }, hint''.1,
        hidle, hdone, rfl, fun _ _ => ⟨hstatus, rfl⟩⟩
    | false =>
      have hreply : (g'.runPhases modsec body).1.sendEncodeReply buffer =
          ((g'.runPhases modsec body).1, buffer) := by
        simp [WafFilter.sendEncodeReply, hmember]
      rw [hreply]
      exact ⟨_, hint''.1, hidle, hdone, by simp, by simp⟩
  | false =>
    have hquiet : (g'.runPhases modsec body).1.intervined = false := by
      have hnot : asks modsec modsec.processResponseBody g'.transaction = false ∧
          asks modsec modsec.processResponseBody g'.transactionRoute = false := by
        rw [hg', hglobal, hroute]
        simpa [bodyIntervenes] using hasks
      rw [hbody, runPhases_both_quiet _ hopen hnot.1 hnot.2]
      exact hopen
    rw [hdata, if_neg (by simp [hquiet])]
    refine ⟨_, hquiet, hidle, hdone, ?_, by simp⟩
    simp [WafFilter.getResponseStatus, hdone]

/-- What waits in the buffer and what is gone, while no reply was made. -/
structure Passing (h : H) (held : Bool) (waiting gone : Bytes) (buffer : Option (List Piece)) (sent : Sent H) : Prop where
  buffered : OnlyOriginal (buffer.getD [])
  waiting : ((buffer.getD []).map Piece.bytes).flatten = waiting
  passed : OnlyOriginal sent.body
  gone : (sent.body.map Piece.bytes).flatten = gone
  headers : held = false → sent.headers = some h

section Passing
variable {held : Bool} {waiting gone : Bytes} {buffer : Option (List Piece)} {sent : Sent H}

omit [HeaderMap H] in
/-- A frame that waits. -/
theorem Passing.wait (hp : Passing h held waiting gone buffer sent) (bytes : Bytes) :
    Passing h held (waiting ++ bytes) gone (some (buffer.getD [] ++ [.original bytes])) sent where
  buffered := hp.buffered.snoc bytes
  waiting := by simp [Piece.bytes, hp.waiting]
  passed := hp.passed
  gone := hp.gone
  headers := hp.headers

omit [HeaderMap H] in
/-- A frame that takes along what waits. -/
theorem Passing.letGo (hp : Passing h held waiting gone buffer sent) (bytes : Bytes) :
    Passing h false [] (gone ++ waiting ++ bytes) none (sent.add held h buffer bytes) where
  buffered := onlyOriginal_nil
  waiting := rfl
  passed := by
    intro p hmem
    rcases List.mem_append.1 hmem with hmem | hmem
    · exact hp.passed p hmem
    · exact hp.buffered.snoc bytes p hmem
  gone := by simp [Sent.add, Piece.bytes, hp.waiting, hp.gone]
  headers := by
    intro _
    cases hheld : held with
    | true => rfl
    | false => exact hp.headers hheld

/-- The reply with the last frame behind it. -/
theorem Passing.replied_iff (hp : Passing h held waiting gone buffer sent) (status : Nat) (bytes : Bytes) :
    Blocked status (sent.add held (replyHeaders status h) (some [.reply replyBody]) bytes) ↔
      bytes = [] ∧ gone = [] ∧ (held = true ∨ RepliesAlready h status) := by
  constructor
  · intro hblocked
    refine ⟨hblocked.original _ (by simp [Sent.add]), ?_, ?_⟩
    · rw [← hp.gone]
      apply List.flatten_eq_nil_iff.2
      intro l hl
      obtain ⟨p, hmem, rfl⟩ := List.mem_map.1 hl
      obtain ⟨original, rfl⟩ := hp.passed p hmem
      exact hblocked.original original (List.mem_append_left _ hmem)
    · cases hheld : held with
      | true => exact .inl rfl
      | false =>
        obtain ⟨h', hheaders, hreplies⟩ := hblocked.headers
        have heq : h' = h := by simpa [Sent.add, hheld, hp.headers hheld] using hheaders.symm
        exact .inr (heq ▸ hreplies)
  · rintro ⟨rfl, hgone, hheld⟩
    have hempty : ∀ l ∈ sent.body.map Piece.bytes, l = [] := List.flatten_eq_nil_iff.1 (hp.gone.trans hgone)
    refine ⟨?_, ?_, ?_⟩
    · cases held with
      | true => exact ⟨replyHeaders status h, rfl, get_replyHeaders status h⟩
      | false => exact ⟨h, hp.headers rfl, hheld.resolve_left (by simp)⟩
    · simp [Sent.add, Piece.bytes, hp.gone, hgone]
    · intro original hmem
      rcases List.mem_append.1 hmem with hmem | hmem
      · exact hempty _ (List.mem_map_of_mem hmem)
      · simpa using hmem

end Passing

/-- The frames decide, with what was held and what was let go before. -/
theorem encodeFrames_blocked (hf : Watched f h) (hint : f.intervined = false) {held : Bool} {waiting gone : Bytes}
    {buffer : Option (List Piece)} {sent : Sent H} (hp : Passing h held waiting gone buffer sent) (data : List (List Bytes)) :
    ((encodeFrames modsec f headers held buffer sent trailers data).1.intervined = true →
      Blocked (encodeFrames modsec f headers held buffer sent trailers data).1.status
        (encodeFrames modsec f headers held buffer sent trailers data).2) ↔
      BodyBlockable modsec h trailers f held waiting gone data := by
  induction data generalizing f held waiting gone buffer sent with
  | nil =>
    refine iff_of_true ?_ trivial
    intro h'
    rw [encodeFrames, hint] at h'
    cases h'
  | cons slices rest ih =>
    by_cases hend : rest = [] ∧ trailers = false
    · -- the frame ends the response
      obtain ⟨rfl, rfl⟩ := hend
      obtain ⟨g, hgint, hidle, hdone, hdata, hreply⟩ := encodeData_last hf hint true (.inl rfl) buffer
      rw [encodeFrames_continue hdata, encodeFrames, if_neg (by simp), hgint, BodyBlockable, if_pos (And.intro rfl rfl)]
      refine forall_congr' fun hasks => ?_
      obtain ⟨hstatus, hheaders⟩ := hreply hasks rfl
      rw [if_pos ⟨hasks, rfl⟩, hheaders, Option.getD_some, ← hstatus]
      exact hp.replied_iff g.status slices.flatten
    · have hend' : (rest.isEmpty && !trailers) = false := endStream_eq_false hend
      cases hreached : ((responseBody modsec).appendSlices f slices).2 with
      | true =>
        -- a limit is reached before: the reply is not made and the response goes on
        obtain ⟨g, hgint, hidle, hdone, hdata, -⟩ := encodeData_last hf hint false (.inr hreached) buffer
        simp only [Bool.false_eq_true, and_false, if_false] at hdata
        rw [encodeFrames_continue (hend'.symm ▸ hdata), BodyBlockable, if_neg hend, if_pos hreached]
        obtain ⟨hsame, hsent⟩ := encodeFrames_processed modsec headers trailers hidle hdone false
          (sent.add held (g.responseHeaders.getD headers) buffer slices.flatten) rest
        have hall := hsent (hp.letGo slices.flatten).passed
        rw [hsame, hgint]
        cases bodyIntervenes modsec f slices with
        | true => exact iff_of_false (fun himp => not_blocked _ hall (himp rfl)) (by simp)
        | false => exact iff_of_true (fun hfalse => by cases hfalse) rfl
      | false =>
        obtain ⟨g, hdata, hg, hgint, hglobal, hroute⟩ := encodeData_more hf hint hreached buffer
        rw [BodyBlockable, if_neg hend, if_neg (by simp [hreached])]
        cases henabled : ((responseBody modsec).appendSlices f slices).1.enabledRuleEngine modsec with
        | true =>
          -- the frame waits in the buffer, and the next one is looked at
          rw [henabled, if_pos rfl] at hdata
          rw [encodeFrames_buffer (hend'.symm ▸ hdata), ih hg hgint (hp.wait slices.flatten), if_pos rfl]
          exact bodyBlockable_congr hglobal hroute ..
        | false =>
          -- nothing is held back any more
          rw [henabled, if_neg (by simp)] at hdata
          rw [encodeFrames_continue (hend'.symm ▸ hdata), hg.responseHeaders, Option.getD_some,
            ih hg hgint (hp.letGo slices.flatten), if_neg (by simp)]
          exact bodyBlockable_congr hglobal hroute ..

/-- Without transactions there is no intervention. -/
theorem encodeFrames_idle (modsec : Modsecurity T) (headers : H) (trailers : Bool) (hidle : f.isIdle = true) (held : Bool)
    (buffer : Option (List Piece)) (sent : Sent H) (data : List (List Bytes)) :
    (encodeFrames modsec f headers held buffer sent trailers data).1 = f := by
  induction data generalizing held buffer sent with
  | nil => rfl
  | cons slices rest ih =>
    have hdata : ∀ endStream, f.encodeData modsec slices endStream buffer = (f, .Continue, slices, buffer) := by
      intro endStream
      rw [WafFilter.encodeData, if_pos hidle]
    rw [encodeFrames_continue (hdata _)]
    exact ih ..

end Frames

/-! ## Responses -/

/-- A filter in the header phase, with the transactions as they are after it. -/
theorem encodeHeaders_open (modsec : Modsecurity T) (env : StreamEnv H) {f : WafFilter T H}
    (hbusy : f.isIdle = false)
    (hint : f.intervined = false) (hprocessed : f.responseProcessed = false) (headers : H) (endStream : Bool)
    (buffer : Option (List Piece)) :
    ∃ g : WafFilter T H, Keeps { f with endStream, responseHeaders := some headers } g ∧
      g.intervined = headIntervenes modsec env f.transaction f.transactionRoute headers ∧
      (g.intervined = false →
        g.transaction = (afterHead modsec env f.transaction f.transactionRoute headers).transaction ∧
        g.transactionRoute = (afterHead modsec env f.transaction f.transactionRoute headers).transactionRoute) ∧
      f.encodeHeaders modsec env headers endStream buffer =
        if g.intervined then ((g.sendEncodeReply buffer).1, .StopIteration, (g.sendEncodeReply buffer).2)
        else (g, g.getResponseHeadersStatus modsec, buffer) := by
  set g : WafFilter T H := WafFilter.addResponseHeaders modsec
    { f with endStream, responseHeaders := some headers } headers with hg
  set head := both Phase.responseHeaders (WafFilter.processResponseHeaders modsec env headers) with hhead
  have hadded : Keeps { f with endStream, responseHeaders := some headers } g := by
    refine ⟨rfl, rfl, rfl, rfl, rfl, ?_⟩
    intro who
    cases who <;> simp [hg, WafFilter.addResponseHeaders, WafFilter.transactionOf]
  have hopen : g.intervined = false := hint
  have hint' : (g.runPhases modsec head).1.intervined =
      headIntervenes modsec env f.transaction f.transactionRoute headers := by
    cases hasks : headIntervenes modsec env f.transaction f.transactionRoute headers with
    | true => exact (runPhases_both_asks hopen (Bool.or_eq_true_iff.1 hasks)).1
    | false =>
      obtain ⟨hnot, hnot'⟩ := Bool.or_eq_false_iff.1 hasks
      rw [hhead, runPhases_both_quiet .responseHeaders hopen hnot hnot']
      exact hopen
  refine ⟨(g.runPhases modsec head).1, hadded.trans (keeps_runPhases modsec g head), hint', fun hquiet => ?_, ?_⟩
  · obtain ⟨hnot, hnot'⟩ := Bool.or_eq_false_iff.1 (hint'.symm.trans hquiet)
    rw [hhead, runPhases_both_quiet .responseHeaders hopen hnot hnot']
    exact ⟨rfl, rfl⟩
  · unfold WafFilter.encodeHeaders
    rw [if_neg (by simp [hbusy]), if_neg (by simp [hint, hprocessed])]

/-- For every response: an intervention in the header phase is answered when
data follows and no trailers, one in the body phase when it comes with the
frame that ends the response, that frame is empty and nothing was let go
before. -/
theorem blocked_iff (modsec : Modsecurity T) (env : StreamEnv H) (global route : Option T) (requestProcessed : Bool)
    (headers : H) (data : List (List Bytes)) (trailers : Bool) :
    let filter : WafFilter T H := { transaction := global, transactionRoute := route, requestProcessed }
    let r := encodeResponse modsec env filter headers data trailers
    (r.1.intervined = true → Blocked r.1.status r.2) ↔
      if headIntervenes modsec env global route headers then data ≠ [] ∧ trailers = false
      else BodyBlockable modsec headers trailers (afterHead modsec env global route headers)
        ((afterHead modsec env global route headers).enabledRuleEngine modsec) [] [] data := by
  dsimp only
  have hpresent : ∀ who, ((fresh global route : WafFilter T H).transactionOf who).isSome =
      ((afterHead modsec env global route headers).transactionOf who).isSome := by
    intro who
    cases who <;> simp [afterHead, fresh, asked, WafFilter.addResponseHeaders, WafFilter.transactionOf]
  set f : WafFilter T H := { transaction := global, transactionRoute := route, requestProcessed } with hf
  by_cases hidle : f.isIdle = true
  · -- nobody looks at the response
    obtain ⟨rfl, rfl⟩ : global = none ∧ route = none := by simpa [WafFilter.isIdle, hf] using hidle
    have hquiet : headIntervenes modsec env none none headers = false := rfl
    rw [hquiet, if_neg (by simp)]
    refine iff_of_true ?_ (bodyBlockable_idle ((isIdle_congr hpresent).symm.trans hidle) ..)
    rw [encodeResponse, WafFilter.encodeHeaders, if_pos hidle]
    simp only [encodeFrames_idle modsec headers trailers hidle]
    rintro ⟨⟩
  have hbusy : f.isIdle = false := by simpa using hidle
  obtain ⟨g, hkeeps, hasks, hquiet, hencode⟩ := encodeHeaders_open modsec env hbusy rfl rfl headers
    (data.isEmpty && !trailers) none
  have hwatched : Watched g headers :=
    ⟨hkeeps.isIdle.trans hbusy, hkeeps.responseProcessed, hkeeps.isSendLocalReply, hkeeps.responseHeaders⟩
  have hmember : g.endStream = (data.isEmpty && !trailers) := hkeeps.endStream
  unfold encodeResponse
  rw [hencode, ← hasks]
  cases hint : g.intervined with
  | true =>
    simp only [if_true]
    by_cases hend : data = [] ∧ trailers = false
    · -- the reply is made, and nothing lets it go
      obtain ⟨rfl, rfl⟩ := hend
      refine iff_of_false (fun hblocked => not_blocked {} onlyOriginal_nil (hblocked ?_)) (by simp)
      simp [encodeFrames, WafFilter.sendEncodeReply, hmember, hint]
    · have hreply : g.sendEncodeReply none = (g, none) := by
        simp [WafFilter.sendEncodeReply, hmember, endStream_eq_false hend]
      rw [hreply]
      obtain ⟨hint', hiff⟩ := encodeFrames_intervined modsec headers trailers hwatched hint data
      exact ⟨fun himp => hiff.1 (himp hint'), fun hright _ => hiff.2 hright⟩
  | false =>
    obtain ⟨hglobal, hroute⟩ : g.transaction = (afterHead modsec env global route headers).transaction ∧
        g.transactionRoute = (afterHead modsec env global route headers).transactionRoute := hquiet hint
    have hflag : g.enabledRuleEngine modsec = (afterHead modsec env global route headers).enabledRuleEngine modsec :=
      enabledRuleEngine_congr hglobal hroute
    have hstatus : g.getResponseHeadersStatus modsec =
        if g.enabledRuleEngine modsec then .StopIteration else .Continue := by
      simp [WafFilter.getResponseHeadersStatus, hint, hwatched.responseProcessed]
    rw [← hflag]
    simp only [hstatus, Bool.false_eq_true, if_false]
    cases g.enabledRuleEngine modsec with
    | true =>
      -- the headers wait for the body
      have hp : Passing headers true [] [] none ({} : Sent H) := ⟨onlyOriginal_nil, rfl, onlyOriginal_nil, rfl, by simp⟩
      exact (encodeFrames_blocked hwatched hint hp data).trans (bodyBlockable_congr hglobal hroute ..)
    | false =>
      have hp : Passing headers false [] [] none ({ headers := some (g.responseHeaders.getD headers) } : Sent H) :=
        ⟨onlyOriginal_nil, rfl, onlyOriginal_nil, rfl, fun _ => by rw [hwatched.responseHeaders]; rfl⟩
      exact (encodeFrames_blocked hwatched hint hp data).trans (bodyBlockable_congr hglobal hroute ..)

end Runs

/-- A rule that denies every response with a body. -/
def denyBodies : Modsecurity (RuleEngine × Nat × Nat) :=
  { withoutRules with intervention := fun t => (t, if 0 < t.2.2 then some 403 else none) }

def plainResponse : HeaderList := [⟨headerName ":status", headerValue "200"⟩]

/-- A response that ends with an empty frame. -/
theorem empty_end_blocked :
    Blocked 403 (encodeResponse denyBodies plainStream
      { transaction := some (.EnabledRuleEngine, 0, 0), requestProcessed := true }
      plainResponse [[ascii "secret"], []] false).2 :=
  (blocked_iff denyBodies plainStream (some (.EnabledRuleEngine, 0, 0)) none true plainResponse
    [[ascii "secret"], []] false).2 (fun _ => ⟨rfl, rfl, .inl rfl⟩) rfl

/-- A response in one frame: the frame is sent behind the reply. -/
theorem last_frame_sent :
    let r := encodeResponse denyBodies plainStream
      { transaction := some (.EnabledRuleEngine, 0, 0), requestProcessed := true } plainResponse [[ascii "secret"]] false
    r.1.intervined = true ∧ ¬ Blocked 403 r.2 := by
  refine ⟨by decide, fun hblocked => ?_⟩
  exact absurd (hblocked.original (ascii "secret") (by decide)) (by decide)

end EnvoyProxy.Waf
