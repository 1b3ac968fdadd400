import EnvoyProxy.Http.Iteration
/-!
# Static downgrade

`HttpStaticDowngradeFilter` (static_downgrade_filter.cc): a response that
matches a configuration of its route is replaced by the response that is
configured. `replaced_iff` says which responses are replaced as a whole.
-/

namespace EnvoyProxy.Downgrade
open Http HeaderMap

/-- What the filter asks of a stream. -/
structure StreamInfo where
  responseFlags : UInt64
  responseCodeDetails : Option Bytes

/-- A header matcher of Envoy. -/
abbrev HeaderData (H : Type) := H → Bool

/-- `HeaderUtility::matchHeaders` -/
def matchHeaders {H : Type} (headers : H) (matchers : List (HeaderData H)) : Bool := matchers.all (· headers)

structure StaticDowngradeConfig (H : Type) where
  downgradeRqx : List (HeaderData H) := []
  downgradeRpx : List (HeaderData H)
  responseFlags : Option UInt64 := none
  responseCodeDetailsMatcher : Option (Bytes → Bool) := none
  staticHttpStatus : Nat := 200
  staticHttpHeaders : List (LowerCaseString × HeaderString) := []
  staticHttpBody : Bytes := []
  /-- The headers are kept in a map. -/
  distinct : (staticHttpHeaders.map (·.1)).Nodup := by decide

section Config
variable {H : Type}

def StaticDowngradeConfig.hasNoDowngradeRpx (config : StaticDowngradeConfig H) : Bool := config.downgradeRpx.isEmpty

def StaticDowngradeConfig.shouldDowngrade (config : StaticDowngradeConfig H) (rqx rpx : H) (info : StreamInfo) : Bool :=
  if config.hasNoDowngradeRpx then false
  else
    let result := matchHeaders rqx config.downgradeRqx && matchHeaders rpx config.downgradeRpx
    let result := match config.responseFlags with
      | some flags => result && decide (info.responseFlags &&& flags ≠ 0)
      | none => result
    match config.responseCodeDetailsMatcher with
    | some details => result && details (info.responseCodeDetails.getD [])
    | none => result

/-- The first configuration that matches. -/
def downgradeConfig (configs : List (StaticDowngradeConfig H)) (rqx rpx : H) (info : StreamInfo) : Option (StaticDowngradeConfig H) :=
  configs.find? fun config => config.shouldDowngrade rqx rpx info

end Config

structure HttpStaticDowngradeFilter (H : Type) where
  rqxHeaders : Option H := none
  downgradeComplete : Bool := false
  downgradeConfig : Option (StaticDowngradeConfig H) := none

namespace HttpStaticDowngradeFilter
variable {H : Type} [HeaderMap H]

def decodeHeaders (f : HttpStaticDowngradeFilter H) (headers : H) : HttpStaticDowngradeFilter H × FilterHeadersStatus :=
  ({ f with rqxHeaders := some headers }, .Continue)

def setHeaders (configured : List (LowerCaseString × HeaderString)) (headers : H) : H :=
  configured.foldl (fun headers pair => addCopy (remove headers pair.1) pair.1 pair.2) headers

/-- The headers of the response that is configured. -/
def updateHeaders (config : StaticDowngradeConfig H) (headers : H) : H :=
  let headers := HeaderMap.set (remove headers (headerName ":status")) (headerName ":status") (headerNumber config.staticHttpStatus)
  let headers := addCopy headers (headerName "x-downgrade-status") (headerValue "STATIC")
  let headers := setHeaders config.staticHttpHeaders headers
  setContentLength (remove headers (headerName "content-length")) config.staticHttpBody.length

/-- `route` has the configurations of the route, if it has any. Gives the
headers and what is added to the buffer. -/
def encodeHeaders (route : Option (List (StaticDowngradeConfig H))) (info : StreamInfo) (f : HttpStaticDowngradeFilter H) (headers : H)
    (endStream : Bool) : HttpStaticDowngradeFilter H × H × Option Bytes × FilterHeadersStatus :=
  match route with
  | none => (f, headers, none, .Continue)
  | some configs =>
    let config := Downgrade.downgradeConfig configs (f.rqxHeaders.getD create) headers info
    let f := { f with downgradeConfig := config }
    match config with
    | none => (f, headers, none, .Continue)
    | some config =>
      let headers := updateHeaders config headers
      if endStream then ({ f with downgradeComplete := true }, headers, some config.staticHttpBody, .Continue)
      else (f, headers, none, .StopIteration)

omit [HeaderMap H] in
def encodeData (f : HttpStaticDowngradeFilter H) (v : DataView) (endStream : Bool) :
    HttpStaticDowngradeFilter H × DataView × FilterDataStatus :=
  match f.downgradeConfig with
  | none => (f, v, .Continue)
  | some config =>
    if f.downgradeComplete then (f, v, .Continue)
    else
      let v := v.drain
      if endStream then ({ f with downgradeComplete := true }, v.add config.staticHttpBody, .Continue)
      else (f, v, .StopIterationNoBuffer)

def encoder (route : Option (List (StaticDowngradeConfig H))) (info : StreamInfo) : StreamFilter (HttpStaticDowngradeFilter H) H where
  onHeaders := encodeHeaders route info
  onData := encodeData

/-- The filter after the headers of a request, which it may not have seen. -/
def afterRequest : Option H → HttpStaticDowngradeFilter H
  | some request => (decodeHeaders {} request).1
  | none => {}

/-- What downstream gets of a response. -/
def encode (route : Option (List (StaticDowngradeConfig H))) (info : StreamInfo) (request : Option H) (response : H)
    (data : List Bytes) (trailers : Bool) : List (Passed H) :=
  ((encoder route info).run (fun _ => false) (afterRequest request) {} (message response data trailers)).2.passed

end HttpStaticDowngradeFilter

open HttpStaticDowngradeFilter

variable {H : Type} [HeaderMap H]

/-- The configured response, complete. -/
structure Replaced (config : StaticDowngradeConfig H) (passed : List (Passed H)) : Prop where
  headers : ∃ h endStream rest, passed = .headers h endStream :: rest ∧
    get h (headerName ":status") = [⟨headerName ":status", headerNumber config.staticHttpStatus⟩] ∧
    (∀ e ∈ config.staticHttpHeaders, get h e.1 = [⟨e.1, e.2⟩]) ∧
    ⟨headerName "x-downgrade-status", headerValue "STATIC"⟩ ∈ get h (headerName "x-downgrade-status") ∧
    get h (headerName "content-length") = [⟨headerName "content-length", headerNumber config.staticHttpBody.length⟩]
  body : bodyOf passed = config.staticHttpBody
  ends : ∃ last, passed.getLast? = some last ∧ last.ends = true

/-- The headers that the filter sets itself are configured, if at all, with
the value it gives them. -/
def OwnHeaders (config : StaticDowngradeConfig H) : Prop :=
  ∀ e ∈ config.staticHttpHeaders,
    (e.1 = headerName ":status" → e.2 = headerNumber config.staticHttpStatus) ∧
    (e.1 = headerName "x-downgrade-status" → e.2 = headerValue "STATIC") ∧
    (e.1 = headerName "content-length" → e.2 = headerNumber config.staticHttpBody.length)

/-! ## The headers -/

section Headers
variable [LawfulAddCopy H]

theorem get_setHeaders_ne {l : List (LowerCaseString × HeaderString)} {k : LowerCaseString} (h : H)
    (hk : k ∉ l.map (·.1)) :
    get (setHeaders l h) k = get h k := by
  induction l generalizing h with
  | nil => rfl
  | cons e l ih =>
    rw [List.map_cons, List.mem_cons, not_or] at hk
    have hstep : setHeaders (e :: l) h = setHeaders l (addCopy (remove h e.1) e.1 e.2) := rfl
    rw [hstep, ih _ hk.2, get_addCopy_ne _ _ hk.1, get_remove_ne _ hk.1]

theorem get_setHeaders {l : List (LowerCaseString × HeaderString)} (hdistinct : (l.map (·.1)).Nodup)
    {e : LowerCaseString × HeaderString} (h : H) (he : e ∈ l) : get (setHeaders l h) e.1 = [⟨e.1, e.2⟩] := by
  induction l generalizing h with
  | nil => cases he
  | cons e' l ih =>
    obtain ⟨hnot, hdistinct⟩ := List.nodup_cons.1 hdistinct
    have hstep : setHeaders (e' :: l) h = setHeaders l (addCopy (remove h e'.1) e'.1 e'.2) := rfl
    rw [hstep]
    rcases List.mem_cons.1 he with rfl | he
    · rw [get_setHeaders_ne _ hnot, get_addCopy _ _ (get_remove h e.1)]
    · exact ih hdistinct _ he

variable {config : StaticDowngradeConfig H}

/-- The headers before the configured ones are set: the status, and the mark. -/
def marked (config : StaticDowngradeConfig H) (headers : H) : H :=
  addCopy (HeaderMap.set (remove headers (headerName ":status")) (headerName ":status") (headerNumber config.staticHttpStatus))
    (headerName "x-downgrade-status") (headerValue "STATIC")

theorem get_marked_status (config : StaticDowngradeConfig H) (h : H) :
    get (marked config h) (headerName ":status") = [⟨headerName ":status", headerNumber config.staticHttpStatus⟩] := by
  rw [marked, get_addCopy_ne _ _ (by decide), get_set]

theorem mem_get_marked (config : StaticDowngradeConfig H) (h : H) :
    ⟨headerName "x-downgrade-status", headerValue "STATIC"⟩ ∈ get (marked config h) (headerName "x-downgrade-status") := by
  rw [marked, HeaderMap.get, iterate_addCopy _ _ _ LawfulAddCopy.isInline_xDowngradeStatus]
  simp

omit [LawfulAddCopy H] in
theorem get_updateHeaders_ne (config : StaticDowngradeConfig H) (h : H) {k : LowerCaseString} (hk : k ≠ headerName "content-length") :
    get (updateHeaders config h) k = get (setHeaders config.staticHttpHeaders (marked config h)) k := by
  show get (HeaderMap.set (remove (setHeaders config.staticHttpHeaders (marked config h)) _) _ _) k = _
  rw [get_set_ne _ _ hk, get_remove_ne _ hk]

omit [LawfulAddCopy H] in
theorem get_updateHeaders_length (config : StaticDowngradeConfig H) (h : H) :
    get (updateHeaders config h) (headerName "content-length") =
      [⟨headerName "content-length", headerNumber config.staticHttpBody.length⟩] := get_set _ _ _

/-- What the headers say when one of the filter's own names is configured. -/
theorem headers_iff (config : StaticDowngradeConfig H) (h : H) :
    (get (updateHeaders config h) (headerName ":status") = [⟨headerName ":status", headerNumber config.staticHttpStatus⟩] ∧
      (∀ e ∈ config.staticHttpHeaders, get (updateHeaders config h) e.1 = [⟨e.1, e.2⟩]) ∧
      ⟨headerName "x-downgrade-status", headerValue "STATIC"⟩ ∈ get (updateHeaders config h) (headerName "x-downgrade-status") ∧
      get (updateHeaders config h) (headerName "content-length") =
        [⟨headerName "content-length", headerNumber config.staticHttpBody.length⟩]) ↔ OwnHeaders config := by
  have hstatus : headerName ":status" ≠ headerName "content-length" := by decide
  have hmark : headerName "x-downgrade-status" ≠ headerName "content-length" := by decide
  constructor
  · rintro ⟨hs, hall, hm, hl⟩ ⟨k, v⟩ he
    have hentry := hall (k, v) he
    refine ⟨?_, ?_, ?_⟩
    · rintro rfl
      rw [hs] at hentry
      simpa using hentry.symm
    · rintro rfl
      rw [hentry] at hm
      exact (congrArg HeaderEntry.value (List.mem_singleton.1 hm)).symm
    · rintro rfl
      rw [hl] at hentry
      simpa using hentry.symm
  · intro hown
    refine ⟨?_, ?_, ?_, get_updateHeaders_length config h⟩
    · rw [get_updateHeaders_ne config h hstatus]
      by_cases hmem : headerName ":status" ∈ config.staticHttpHeaders.map (·.1)
      · obtain ⟨⟨k, v⟩, he, rfl⟩ := List.mem_map.1 hmem
        rw [get_setHeaders config.distinct _ he, (hown _ he).1 rfl]
      · rw [get_setHeaders_ne _ hmem, get_marked_status]
    · intro e he
      by_cases hlength : e.1 = headerName "content-length"
      · rw [hlength, get_updateHeaders_length, (hown e he).2.2 hlength]
      · rw [get_updateHeaders_ne config h hlength, get_setHeaders config.distinct _ he]
    · rw [get_updateHeaders_ne config h hmark]
      by_cases hmem : headerName "x-downgrade-status" ∈ config.staticHttpHeaders.map (·.1)
      · obtain ⟨⟨k, v⟩, he, rfl⟩ := List.mem_map.1 hmem
        rw [get_setHeaders config.distinct _ he, (hown _ he).2.1 rfl]
        exact List.mem_singleton_self _
      · rw [get_setHeaders_ne _ hmem]
        exact mem_get_marked config h

end Headers

/-! ## The frames -/

section Frames
variable (route : Option (List (StaticDowngradeConfig H))) (info : StreamInfo) {config : StaticDowngradeConfig H} {h : H}

/-- A response whose headers are held until its end. -/
structure Replacing (config : StaticDowngradeConfig H) (h : H) (f : HttpStaticDowngradeFilter H) (p : Pipe H) : Prop where
  downgradeConfig : f.downgradeConfig = some config
  downgradeComplete : f.downgradeComplete = false
  headers : p.headers = some h
  trailers : p.trailers = false
  iteration : p.iteration = .StopSingleIteration
  headersContinued : p.headersContinued = false
  buffer : p.buffer = none
  passed : p.passed = []

theorem replacing_data {f : HttpStaticDowngradeFilter H} {p : Pipe H} (hp : Replacing config h f p) (bytes : Bytes) :
    Replacing config h ((encoder route info).receive f p (.data bytes false)).1
      ((encoder route info).receive f p (.data bytes false)).2 := by
  have hencode : f.encodeData ⟨some bytes, p.buffer⟩ false = (f, ⟨some [], p.buffer⟩, .StopIterationNoBuffer) := by
    simp [encodeData, hp.downgradeConfig, hp.downgradeComplete, DataView.drain]
  simp only [StreamFilter.receive, encoder, hp.iteration, reduceCtorEq, if_false, hencode, Pipe.afterData]
  exact ⟨hp.downgradeConfig, hp.downgradeComplete, hp.headers, hp.trailers, rfl,
    hp.headersContinued, hp.buffer, hp.passed⟩

/-- The last frame is emptied, and the configured body is put in its place. -/
theorem replacing_end {f : HttpStaticDowngradeFilter H} {p : Pipe H} (hp : Replacing config h f p) (bytes : Bytes) :
    ((encoder route info).receive f p (.data bytes true)).2.passed =
      [.headers h false, .data config.staticHttpBody true] := by
  have hencode : f.encodeData ⟨some bytes, p.buffer⟩ true =
      ({ f with downgradeComplete := true }, ⟨some [], some config.staticHttpBody⟩, .Continue) := by
    simp [encodeData, hp.downgradeConfig, hp.downgradeComplete, DataView.drain, DataView.add, hp.buffer]
  simp only [StreamFilter.receive, encoder, hp.iteration, reduceCtorEq, if_false, hencode, Pipe.afterData, if_true,
    Pipe.passed_commonContinue]
  simp [Pipe.held, Pipe.bufferData, DataView.move, hp.headers, hp.headersContinued, hp.trailers, hp.passed]

theorem replacing_trailers {f : HttpStaticDowngradeFilter H} {p : Pipe H} (hp : Replacing config h f p) :
    ((encoder route info).receive f p .trailers).2.passed = [.headers h false, .trailers] := by
  simp only [StreamFilter.receive, Pipe.afterTrailers, hp.iteration, Pipe.passed_commonContinue]
  simp [Pipe.held, hp.headers, hp.headersContinued, hp.buffer, hp.passed]

theorem replacing_frames {f : HttpStaticDowngradeFilter H} {p : Pipe H}
    (hp : Replacing config h f p) (trailers : Bool)
    (data : List Bytes) (hmore : ¬ (data = [] ∧ trailers = false)) :
    ((encoder route info).run (fun _ => false) f p (frames trailers data)).2.passed =
      if trailers then [.headers h false, .trailers] else [.headers h false, .data config.staticHttpBody true] := by
  induction data generalizing f p with
  | nil =>
    have htrailers : trailers = true := by simpa using hmore
    subst htrailers
    exact replacing_trailers route info hp
  | cons bytes rest ih =>
    by_cases hlast : rest = [] ∧ trailers = false
    · obtain ⟨rfl, rfl⟩ := hlast
      exact replacing_end route info hp bytes
    · rw [frames, endStream_eq_false hlast]
      exact ih (replacing_data route info hp bytes) hlast

/-- What downstream gets of a response that is replaced. -/
theorem encode_eq {configs : List (StaticDowngradeConfig H)} {request : Option H} {response : H}
    (hmatch : downgradeConfig configs (request.getD create) response info = some config)
    (data : List Bytes) (trailers : Bool) :
    encode (some configs) info request response data trailers =
      if trailers then [.headers (updateHeaders config response) false, .trailers]
      else [.headers (updateHeaders config response) false, .data config.staticHttpBody true] := by
  unfold encode message
  have hrequest : afterRequest request = { rqxHeaders := request } := by
    cases request <;> rfl
  have hheaders : ∀ endStream, encodeHeaders (some configs) info { rqxHeaders := request } response endStream =
      if endStream then ({ rqxHeaders := request, downgradeConfig := some config, downgradeComplete := true },
        updateHeaders config response, some config.staticHttpBody, .Continue)
      else ({ rqxHeaders := request, downgradeConfig := some config }, updateHeaders config
        response, none, .StopIteration) := by
    intro endStream
    simp only [encodeHeaders, hmatch]
  rw [hrequest]
  by_cases hend : data = [] ∧ trailers = false
  · obtain ⟨rfl, rfl⟩ := hend
    simp [StreamFilter.run, StreamFilter.receive, encoder, hheaders, frames, Pipe.afterHeaders,
      Pipe.passed_commonContinue, Pipe.held]
  · rw [StreamFilter.run, endStream_eq_false hend]
    apply replacing_frames (some configs) info _ trailers data hend
    simp only [encoder, hheaders, Bool.false_eq_true, if_false]
    exact ⟨rfl, rfl, rfl, rfl, rfl, rfl, rfl, rfl⟩

/-- For every response that matches: it is replaced as a whole when it does
not end with trailers, unless no body is configured, and when the filter's own
headers are not configured with other values. -/
theorem replaced_iff [LawfulAddCopy H] (configs : List (StaticDowngradeConfig H)) (request : Option H) (response : H)
    (config : StaticDowngradeConfig H) (hmatch : downgradeConfig configs (request.getD create) response info = some config)
    (data : List Bytes) (trailers : Bool) :
    Replaced config (encode (some configs) info request response data trailers) ↔
      (trailers = false ∨ config.staticHttpBody = []) ∧ OwnHeaders config := by
  rw [encode_eq info hmatch, ← headers_iff config response]
  constructor
  · intro hreplaced
    obtain ⟨h', endStream, rest, hpassed, hheaders⟩ := hreplaced.headers
    have hbody := hreplaced.body
    cases trailers with
    | true =>
      cases hpassed
      exact ⟨.inr hbody.symm, hheaders⟩
    | false =>
      cases hpassed
      exact ⟨.inl rfl, hheaders⟩
  · rintro ⟨hbody, hheaders⟩
    cases trailers with
    | true =>
      have hempty : config.staticHttpBody = [] := by simpa using hbody
      exact ⟨⟨_, _, _, rfl, hheaders⟩, hempty.symm, .trailers, rfl, rfl⟩
    | false =>
      exact ⟨⟨_, _, _, rfl, hheaders⟩, by simp [bodyOf, Passed.bytes], .data config.staticHttpBody
        true, rfl, rfl⟩

end Frames

/-! ## Responses -/

def plainInfo : StreamInfo := ⟨0, none⟩

/-- Every response is replaced by a short text. -/
def busyConfig : StaticDowngradeConfig HeaderList where
  downgradeRpx := [fun _ => true]
  staticHttpStatus := 503
  staticHttpHeaders := [(headerName "x-reason", headerValue "busy")]
  staticHttpBody := ascii "later"

def plainResponse : HeaderList := [⟨headerName ":status", headerValue "200"⟩]

theorem ownHeaders_busyConfig : OwnHeaders busyConfig := by
  intro e he
  obtain rfl := List.mem_singleton.1 he
  refine ⟨?_, ?_, ?_⟩ <;> intro h <;> exact absurd h (by decide)

theorem frames_replaced :
    Replaced busyConfig (encode (some [busyConfig]) plainInfo (some (plainRequest "GET" "example.com" "/").headers) plainResponse
      [ascii "ab", [], ascii "c"] false) :=
  (replaced_iff plainInfo [busyConfig] (some (plainRequest "GET" "example.com" "/").headers) plainResponse busyConfig rfl
    [ascii "ab", [], ascii "c"] false).2 ⟨.inl rfl, ownHeaders_busyConfig⟩

/-- With trailers, downstream gets a length and no body. -/
theorem trailers_not_replaced :
    downgradeConfig [busyConfig] (plainRequest "GET" "example.com" "/").headers plainResponse plainInfo = some busyConfig ∧
      ¬ Replaced busyConfig (encode (some [busyConfig]) plainInfo (some (plainRequest "GET" "example.com" "/").headers)
        plainResponse [ascii "ab"] true) := by
  refine ⟨rfl, ?_⟩
  intro hreplaced
  exact absurd hreplaced.body (by decide)

end EnvoyProxy.Downgrade
