import EnvoyProxy.Dubbo.Chunking
/-!
# The life of a Dubbo upstream

The calls a `DubboUpstream` can get, in any order: from the router (encode,
reset, destruction), from the connection (data, close) and from the
dispatcher (a posted local reply). `Effect` says what a call can do, so that
no invariant has to look at the code again.
-/

namespace EnvoyProxy.Dubbo
open Json

/-! ## Calls -/

inductive Event
  | encodeHeaders (headers : RequestHeaders) (endStream : Bool)
  | encodeData (data : Bytes) (endStream : Bool)
  | encodeTrailers
  | runPosted (resets : Bool)
  | upstreamData (data : Bytes) (endStream : Bool) (resets : Bool)
  | close
  | resetStream
  | destroy
  | otherRequest

/-- A `DubboUpstream` and the id the next request of the process gets. -/
structure Process (V : Type) where
  upstream : DubboUpstream V := {}
  globalRequestId : Int64 := 0

section Step
variable {V : Type} (env : Env V)

/-- The router resets the stream, or does not, when it is handed headers. -/
def Env.withResets (resets : Bool) : Env V := { env with resets := fun _ => resets }

def Process.set (p : Process V) (upstream : DubboUpstream V) : Process V := { p with upstream }

/-- One call. Whether the router resets the stream from within `decodeHeaders`
is part of the event; `otherRequest` is a request of another upstream. -/
def step (p : Process V) : Event → Except Bytes (Process V)
  | .encodeHeaders headers endStream => do
    let (upstream, globalRequestId) ← encodeHeaders env headers endStream p.globalRequestId p.upstream
    return ⟨upstream, globalRequestId⟩
  | .encodeData data endStream => do
    let (upstream, globalRequestId) ← encodeData env data endStream p.globalRequestId p.upstream
    return ⟨upstream, globalRequestId⟩
  | .encodeTrailers => do
    let (upstream, globalRequestId) ← encodeTrailers env p.globalRequestId p.upstream
    return ⟨upstream, globalRequestId⟩
  | .runPosted resets => do return p.set (← runPosted (env.withResets resets) p.upstream)
  | .upstreamData data endStream resets => do
    return p.set (← onUpstreamData (env.withResets resets) data endStream p.upstream)
  | .close => .ok (p.set (onClose p.upstream))
  | .resetStream => .ok (p.set (resetStream p.upstream))
  | .destroy => .ok (p.set (destroy p.upstream))
  | .otherRequest => .ok { p with globalRequestId := p.globalRequestId + 1 }

/-! ## What a call can do -/

/-- The conversion of a request that fails, and leads to a local reply. -/
def localReply (headers : Option RequestHeaders) (body : Bytes) (globalRequestId : Int64) : Prop :=
  match env.bridge with
  | none => True
  | some bridge => ∀ h, headers = some h → ∃ what, (convertHttpToDubbo env bridge h body globalRequestId).1 = .error what

/-- The part of the state that belongs to the response. -/
structure SameResponse (s t : DubboUpstream V) : Prop where
  buffer : t.dubboResponseBuffer = s.dubboResponseBuffer
  context : t.responseContext = s.responseContext
  responded : t.responded = s.responded
  upstreamRequest : t.upstreamRequest = s.upstreamRequest
  toClose : t.toCloseUpstreamConnection = s.toCloseUpstreamConnection
  guard : t.upstreamResetGuard = s.upstreamResetGuard
  delivered : t.delivered = s.delivered
  asserted : t.asserted = s.asserted
  upstreamConnData : t.upstreamConnData = s.upstreamConnData
  connectionClosed : t.connectionClosed = s.connectionClosed

theorem SameResponse.refl (s : DubboUpstream V) : SameResponse s s :=
  ⟨rfl, rfl, rfl, rfl, rfl, rfl, rfl, rfl, rfl, rfl⟩

/-- Only the request side of the state changes. -/
theorem SameResponse.request {s t : DubboUpstream V} (hst : SameResponse s t)
    (requestHeaders : Option RequestHeaders)
    (requestComplete : Bool) (protocolErrorCode respExceptionCode : Nat) (responseGetter : Option (ResponseGetter V))
    (posted : List Bytes) (written : Bytes) :
    SameResponse s { t with
      requestHeaders, requestComplete, protocolErrorCode, respExceptionCode, responseGetter, posted, written } :=
  ⟨hst.1, hst.2, hst.3, hst.4, hst.5, hst.6, hst.7, hst.8, hst.9, hst.10⟩

/-- The calls that end in `cleanup`, and whether they close the connection. -/
def Event.cleans (s : DubboUpstream V) : Event → Option Bool
  | .close => some false
  | .resetStream => some true
  | .destroy => some (s.toCloseUpstreamConnection || !s.responded)
  | _ => none

instance (s : DubboUpstream V) : Decidable (Live s) := inferInstanceAs (Decidable (_ ∧ _))

def Event.arrived : Event → Bytes
  | .upstreamData data _ _ => data
  | _ => []

/-- The bytes a call moves to the private buffer: all, or none. -/
def moved (s : DubboUpstream V) (e : Event) : Bytes := if Live s then e.arrived else []

/-- The request a call completes: its headers and its body. -/
def Event.completes (s : DubboUpstream V) : Event → Option (Option RequestHeaders × Bytes)
  | .encodeHeaders headers true => some (some headers, s.bufferdBody)
  | .encodeData data true => some (s.requestHeaders, s.bufferdBody ++ data)
  | .encodeTrailers => some (s.requestHeaders, s.bufferdBody)
  | _ => none

/-- What one call does to the upstream. -/
inductive Effect (s : DubboUpstream V) (globalRequestId : Int64) : Event → DubboUpstream V → Prop
  /-- Nothing, or a part of the request is stored. -/
  | stores {t} (e : Event) : moved s e = [] → (e.cleans s = none ∨ s.upstreamRequest = false) → SameResponse s t →
      t.posted = s.posted → t.requestComplete = s.requestComplete →
      t.written = s.written → Effect s globalRequestId e t
  /-- The request is written to the connection. -/
  | writes {t} (e : Event) (frame : Bytes) (context : DubboBridgeContext) (source : SrcsRequestContext)
      (getter : ArgumentGetter) : writeDubboRequest env.encoder globalRequestId context source getter = .ok frame →
      e.completes s ≠ none → SameResponse s t → s.requestComplete = false → t.requestComplete = true → t.posted = s.posted →
      t.written = s.written ++ frame → Effect s globalRequestId e t
  /-- The request cannot be converted, and a local reply is posted. -/
  | posts {t} (e : Event) (what : Bytes) (headers : Option RequestHeaders) (body : Bytes) :
      e.completes s = some (headers, body) → localReply env headers body globalRequestId → SameResponse s t →
      s.requestComplete = false → t.requestComplete = true → t.posted = s.posted ++ [what] → t.written = s.written →
      Effect s globalRequestId e t
  /-- A posted closure runs after the upstream is gone. -/
  | drops (what : Bytes) (rest : List Bytes) (resets : Bool) : s.posted = what :: rest →
      s.upstreamResetGuard = false → Effect s globalRequestId (.runPosted resets) { s with posted := rest }
  /-- A posted closure answers. -/
  | answersLocal (what : Bytes) (rest : List Bytes) (resets : Bool) (r : Response) : s.posted = what :: rest →
      s.upstreamResetGuard = true → r.2.2 = false →
      Effect s globalRequestId (.runPosted resets)
        (handleRawResponse (env.withResets resets) r.1 r.2.1 r.2.2 { s with posted := rest })
  /-- Data arrives, and more is needed. -/
  | waits (data : Bytes) (resets : Bool) (b : Bytes) (c : Option Header) : Live s → data ≠ [] →
      awaitWith env s data = .waiting b c →
      Effect s globalRequestId (.upstreamData data false resets) (advance s (.waiting b c))
  /-- Data arrives, and is answered. -/
  | answers (data : Bytes) (endStream resets : Bool) (r : Response) : Live s → data ≠ [] →
      reaction env s endStream (awaitWith env s data) = some (.ok r) →
      Effect s globalRequestId (.upstreamData data endStream resets)
        (handleRawResponse (env.withResets resets) r.1 r.2.1 r.2.2 (advance s (awaitWith env s data)))
  /-- The connection is closed under the upstream. -/
  | closes : s.upstreamRequest = true → s.responded = false →
      Effect s globalRequestId .close { cleanup false s with delivered := s.delivered ++ [.resetStream] }
  | cleans (e : Event) (closeConnection : Bool) : e.cleans s = some closeConnection →
      Effect s globalRequestId e (cleanup closeConnection s)

/-- A frame is written by `writeDubboRequest`, with the next request id. -/
theorem convertHttpToDubbo_frame {bridge : DubboBridge V} {headers : RequestHeaders}
    {body frame : Bytes} {id next : Int64}
    (h : convertHttpToDubbo env bridge headers body id = (.ok frame, next)) :
    ∃ context source getter, writeDubboRequest env.encoder id context source getter = .ok frame := by
  unfold convertHttpToDubbo at h
  simp only at h
  split at h
  · cases h
  · rename_i context getter _
    exact ⟨context, _, getter, (Prod.mk.inj h).1⟩

theorem moved_of_completes {s : DubboUpstream V} {e : Event} (h : e.completes s ≠ none) : moved s e = [] := by
  cases e with
  | upstreamData => exact absurd rfl h
  | _ => exact ite_self []

theorem cleans_of_completes {s : DubboUpstream V} {e : Event} (h : e.completes s ≠ none) :
    e.cleans s = none ∨ s.upstreamRequest = false := by
  cases e with
  | close | resetStream | destroy => exact absurd rfl h
  | _ => exact .inl rfl

/-- The end of a request: written, posted, or done before. -/
theorem writeRequest_effect {s t u : DubboUpstream V} {id id' : Int64} {e : Event}
    (he : e.completes s = some (t.requestHeaders, t.bufferdBody)) (hst : SameResponse s t) (hp : t.posted = s.posted)
    (hc : t.requestComplete = s.requestComplete) (hw : t.written = s.written)
    (h : writeRequestToUpstream env id t = .ok (u, id')) : Effect env s id e u := by
  have hne : e.completes s ≠ none := by rw [he]; simp
  unfold writeRequestToUpstream at h
  split_ifs at h with hdone hnull
  · cases h
    exact .stores e (moved_of_completes hne) (cleans_of_completes hne) hst hp hc hw
  · have hfirst : s.requestComplete = false := by rw [← hc]; simpa using hdone
    cases hb : env.bridge with
    | none =>
      rw [hb] at h
      cases h
      exact .posts e noContextText _ _ he (by simp only [localReply, hb]) (hst.request _ _ _ _ _ _ _) hfirst rfl
        (by rw [← hp]) hw
    | some bridge =>
      rw [hb] at h
      simp only at h
      cases hh : t.requestHeaders with
      | none => rw [hh] at h; cases h
      | some headers =>
        rw [hh] at h
        simp only at h
        rcases hconv : convertHttpToDubbo env bridge headers t.bufferdBody id with ⟨what | frame, next⟩
        · rw [hconv] at h
          cases h
          refine .posts e what _ _ he ?_ (hst.request _ _ _ _ _ _ _) hfirst rfl (by rw [← hp]) hw
          simp only [localReply, hb, hh]
          rintro h' h''
          cases h''
          exact ⟨what, by rw [hconv]⟩
        · rw [hconv] at h
          cases h
          obtain ⟨context, source, getter, hframe⟩ := convertHttpToDubbo_frame env hconv
          exact .writes e frame context source getter hframe hne (hst.request _ _ _ _ _ _ _) hfirst
            rfl hp (by rw [← hw])

theorem runPosted_effect {s t : DubboUpstream V} {id : Int64} {resets : Bool}
    (h : runPosted (env.withResets resets) s = .ok t) : Effect env s id (.runPosted resets) t := by
  unfold runPosted at h
  cases hp : s.posted with
  | nil =>
    rw [hp] at h
    cases h
    exact .stores _ (ite_self []) (.inl rfl) (.refl s) rfl rfl rfl
  | cons what rest =>
    rw [hp] at h
    simp only at h
    split_ifs at h with hg
    · rw [handleResponse_eq (env.withResets resets) s { s with posted := rest } _ rfl] at h
      obtain ⟨r, hr, h⟩ := bind_eq_ok h
      cases h
      -- a local reply keeps the connection
      exact .answersLocal what rest resets r hp hg (respond_close _ hr)
    · cases h
      exact .drops what rest resets hp (by simpa using hg)

theorem moved_idle {s : DubboUpstream V} {data : Bytes} (h : ¬ Live s ∨ data = []) {endStream resets : Bool} :
    moved s (.upstreamData data endStream resets) = [] := by
  unfold moved Event.arrived
  rcases h with h | rfl
  · rw [if_neg h]
  · exact ite_self []

theorem onUpstreamData_effect {s t : DubboUpstream V} {id : Int64} {data : Bytes} {endStream resets : Bool}
    (h : onUpstreamData (env.withResets resets) data endStream s = .ok t) :
    Effect env s id (.upstreamData data endStream resets) t := by
  by_cases hidle : ¬ Live s ∨ data = []
  · rw [onUpstreamData_idle _ hidle] at h
    cases h
    exact .stores _ (moved_idle hidle) (.inl rfl) (.refl s) rfl rfl rfl
  · simp only [not_or, not_not] at hidle
    rw [onUpstreamData_eq _ hidle.1 hidle.2] at h
    -- what is decoded does not depend on whether the stream is reset
    cases hr : reaction (env.withResets resets) s endStream (awaitWith (env.withResets resets) s data) with
    | none =>
      rw [hr] at h
      cases h
      change reaction env s endStream (awaitWith env s data) = none at hr
      show Effect env s id (.upstreamData data endStream resets) (advance s (awaitWith env s data))
      cases ha : awaitWith env s data with
      | waiting b c =>
        rw [ha, reaction] at hr
        split_ifs at hr with hend
        obtain rfl : endStream = false := by simpa using hend
        exact .waits data resets b c hidle.1 hidle.2 ha
      | thrown what b => rw [ha] at hr; cases hr
      | ready f hd => rw [ha] at hr; cases hr
    | some r =>
      rw [hr] at h
      obtain ⟨r, rfl, h⟩ := bind_eq_ok h
      cases h
      exact .answers data endStream resets r hidle.1 hidle.2 hr

theorem step_effect {p q : Process V} {e : Event} (h : step env p e = .ok q) :
    Effect env p.upstream p.globalRequestId e q.upstream := by
  cases e with
  | encodeHeaders headers endStream =>
    obtain ⟨r, hw, h⟩ := bind_eq_ok h
    cases h
    unfold encodeHeaders at hw
    cases endStream with
    | false =>
      cases hw; exact .stores _ (ite_self []) (.inl rfl)
        ⟨rfl, rfl, rfl, rfl, rfl, rfl, rfl, rfl, rfl, rfl⟩ rfl rfl rfl
    | true =>
      exact writeRequest_effect env (t := { p.upstream with requestHeaders := some headers }) rfl
        ⟨rfl, rfl, rfl, rfl, rfl, rfl, rfl, rfl, rfl, rfl⟩ rfl rfl rfl hw
  | encodeData data endStream =>
    obtain ⟨r, hw, h⟩ := bind_eq_ok h
    cases h
    unfold encodeData at hw
    cases endStream with
    | false =>
      cases hw; exact .stores _ (ite_self []) (.inl rfl)
        ⟨rfl, rfl, rfl, rfl, rfl, rfl, rfl, rfl, rfl, rfl⟩ rfl rfl rfl
    | true =>
      exact writeRequest_effect env (t := { p.upstream with bufferdBody := p.upstream.bufferdBody ++ data }) rfl
        ⟨rfl, rfl, rfl, rfl, rfl, rfl, rfl, rfl, rfl, rfl⟩ rfl rfl rfl hw
  | encodeTrailers =>
    obtain ⟨r, hw, h⟩ := bind_eq_ok h
    cases h
    exact writeRequest_effect env rfl (.refl _) rfl rfl rfl hw
  | runPosted resets =>
    obtain ⟨s, hw, h⟩ := bind_eq_ok h
    cases h
    exact runPosted_effect env hw
  | upstreamData data endStream resets =>
    obtain ⟨s, hw, h⟩ := bind_eq_ok h
    cases h
    exact onUpstreamData_effect env hw
  | close =>
    cases h
    simp only [Process.set, onClose]
    cases hu : p.upstream.upstreamRequest with
    | false => exact .stores _ (ite_self []) (.inr hu) (.refl _) rfl rfl rfl
    | true =>
      cases hr : p.upstream.responded with
      | true => exact .cleans _ false rfl
      | false => exact .closes hu hr
  | resetStream => cases h; exact .cleans _ true rfl
  | destroy => cases h; exact .cleans _ _ rfl
  | otherRequest => cases h; exact .stores _ (ite_self []) (.inl rfl) (.refl _) rfl rfl rfl

end Step

/-- A request without headers. -/
def plainRequest : RequestHeaders := ⟨fun _ => none, []⟩

end EnvoyProxy.Dubbo
