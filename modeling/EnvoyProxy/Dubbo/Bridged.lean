import EnvoyProxy.Dubbo.Arguments
import EnvoyProxy.Dubbo.Converted
import EnvoyProxy.Dubbo.JsonRoundTrip
import EnvoyProxy.Dubbo.Lifecycle
/-!
# HTTP requests as Dubbo requests

A whole HTTP request, however its body is cut into frames, becomes one Dubbo
frame or one local reply. `bridged_exactly`: it is a frame exactly when the
request carries values that all parameters take, and the reader on the other
side gets these values, in their order, or the defaults.
-/

namespace EnvoyProxy.Dubbo
open Json

/-! ## The values of arguments -/

section Values
variable {json : Rapidjson} {order : HashOrder}

/-- The value that is sent for a JSON value. -/
def asSent (json : Rapidjson) (value : Value) (type : Bytes) : Value :=
  (convertedValue json value type).getD (.string (value.text json.dtoa))

/-- The converter of `java.lang.String` is the only one that makes a text. -/
theorem convertedValue_none {value : Value} {type : Bytes} {ign : Bool} {v : HessianValue}
    (h : jsonValueToHessianValue json order value type ign = .ok v) (hnone : convertedValue json value type = none) :
    v = .string (value.text json.dtoa) := by
  unfold jsonValueToHessianValue at h
  cases hlookup : (typedJsonConverters json order).lookup type with
  | none =>
    obtain ⟨hloadable, hstring⟩ := typedJsonConverters_complete hlookup
    rw [convertedValue_self hstring fun _ _ => hloadable] at hnone
    cases hnone
  | some converter =>
    rw [hlookup] at h
    obtain ⟨pre, post, heq, -⟩ := List.lookup_eq_some_iff.1 hlookup
    have hmem : (type, converter) ∈ typedJsonConverters json order := by simp [heq]
    rcases typedJsonConverters_kind _ hmem with ⟨htype, checker, hchecker, rfl⟩ | ⟨rfl, rfl⟩ | ⟨htype, hother, checker, rfl⟩
    · -- a string that no value can be read from is refused
      have hother : type ≠ ascii "java.lang.String" := by
        rintro rfl
        exact string_not_loadable htype
      cases value with
      | string s =>
        have hread : json.parse s = none := by simpa [convertedValue, htype] using hnone
        simp only [loadableJsonConverter, hchecker, hread, Bool.false_eq_true, if_false] at h
        cases h
      | _ => simp [convertedValue, hother] at hnone
    · cases value with
      | null => simp [convertedValue] at hnone
      | string s => simp [convertedValue, string_not_loadable] at hnone
      | _ =>
        cases h
        rfl
    · rw [convertedValue_self hother fun _ _ => htype] at hnone
      cases hnone

/-- A conversion that succeeds converts what is sent, level by level. -/
theorem sent_eq {value : Value} {type : Bytes} {ign : Bool} {v : HessianValue}
    (h : jsonValueToHessianValue json order value type ign = .ok v) :
    v = jsonValueToHessianValueInternal order ign (asSent json value type) 0 [] := by
  rcases converted h with ⟨u, hu, rfl⟩ | ⟨hnone, -⟩
  · rw [asSent, hu, Option.getD_some]
  · rw [convertedValue_none h hnone, asSent, hnone, Option.getD_none, jsonValueToHessianValueInternal]
    rfl

open Classical in
/-- An object has the meaning of a JSON value: its text is read as that value,
up to the order of members, if there are not too many levels. -/
def Means (json : Rapidjson) (ign : Bool) (value : Value) (v : HessianValue) : Prop :=
  height value < 50 → DistinctNames value → ∃ t v',
    EndsWith (fun fuel => hessianValueToJsonString json.dtoa HessianValue.node fuel (some v)) (.ok t) ∧
    Json.read json.strtod t = some v' ∧ Same (kept ign value) v'

open Classical in
theorem means_sent (horder : ∀ place es, (order place es).Perm es) {value : Value} {type : Bytes} {ign : Bool} {v : HessianValue}
    (h : jsonValueToHessianValue json order value type ign = .ok v) : Means json ign (asSent json value type) v := by
  intro hdepth hnames
  rw [sent_eq h]
  obtain ⟨v', hv', hsame⟩ : ∃ v', treeText json.dtoa (jsonValueToHessianValueInternal order ign (asSent json value type) 0 []) =
      .ok (v'.text json.dtoa) ∧ Same (kept ign (asSent json value type)) v' := internal_text horder ign _ 0 [] (by omega) hnames
  have hends := hessianValueToJsonString_ends json.dtoa HessianValue.node HessianValue.holds_wf
    (jsonValueToHessianValueInternal order ign (asSent json value type) 0 [])
  have htext : text json.dtoa HessianValue.node HessianValue.holds_wf
      (jsonValueToHessianValueInternal order ign (asSent json value type) 0 []) = .ok (v'.text json.dtoa) := hv'
  rw [htext] at hends
  exact ⟨_, v', hends, read_text json.printable v', hsame⟩

end Values

/-! ## Arguments received -/

section Received
variable (json : Rapidjson) (order : Nat → HashOrder) (ign : Bool) (given : Parameter → Option Value)

/-- An argument is the value that was given, with the configured classes, or
the default. -/
def Received (p : Parameter) (argument : HessianValue) : Prop :=
  match given p with
  | none => p.required = false ∧ argument = p.default_
  | some value => ∃ v, jsonValueToHessianValue json (order p.index) value p.type ign = .ok v ∧
      Means json ign (asSent json value p.type) v ∧ argument = populateGenericTypes p.generic v

/-- A parameter does not take what was given. -/
def Refused (p : Parameter) : Prop :=
  match given p with
  | none => p.required = true
  | some value => ∀ v, jsonValueToHessianValue json (order p.index) value p.type ign ≠ .ok v

variable {json order ign given}

theorem received_of_argument (horder : ∀ i place es, (order i place es).Perm es) {p : Parameter} {argument : HessianValue}
    (h : argumentObject (givenGetter json order ign given) p = .ok argument) : Received json order ign given p argument := by
  unfold argumentObject at h
  unfold Received
  simp only [givenGetter] at h
  cases hgiven : given p with
  | none =>
    simp only [hgiven, ok_bind, pure_ok] at h
    split_ifs at h with hrequired
    cases h
    exact ⟨by simpa using hrequired, rfl⟩
  | some value =>
    simp only [hgiven] at h
    cases hconvert : jsonValueToHessianValue json (order p.index) value p.type ign with
    | error e =>
      rw [hconvert] at h
      cases h
    | ok v =>
      rw [hconvert] at h
      cases h
      exact ⟨v, hconvert, means_sent (horder p.index) hconvert, rfl⟩

theorem refused_of_argument {p : Parameter} {what : Bytes}
    (h : argumentObject (givenGetter json order ign given) p = .error what) : Refused json order ign given p := by
  unfold argumentObject at h
  unfold Refused
  simp only [givenGetter] at h
  cases hgiven : given p with
  | none =>
    simp only [hgiven, ok_bind, pure_ok] at h
    split_ifs at h with hrequired
    exact hrequired
  | some value =>
    intro v hv
    simp only [hgiven, hv] at h
    cases h

end Received

/-- A loop that throws: one of its rounds has thrown. -/
theorem mapM_error {α β ε : Type} {f : α → Except ε β} {as : List α} {e : ε} (h : as.mapM f = .error e) : ∃ a ∈ as, f a = .error e := by
  induction as with
  | nil => cases h
  | cons a as ih =>
    rw [List.mapM_cons] at h
    cases ha : f a with
    | error e' =>
      rw [ha] at h
      cases h
      exact ⟨a, List.mem_cons_self, ha⟩
    | ok b =>
      rw [ha, ok_bind] at h
      cases hrest : as.mapM f with
      | error e' =>
        rw [hrest] at h
        cases h
        obtain ⟨a', ha', hf⟩ := ih hrest
        exact ⟨a', List.mem_cons_of_mem _ ha', hf⟩
      | ok bs =>
        rw [hrest] at h
        cases h

/-! ## The bridge of a route -/

section Bridge
variable {V : Type} (json : Rapidjson) (order : Nat → HashOrder) (parseQuery : Bytes → FlatStringMap)

/-- A `DubboBridge` with a static context and the default getter of arguments. -/
def simpleBridge (context : SourcedContext) (responseGetter : ResponseGetter V) (protocolErrorCode respExceptionCode : Nat) :
    DubboBridge V where
  getContext _ := .ok context.toDubboBridgeContext
  argumentGetterCreator _ source := simpleArgumentGetter json order parseQuery context source
  responseGetterCreator := responseGetter
  protocolErrorCode
  respExceptionCode

variable {json order parseQuery} {env : Env V} {context : SourcedContext} {responseGetter : ResponseGetter V} {pe re : Nat}
  {headers : RequestHeaders} {body : Bytes} {given : Parameter → Option Value} {id : Int64}

theorem convert_of_carries (h : Carries json parseQuery context ⟨headers, body⟩ given) :
    convertHttpToDubbo env (simpleBridge json order parseQuery context responseGetter pe re) headers body id =
      (writeDubboRequest env.encoder id context.toDubboBridgeContext ⟨headers, body⟩
        (givenGetter json order context.ignoreNullMapPair given), id + 1) := by
  obtain ⟨getter, hgetter, hattachments, hget⟩ := @getter_of_carries _ order _ _ _ _ h
  unfold convertHttpToDubbo
  simp only [simpleBridge, hgetter, ok_bind, pure_ok]
  rw [writeDubboRequest_congr hget hattachments (fun _ _ => rfl) fun _ _ => rfl]

/-- The same values lead to the same frame, or to the same error, whether they
come in an array, in an object or in the query, if the attachments are the
same and the maps are iterated in the same order. -/
theorem carriers_agree {context' : SourcedContext} (hcontext : context'.toDubboBridgeContext = context.toDubboBridgeContext)
    (hign : context'.ignoreNullMapPair = context.ignoreNullMapPair) {source source' : SrcsRequestContext}
    (h : Carries json parseQuery context source given) (h' : Carries json parseQuery context' source' given)
    (hheaders : ∀ a ∈ context.headerAttachs, source'.getHeader a.2 = source.getHeader a.2)
    (hcookies : ∀ a ∈ context.cookieAttachs, source'.getCookie a.2 = source.getCookie a.2) :
    convertHttpToDubbo env (simpleBridge json order parseQuery context' responseGetter pe re) source'.headers source'.body id =
      convertHttpToDubbo env (simpleBridge json order parseQuery context responseGetter pe re) source.headers source.body id := by
  rw [convert_of_carries h, convert_of_carries h', hcontext, hign]
  congr 1
  exact writeDubboRequest_congr (fun _ _ => rfl) rfl hheaders hcookies

/-- A request that cannot be converted carries nothing, or something that a
parameter does not take. -/
theorem refused_of_error {what : Bytes} {next : Int64}
    (h : convertHttpToDubbo env (simpleBridge json order parseQuery context responseGetter pe re) headers body id =
      (.error what, next)) (hcarries : Carries json parseQuery context ⟨headers, body⟩ given) :
    ∃ p ∈ context.params, Refused json order context.ignoreNullMapPair given p := by
  rw [convert_of_carries hcarries] at h
  have hwrite := (Prod.mk.inj h).1
  unfold writeDubboRequest writeRequestBody at hwrite
  cases harguments : context.params.mapM (argumentObject (givenGetter json order context.ignoreNullMapPair given)) with
  | ok arguments =>
    rw [harguments] at hwrite
    cases hwrite
  | error e =>
    obtain ⟨p, hp, herror⟩ := mapM_error harguments
    exact ⟨p, hp, refused_of_argument herror⟩

/-- A request that is converted carries values, and these are written. -/
theorem carries_of_frame {frame : Bytes} {next : Int64}
    (h : convertHttpToDubbo env (simpleBridge json order parseQuery context responseGetter pe re) headers body id =
      (.ok frame, next)) :
    ∃ given, Carries json parseQuery context ⟨headers, body⟩ given ∧
      writeDubboRequest env.encoder id context.toDubboBridgeContext ⟨headers, body⟩
        (givenGetter json order context.ignoreNullMapPair given) = .ok frame := by
  have hconvert := h
  unfold convertHttpToDubbo at h
  simp only [simpleBridge, ok_bind] at h
  cases hgetter : simpleArgumentGetter json order parseQuery context ⟨headers, body⟩ with
  | error e =>
    rw [hgetter] at h
    cases h
  | ok getter =>
    rw [hgetter] at h
    have hwrite : writeDubboRequest env.encoder id context.toDubboBridgeContext ⟨headers, body⟩ getter = .ok frame := (Prod.mk.inj h).1
    obtain ⟨frameBody, hbody, -⟩ := writeDubboRequest_eq hwrite
    obtain ⟨arguments, harguments, -⟩ := writeRequestBody_eq hbody
    have hfound : ∀ p ∈ context.params, ∃ v, getter.getArgumentByParameter p = .ok v := by
      intro p hp
      obtain ⟨i, hi, rfl⟩ := List.mem_iff_getElem.1 hp
      obtain ⟨v, hv, -⟩ := bind_eq_ok (harguments.get hi (harguments.length_eq ▸ hi))
      exact ⟨v, hv⟩
    have hcarries := carries_of_getter hgetter hfound
    rw [convert_of_carries hcarries] at hconvert
    exact ⟨_, hcarries, (Prod.mk.inj hconvert).1⟩

end Bridge

/-- Two parameters of one request. -/
def pairContext : SourcedContext where
  service := ascii "s"
  version := ascii "1"
  method := ascii "add"
  staticAttachs := []
  headerAttachs := []
  cookieAttachs := []
  params := [⟨0, ascii "int", ascii "a", true, .null, []⟩, ⟨1, ascii "int", ascii "b", true, .null, []⟩]
  argumentSource := .Body

/-- The same parameters from the query. -/
def pairQueryContext : SourcedContext := { pairContext with argumentSource := .Query }

def pairQuery (_ : Bytes) : FlatStringMap := [(ascii "b", ascii "2"), (ascii "a", ascii "1")]

def pairBridge (context : SourcedContext) : DubboBridge Scalar :=
  simpleBridge bitsJson (fun _ _ es => es) pairQuery context (simpleResponseGetter scalarCodec) 501 503

def pairGiven (p : Parameter) : Option Value := if p.name = ascii "a" then some (.int 1) else some (.int 2)

/-- Two numbers in an object, and the same in the query. -/
theorem object_query_agree :
    convertHttpToDubbo scalarEnv (pairBridge pairQueryContext) plainRequest [] 7 =
      convertHttpToDubbo scalarEnv (pairBridge pairContext) plainRequest (ascii "\x7b\"a\":1,\"b\":2\x7d") 7 := by
  have hread : bitsJson.parse (ascii "\x7b\"a\":1,\"b\":2\x7d") =
      some (.object [(ascii "a", .int 1), (ascii "b", .int 2)]) :=
    bitsJson.parse_text (.object [(ascii "a", .int 1), (ascii "b", .int 2)]) ⟨trivial, trivial, trivial⟩
  have hone : bitsJson.parse (ascii "1") = some (.int 1) := bitsJson.parse_text (.int 1) trivial
  have htwo : bitsJson.parse (ascii "2") = some (.int 2) := bitsJson.parse_text (.int 2) trivial
  have hobject : Carries bitsJson pairQuery pairContext ⟨plainRequest, ascii "\x7b\"a\":1,\"b\":2\x7d"⟩ pairGiven := by
    refine .object _ rfl rfl hread ?_
    simp only [pairContext, List.forall_mem_cons]
    exact ⟨rfl, rfl, by simp⟩
  have hquery : Carries bitsJson pairQuery pairQueryContext ⟨plainRequest, []⟩ pairGiven := by
    refine .query (by simp [pairQueryContext]) rfl ?_
    simp only [pairQueryContext, pairContext, List.forall_mem_cons]
    exact ⟨congrArg some hone, congrArg some htwo, by simp⟩
  have hcontext : pairQueryContext.toDubboBridgeContext = pairContext.toDubboBridgeContext := rfl
  exact carriers_agree hcontext rfl hobject hquery (by simp [pairContext]) (by simp [pairContext])

def pairEnv : Env Scalar := { scalarEnv with bridge := some (pairBridge pairContext) }

/-! ## Whole requests -/

/-- A call that is not for this upstream. -/
def Event.isOther : Event → Bool
  | .otherRequest => true
  | _ => false

/-- The calls of the router for a body. -/
def bodyCalls (trailers : Bool) : List Bytes → List Event
  | [] => if trailers then [.encodeTrailers] else []
  | bytes :: data => .encodeData bytes (data.isEmpty && !trailers) :: bodyCalls trailers data

/-- The calls of the router for a request. -/
def requestCalls (headers : RequestHeaders) (data : List Bytes) (trailers : Bool) : List Event :=
  .encodeHeaders headers (data.isEmpty && !trailers) :: bodyCalls trailers data

section Run
variable {V : Type} (env : Env V)

/-- A request that has not come to its end. -/
structure Arriving (headers : RequestHeaders) (body : Bytes) (s : DubboUpstream V) : Prop where
  requestHeaders : s.requestHeaders = some headers
  bufferdBody : s.bufferdBody = body
  requestComplete : s.requestComplete = false
  upstreamRequest : s.upstreamRequest = true
  upstreamConnData : s.upstreamConnData = true
  written : s.written = []
  posted : s.posted = []

/-- A request that has come to its end: the frame is written, or a local reply
is posted. -/
inductive Ended (bridge : DubboBridge V) (headers : RequestHeaders) (body : Bytes) (s : DubboUpstream V) : Prop
  | frame (id next : Int64) : convertHttpToDubbo env bridge headers body id = (.ok s.written, next) → s.posted = [] →
      Ended bridge headers body s
  | reply (id next : Int64) (what : Bytes) : convertHttpToDubbo env bridge headers body id = (.error what, next) →
      s.written = [] → s.posted = [what] → Ended bridge headers body s

variable {env} {bridge : DubboBridge V} {headers : RequestHeaders} {body : Bytes} {s : DubboUpstream V} {events : List Event}

theorem Arriving.ends (h : Arriving headers body s) (hbridge : env.bridge = some bridge) (id : Int64) :
    ∃ s' next, writeRequestToUpstream env id s = .ok (s', next) ∧ Ended env bridge headers body s' := by
  unfold writeRequestToUpstream
  simp only [h.requestComplete, h.upstreamRequest, h.upstreamConnData, hbridge, h.requestHeaders, h.bufferdBody]
  rcases hconvert : convertHttpToDubbo env bridge headers body id with ⟨what | frame, next⟩
  · exact ⟨_, _, rfl, .reply id next what hconvert h.written (by simp [h.posted])⟩
  · exact ⟨_, _, rfl, .frame id next (by simp [hconvert, h.written]) h.posted⟩

/-- The calls for other upstreams only take ids. -/
theorem run_others (h : ∀ e ∈ events, e.isOther = true) (p : Process V) :
    ∃ id, events.foldlM (step env) p = .ok { p with globalRequestId := id } := by
  induction events generalizing p with
  | nil => exact ⟨p.globalRequestId, rfl⟩
  | cons e events ih =>
    obtain ⟨id, hrun⟩ := ih (fun e he => h e (List.mem_cons_of_mem _ he)) { p with globalRequestId := p.globalRequestId + 1 }
    have hother := h e List.mem_cons_self
    cases e with
    | otherRequest => exact ⟨id, hrun⟩
    | _ => cases hother

/-- A run up to the next call for this upstream. -/
theorem run_next {e : Event} {rest : List Event} (h : events.filter (fun e => !e.isOther) = e :: rest) (p : Process V) :
    ∃ (events' : List Event) (id : Int64), events'.filter (fun e => !e.isOther) = rest ∧
      events.foldlM (step env) p = step env { p with globalRequestId := id } e >>= fun p => events'.foldlM (step env) p := by
  obtain ⟨before, events', rfl, hbefore, -, hrest⟩ := List.filter_eq_cons_iff.1 h
  obtain ⟨id, hrun⟩ := @run_others V env before (fun e he => by simpa using hbefore e he) p
  exact ⟨events', id, hrest, by rw [List.foldlM_append, hrun, ok_bind, List.foldlM_cons]⟩

/-- After its end nothing happens to a request. -/
theorem Ended.run (h : Ended env bridge headers body s) (hevents : events.filter (fun e => !e.isOther) = []) (id : Int64) :
    ∃ p, events.foldlM (step env) ⟨s, id⟩ = .ok p ∧ Ended env bridge headers body p.upstream := by
  obtain ⟨id', hrun⟩ := @run_others V env events (fun e he => by simpa using List.filter_eq_nil_iff.1 hevents e he) ⟨s, id⟩
  exact ⟨_, hrun, h⟩

/-- The rest of a request, from its headers on. -/
theorem Arriving.run (hbridge : env.bridge = some bridge) {trailers : Bool} {data : List Bytes}
    (hmore : (data.isEmpty && !trailers) = false) (hevents : events.filter (fun e => !e.isOther) = bodyCalls trailers data)
    (h : Arriving headers body s) (id : Int64) :
    ∃ p, events.foldlM (step env) ⟨s, id⟩ = .ok p ∧ Ended env bridge headers (body ++ data.flatten) p.upstream := by
  induction data generalizing events body s id with
  | nil =>
    obtain rfl : trailers = true := by simpa using hmore
    obtain ⟨events', id', hrest, hrun⟩ := @run_next V env _ _ _ hevents ⟨s, id⟩
    obtain ⟨s', next, hwrite, hended⟩ := h.ends hbridge id'
    obtain ⟨p, hrest, hp⟩ := hended.run hrest next
    refine ⟨p, ?_, by simpa using hp⟩
    rw [hrun]
    simp only [step, encodeTrailers, hwrite, ok_bind, pure_ok, hrest]
  | cons bytes data ih =>
    obtain ⟨events', id', hrest, hrun⟩ := @run_next V env _ _ _ hevents ⟨s, id⟩
    have hstored : Arriving headers (body ++ bytes) { s with bufferdBody := s.bufferdBody ++ bytes } :=
      { h with bufferdBody := by rw [h.bufferdBody] }
    rw [hrun, List.flatten_cons, ← List.append_assoc]
    cases hlast : data.isEmpty && !trailers with
    | false =>
      simp only [step, encodeData, Bool.false_eq_true, if_false, ok_bind, pure_ok]
      exact ih hlast hrest hstored id'
    | true =>
      obtain ⟨hempty, htrailers⟩ := Bool.and_eq_true_iff.1 hlast
      obtain rfl := List.isEmpty_iff.1 hempty
      obtain rfl : trailers = false := by simpa using htrailers
      obtain ⟨s', next, hwrite, hended⟩ := hstored.ends hbridge id'
      obtain ⟨p, hrest, hp⟩ := hended.run hrest next
      refine ⟨p, ?_, by simpa using hp⟩
      simp only [step, encodeData, if_true, hwrite, ok_bind, pure_ok, hrest]

/-- A whole request, whatever is between its calls. -/
theorem request_run (hbridge : env.bridge = some bridge) {trailers : Bool} {data : List Bytes}
    (hevents : events.filter (fun e => !e.isOther) = requestCalls headers data trailers) (id : Int64) :
    ∃ p, events.foldlM (step env) { globalRequestId := id } = .ok p ∧ Ended env bridge headers data.flatten p.upstream := by
  obtain ⟨events', id', hrest, hrun⟩ := @run_next V env _ _ _ hevents { globalRequestId := id }
  have hfresh : Arriving headers [] ({ requestHeaders := some headers } : DubboUpstream V) := ⟨rfl, rfl, rfl, rfl, rfl, rfl, rfl⟩
  rw [hrun]
  cases hlast : data.isEmpty && !trailers with
  | false =>
    simp only [step, encodeHeaders, Bool.false_eq_true, if_false, ok_bind, pure_ok]
    exact hfresh.run hbridge hlast hrest id'
  | true =>
    obtain ⟨hempty, htrailers⟩ := Bool.and_eq_true_iff.1 hlast
    obtain rfl := List.isEmpty_iff.1 hempty
    obtain rfl : trailers = false := by simpa using htrailers
    obtain ⟨s', next, hwrite, hended⟩ := hfresh.ends hbridge id'
    obtain ⟨p, hrest, hp⟩ := hended.run hrest next
    refine ⟨p, ?_, hp⟩
    simp only [step, encodeHeaders, if_true, hwrite, ok_bind, pure_ok, hrest]

/-- A whole request leads to one frame or to one local reply. It is a frame
exactly when the request carries values that all parameters take, and then the
reader on the other side gets these values as arguments. -/
theorem bridged_exactly {json : Rapidjson} {order : Nat → HashOrder} (horder : ∀ i place es, (order i place es).Perm es)
    {parseQuery : Bytes → FlatStringMap} {context : SourcedContext} {responseGetter : ResponseGetter V} {pe re : Nat}
    (hbridge : env.bridge = some (simpleBridge json order parseQuery context responseGetter pe re))
    {data : List Bytes} {trailers : Bool} {decoder : Decoder}
    (hinverts : ∀ given, Carries json parseQuery context ⟨headers, data.flatten⟩ given →
      Inverts env.encoder decoder (SentArgument context.toDubboBridgeContext (givenGetter json order context.ignoreNullMapPair given)))
    (hevents : events.filter (fun e => !e.isOther) = requestCalls headers data trailers) (id₀ : Int64) :
    ∃ p, events.foldlM (step env) { globalRequestId := id₀ } = .ok p ∧
      ((∃ given arguments, Carries json parseQuery context ⟨headers, data.flatten⟩ given ∧
        List.Forall₂ (Received json order context.ignoreNullMapPair given) context.params arguments ∧
        p.upstream.posted = [] ∧ p.upstream.written ≠ [] ∧
        (p.upstream.written.length < 2 ^ 32 + 16 → ∃ id body, RequestFrame id p.upstream.written body ∧
          (readRequestBody decoder).run body = some (requestBody context.toDubboBridgeContext ⟨headers, data.flatten⟩
            (givenGetter json order context.ignoreNullMapPair given) arguments, []))) ∨
      (p.upstream.written = [] ∧ (∃ what, p.upstream.posted = [what]) ∧
        ∀ given, Carries json parseQuery context ⟨headers, data.flatten⟩ given →
          ∃ p ∈ context.params, Refused json order context.ignoreNullMapPair given p)) := by
  obtain ⟨p, hrun, hended⟩ := request_run hbridge hevents id₀
  refine ⟨p, hrun, ?_⟩
  cases hended with
  | reply id next what hconvert hwritten hposted =>
    exact .inr ⟨hwritten, ⟨what, hposted⟩, fun given hcarries => refused_of_error hconvert hcarries⟩
  | frame id next hconvert hposted =>
    obtain ⟨given, hcarries, hwrite⟩ := carries_of_frame hconvert
    obtain ⟨body, hbody, hframe⟩ := writeDubboRequest_eq hwrite
    obtain ⟨arguments, harguments, -⟩ := writeRequestBody_eq hbody
    refine .inl ⟨given, arguments, hcarries, harguments.imp fun _ _ h => received_of_argument horder h, hposted, by simp [hframe], ?_⟩
    intro hlen
    have hsize : body.length < 2 ^ 32 := by
      simp only [hframe, List.length_append, beBytes_length, List.length_cons, List.length_nil] at hlen
      omega
    obtain ⟨arguments', harguments', hreads⟩ := reads_requestBody (hinverts given hcarries) hbody hsize
    have hsame : arguments' = arguments := by
      refine List.right_unique_forall₂' ?_ harguments' harguments
      intro _ _ _ h h'
      exact Except.ok.inj (h.symm.trans h')
    exact ⟨id, body, hframe ▸ requestFrame_written id hsize, hsame ▸ hreads.run_eq⟩

end Run

/-- Two numbers in an array that comes in two frames, with a request of
another upstream in between. -/
theorem array_bridged :
    ∃ p given arguments, [.encodeHeaders plainRequest false, .encodeData (ascii "[1,") false, .otherRequest,
        .encodeData (ascii "2]") true].foldlM (step pairEnv) {} = .ok p ∧ p.upstream.posted = [] ∧ p.upstream.written ≠ [] ∧
      (∀ p ∈ pairContext.params, given p = [Value.int 1, .int 2][p.index]?) ∧
      List.Forall₂ (Received bitsJson (fun _ _ es => es) false given) pairContext.params arguments := by
  have hread : bitsJson.parse (ascii "[1,2]") = some (.array [.int 1, .int 2]) :=
    bitsJson.parse_text (.array [.int 1, .int 2]) ⟨trivial, trivial, trivial⟩
  have hcarries : ∀ given, Carries bitsJson pairQuery pairContext ⟨plainRequest, ascii "[1,2]"⟩ given →
      ∀ p ∈ pairContext.params, given p = [Value.int 1, .int 2][p.index]? := by
    intro given h
    cases h with
    | nothing h => cases h
    | array values _ h hgiven =>
      rw [hread] at h
      cases h
      exact hgiven
    | object _ _ _ h =>
      rw [hread] at h
      cases h
    | scalar value _ _ h harray =>
      rw [hread] at h
      cases h
      cases harray
    | query h => exact absurd rfl h
  have hinverts : ∀ given, Carries bitsJson pairQuery pairContext ⟨plainRequest, [ascii "[1,", ascii "2]"].flatten⟩ given →
      Inverts scalarEncoder scalarDecoder (SentArgument pairContext.toDubboBridgeContext
        (givenGetter bitsJson (fun _ _ es => es) false given)) := by
    intro given h
    apply scalar_inverts
    rintro v ⟨p, hp, hv⟩
    have hgiven := hcarries given h p hp
    unfold argumentObject at hv
    simp only [givenGetter, hgiven] at hv
    simp only [pairContext, List.mem_cons, List.not_mem_nil, or_false] at hp
    rcases hp with rfl | rfl
    · exact ⟨1, (Except.ok.inj hv).symm⟩
    · exact ⟨2, (Except.ok.inj hv).symm⟩
  have hbridge : pairEnv.bridge = some (simpleBridge bitsJson (fun _ _ es => es) pairQuery pairContext
      (simpleResponseGetter scalarCodec) 501 503) := rfl
  have hevents : List.filter (fun e => !e.isOther)
      [.encodeHeaders plainRequest false, .encodeData (ascii "[1,") false, .otherRequest,
        .encodeData (ascii "2]") true] = requestCalls plainRequest [ascii "[1,", ascii "2]"] false := rfl
  obtain ⟨p, hrun, ⟨given, arguments, h, harguments, hposted, hwritten, -⟩ | ⟨-, -, hrefused⟩⟩ :=
    bridged_exactly (fun _ _ _ => .refl _) hbridge hinverts hevents 0
  · exact ⟨p, given, arguments, hrun, hposted, hwritten, hcarries given h, harguments⟩
  · obtain ⟨p, hp, hrefused⟩ := hrefused (fun p => [Value.int 1, .int 2][p.index]?) (.array _ rfl hread fun _ _ => rfl)
    simp only [pairContext, List.mem_cons, List.not_mem_nil, or_false] at hp
    rcases hp with rfl | rfl
    · exact absurd rfl (hrefused (.integer 1))
    · exact absurd rfl (hrefused (.integer 2))

end EnvoyProxy.Dubbo
