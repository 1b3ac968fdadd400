import EnvoyProxy.Dubbo.Context
import EnvoyProxy.Dubbo.JsonToHessian
import EnvoyProxy.Dubbo.RoundTrip
/-!
# Arguments from an HTTP request

`SimpleArgumentGetter` (bridge/dubbo/simple/config.cc) takes the arguments of
a bridged request from its body, a JSON array or object, or from its query.
`carriers_agree`: it makes no difference which way the values come.
-/

namespace EnvoyProxy.Dubbo
open Json

/-! ## The context -/

/-- `DubboBridgeContext::Source` -/
inductive Source
  | None
  | Body
  | Query
  deriving DecidableEq, Repr

/-- `ProtoDubboBridgeContext::Source` -/
inductive ProtoSource
  | HTTP_BODY
  | HTTP_QUERY
  deriving DecidableEq, Repr

/-- `ProtoDubboBridgeContext` with the source of its arguments. -/
structure ProtoSourcedContext extends ProtoDubboBridgeContext where
  source : ProtoSource

/-- A `DubboBridgeContext` with the members that the getters ask for. -/
structure SourcedContext extends DubboBridgeContext where
  lostParameterName : Bool := false
  argumentSource : Source := .None
  ignoreNullMapPair : Bool := false

/-- The constructor of `DubboBridgeContext`. -/
def SourcedContext.ofProto (jsonDefault : Bytes → Bytes → Bool → Option HessianValue) (config : ProtoSourcedContext) :
    Except Bytes SourcedContext := do
  let context ← DubboBridgeContext.ofProto jsonDefault config.toProtoDubboBridgeContext
  return { context with
    lostParameterName := config.parameters.foldl (fun lost param => lost || param.name.isEmpty) false
    argumentSource := if config.source = .HTTP_QUERY then .Query else .Body
    ignoreNullMapPair := config.ignoreNullMapPair }

theorem ofProto_index {jsonDefault : Bytes → Bytes → Bool → Option HessianValue} {index : Nat} {config : ProtoParameter}
    {ignoreNull : Bool} {parameter : Parameter} (h : Parameter.ofProto jsonDefault index config ignoreNull = .ok parameter) :
    parameter.index = index ∧ parameter.name = config.name := by
  unfold Parameter.ofProto at h
  split_ifs at h
  · cases hd : jsonDefault config.default_ config.type ignoreNull with
    | none =>
      rw [hd] at h
      cases h
    | some v =>
      rw [hd] at h
      cases h
      exact ⟨rfl, rfl⟩
  · cases h
    exact ⟨rfl, rfl⟩

/-- The parameters of a context stand at their indexes, and names are lost as
soon as one is empty. -/
theorem SourcedContext.ofProto_params {jsonDefault : Bytes → Bytes → Bool → Option HessianValue} {config : ProtoSourcedContext}
    {context : SourcedContext} (h : SourcedContext.ofProto jsonDefault config = .ok context) :
    context.params.map (·.index) = List.range context.params.length ∧
      (context.lostParameterName = true ↔ ∃ p ∈ context.params, p.name = []) := by
  obtain ⟨built, hbuilt, h⟩ := bind_eq_ok h
  obtain ⟨params, hparams, hbuilt⟩ := bind_eq_ok hbuilt
  cases hbuilt
  cases h
  have hall := mapM_ok hparams
  have hindex : params.map (·.index) = config.parameters.zipIdx.map (·.2) :=
    map_eq_of_forall₂ hall fun _ _ h => (ofProto_index h).1
  have hname : params.map (·.name) = (config.parameters.zipIdx.map (·.1)).map (·.name) := by
    rw [List.map_map]
    exact map_eq_of_forall₂ hall fun _ _ h => (ofProto_index h).2
  rw [List.zipIdx_map_fst] at hname
  have hlost : ∀ (lost : Bool) (ps : List ProtoParameter), ps.foldl (fun lost param => lost || param.name.isEmpty) lost = true ↔
      lost = true ∨ [] ∈ ps.map (·.name) := by
    intro lost ps
    induction ps generalizing lost with
    | nil => simp
    | cons p ps ih =>
      rw [List.foldl_cons, ih, Bool.or_eq_true, List.isEmpty_iff, or_assoc, List.map_cons, List.mem_cons]
      simp only [eq_comm]
  constructor
  · show params.map (·.index) = List.range params.length
    rw [hindex, List.zipIdx_map_snd, ← List.range_eq_range', ← hall.length_eq, List.length_zipIdx]
  · show config.parameters.foldl _ false = true ↔ ∃ p ∈ params, p.name = []
    rw [hlost, ← hname, List.mem_map]
    simp

/-! ## The getters -/

section Getters
-- The order in which the maps of an argument are iterated, and
-- `parseAndDecodeQueryString`.
variable (json : Rapidjson) (order : Nat → HashOrder) (parseQuery : Bytes → FlatStringMap)

structure QueryGetter where
  params : FlatStringMap
  ignoreNullMapPair : Bool

def QueryGetter.create (context : SourcedContext) (source : SrcsRequestContext) : Except Bytes QueryGetter :=
  if context.lostParameterName then
    .error (ascii "Dubbo bridge: no parameter name is not allowed for query type source")
  else
    .ok
      { params := parseQuery ((source.getHeader (ascii ":path")).getD (ascii "/"))
        ignoreNullMapPair := context.ignoreNullMapPair }

def QueryGetter.getArgumentByParameter (getter : QueryGetter) (parameter : Parameter) : Except Bytes (Option HessianValue) :=
  match getter.params.lookup parameter.name with
  | none => .ok none
  | some value =>
    match json.parse value with
    | none => .error (ascii "Dubbo bridge: query value not valid Json string")
    | some doc => (jsonValueToHessianValue json (order parameter.index) doc parameter.type getter.ignoreNullMapPair).map some

structure BodyGetter where
  doc : Value
  ignoreNullMapPair : Bool
  lostParameterName : Bool

def BodyGetter.create (context : SourcedContext) (source : SrcsRequestContext) : Except Bytes BodyGetter :=
  match json.parse source.body with
  | none => .error (ascii "Dubbo bridge: HTTP request body not valid Json string")
  | some doc =>
    if context.lostParameterName && !isArray doc then
      .error (ascii "Dubbo bridge: no parameter name is only allowed for HTTP request body of type Json array")
    else .ok { doc, ignoreNullMapPair := context.ignoreNullMapPair, lostParameterName := context.lostParameterName }

def BodyGetter.getArgumentByParameter (getter : BodyGetter) (parameter : Parameter) : Except Bytes (Option HessianValue) :=
  match getter.doc with
  | .array docArray =>
    match docArray[parameter.index]? with
    | some value => (jsonValueToHessianValue json (order parameter.index) value parameter.type getter.ignoreNullMapPair).map some
    | none => .ok none
  | .object docObject =>
    match docObject.lookup parameter.name with
    | some value => (jsonValueToHessianValue json (order parameter.index) value parameter.type getter.ignoreNullMapPair).map some
    | none => .ok none
  | _ => .ok none

/-- The constructor of `SimpleArgumentGetter`, which only forwards. -/
def simpleArgumentGetter (context : SourcedContext) (source : SrcsRequestContext) : Except Bytes ArgumentGetter :=
  if context.params.length = 0 then .ok ⟨fun _ => .ok none, none⟩
  else if context.argumentSource = .Body then do
    let getter ← BodyGetter.create json context source
    return ⟨getter.getArgumentByParameter json order, none⟩
  else do
    let getter ← QueryGetter.create parseQuery context source
    return ⟨getter.getArgumentByParameter json order, none⟩

end Getters

/-! ## Values that a request carries -/

section Carries
variable (json : Rapidjson) (order : Nat → HashOrder) (parseQuery : Bytes → FlatStringMap)

/-- A request carries these values for the parameters: in an array by their
index, in an object or in the query by their name. -/
inductive Carries (context : SourcedContext) (source : SrcsRequestContext) (given : Parameter → Option Value) : Prop
  | nothing : context.params = [] → Carries context source given
  | array (values : List Value) : context.argumentSource = .Body →
      json.parse source.body = some (.array values) →
      (∀ p ∈ context.params, given p = values[p.index]?) → Carries context source given
  | object (members : List (Bytes × Value)) : context.argumentSource = .Body → context.lostParameterName = false →
      json.parse source.body = some (.object members) →
      (∀ p ∈ context.params, given p = members.lookup p.name) → Carries context source given
  /-- A body that is neither has no values. -/
  | scalar (value : Value) : context.argumentSource = .Body → context.lostParameterName = false →
      json.parse source.body = some value → isArray value = false → isObject value = false →
      (∀ p ∈ context.params, given p = none) → Carries context source given
  | query : context.argumentSource ≠ .Body → context.lostParameterName = false →
      (∀ p ∈ context.params, ((parseQuery ((source.getHeader (ascii ":path")).getD (ascii "/"))).lookup p.name).map
        json.parse = (given p).map some) → Carries context source given

/-- The getter of a request that carries these values. -/
def givenGetter (ignoreNullMapPair : Bool) (given : Parameter → Option Value) : ArgumentGetter where
  getArgumentByParameter parameter :=
    match given parameter with
    | none => .ok none
    | some value => (jsonValueToHessianValue json (order parameter.index) value parameter.type ignoreNullMapPair).map some
  attachmentsFromGetter := none

variable {json order parseQuery} {context : SourcedContext} {source : SrcsRequestContext} {given : Parameter → Option Value}

/-- The getter gives what the request carries. -/
theorem getter_of_carries (h : Carries json parseQuery context source given) :
    ∃ getter, simpleArgumentGetter json order parseQuery context source = .ok getter ∧ getter.attachmentsFromGetter = none ∧
      ∀ p ∈ context.params, getter.getArgumentByParameter p =
        (givenGetter json order context.ignoreNullMapPair given).getArgumentByParameter p := by
  by_cases hparams : context.params = []
  · refine ⟨⟨fun _ => .ok none, none⟩, ?_, rfl, ?_⟩
    · simp [simpleArgumentGetter, hparams]
    · simp [hparams]
  have hlength : context.params.length ≠ 0 := by simpa using hparams
  unfold simpleArgumentGetter
  rw [if_neg hlength]
  cases h with
  | nothing hnone => exact absurd hnone hparams
  | array values hbody hread hgiven =>
    rw [if_pos hbody]
    refine ⟨_, by simp [BodyGetter.create, hread, isArray]; rfl, rfl, ?_⟩
    intro p hp
    simp only [BodyGetter.getArgumentByParameter, givenGetter, hgiven p hp]
    cases values[p.index]? <;> rfl
  | object members hbody hnamed hread hgiven =>
    rw [if_pos hbody]
    refine ⟨_, by simp [BodyGetter.create, hread, hnamed]; rfl, rfl, ?_⟩
    intro p hp
    simp only [BodyGetter.getArgumentByParameter, givenGetter, hgiven p hp]
    cases members.lookup p.name <;> rfl
  | scalar value hbody hnamed hread harray hobject hgiven =>
    rw [if_pos hbody]
    refine ⟨_, by simp [BodyGetter.create, hread, hnamed]; rfl, rfl, ?_⟩
    intro p hp
    simp only [BodyGetter.getArgumentByParameter, givenGetter, hgiven p hp]
    cases value with
    | array => cases harray
    | object => cases hobject
    | _ => rfl
  | query hquery hnamed hgiven =>
    rw [if_neg hquery]
    refine ⟨_, by simp [QueryGetter.create, hnamed]; rfl, rfl, ?_⟩
    intro p hp
    have hvalue := hgiven p hp
    simp only [QueryGetter.getArgumentByParameter, givenGetter]
    cases htext : (parseQuery ((source.getHeader (ascii ":path")).getD (ascii "/"))).lookup p.name with
    | none =>
      rw [htext, Option.map_none, eq_comm, Option.map_eq_none_iff] at hvalue
      rw [hvalue]
    | some text =>
      rw [htext, Option.map_some, eq_comm, Option.map_eq_some_iff] at hvalue
      obtain ⟨value, hvalue, hread⟩ := hvalue
      simp only [← hread, hvalue]

/-- What the getters find, when they find something they can read. -/
def found (json : Rapidjson) (parseQuery : Bytes → FlatStringMap) (context : SourcedContext) (source : SrcsRequestContext)
    (p : Parameter) : Option Value :=
  if context.argumentSource = .Body then
    match json.parse source.body with
    | some (.array values) => values[p.index]?
    | some (.object members) => members.lookup p.name
    | _ => none
  else ((parseQuery ((source.getHeader (ascii ":path")).getD (ascii "/"))).lookup p.name).bind json.parse

/-- A request whose arguments are all found carries what was found. -/
theorem carries_of_getter {getter : ArgumentGetter} (h : simpleArgumentGetter json order parseQuery context source = .ok getter)
    (hfound : ∀ p ∈ context.params, ∃ v, getter.getArgumentByParameter p = .ok v) :
    Carries json parseQuery context source (found json parseQuery context source) := by
  unfold simpleArgumentGetter at h
  split_ifs at h with hlength hbody
  · exact .nothing (List.length_eq_zero_iff.1 hlength)
  · obtain ⟨bodyGetter, hcreate, -⟩ := bind_eq_ok h
    unfold BodyGetter.create at hcreate
    cases hread : json.parse source.body with
    | none =>
      rw [hread] at hcreate
      cases hcreate
    | some doc =>
      rw [hread] at hcreate
      simp only at hcreate
      split_ifs at hcreate with hlost
      rw [Bool.and_eq_true, not_and, Bool.not_eq_true', Bool.not_eq_false] at hlost
      have hnamed : isArray doc = false → context.lostParameterName = false := by
        intro harray
        by_contra hname
        rw [hlost (by simpa using hname)] at harray
        cases harray
      cases doc with
      | array values => exact .array values hbody hread fun p _ => by simp [found, hbody, hread]
      | object members => exact .object members hbody (hnamed rfl) hread fun p _ => by simp [found, hbody, hread]
      | _ => exact .scalar _ hbody (hnamed rfl) hread rfl rfl fun p _ => by simp [found, hbody, hread]
  · obtain ⟨queryGetter, hcreate, hgetter⟩ := bind_eq_ok h
    unfold QueryGetter.create at hcreate
    split_ifs at hcreate with hlost
    cases hcreate
    cases hgetter
    refine .query hbody (by simpa using hlost) ?_
    intro p hp
    obtain ⟨v, hv⟩ := hfound p hp
    simp only [QueryGetter.getArgumentByParameter] at hv
    simp only [found, if_neg hbody]
    cases htext : (parseQuery ((source.getHeader (ascii ":path")).getD (ascii "/"))).lookup p.name with
    | none => rfl
    | some text =>
      cases hread : json.parse text with
      | none =>
        simp only [htext, hread] at hv
        cases hv
      | some value => simp [hread]

/-! ## The request that is written -/

/-- Two getters that give the same, and no attachments of their own. -/
theorem writeDubboRequest_congr {encoder : Encoder} {id : Int64} {context : DubboBridgeContext} {source source' : SrcsRequestContext}
    {getter getter' : ArgumentGetter} (hget : ∀ p ∈ context.params, getter.getArgumentByParameter p = getter'.getArgumentByParameter p)
    (hattachments : getter.attachmentsFromGetter = getter'.attachmentsFromGetter)
    (hheaders : ∀ a ∈ context.headerAttachs, source.getHeader a.2 = source'.getHeader a.2)
    (hcookies : ∀ a ∈ context.cookieAttachs, source.getCookie a.2 = source'.getCookie a.2) :
    writeDubboRequest encoder id context source getter = writeDubboRequest encoder id context source' getter' := by
  have hpresent : ∀ {attachs : FlatStringMap} {get get' : Bytes → Option Bytes}, (∀ a ∈ attachs, get a.2 = get' a.2) →
      presentAttachments attachs get = presentAttachments attachs get' := by
    intro attachs get get' h
    unfold presentAttachments
    exact List.filterMap_congr fun a ha => by rw [h a ha]
  have harguments : context.params.mapM (argumentObject getter) = context.params.mapM (argumentObject getter') := by
    have hall : ∀ ps : List Parameter, (∀ p ∈ ps, p ∈ context.params) → ps.mapM (argumentObject getter) = ps.mapM (argumentObject getter') := by
      intro ps hps
      induction ps with
      | nil => rfl
      | cons p ps ih =>
        rw [List.mapM_cons, List.mapM_cons, ih fun p hp => hps p (List.mem_cons_of_mem _ hp), argumentObject, argumentObject,
          hget p (hps p List.mem_cons_self)]
    exact hall _ fun _ hp => hp
  unfold writeDubboRequest writeRequestBody writeHeaderAttachments writeCookieAttachments
  rw [harguments, hpresent hheaders, hpresent hcookies, hattachments]

end Carries

end EnvoyProxy.Dubbo
