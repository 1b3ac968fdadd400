import EnvoyProxy.Http.Matcher
import EnvoyProxy.Http.Routing
/-!
# The header restriction filter

`Filter::decodeHeaders` (header_restriction.cc) goes through the list of the
route and then through the common list, with one matcher context for both.
`Allowed` is the policy that a route and the common configuration make
together. `decodeHeaders_iff_allowed`: of request headers the filter always
decides, and it decides by the policy.
-/

namespace EnvoyProxy.HeaderRestriction
open Http

inductive ProtoListType
  | BLACK
  | WHITE
  /-- A number that is no list type. -/
  | unknown (value : Int)
  deriving DecidableEq, Repr

inductive ProtoStrategy
  | OVERRIDE
  | PRIORTO
  | unknown (value : Int)
  deriving DecidableEq, Repr

structure ProtoHeaderRestriction (H : Type) where
  type : ProtoListType
  list : List (CommonMatcherProto H)

structure HeaderRestrictionConfig (H : Type) where
  list : List (CommonMatcher H)
  isBlackList : Bool := false

/-- A list of no known type is a white list. -/
def HeaderRestrictionConfig.create {H : Type} (protoConfig : ProtoHeaderRestriction H) : HeaderRestrictionConfig H where
  isBlackList :=
    match protoConfig.type with
    | .BLACK => true
    | .WHITE => false
    | .unknown _ => false
  list := protoConfig.list.map CommonMatcher.create

structure RouteConfig (H : Type) where
  config : HeaderRestrictionConfig H
  disabled : Bool := false
  strategy : ProtoStrategy := .OVERRIDE

/-- The answer to a request that is not allowed. -/
def requestDenied : LocalReply where
  code := 403
  body := ascii "Your request is not allowed."
  addedHeaders := [(headerName "x-header-restriction-denied", headerValue "true")]
  details := ascii "forbidden_by_header_restriction"

section Filter
variable {H : Type} (parser : HeaderParser H)

/-- One of the two loops: whether an item matches. -/
def anyMatch : List (CommonMatcher H) → HttpCommonMatcherContext H → Except MatchFault (Bool × HttpCommonMatcherContext H)
  | [], context => .ok (false, context)
  | item :: list, context => do
    let (matched, context) ← item.match parser context
    if matched then return (true, context) else anyMatch list context

/-- The configuration of the route overrides the common one. -/
def overrideCommon (config : HeaderRestrictionConfig H) (routeConfig : Option (RouteConfig H)) : Bool :=
  match routeConfig with
  | none => false
  | some route => decide (route.strategy = .OVERRIDE) || route.config.isBlackList != config.isBlackList

def deny : FilterHeadersStatus × Option LocalReply := (.StopIteration, some requestDenied)

def allow : FilterHeadersStatus × Option LocalReply := (.Continue, none)

def decodeHeaders (config : HeaderRestrictionConfig H) (routeConfig : Option (RouteConfig H)) (headers : TypedHeaders H) :
    Except MatchFault (FilterHeadersStatus × Option LocalReply) :=
  if (routeConfig.map (·.disabled)).getD false then .ok allow
  else do
    let isWhiteList := !((routeConfig.map (·.config)).getD config).isBlackList
    let context : HttpCommonMatcherContext H := { headers }
    let (inRoute, context) ←
      match routeConfig with
      | some route => anyMatch parser route.config.list context
      | none => .ok (false, context)
    if inRoute && isWhiteList then return allow
    let (inCommon, _) ←
      -- a black list has its hit already
      if !inRoute && !overrideCommon config routeConfig then anyMatch parser config.list context
      else .ok (false, context)
    if inCommon && isWhiteList then return allow
    let denied := inRoute || inCommon
    if !denied && isWhiteList then return deny
    return if denied then deny else allow

/-! ## The policy -/

/-- The items that count: those of the route, and the common ones unless they
are overridden. -/
def effectiveList (config : HeaderRestrictionConfig H) (routeConfig : Option (RouteConfig H)) : List (CommonMatcher H) :=
  match routeConfig with
  | none => config.list
  | some route =>
    if route.strategy ≠ .OVERRIDE ∧ route.config.isBlackList = config.isBlackList then route.config.list ++ config.list
    else route.config.list

/-- The type of the list: that of the route, if there is one. -/
def isBlack (config : HeaderRestrictionConfig H) (routeConfig : Option (RouteConfig H)) : Bool :=
  match routeConfig with
  | none => config.isBlackList
  | some route => route.config.isBlackList

/-- An item of the list matches the headers. -/
def Listed (headers : TypedHeaders H) (list : List (CommonMatcher H)) : Prop := ∃ item ∈ list, item.holds parser headers = .ok true

/-- A black list forbids what is listed, a white list everything else. -/
def Allowed (config : HeaderRestrictionConfig H) (routeConfig : Option (RouteConfig H)) (headers : TypedHeaders H) : Prop :=
  (∃ route, routeConfig = some route ∧ route.disabled = true) ∨
    (isBlack config routeConfig = false ↔ Listed parser headers (effectiveList config routeConfig))

variable {parser} {headers : TypedHeaders H}

/-- Of request headers a loop finds whether something is listed. -/
theorem anyMatch_spec (hrequest : headers.pathValue ≠ none) {context : HttpCommonMatcherContext H}
    (hheaders : context.headers = headers) (hkeeps : context.Keeps parser) (list : List (CommonMatcher H)) :
    ∃ found context', anyMatch parser list context = .ok (found, context') ∧ (found = true ↔ Listed parser headers list) ∧
      context'.headers = headers ∧ context'.Keeps parser := by
  induction list generalizing context with
  | nil => exact ⟨false, context, rfl, by simp [Listed], hheaders, hkeeps⟩
  | cons item list ih =>
    obtain ⟨b, hholds⟩ : ∃ b, item.holds parser headers = .ok b := item.holds_isOk hrequest
    have hmatch := item.match_eq hkeeps
    rw [hheaders, hholds] at hmatch
    obtain ⟨b', context₁, hrun, hb, hnext, hkeeps₁⟩ := hmatch.resolve_right (by rintro ⟨fault, -, h⟩; cases h)
    cases hb
    rw [hheaders] at hnext
    unfold anyMatch
    rw [hrun]
    cases b with
    | true => exact ⟨true, context₁, rfl, by simp [Listed, hholds], hnext, hkeeps₁⟩
    | false =>
      obtain ⟨found, context₂, hrest, hfound, hnext₂, hkeeps₂⟩ := ih hnext hkeeps₁
      refine ⟨found, context₂, hrest, ?_, hnext₂, hkeeps₂⟩
      rw [hfound]
      simp [Listed, hholds]

theorem listed_append (list list' : List (CommonMatcher H)) :
    Listed parser headers (list ++ list') ↔ Listed parser headers list ∨ Listed parser headers list' := by
  simp only [Listed, List.mem_append, or_and_right, exists_or]

variable (parser) in
/-- What the loops find together: whether something of the effective list matches. -/
theorem loops_spec (hrequest : headers.pathValue ≠ none) (config : HeaderRestrictionConfig H) (routeConfig : Option (RouteConfig H))
    (henabled : (routeConfig.map (·.disabled)).getD false = false) :
    ∃ listed : Bool, (listed = true ↔ Listed parser headers (effectiveList config routeConfig)) ∧
      decodeHeaders parser config routeConfig headers = .ok (if listed = isBlack config routeConfig then deny else allow) := by
  have hstart := HttpCommonMatcherContext.keeps_new parser headers
  cases routeConfig with
  | none =>
    obtain ⟨found, context, hrun, hfound, -⟩ := anyMatch_spec hrequest rfl hstart config.list
    refine ⟨found, by simpa [effectiveList] using hfound, ?_⟩
    cases found <;> cases hblack : config.isBlackList <;> simp [decodeHeaders, overrideCommon, isBlack, hrun, hblack]
  | some route =>
    replace henabled : route.disabled = false := henabled
    obtain ⟨found, context, hrun, hfound, hheaders, hkeeps⟩ := anyMatch_spec hrequest rfl hstart route.config.list
    by_cases hmerged : route.strategy ≠ .OVERRIDE ∧ route.config.isBlackList = config.isBlackList
    · have hoverride : overrideCommon config (some route) = false := by simp [overrideCommon, hmerged.1, hmerged.2]
      obtain ⟨found', context', hrun', hfound', -⟩ := anyMatch_spec hrequest hheaders hkeeps config.list
      have hlist : effectiveList config (some route) = route.config.list ++ config.list := if_pos hmerged
      refine ⟨found || found', ?_, ?_⟩
      · rw [hlist, listed_append, ← hfound, ← hfound', Bool.or_eq_true]
      · cases found <;> cases found' <;> cases hblack : route.config.isBlackList <;>
          simp [decodeHeaders, henabled, hoverride, isBlack, hrun, hrun', hblack]
    · have hoverride : overrideCommon config (some route) = true := by
        unfold overrideCommon
        by_cases hstrategy : route.strategy = .OVERRIDE
        · simp [hstrategy]
        · have htype : route.config.isBlackList ≠ config.isBlackList := fun h => hmerged ⟨hstrategy, h⟩
          simp [htype]
      have hlist : effectiveList config (some route) = route.config.list := if_neg hmerged
      refine ⟨found, by rw [hlist, hfound], ?_⟩
      cases found <;> cases hblack : route.config.isBlackList <;>
        simp [decodeHeaders, henabled, hoverride, isBlack, hrun, hblack]

/-- Of request headers the filter always decides, by the policy that the
route and the common configuration make. -/
theorem decodeHeaders_iff_allowed {headers : TypedHeaders H} (hrequest : headers.pathValue ≠ none)
    (config : HeaderRestrictionConfig H) (routeConfig : Option (RouteConfig H)) :
    (decodeHeaders parser config routeConfig headers = .ok allow ∧ Allowed parser config routeConfig headers) ∨
      (decodeHeaders parser config routeConfig headers = .ok deny ∧ ¬ Allowed parser config routeConfig headers) := by
  cases hdisabled : (routeConfig.map (·.disabled)).getD false with
  | true =>
    obtain ⟨route, rfl⟩ : ∃ route, routeConfig = some route := by
      cases routeConfig with
      | none => simp at hdisabled
      | some route => exact ⟨route, rfl⟩
    unfold decodeHeaders
    exact .inl ⟨if_pos hdisabled, .inl ⟨route, rfl, hdisabled⟩⟩
  | false =>
    obtain ⟨listed, hlisted, hrun⟩ := loops_spec parser hrequest config routeConfig hdisabled
    have hroute : ¬ ∃ route, routeConfig = some route ∧ route.disabled = true := by
      rintro ⟨route, rfl, hroute⟩
      simp [hroute] at hdisabled
    unfold Allowed
    rw [hrun, ← hlisted]
    cases listed <;> cases hblack : isBlack config routeConfig <;> simp [hroute]

/-- A route that puts its own black list before the common one. -/
theorem common_black_list_denies :
    decodeHeaders (H := Unit) ⟨⟨id, fun _ _ => none⟩, fun _ _ => none⟩
        (.create { type := .BLACK, list := [{ path := some fun path => path = ascii "/b" }] })
        (some { config := .create { type := .BLACK, list := [{ path := some fun path => path = ascii "/a" }] }, strategy := .PRIORTO })
        { headers := (), pathValue := some (ascii "/b") } = .ok deny ∧
      ¬ Allowed (H := Unit) ⟨⟨id, fun _ _ => none⟩, fun _ _ => none⟩
        (.create { type := .BLACK, list := [{ path := some fun path => path = ascii "/b" }] })
        (some { config := .create { type := .BLACK, list := [{ path := some fun path => path = ascii "/a" }] }, strategy := .PRIORTO })
        { headers := (), pathValue := some (ascii "/b") } := by
  refine (decodeHeaders_iff_allowed (by simp) _ _).resolve_left ?_
  rintro ⟨hrun, -⟩
  exact absurd hrun (by decide +kernel)

end Filter

end EnvoyProxy.HeaderRestriction
