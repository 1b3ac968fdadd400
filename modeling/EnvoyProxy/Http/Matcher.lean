import EnvoyProxy.Cache.Key
import EnvoyProxy.Downgrade.Static
/-!
# The common matcher

`CommonMatcher` and the context it matches against (proxy_matcher.cc). The
context keeps what it has read from the headers: the path until it is not
empty any more, the parameters and the cookies once they are parsed. One
context serves many matchers. `CommonMatcher.match_eq`: each of them answers
as if it had the headers for itself.

Cookies are read through a static cast to request headers. Of other headers
that is undefined, and a fault here.
-/

namespace EnvoyProxy.Http
open Cache Downgrade

/-- `QueryParams`, by what is found under a name. -/
abbrev QueryParams := Bytes → Option Bytes

abbrev CookiesMap := Bytes → Option Bytes

/-- What Envoy reads from headers, besides single entries. -/
structure HeaderParser (H : Type) extends PathUtil where
  parseCookies : H → CookiesMap

/-- A header map. It has a path value when it is of the type of request headers. -/
structure TypedHeaders (H : Type) where
  headers : H
  pathValue : Option Bytes

inductive MatchFault
  | notRequestHeaders
  deriving DecidableEq, Repr

structure HttpCommonMatcherContext (H : Type) where
  headers : TypedHeaders H
  path : Bytes := []
  parameters : Option QueryParams := none
  cookies : Option CookiesMap := none

/-! ## Matching against headers -/

section Direct
variable {H : Type} (parser : HeaderParser H) (h : TypedHeaders H)

def pathOf : Bytes := (h.pathValue.map parser.removeQueryAndFragment).getD []

def queryParamsOf : QueryParams := (h.pathValue.map parser.parseQueryString).getD fun _ => none

def cookiesOf : Except MatchFault CookiesMap :=
  match h.pathValue with
  | some _ => .ok (parser.parseCookies h.headers)
  | none => .error .notRequestHeaders

end Direct

/-! ## The context -/

namespace HttpCommonMatcherContext
variable {H : Type} (parser : HeaderParser H) (c : HttpCommonMatcherContext H)

def getPath : Bytes × HttpCommonMatcherContext H :=
  if c.path = [] then
    match c.headers.pathValue with
    | some pathWithQuery =>
      (parser.removeQueryAndFragment pathWithQuery, { c with path := parser.removeQueryAndFragment pathWithQuery })
    | none => (c.path, c)
  else (c.path, c)

def getQueryParams : QueryParams × HttpCommonMatcherContext H :=
  match c.parameters with
  | some parameters => (parameters, c)
  | none =>
    match c.headers.pathValue with
    | some pathWithQuery =>
      (parser.parseQueryString pathWithQuery, { c with parameters := some (parser.parseQueryString pathWithQuery) })
    | none => (fun _ => none, { c with parameters := some fun _ => none })

def getCookies : Except MatchFault (CookiesMap × HttpCommonMatcherContext H) :=
  match c.cookies with
  | some cookies => .ok (cookies, c)
  | none =>
    match c.headers.pathValue with
    | some _ => .ok (parser.parseCookies c.headers.headers, { c with cookies := some (parser.parseCookies c.headers.headers) })
    | none => .error .notRequestHeaders

/-- What is kept is what the headers say. -/
structure Keeps : Prop where
  path : c.path = [] ∨ c.path = pathOf parser c.headers
  parameters : ∀ parameters, c.parameters = some parameters → parameters = queryParamsOf parser c.headers
  cookies : ∀ cookies, c.cookies = some cookies → cookiesOf parser c.headers = .ok cookies

theorem keeps_new (h : TypedHeaders H) : Keeps parser { headers := h } := ⟨.inl rfl, by simp, by simp⟩

/-- After a match: the same headers, and again what they say. -/
def Next (c' : HttpCommonMatcherContext H) : Prop := c'.headers = c.headers ∧ c'.Keeps parser

variable {parser c}

theorem getPath_eq (h : c.Keeps parser) : (c.getPath parser).1 = pathOf parser c.headers ∧ c.Next parser (c.getPath parser).2 := by
  unfold getPath pathOf
  by_cases hempty : c.path = []
  · rw [if_pos hempty]
    cases hpath : c.headers.pathValue with
    | none => exact ⟨hempty, rfl, h⟩
    | some path => exact ⟨rfl, rfl, .inr (by simp [pathOf, hpath]), h.parameters, h.cookies⟩
  · rw [if_neg hempty]
    exact ⟨h.path.resolve_left hempty, rfl, h⟩

theorem getQueryParams_eq (h : c.Keeps parser) :
    (c.getQueryParams parser).1 = queryParamsOf parser c.headers ∧ c.Next parser (c.getQueryParams parser).2 := by
  unfold getQueryParams
  cases hparameters : c.parameters with
  | some parameters => exact ⟨h.parameters parameters hparameters, rfl, h⟩
  | none =>
    cases hpath : c.headers.pathValue with
    | none =>
      refine ⟨by simp [queryParamsOf, hpath], rfl, h.path, ?_, h.cookies⟩
      rintro _ ⟨⟩
      simp [queryParamsOf, hpath]
    | some path =>
      refine ⟨by simp [queryParamsOf, hpath], rfl, h.path, ?_, h.cookies⟩
      rintro _ ⟨⟩
      simp [queryParamsOf, hpath]

theorem getCookies_eq (h : c.Keeps parser) :
    (∃ cookies c', c.getCookies parser = .ok (cookies, c') ∧ cookiesOf parser c.headers = .ok cookies ∧ c.Next parser c') ∨
      ∃ fault, c.getCookies parser = .error fault ∧ cookiesOf parser c.headers = .error fault := by
  unfold getCookies
  cases hcookies : c.cookies with
  | some cookies => exact .inl ⟨cookies, c, rfl, h.cookies cookies hcookies, rfl, h⟩
  | none =>
    cases hpath : c.headers.pathValue with
    | none => exact .inr ⟨_, rfl, by simp [cookiesOf, hpath]⟩
    | some path =>
      have hof : cookiesOf parser c.headers = .ok (parser.parseCookies c.headers.headers) := by simp [cookiesOf, hpath]
      refine .inl ⟨_, _, rfl, hof, rfl, h.path, h.parameters, ?_⟩
      rintro _ ⟨⟩
      exact hof

end HttpCommonMatcherContext

/-! ## The matchers -/

/-- A cookie, and what its value has to match. -/
abbrev CookieMatcher := Bytes × Option (Bytes → Bool)

inductive Matcher (H : Type)
  | path (matcher : Bytes → Bool)
  | headers (headersMatcher : List (HeaderData H))
  | parameters (parametersMatcher : List (QueryParams → Bool))
  | cookies (cookiesMatcher : List CookieMatcher)

/-- Without a string to match, the cookie has to be there. -/
def cookieMatches (requestCookies : CookiesMap) (cookie : CookieMatcher) : Bool :=
  match cookie.2, requestCookies cookie.1 with
  | none, found => found.isSome
  | some _, none => false
  | some matcher, some value => matcher value

section Match
variable {H : Type} (parser : HeaderParser H)

/-- What a matcher says of headers. -/
def Matcher.holds (h : TypedHeaders H) : Matcher H → Except MatchFault Bool
  | .path matcher => .ok (matcher (pathOf parser h))
  | .headers headersMatcher => .ok (matchHeaders h.headers headersMatcher)
  | .parameters parametersMatcher => .ok (parametersMatcher.all fun p => p (queryParamsOf parser h))
  | .cookies cookiesMatcher => do return cookiesMatcher.all (cookieMatches (← cookiesOf parser h))

def Matcher.match (c : HttpCommonMatcherContext H) : Matcher H → Except MatchFault (Bool × HttpCommonMatcherContext H)
  | .path matcher =>
    let (requestPath, c) := c.getPath parser
    .ok (matcher requestPath, c)
  | .headers headersMatcher => .ok (matchHeaders c.headers.headers headersMatcher, c)
  | .parameters parametersMatcher =>
    let (queryParams, c) := c.getQueryParams parser
    .ok (parametersMatcher.all fun p => p queryParams, c)
  | .cookies cookiesMatcher => do
    let (requestCookies, c) ← c.getCookies parser
    return (cookiesMatcher.all (cookieMatches requestCookies), c)

structure CommonMatcherProto (H : Type) where
  path : Option (Bytes → Bool) := none
  headers : List (HeaderData H) := []
  parameters : List (QueryParams → Bool) := []
  cookies : List CookieMatcher := []

/-- `matchers_` -/
abbrev CommonMatcher (H : Type) := List (Matcher H)

def CommonMatcher.create (config : CommonMatcherProto H) : CommonMatcher H :=
  (config.path.map Matcher.path).toList ++
    (if config.headers.length > 0 then [.headers config.headers] else []) ++
    (if config.parameters.length > 0 then [.parameters config.parameters] else []) ++
    if config.cookies.length > 0 then [.cookies config.cookies] else []

/-- The matchers up to the first that does not match. -/
def CommonMatcher.match : CommonMatcher H → HttpCommonMatcherContext H → Except MatchFault (Bool × HttpCommonMatcherContext H)
  | [], c => .ok (true, c)
  | matcher :: matchers, c => do
    let (matched, c) ← matcher.match parser c
    if matched then CommonMatcher.match matchers c else return (false, c)

/-- What the matchers say of headers. -/
def CommonMatcher.holds (h : TypedHeaders H) : CommonMatcher H → Except MatchFault Bool
  | [] => .ok true
  | matcher :: matchers => do if ← matcher.holds parser h then CommonMatcher.holds h matchers else return false

variable {parser} {c : HttpCommonMatcherContext H}

/-- An answer with a context behind it. -/
def Answers (parser : HeaderParser H) (c : HttpCommonMatcherContext H) (r : Except MatchFault (Bool × HttpCommonMatcherContext H))
    (answer : Except MatchFault Bool) : Prop :=
  (∃ b c', r = .ok (b, c') ∧ answer = .ok b ∧ c.Next parser c') ∨ ∃ fault, r = .error fault ∧ answer = .error fault

theorem Matcher.match_eq (h : c.Keeps parser) (m : Matcher H) : Answers parser c (m.match parser c) (m.holds parser c.headers) := by
  cases m with
  | path matcher =>
    obtain ⟨hpath, hnext⟩ := HttpCommonMatcherContext.getPath_eq h
    exact .inl ⟨matcher (c.getPath parser).1, (c.getPath parser).2, rfl, by simp [holds, hpath], hnext⟩
  | headers headersMatcher => exact .inl ⟨_, _, rfl, rfl, rfl, h⟩
  | parameters parametersMatcher =>
    obtain ⟨hparameters, hnext⟩ := HttpCommonMatcherContext.getQueryParams_eq h
    exact .inl ⟨parametersMatcher.all fun p => p (c.getQueryParams parser).1, (c.getQueryParams parser).2, rfl,
      by simp [holds, hparameters], hnext⟩
  | cookies cookiesMatcher =>
    unfold Matcher.match holds
    rcases HttpCommonMatcherContext.getCookies_eq h with ⟨cookies, c', hget, hof, hnext⟩ | ⟨fault, hget, hof⟩
    · exact .inl ⟨_, c', by rw [hget]; rfl, by rw [hof]; rfl, hnext⟩
    · exact .inr ⟨fault, by rw [hget]; rfl, by rw [hof]; rfl⟩

/-- A matcher answers as if it had the headers for itself. -/
theorem CommonMatcher.match_eq (h : c.Keeps parser) (ms : CommonMatcher H) :
    Answers parser c (ms.match parser c) (ms.holds parser c.headers) := by
  induction ms generalizing c with
  | nil => exact .inl ⟨true, c, rfl, rfl, rfl, h⟩
  | cons m ms ih =>
    unfold CommonMatcher.match CommonMatcher.holds
    rcases m.match_eq h with ⟨b, c₁, hmatch, hholds, hheaders, hkeeps⟩ | ⟨fault, hmatch, hholds⟩
    · rw [hmatch, hholds]
      cases b with
      | false => exact .inl ⟨false, c₁, rfl, rfl, hheaders, hkeeps⟩
      | true =>
        have hrest := ih hkeeps
        rw [hheaders] at hrest
        rcases hrest with ⟨b, c₂, hmatch', hholds', hheaders', hkeeps'⟩ | hfault
        · exact .inl ⟨b, c₂, hmatch', hholds', hheaders'.trans hheaders, hkeeps'⟩
        · exact .inr hfault
    · rw [hmatch, hholds]
      exact .inr ⟨fault, rfl, rfl⟩

/-- Of request headers every matcher says something. -/
theorem CommonMatcher.holds_isOk (ms : CommonMatcher H) {h : TypedHeaders H} (hpath : h.pathValue ≠ none) :
    ∃ b, ms.holds parser h = .ok b := by
  obtain ⟨path, hpath⟩ := Option.ne_none_iff_exists'.1 hpath
  have hone : ∀ m : Matcher H, ∃ b, m.holds parser h = .ok b := by
    intro m
    cases m <;> exact ⟨_, by simp [Matcher.holds, cookiesOf, hpath]; rfl⟩
  induction ms with
  | nil => exact ⟨true, rfl⟩
  | cons m ms ih =>
    obtain ⟨b, hb⟩ := hone m
    unfold CommonMatcher.holds
    rw [hb]
    cases b with
    | false => exact ⟨false, rfl⟩
    | true => exact ih

end Match

end EnvoyProxy.Http
