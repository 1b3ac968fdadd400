import EnvoyProxy.Http.Matcher
import EnvoyProxy.Lib.Json
/-!
# What a stream leaves in the stats

`Filter::onDestroy` (detailed_stats.cc) adds one stream to the stats of its
route and of its host. The tags are made of the response, with names for codes
and flags that the configuration keeps for all streams, and of what the
matchers of the route and of the configuration say. `recorded_exactly`: in any
order of streams each of them leaves its own records, as if it were the first.
-/

namespace EnvoyProxy.DetailedStats
open Http Json

abbrev StatTag := Bytes × Bytes

/-- `MatchedStatTags` -/
abbrev MatchedStatTags (H : Type) := CommonMatcher H × List StatTag

/-- The scopes and tags of a `PrefixedStatTags`. -/
structure StatsScopes where
  statPrefix : Bytes
  scopeTags : List StatTag
  deriving DecidableEq, Repr

structure StreamStatsContext where
  requestTags : List StatTag := []
  requestBytes : UInt64 := 0
  responseBytes : UInt64 := 0
  requestTime : UInt64 := 0
  deriving DecidableEq, Repr

/-- What a scope is asked for. -/
inductive Record
  | inc (scope : Bytes) (tags : List StatTag)
  | recordValue (scope : Bytes) (tags : List StatTag) (value : UInt64)
  deriving DecidableEq, Repr

def StatsScopes.onStreamComplete (scopes : StatsScopes) (context : StreamStatsContext) : List Record :=
  let finalTags := scopes.scopeTags ++ context.requestTags
  [.inc (scopes.statPrefix ++ ascii ".requests_total") finalTags,
    .recordValue (scopes.statPrefix ++ ascii ".request_bytes") finalTags context.requestBytes,
    .recordValue (scopes.statPrefix ++ ascii ".response_bytes") finalTags context.responseBytes,
    .recordValue (scopes.statPrefix ++ ascii ".request_duration_milliseconds") finalTags context.requestTime]

/-! ## Names that are kept -/

section Kept
variable {ι α : Type} [DecidableEq ι]

/-- `AtomicPtrArray::get`: the element, made when it is not there. -/
def getOrMake (table : ι → Option α) (i : ι) (made : α) : α × (ι → Option α) :=
  match table i with
  | some a => (a, table)
  | none => (made, Function.update table i (some made))

/-- What is there is what would be made. -/
def Keeps (f : ι → α) (table : ι → Option α) : Prop := ∀ i a, table i = some a → a = f i

theorem Keeps.getOrMake {f : ι → α} {table : ι → Option α} (h : Keeps f table) (i : ι) :
    (getOrMake table i (f i)).1 = f i ∧ Keeps f (getOrMake table i (f i)).2 := by
  unfold DetailedStats.getOrMake
  cases htable : table i with
  | some a => exact ⟨h i a htable, h⟩
  | none =>
    refine ⟨rfl, fun j a hj => ?_⟩
    dsimp only at hj
    by_cases hij : j = i
    · subst hij
      rw [Function.update_self] at hj
      exact (Option.some.inj hj).symm
    · rw [Function.update_of_ne hij] at hj
      exact h j a hj

end Kept

/-! ## The filter -/

def NumHttpCodes : UInt32 := 500

/-- Code 100 is at index 0. -/
def HttpCodeOffset : UInt32 := 100

def noneFlagsOrCode : Bytes := ascii "-"

structure CommonConfig (H : Type) where
  matchedStats : List (MatchedStatTags H)
  codeStatNames : UInt32 → Option Bytes := fun _ => none
  flagStatNames : Nat → Option Bytes := fun _ => none

/-- `RouterConfig` -/
abbrev RouterConfig (H : Type) := List (MatchedStatTags H)

structure Route (H : Type) where
  typedMetadata : Option StatsScopes
  /-- In the order of `traversePerFilterConfig`. -/
  perFilterConfigs : List (RouterConfig H)

/-- A stream at its end. -/
structure Stream (H : Type) where
  /-- The status of the response headers, if the filter has seen any. -/
  response : Option (Option UInt64)
  route : Option (Route H)
  hostTypedMetadata : Option StatsScopes
  requestHeaders : H
  requestPath : Bytes
  responseFlags : UInt64
  bytesReceived : UInt64
  bytesSent : UInt64
  /-- In milliseconds. -/
  requestComplete : Option UInt64

section Filter
variable {H : Type} (parser : HeaderParser H) (allResponseStringFlags : List (Bytes × UInt64))

def CommonConfig.responseCodeToStatName (config : CommonConfig H) (code : UInt64) : Bytes × CommonConfig H :=
  let rcIndex := code.toUInt32 - HttpCodeOffset
  if NumHttpCodes ≤ rcIndex then (noneFlagsOrCode, config)
  else
    let (name, codeStatNames) := getOrMake config.codeStatNames rcIndex (natText code.toNat)
    (name, { config with codeStatNames })

/-- The first flag that is set. -/
def CommonConfig.responseFlagToStatName (config : CommonConfig H) (flags : UInt64) : Bytes × CommonConfig H :=
  if flags = 0 then (noneFlagsOrCode, config)
  else
    match allResponseStringFlags.zipIdx.find? fun f => flags &&& f.1.2 ≠ 0 with
    | none => (noneFlagsOrCode, config)
    | some ((flag, _), i) =>
      let (name, flagStatNames) := getOrMake config.flagStatNames i flag
      (name, { config with flagStatNames })

def CommonConfig.streamStatsContext (config : CommonConfig H) (status : Option UInt64) (s : Stream H) :
    StreamStatsContext × CommonConfig H :=
  let (codeName, config) := config.responseCodeToStatName (status.getD 0)
  let (flagName, config) := config.responseFlagToStatName allResponseStringFlags s.responseFlags
  ({ requestTags := [(ascii "request_protocol", ascii "http"), (ascii "response_code", codeName), (ascii "response_flags", flagName)]
     requestBytes := s.bytesReceived
     responseBytes := s.bytesSent
     requestTime := s.requestComplete.getD 0 }, config)

/-- The tags of the matchers that match are added one after the other. -/
def completeStreamStatsContextImpl : List (MatchedStatTags H) → HttpCommonMatcherContext H → StreamStatsContext →
    Except MatchFault (StreamStatsContext × HttpCommonMatcherContext H)
  | [], matchContext, context => .ok (context, matchContext)
  | (matcher, tags) :: matchedStats, matchContext, context => do
    let (matched, matchContext) ← matcher.match parser matchContext
    completeStreamStatsContextImpl matchedStats matchContext
      (if matched then { context with requestTags := context.requestTags ++ tags } else context)

/-- The configurations of a route. -/
def completeAll : List (RouterConfig H) → HttpCommonMatcherContext H → StreamStatsContext →
    Except MatchFault (StreamStatsContext × HttpCommonMatcherContext H)
  | [], matchContext, context => .ok (context, matchContext)
  | cfg :: cfgs, matchContext, context => do
    let (context, matchContext) ← completeStreamStatsContextImpl parser cfg matchContext context
    completeAll cfgs matchContext context

def onDestroy (config : CommonConfig H) (s : Stream H) : Except MatchFault (List Record × CommonConfig H) :=
  match s.response, s.route with
  | none, _ => .ok ([], config)
  | some _, none => .ok ([], config)
  | some status, some route =>
    if route.typedMetadata = none ∧ s.hostTypedMetadata = none then .ok ([], config)
    else do
      let (context, config) := config.streamStatsContext allResponseStringFlags status s
      let matchContext : HttpCommonMatcherContext H := { headers := ⟨s.requestHeaders, some s.requestPath⟩ }
      let (context, matchContext) ← completeAll parser route.perFilterConfigs matchContext context
      let (context, _) ← completeStreamStatsContextImpl parser config.matchedStats matchContext context
      return (((route.typedMetadata.toList ++ s.hostTypedMetadata.toList).map fun scopes => scopes.onStreamComplete context).flatten,
        config)

/-- Streams end one after the other. -/
def destroyAll (config : CommonConfig H) : List (Stream H) → Except MatchFault (List (List Record) × CommonConfig H)
  | [] => .ok ([], config)
  | s :: streams => do
    let (records, config) ← onDestroy parser allResponseStringFlags config s
    let (rest, config) ← destroyAll config streams
    return (records :: rest, config)

/-! ## What it should leave -/

/-- The text of a code. -/
def codeText (code : Nat) : Bytes := if 100 ≤ code ∧ code < 600 then natText code else noneFlagsOrCode

def flagText (flags : UInt64) : Bytes := ((allResponseStringFlags.find? fun f => flags &&& f.2 ≠ 0).map (·.1)).getD noneFlagsOrCode

/-- The tags of the matchers that match the request. -/
def matchedTags (h : TypedHeaders H) (matchedStats : List (MatchedStatTags H)) : List StatTag :=
  ((matchedStats.filter fun m => decide (m.1.holds parser h = .ok true)).map (·.2)).flatten

def contextOf (matchedStats : List (MatchedStatTags H)) (route : Route H) (status : Option UInt64) (s : Stream H) : StreamStatsContext where
  requestTags :=
    [(ascii "request_protocol", ascii "http"), (ascii "response_code", codeText (status.getD 0).toNat),
      (ascii "response_flags", flagText allResponseStringFlags s.responseFlags)] ++
    (route.perFilterConfigs.map (matchedTags parser ⟨s.requestHeaders, some s.requestPath⟩)).flatten ++
    matchedTags parser ⟨s.requestHeaders, some s.requestPath⟩ matchedStats
  requestBytes := s.bytesReceived
  responseBytes := s.bytesSent
  requestTime := s.requestComplete.getD 0

/-- The records of one stream: a count and three values for its route and for
its host, as far as these have stats. -/
def recordsOf (matchedStats : List (MatchedStatTags H)) (s : Stream H) : List Record :=
  match s.response, s.route with
  | some status, some route =>
    ((route.typedMetadata.toList ++ s.hostTypedMetadata.toList).map fun scopes =>
      scopes.onStreamComplete (contextOf parser allResponseStringFlags matchedStats route status s)).flatten
  | _, _ => []

/-! ## The names -/

/-- The name of a code by its index. -/
def codeNameAt (rcIndex : UInt32) : Bytes := natText (rcIndex + HttpCodeOffset).toNat

def flagNameAt (i : Nat) : Bytes := ((allResponseStringFlags[i]?).map (·.1)).getD []

/-- The configuration as it was made, but for names that are kept. -/
structure CommonConfig.Fits (matchedStats : List (MatchedStatTags H)) (config : CommonConfig H) : Prop where
  matchedStats : config.matchedStats = matchedStats
  codes : Keeps codeNameAt config.codeStatNames
  flags : Keeps (flagNameAt allResponseStringFlags) config.flagStatNames

variable {parser allResponseStringFlags} {matchedStats : List (MatchedStatTags H)} {config : CommonConfig H}

/-- A code below `2^32` gets its own name. -/
theorem CommonConfig.Fits.code (h : config.Fits allResponseStringFlags matchedStats) {code : UInt64} (hcode : code.toNat < 2 ^ 32) :
    (config.responseCodeToStatName code).1 = codeText code.toNat ∧
      (config.responseCodeToStatName code).2.Fits allResponseStringFlags matchedStats := by
  have hlow : code.toUInt32.toNat = code.toNat := by
    rw [UInt64.toNat_toUInt32]
    exact Nat.mod_eq_of_lt hcode
  have hindex : NumHttpCodes ≤ code.toUInt32 - HttpCodeOffset ↔ ¬ (100 ≤ code.toNat ∧ code.toNat < 600) := by
    rw [UInt32.le_iff_toNat_le, UInt32.toNat_sub, hlow]
    simp only [NumHttpCodes, HttpCodeOffset, UInt32.reduceToNat]
    omega
  unfold responseCodeToStatName codeText
  by_cases hin : 100 ≤ code.toNat ∧ code.toNat < 600
  · have hname : natText code.toNat = codeNameAt (code.toUInt32 - HttpCodeOffset) := by
      rw [codeNameAt, UInt32.sub_add_cancel, hlow]
    obtain ⟨hget, hkeeps⟩ := h.codes.getOrMake (code.toUInt32 - HttpCodeOffset)
    rw [if_neg (hindex.not.2 (not_not.2 hin)), if_pos hin, hname]
    exact ⟨hget, h.matchedStats, hkeeps, h.flags⟩
  · rw [if_pos (hindex.2 hin), if_neg hin]
    exact ⟨rfl, h⟩

theorem CommonConfig.Fits.flag (h : config.Fits allResponseStringFlags matchedStats) (flags : UInt64) :
    (config.responseFlagToStatName allResponseStringFlags flags).1 = flagText allResponseStringFlags flags ∧
      (config.responseFlagToStatName allResponseStringFlags flags).2.Fits allResponseStringFlags matchedStats := by
  have hzip : allResponseStringFlags.find? (fun f => flags &&& f.2 ≠ 0) =
      (allResponseStringFlags.zipIdx.find? fun f => flags &&& f.1.2 ≠ 0).map (·.1) := by
    conv_lhs => rw [← List.zipIdx_map_fst 0 allResponseStringFlags]
    rw [List.find?_map]
    rfl
  unfold responseFlagToStatName flagText
  split_ifs with hzero
  · subst hzero
    have hnone : allResponseStringFlags.find? (fun f => (0 : UInt64) &&& f.2 ≠ 0) = none := by simp
    rw [hnone]
    exact ⟨rfl, h⟩
  · rw [hzip]
    cases hfind : allResponseStringFlags.zipIdx.find? fun f => flags &&& f.1.2 ≠ 0 with
    | none => exact ⟨rfl, h⟩
    | some f =>
      obtain ⟨⟨flag, bit⟩, i⟩ := f
      have hmem := List.mem_of_find?_eq_some hfind
      have hname : flag = flagNameAt allResponseStringFlags i := by
        have hat := List.mem_zipIdx' hmem
        simp [flagNameAt, List.getElem?_eq_getElem hat.1, ← hat.2]
      obtain ⟨hget, hkeeps⟩ := h.flags.getOrMake i
      dsimp only
      rw [hname]
      exact ⟨hget, h.matchedStats, h.codes, hkeeps⟩

/-! ## The tags -/

variable {headers : TypedHeaders H}

theorem matchedTags_cons (m : CommonMatcher H) (tags : List StatTag) (ms : List (MatchedStatTags H)) {b : Bool}
    (h : m.holds parser headers = .ok b) :
    matchedTags parser headers ((m, tags) :: ms) = (if b then tags else []) ++ matchedTags parser headers ms := by
  cases b <;> simp [matchedTags, h]

theorem completeImpl_eq (hrequest : headers.pathValue ≠ none) (ms : List (MatchedStatTags H)) {c : HttpCommonMatcherContext H}
    (hheaders : c.headers = headers) (hkeeps : c.Keeps parser) (context : StreamStatsContext) :
    ∃ c', completeStreamStatsContextImpl parser ms c context =
        .ok ({ context with requestTags := context.requestTags ++ matchedTags parser headers ms }, c') ∧
      c'.headers = headers ∧ c'.Keeps parser := by
  induction ms generalizing c context with
  | nil => exact ⟨c, by simp [completeStreamStatsContextImpl, matchedTags], hheaders, hkeeps⟩
  | cons m ms ih =>
    obtain ⟨m, tags⟩ := m
    obtain ⟨b, hholds⟩ : ∃ b, m.holds parser headers = .ok b := m.holds_isOk hrequest
    have hmatch := m.match_eq hkeeps
    rw [hheaders, hholds] at hmatch
    obtain ⟨b', c₁, hrun, hb, hnext, hkeeps₁⟩ := hmatch.resolve_right (by rintro ⟨fault, -, h⟩; cases h)
    cases hb
    rw [hheaders] at hnext
    obtain ⟨c₂, hrest, hheaders₂, hkeeps₂⟩ := ih hnext hkeeps₁
      (if b then { context with requestTags := context.requestTags ++ tags } else context)
    refine ⟨c₂, ?_, hheaders₂, hkeeps₂⟩
    unfold completeStreamStatsContextImpl
    rw [hrun, matchedTags_cons m tags ms hholds]
    refine Eq.trans hrest ?_
    cases b <;> simp

theorem completeAll_eq (hrequest : headers.pathValue ≠ none) (cfgs : List (RouterConfig H)) {c : HttpCommonMatcherContext H}
    (hheaders : c.headers = headers) (hkeeps : c.Keeps parser) (context : StreamStatsContext) :
    ∃ c', completeAll parser cfgs c context =
        .ok ({ context with requestTags := context.requestTags ++ (cfgs.map (matchedTags parser headers)).flatten }, c') ∧
      c'.headers = headers ∧ c'.Keeps parser := by
  induction cfgs generalizing c context with
  | nil => exact ⟨c, by simp [completeAll], hheaders, hkeeps⟩
  | cons cfg cfgs ih =>
    obtain ⟨c₁, hone, hheaders₁, hkeeps₁⟩ := completeImpl_eq hrequest cfg hheaders hkeeps context
    obtain ⟨c₂, hrest, hheaders₂, hkeeps₂⟩ := ih hheaders₁ hkeeps₁
      { context with requestTags := context.requestTags ++ matchedTags parser headers cfg }
    refine ⟨c₂, ?_, hheaders₂, hkeeps₂⟩
    unfold completeAll
    rw [hone]
    refine Eq.trans hrest ?_
    simp

/-- The status of a response fits in 32 bits, as a status code does. -/
def Stream.StatusFits (s : Stream H) : Prop := ∀ status, s.response = some (some status) → status.toNat < 2 ^ 32

variable (parser) in
/-- One stream leaves its own records. -/
theorem onDestroy_eq (h : config.Fits allResponseStringFlags matchedStats) {s : Stream H} (hstatus : s.StatusFits) :
    ∃ config', onDestroy parser allResponseStringFlags config s = .ok (recordsOf parser allResponseStringFlags matchedStats s, config') ∧
      config'.Fits allResponseStringFlags matchedStats := by
  unfold onDestroy recordsOf
  cases hresponse : s.response with
  | none => exact ⟨config, rfl, h⟩
  | some status =>
    cases hroute : s.route with
    | none => exact ⟨config, rfl, h⟩
    | some route =>
      dsimp only
      by_cases hnone : route.typedMetadata = none ∧ s.hostTypedMetadata = none
      · rw [if_pos hnone]
        exact ⟨config, by simp [hnone.1, hnone.2], h⟩
      · have hcode : (status.getD 0).toNat < 2 ^ 32 := by
          cases status with
          | none => exact Nat.two_pow_pos 32
          | some code => exact hstatus code hresponse
        obtain ⟨hcodeName, hfits₁⟩ := h.code hcode
        obtain ⟨hflagName, hfits₂⟩ := hfits₁.flag s.responseFlags
        have hrequest : (⟨s.requestHeaders, some s.requestPath⟩ : TypedHeaders H).pathValue ≠ none := by simp
        obtain ⟨c₁, hroutes, hheaders₁, hkeeps₁⟩ := completeAll_eq hrequest route.perFilterConfigs rfl
          (HttpCommonMatcherContext.keeps_new parser _) (config.streamStatsContext allResponseStringFlags status s).1
        obtain ⟨c₂, hcommon, -⟩ := completeImpl_eq hrequest matchedStats hheaders₁ hkeeps₁
          { (config.streamStatsContext allResponseStringFlags status s).1 with
            requestTags := (config.streamStatsContext allResponseStringFlags status s).1.requestTags ++
              (route.perFilterConfigs.map (matchedTags parser ⟨s.requestHeaders, some s.requestPath⟩)).flatten }
        have hcontext : (config.streamStatsContext allResponseStringFlags status s).1 =
            { requestTags := [(ascii "request_protocol", ascii "http"), (ascii "response_code", codeText (status.getD 0).toNat),
                (ascii "response_flags", flagText allResponseStringFlags s.responseFlags)]
              requestBytes := s.bytesReceived
              responseBytes := s.bytesSent
              requestTime := s.requestComplete.getD 0 } := by
          simp only [CommonConfig.streamStatsContext]
          rw [hcodeName, hflagName]
        rw [if_neg hnone]
        refine ⟨(config.streamStatsContext allResponseStringFlags status s).2, ?_, hfits₂⟩
        have hmatched : (config.streamStatsContext allResponseStringFlags status s).2.matchedStats = matchedStats := hfits₂.matchedStats
        simp only [hroutes, hmatched, hcommon, ok_bind]
        rw [hcontext]
        rfl

/-- In any order of streams each of them leaves its own records, with the
names and tags it would have alone. -/
theorem recorded_exactly {streams : List (Stream H)} (hstatus : ∀ s ∈ streams, s.StatusFits) (parser : HeaderParser H)
    (allResponseStringFlags : List (Bytes × UInt64)) (matchedStats : List (MatchedStatTags H)) :
    ∃ config, destroyAll parser allResponseStringFlags { matchedStats } streams =
      .ok (streams.map (recordsOf parser allResponseStringFlags matchedStats), config) := by
  have hrun : ∀ config : CommonConfig H, config.Fits allResponseStringFlags matchedStats →
      ∃ config', destroyAll parser allResponseStringFlags config streams =
        .ok (streams.map (recordsOf parser allResponseStringFlags matchedStats), config') := by
    induction streams with
    | nil => exact fun config _ => ⟨config, rfl⟩
    | cons s streams ih =>
      intro config hfits
      obtain ⟨config₁, hone, hfits₁⟩ := onDestroy_eq parser hfits (hstatus s List.mem_cons_self)
      obtain ⟨config₂, hrest⟩ := ih (fun s hs => hstatus s (List.mem_cons_of_mem _ hs)) config₁ hfits₁
      refine ⟨config₂, ?_⟩
      unfold destroyAll
      rw [hone]
      simp only [ok_bind, hrest]
      rfl
  have hempty : ({ matchedStats } : CommonConfig H).Fits allResponseStringFlags matchedStats :=
    ⟨rfl, fun i a h => (nomatch h), fun i a h => (nomatch h)⟩
  exact hrun { matchedStats } hempty

end Filter

/-- A stream that was answered with a code and flags, on a route with stats. -/
def answered (code flags : UInt64) : Stream Unit where
  response := some (some code)
  route := some ⟨some ⟨ascii "api", [(ascii "service", ascii "a")]⟩, []⟩
  hostTypedMetadata := none
  requestHeaders := ()
  requestPath := ascii "/"
  responseFlags := flags
  bytesReceived := 1
  bytesSent := 2
  requestComplete := none

/-- Three streams: the name of a code is there when it comes again. -/
theorem three_streams_recorded :
    ∃ config, destroyAll ⟨⟨id, fun _ _ => none⟩, fun _ _ => none⟩ [(ascii "NR", 1), (ascii "UF", 2)] { matchedStats := [] }
        [answered 200 0, answered 404 3, answered 200 2] =
      .ok ([answered 200 0, answered 404 3, answered 200 2].map
        (recordsOf ⟨⟨id, fun _ _ => none⟩, fun _ _ => none⟩ [(ascii "NR", 1), (ascii "UF", 2)] []), config) := by
  refine recorded_exactly ?_ ⟨⟨id, fun _ _ => none⟩, fun _ _ => none⟩ [(ascii "NR", 1), (ascii "UF", 2)] []
  intro s hs status hstatus
  simp only [List.mem_cons, List.not_mem_nil, or_false] at hs
  rcases hs with rfl | rfl | rfl <;> cases hstatus <;> decide

end EnvoyProxy.DetailedStats
