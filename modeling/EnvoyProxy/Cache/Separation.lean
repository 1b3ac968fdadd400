import EnvoyProxy.Cache.Key
/-!
# When cache keys separate requests

Nothing stands between the parts that `cacheKey` hashes, so a part can take in
the beginning of the next one. `separates_iff` gives the configurations for
which no two requests of any prefix collide: among all requests, and among
those that the connection manager lets through (`LetThrough`), where a slash ends
method and host and begins the path.
-/

namespace EnvoyProxy.Cache
open Http HeaderMap

/-- Parameters as they stand in a path, the first one behind `sep`. -/
def queryText (sep : UInt8) : List (Bytes × Bytes) → Bytes
  | [] => []
  | (name, value) :: params => sep :: name ++ 61 :: value ++ queryText 38 params

/-- What Envoy documents of the two functions: the path ends at the first `?`
or `#`; behind the first `?` come the parameters, `name=value` with `&`
between them, and the first of a name counts. -/
structure PathUtil.Lawful (util : PathUtil) : Prop where
  removeQueryAndFragment_eq : ∀ path, util.removeQueryAndFragment path = path.takeWhile fun b => b ≠ 63 ∧ b ≠ 35
  parseQueryString_eq : ∀ path params, 63 ∉ path → (∀ q ∈ params, 38 ∉ q.1 ∧ 61 ∉ q.1 ∧ 38 ∉ q.2) →
    ∀ name, util.parseQueryString (path ++ queryText 63 params) name = params.lookup name

/-! ## The conditions -/

section Conditions
variable (H : Type) [HeaderMap H] (util : PathUtil) (config : KeyMakerConfig)

/-- A request can carry the name. -/
def KeyName.Carried : KeyName → Prop
  | .query name => ∃ path : HeaderString, (util.parseQueryString path.bytes name).isSome
  | .header _ => True

/-- No header map has two entries of the name. -/
def KeyName.Single : KeyName → Prop
  | .query _ => True
  | .header name => ∀ h : H, ((iterate h).filter (·.key.bytes = name)).length ≤ 1

namespace KeyMakerConfig

/-- Of the listed names requests carry one at most, with one value, and it
shows where it begins. -/
def OneName (marked : Bytes → Prop) : Prop :=
  ∀ name ∈ config.names, name.Carried util →
    marked name.text ∧ name.Single H ∧ ∀ other ∈ config.names, other.Carried util → other = name

/-- The name has a byte that what is written before it cannot have. -/
def Marked (name : Bytes) : Prop :=
  if config.excludePath then
    if config.excludeHost then name ≠ [] else 47 ∈ name
  else 63 ∈ name ∨ 35 ∈ name

/-- Where method and host are both included, no method begins another one. -/
def BaseApart (methods : Set HeaderString) : Prop :=
  config.excludePath = true ∨ config.excludeHost = true ∨
    ∀ m ∈ methods, ∀ m' ∈ methods, m.bytes <+: m'.bytes → m = m'

/-- Method, host and path are told apart, and so is a name from them. -/
structure Apart (methods : Set HeaderString) : Prop where
  base : config.BaseApart methods
  names : config.OneName H util config.Marked

/-- One part is included at most. -/
structure OnePart : Prop where
  path : config.excludePath = true
  names : config.OneName H util fun name => config.excludeHost = true ∧ name ≠ []

end KeyMakerConfig

variable {H}

/-- The requests that the connection manager lets through: a host has no
slash and a path begins with one. -/
structure LetThrough (methods : Set HeaderString) (request : RequestHeaders H) : Prop where
  method : request.method ∈ methods
  host : 47 ∉ request.host.bytes
  path : ∃ rest, request.path.bytes = 47 :: rest

/-- Requests that differ in an included part are hashed differently. -/
def Separates (requests : RequestHeaders H → Prop) : Prop :=
  ∀ (cacheKeyPrefix : Bytes) (r₁ r₂ : RequestHeaders H), requests r₁ → requests r₂ →
    keyParts util config r₁ ≠ keyParts util config r₂ →
      rawKey util config cacheKeyPrefix r₁ ≠ rawKey util config cacheKeyPrefix r₂

end Conditions

section Key
variable {H : Type} [HeaderMap H] {util : PathUtil} {config : KeyMakerConfig} {methods : Set HeaderString}

/-! ## The names are read back -/

theorem KeyName.value_of_not_carried {name : KeyName} (h : ¬ name.Carried util) (request : RequestHeaders H) :
    name.value util request = none := by
  cases name with
  | header name => exact absurd trivial h
  | query name =>
    by_contra hsome
    exact h ⟨request.path, Option.isSome_iff_ne_none.2 hsome⟩

theorem KeyName.written_prefix (name : KeyName) (request : RequestHeaders H) :
    name.written util request = [] ∨ name.text <+: name.written util request := by
  unfold written
  cases name.value util request with
  | none => exact .inl rfl
  | some v => exact .inr (List.prefix_append _ _)

theorem KeyName.value_of_written {name : KeyName} (hname : name.text ≠ []) {r₁ r₂ : RequestHeaders H}
    (h : name.written util r₁ = name.written util r₂) : name.value util r₁ = name.value util r₂ := by
  unfold written at h
  cases h₁ : name.value util r₁ <;> cases h₂ : name.value util r₂ <;> simp_all

/-- Nothing is written for the names, or one of them is all that is written. -/
theorem KeyMakerConfig.OneName.cases {marked : Bytes → Prop} (hone : config.OneName H util marked) :
    (∀ name ∈ config.names, ∀ r : RequestHeaders H, name.value util r = none) ∨
      ∃ name ∈ config.names, marked name.text ∧
        ∀ other ∈ config.names, other ≠ name → ∀ r : RequestHeaders H, other.value util r = none := by
  by_cases hcarried : ∃ name ∈ config.names, name.Carried util
  · obtain ⟨name, hname, hcarried⟩ := hcarried
    obtain ⟨hmarked, -, honly⟩ := hone name hname hcarried
    refine .inr ⟨name, hname, hmarked, fun other hother hne => ?_⟩
    exact KeyName.value_of_not_carried fun h => hne (honly other hother h)
  · refine .inl fun name hname => KeyName.value_of_not_carried fun h => hcarried ⟨name, hname, h⟩

theorem keyNames_of_none {r : RequestHeaders H} (h : ∀ name ∈ config.names, name.value util r = none) :
    keyNames util config r = [] := by
  rw [keyNames, List.flatMap_eq_nil_iff]
  intro name hname
  simp [KeyName.written, h name hname]

theorem isPrefix_keyNames {name : KeyName} {r : RequestHeaders H}
    (honly : ∀ other ∈ config.names, other ≠ name → other.value util r = none) :
    keyNames util config r = [] ∨ name.text <+: keyNames util config r := by
  refine flatMap_prefix fun other hother => ?_
  by_cases hne : other = name
  · exact hne ▸ other.written_prefix r
  · exact .inl (by simp [KeyName.written, honly other hother hne])

/-- What is written for one name gives its value back. -/
theorem KeyMakerConfig.OneName.agree {marked : Bytes → Prop} (hone : config.OneName H util marked)
    (hne : ∀ name, marked name → name ≠ []) {r₁ r₂ : RequestHeaders H}
    (h : keyNames util config r₁ = keyNames util config r₂) :
    ∀ name ∈ config.names, name.value util r₁ = name.value util r₂ := by
  rcases hone.cases (H := H) with hnone | ⟨name, hname, hmarked, honly⟩
  · intro name hname
    rw [hnone name hname, hnone name hname]
  · have hempty : ∀ r : RequestHeaders H, ∀ other ∈ config.names, other ≠ name → other.written util r = [] := by
      intro r other hother hother'
      simp [KeyName.written, honly other hother hother']
    have hlength : (name.written util r₁).length = (name.written util r₂).length := by
      have hboth := congrArg List.length h
      rw [keyNames, keyNames, flatMap_length_of_single (hempty r₁), flatMap_length_of_single (hempty r₂)] at hboth
      exact Nat.eq_of_mul_eq_mul_left (List.count_pos_iff.2 hname) hboth
    have hwritten : ∀ other ∈ config.names, other.written util r₁ = other.written util r₂ := by
      refine eq_of_flatMap_eq (fun other hother => ?_) h
      by_cases hother' : other = name
      · rw [hother', hlength]
      · rw [hempty r₁ other hother hother', hempty r₂ other hother hother']
    intro other hother
    by_cases hother' : other = name
    · subst hother'
      exact KeyName.value_of_written (hne _ hmarked) (hwritten other hother)
    · rw [honly other hother hother', honly other hother hother']

/-- A list of one entry at most is its head. -/
theorem map_eq_of_head {l₁ l₂ : List HeaderEntry} (h₁ : l₁.length ≤ 1) (h₂ : l₂.length ≤ 1)
    (h : l₁.head?.map (·.value.bytes) = l₂.head?.map (·.value.bytes)) :
    l₁.map (·.value.bytes) = l₂.map (·.value.bytes) := by
  rcases l₁ with _ | ⟨e₁, _ | ⟨_, _⟩⟩ <;> rcases l₂ with _ | ⟨e₂, _ | ⟨_, _⟩⟩ <;> simp_all

/-- Requests that agree in what is written before the names, and under every
name, agree in every part. -/
theorem keyParts_eq {marked : Bytes → Prop} (hone : config.OneName H util marked) {r₁ r₂ : RequestHeaders H}
    (hmethod : config.excludePath = false → r₁.method = r₂.method)
    (hhost : config.excludeHost = false → r₁.host = r₂.host)
    (hpath : config.excludePath = false →
      util.removeQueryAndFragment r₁.path.bytes = util.removeQueryAndFragment r₂.path.bytes)
    (hnames : ∀ name ∈ config.names, name.value util r₁ = name.value util r₂) :
    keyParts util config r₁ = keyParts util config r₂ := by
  have hqueries : config.queryParams.map (util.parseQueryString r₁.path.bytes) =
      config.queryParams.map (util.parseQueryString r₂.path.bytes) :=
    List.map_congr_left fun query hquery => hnames _ (mem_names_query hquery)
  have hheaders : (config.headersKeys.map fun header => (configuredHeader r₁ header).map (·.value.bytes)) =
      config.headersKeys.map fun header => (configuredHeader r₂ header).map (·.value.bytes) := by
    refine List.map_congr_left fun header hheader => ?_
    have hname := mem_names_header hheader
    have hsingle := (hone _ hname trivial).2.1
    exact map_eq_of_head (hsingle r₁.headers) (hsingle r₂.headers) (hnames _ hname)
  simp only [keyParts, hqueries, hheaders, KeyParts.mk.injEq, and_true]
  cases hp : config.excludePath <;> cases hh : config.excludeHost <;> simp_all

/-! ## What is written before the names is read back -/

/-- The path begins with a slash and has no `?` and no `#`. -/
theorem LetThrough.removed (hutil : util.Lawful) {r : RequestHeaders H} (h : LetThrough methods r) :
    ∃ rest, util.removeQueryAndFragment r.path.bytes = 47 :: rest ∧
      ∀ b ∈ (47 :: rest : Bytes), decide (b ≠ 63 ∧ b ≠ 35) = true := by
  obtain ⟨rest, hrest⟩ := h.path
  refine ⟨rest.takeWhile fun b => b ≠ 63 ∧ b ≠ 35, ?_, fun b hb => ?_⟩
  · rw [hutil.removeQueryAndFragment_eq, hrest]
    rfl
  · rcases List.mem_cons.1 hb with rfl | hb
    · decide
    · exact List.mem_takeWhile_imp (p := fun b => decide (b ≠ 63 ∧ b ≠ 35)) hb

theorem noSlash {s : Bytes} (h : 47 ∉ s) : ∀ b ∈ s, decide (b ≠ 47) = true := by
  intro b hb
  simp only [decide_eq_true_eq]
  rintro rfl
  exact h hb

/-- The name shows where what stands before it ends. -/
theorem KeyMakerConfig.OneName.cut {marked : Bytes → Prop} (hone : config.OneName H util marked)
    {p : UInt8 → Bool} (hp : ∀ name, marked name → ∃ b ∈ name, p b = false)
    {xs ys : Bytes} (hxs : ∀ b ∈ xs, p b) (hys : ∀ b ∈ ys, p b)
    {r₁ r₂ : RequestHeaders H} (h : xs ++ keyNames util config r₁ = ys ++ keyNames util config r₂) :
    xs = ys ∧ keyNames util config r₁ = keyNames util config r₂ := by
  have hxy : xs = ys := by
    rcases hone.cases (H := H) with hnone | ⟨name, -, hmarked, honly⟩
    · rw [keyNames_of_none fun name hname => hnone name hname r₁,
        keyNames_of_none fun name hname => hnone name hname r₂] at h
      simpa using h
    · exact eq_of_append_marked hxs hys (hp _ hmarked) (isPrefix_keyNames fun o ho hne => honly o ho hne r₁)
        (isPrefix_keyNames fun o ho hne => honly o ho hne r₂) h
  exact ⟨hxy, List.append_cancel_left (hxy ▸ h)⟩

/-- Method and host before the first slash. -/
theorem method_host_eq (hbase : config.BaseApart methods) (hpath : config.excludePath = false)
    {r₁ r₂ : RequestHeaders H} (h₁ : r₁.method ∈ methods) (h₂ : r₂.method ∈ methods)
    (h : r₁.method.bytes ++ (if config.excludeHost then [] else r₁.host.bytes) =
      r₂.method.bytes ++ if config.excludeHost then [] else r₂.host.bytes) :
    r₁.method = r₂.method ∧ (config.excludeHost = false → r₁.host = r₂.host) := by
  cases hhost : config.excludeHost with
  | true =>
    simp only [hhost, if_true, List.append_nil] at h
    exact ⟨HeaderString.ext h, by simp⟩
  | false =>
    simp only [hhost, Bool.false_eq_true, if_false] at h
    have hmethods : ∀ m ∈ methods, ∀ m' ∈ methods, m.bytes <+: m'.bytes → m = m' := by
      simpa [KeyMakerConfig.BaseApart, hpath, hhost] using hbase
    have hmethod : r₁.method = r₂.method := by
      have hprefix : r₂.method.bytes <+: r₁.method.bytes ++ r₁.host.bytes := ⟨_, h.symm⟩
      rcases List.prefix_or_prefix_of_prefix (List.prefix_append r₁.method.bytes _) hprefix with hle | hle
      · exact hmethods _ h₁ _ h₂ hle
      · exact (hmethods _ h₂ _ h₁ hle).symm
    rw [hmethod] at h
    exact ⟨hmethod, fun _ => HeaderString.ext (List.append_cancel_left h)⟩

/-- Requests that are let through agree in every part when they are hashed
alike. -/
theorem separates_of_apart (hutil : util.Lawful) (hcase : config.ignoreCase = false)
    (hmethods : ∀ m ∈ methods, 47 ∉ m.bytes) (hapart : config.Apart H util methods) :
    Separates util config (LetThrough (H := H) methods) := by
  intro cacheKeyPrefix r₁ r₂ h₁ h₂ hdiffer hraw
  apply hdiffer
  rw [rawKey_eq hcase, rawKey_eq hcase, List.append_right_inj] at hraw
  have hne : ∀ name, config.Marked name → name ≠ [] := by
    rintro _ hmarked rfl
    unfold KeyMakerConfig.Marked at hmarked
    split_ifs at hmarked <;> simp at hmarked
  cases hpath : config.excludePath with
  | true =>
    cases hhost : config.excludeHost with
    | true =>
      simp only [keyBase, hpath, hhost, if_true, List.append_nil, List.nil_append] at hraw
      exact keyParts_eq hapart.names (by simp [hpath]) (by simp [hhost]) (by simp [hpath])
        (hapart.names.agree hne hraw)
    | false =>
      -- A name has a slash, which the host has not.
      simp only [keyBase, hpath, hhost, if_true, Bool.false_eq_true, if_false, List.append_nil, List.nil_append] at hraw
      have hslash : ∀ name, config.Marked name → ∃ b ∈ name, (decide (b ≠ 47)) = false := by
        intro name hmarked
        simp only [KeyMakerConfig.Marked, hpath, hhost, if_true, Bool.false_eq_true, if_false] at hmarked
        exact ⟨47, hmarked, by decide⟩
      obtain ⟨hsame, hnames⟩ := hapart.names.cut hslash (noSlash h₁.host) (noSlash h₂.host) hraw
      exact keyParts_eq hapart.names (by simp [hpath]) (fun _ => HeaderString.ext hsame) (by simp [hpath])
        (hapart.names.agree hne hnames)
  | false =>
    obtain ⟨rest₁, hrest₁, hfree₁⟩ := h₁.removed hutil
    obtain ⟨rest₂, hrest₂, hfree₂⟩ := h₂.removed hutil
    have hfront : ∀ r : RequestHeaders H, LetThrough methods r →
        ∀ b ∈ r.method.bytes ++ (if config.excludeHost then [] else r.host.bytes), decide (b ≠ 47) = true := by
      intro r hr b hb
      rcases List.mem_append.1 hb with hb | hb
      · exact noSlash (hmethods _ hr.method) b hb
      · cases hhost : config.excludeHost
        · exact noSlash hr.host b (by simpa [hhost] using hb)
        · simp [hhost] at hb
    simp only [keyBase, hpath, Bool.false_eq_true, if_false, hrest₁, hrest₂] at hraw
    rw [List.append_assoc _ (47 :: rest₁), List.append_assoc _ (47 :: rest₂)] at hraw
    -- The first slash begins the path, and no `?` or `#` comes before a name.
    have hbase := eq_of_append_mark (a := 47) (b := 47) (hfront r₁ h₁) (hfront r₂ h₂) (by decide) (by decide) hraw
    have hmark : ∀ name, config.Marked name → ∃ b ∈ name, decide (b ≠ 63 ∧ b ≠ 35) = false := by
      intro name hmarked
      simp only [KeyMakerConfig.Marked, hpath, Bool.false_eq_true, if_false] at hmarked
      rcases hmarked with h | h
      · exact ⟨63, h, by decide⟩
      · exact ⟨35, h, by decide⟩
    rw [hbase, List.append_right_inj] at hraw
    obtain ⟨hsame, hnames⟩ := hapart.names.cut hmark hfree₁ hfree₂ hraw
    obtain ⟨hmethod, hhost⟩ := method_host_eq hapart.base hpath h₁.method h₂.method hbase
    exact keyParts_eq hapart.names (fun _ => hmethod) hhost (fun _ => by rw [hrest₁, hrest₂, hsame])
      (hapart.names.agree hne hnames)

/-- One part is written as it is read. -/
theorem separates_of_onePart (hcase : config.ignoreCase = false) (hone : config.OnePart H util) :
    Separates util config fun _ : RequestHeaders H => True := by
  intro cacheKeyPrefix r₁ r₂ _ _ hdiffer hraw
  apply hdiffer
  rw [rawKey_eq hcase, rawKey_eq hcase, List.append_right_inj] at hraw
  have hnames : keyNames util config r₁ = keyNames util config r₂ ∧
      (config.excludeHost = false → r₁.host = r₂.host) := by
    simp only [keyBase, hone.path, if_true, List.append_nil, List.nil_append] at hraw
    cases hhost : config.excludeHost with
    | true => simpa [hhost] using hraw
    | false =>
      -- No request carries a name.
      rcases hone.names.cases (H := H) with hnone | ⟨name, -, hmarked, -⟩
      · rw [keyNames_of_none fun name hname => hnone name hname r₁,
          keyNames_of_none fun name hname => hnone name hname r₂] at hraw ⊢
        exact ⟨rfl, fun _ => HeaderString.ext (by simpa [hhost] using hraw)⟩
      · simp [hhost] at hmarked
  exact keyParts_eq hone.names (by simp [hone.path]) hnames.2 (by simp [hone.path])
    (hone.names.agree (fun _ h => h.2) hnames.1)

/-! ## Requests built to collide -/

/-- The names of the three pseudo headers. -/
def pseudoHeaders : List LowerCaseString := [headerName ":method", headerName ":authority", headerName ":path"]

/-- A name that a query string or a header can be given under. -/
def KeyName.Ordinary : KeyName → Prop
  | .query name => 0 ∉ name ∧ 38 ∉ name ∧ 61 ∉ name
  | .header name => name ≠ [] ∧ 38 ∉ name ∧ ∃ key : LowerCaseString, key.bytes = name ∧ key ∉ pseudoHeaders

/-- Ordinary names, none of them listed twice. -/
structure KeyMakerConfig.Ordinary (config : KeyMakerConfig) : Prop where
  once : config.names.Nodup
  names : ∀ name ∈ config.names, name.Ordinary

theorem filter_key_bytes (h : H) (key : LowerCaseString) : (iterate h).filter (·.key.bytes = key.bytes) = get h key :=
  List.filter_congr fun e _ => by simp [LowerCaseString.ext_iff]

/-- A request with the other headers of `h`. -/
def builtRequest (h : H) (method host path : HeaderString) : RequestHeaders H where
  headers := set (set (set h (headerName ":method") method) (headerName ":authority") host) (headerName ":path") path
  method := method
  host := host
  path := path
  hasMethod := by
    rw [get_set_ne _ _ (by decide), get_set_ne _ _ (by decide), get_set]
    rfl
  hasHost := by
    rw [get_set_ne _ _ (by decide), get_set]
    rfl
  hasPath := by
    rw [get_set]
    rfl

theorem get_builtRequest (h : H) (method host path : HeaderString) {key : LowerCaseString}
    (hkey : key ∉ pseudoHeaders) :
    get (builtRequest h method host path).headers key = get h key := by
  simp only [pseudoHeaders, List.mem_cons, List.not_mem_nil, or_false, not_or] at hkey
  obtain ⟨hmethod, hhost, hpath⟩ := hkey
  simp only [builtRequest, get_set_ne _ _ hpath, get_set_ne _ _ hhost, get_set_ne _ _ hmethod]

/-- Headers with the values given and without the others. -/
def placeHeaders (values : LowerCaseString → Option HeaderString) (keys : List LowerCaseString) : H :=
  keys.foldl (fun h key => ((values key).map (set h key)).getD (remove h key)) create

theorem get_placeHeaders (values : LowerCaseString → Option HeaderString) {keys : List LowerCaseString}
    {key : LowerCaseString} (hkey : key ∈ keys) :
    get (placeHeaders values keys : H) key = ((values key).map fun value => ⟨key, value⟩).toList := by
  induction keys using List.reverseRecOn with
  | nil => cases hkey
  | append_singleton keys last ih =>
    have hsame : get (placeHeaders values (keys ++ [last]) : H) last =
        ((values last).map fun value => ⟨last, value⟩).toList := by
      cases hvalue : values last <;> simp [placeHeaders, hvalue, get_set, get_remove]
    by_cases hlast : key = last
    · rw [hlast, hsame]
    · have hother : get (placeHeaders values (keys ++ [last]) : H) key = get (placeHeaders values keys : H) key := by
        cases hvalue : values last <;> simp [placeHeaders, hvalue, get_set_ne _ _ hlast, get_remove_ne _ hlast]
      rw [hother]
      simp only [List.mem_append, List.mem_singleton, hlast, or_false] at hkey
      exact ih hkey

/-- The keys of the listed headers. -/
def headerKeys (config : KeyMakerConfig) : List LowerCaseString :=
  config.names.filterMap fun
    | .query _ => none
    | .header name => some (.ofCString name)

/-- The listed parameters that are given a value. -/
def givenParams (config : KeyMakerConfig) (values : KeyName → Option Bytes) : List (Bytes × Bytes) :=
  config.queryParams.filterMap fun name => (values (.query name)).map fun value => (name, value)

/-- A map that gives the listed headers the values. -/
def headersWith (config : KeyMakerConfig) (values : KeyName → Option Bytes) : H :=
  placeHeaders (fun key => (values (.header key.bytes)).map .ofCString) (headerKeys config)

/-- A request that gives the listed names the values. -/
def requestWith (config : KeyMakerConfig) (values : KeyName → Option Bytes) (method host path : Bytes) :
    RequestHeaders H :=
  builtRequest (headersWith config values) (.ofCString method) (.ofCString host)
    (.ofCString (path ++ queryText 63 (givenParams config values)))

theorem lookup_filterMap (values : Bytes → Option Bytes) {names : List Bytes} {name : Bytes} (h : name ∈ names) :
    (names.filterMap fun n => (values n).map fun value => (n, value)).lookup name = values name := by
  induction names with
  | nil => cases h
  | cons n names ih =>
    rw [List.filterMap_cons]
    by_cases hn : name = n
    · subst hn
      cases hvalue : values name with
      | some v => simp
      | none =>
        by_cases hin : name ∈ names
        · simpa [hvalue] using ih hin
        · simp only [Option.map_none, List.lookup_eq_none_iff, List.mem_filterMap]
          rintro q ⟨m, hm, hq⟩
          cases hv : values m with
          | none => simp [hv] at hq
          | some v =>
            simp only [hv, Option.map_some, Option.some.injEq] at hq
            subst hq
            simpa using fun heq : name = m => hin (heq ▸ hm)
    · have hrest := ih ((List.mem_cons.1 h).resolve_left hn)
      cases hvalue : values n with
      | none => simpa [hvalue] using hrest
      | some v => simpa [hvalue, List.lookup_cons, beq_false_of_ne hn] using hrest

theorem noNul_queryText {sep : UInt8} (hsep : sep ≠ 0) {params : List (Bytes × Bytes)}
    (h : ∀ q ∈ params, 0 ∉ q.1 ∧ 0 ∉ q.2) : 0 ∉ queryText sep params := by
  induction params generalizing sep with
  | nil => simp [queryText]
  | cons q params ih =>
    rw [List.forall_mem_cons] at h
    have hrest : 0 ∉ queryText 38 params := ih (by decide) h.2
    simp [queryText, h.1.1, h.1.2, hrest, hsep.symm]

/-- The values that the listed names are to have: none that a query string
would cut off. -/
def PlainValues (config : KeyMakerConfig) (values : KeyName → Option Bytes) : Prop :=
  ∀ name ∈ config.names, ∀ value, values name = some value → 0 ∉ value ∧ 38 ∉ value

section RequestWith
variable {values : KeyName → Option Bytes} {method host path : Bytes}

theorem mem_givenParams {q : Bytes × Bytes} (hq : q ∈ givenParams config values) :
    .query q.1 ∈ config.names ∧ values (.query q.1) = some q.2 := by
  obtain ⟨name, hname, hmap⟩ := List.mem_filterMap.1 hq
  obtain ⟨value, hvalue, rfl⟩ := Option.map_eq_some_iff.1 hmap
  exact ⟨mem_names_query hname, hvalue⟩

theorem requestWith_path (hconfig : config.Ordinary) (hvalues : PlainValues config values) (hpath : 0 ∉ path) :
    (requestWith config values method host path : RequestHeaders H).path.bytes =
      path ++ queryText 63 (givenParams config values) := by
  refine cString_of_noNul fun hzero => ?_
  rcases List.mem_append.1 hzero with hzero | hzero
  · exact hpath hzero
  · refine noNul_queryText (by decide) (fun q hq => ?_) hzero
    obtain ⟨hname, hvalue⟩ := mem_givenParams hq
    exact ⟨(hconfig.names _ hname).1, (hvalues _ hname _ hvalue).1⟩

theorem requestWith_value (hutil : util.Lawful) (hconfig : config.Ordinary) (hvalues : PlainValues config values)
    (hpath : 0 ∉ path) (hquery : 63 ∉ path) {name : KeyName} (hname : name ∈ config.names) :
    name.value util (requestWith config values method host path : RequestHeaders H) = values name := by
  have hordinary := hconfig.names name hname
  cases name with
  | query name =>
    have hin : name ∈ config.queryParams := by
      simpa [KeyMakerConfig.names] using hname
    rw [KeyName.value, requestWith_path hconfig hvalues hpath, hutil.parseQueryString_eq _ _ hquery ?_,
      givenParams, lookup_filterMap (fun n => values (.query n)) hin]
    intro q hq
    obtain ⟨hname, hvalue⟩ := mem_givenParams hq
    exact ⟨(hconfig.names _ hname).2.1, (hconfig.names _ hname).2.2, (hvalues _ hname _ hvalue).2⟩
  | header name =>
    obtain ⟨-, -, key, rfl, hkey⟩ := hordinary
    have hin : key ∈ headerKeys config :=
      List.mem_filterMap.2 ⟨_, hname, by simp⟩
    have hget := get_builtRequest (headersWith config values : H) (.ofCString method) (.ofCString host)
      (.ofCString (path ++ queryText 63 (givenParams config values))) hkey
    have hplaced : get (headersWith config values : H) key =
        (((values (.header key.bytes)).map HeaderString.ofCString).map fun value => ⟨key, value⟩).toList :=
      get_placeHeaders _ hin
    rw [hplaced] at hget
    rw [KeyName.value, filter_key_bytes, requestWith, hget]
    cases hvalue : values (.header key.bytes) with
    | none => rfl
    | some v =>
      have hplain := (hvalues _ hname _ hvalue).1
      simp [HeaderString.ofCString, cString_of_noNul hplain]

/-- What is written of method, host and path. -/
def baseText (config : KeyMakerConfig) (method host path : Bytes) : Bytes :=
  (if config.excludePath then [] else method) ++ (if config.excludeHost then [] else host) ++
    if config.excludePath then [] else path

/-- Bytes that go into a header value, and into a path before its query. -/
def Clean (method host path : Bytes) : Prop := 0 ∉ method ∧ 0 ∉ host ∧ 0 ∉ path ∧ 63 ∉ path ∧ 35 ∉ path

instance (method host path : Bytes) : Decidable (Clean method host path) := inferInstanceAs (Decidable (_ ∧ _))

theorem requestWith_base (hutil : util.Lawful) (hconfig : config.Ordinary) (hvalues : PlainValues config values)
    (hclean : Clean method host path) :
    keyBase util config (requestWith config values method host path : RequestHeaders H) =
      baseText config method host path := by
  obtain ⟨hmethod, hhost, hpath, hquery, hfragment⟩ := hclean
  have hremove : util.removeQueryAndFragment (path ++ queryText 63 (givenParams config values)) = path := by
    have hfree : ∀ b ∈ path, decide (b ≠ 63 ∧ b ≠ 35) = true := by
      intro b hb
      simp only [decide_eq_true_eq]
      exact ⟨fun h => hquery (h ▸ hb), fun h => hfragment (h ▸ hb)⟩
    rw [hutil.removeQueryAndFragment_eq, List.takeWhile_append_of_pos hfree]
    cases givenParams config values <;> simp [queryText]
  rw [keyBase, requestWith_path hconfig hvalues hpath, hremove]
  simp only [requestWith, builtRequest, HeaderString.ofCString, cString_of_noNul hmethod, cString_of_noNul hhost,
    baseText]

/-- A name as it is written with its value. -/
def spelled (values : KeyName → Option Bytes) (name : KeyName) : Bytes :=
  ((values name).map (name.text ++ ·)).getD []

theorem requestWith_names (hutil : util.Lawful) (hconfig : config.Ordinary) (hvalues : PlainValues config values)
    (hpath : 0 ∉ path) (hquery : 63 ∉ path) :
    keyNames util config (requestWith config values method host path : RequestHeaders H) =
      config.names.flatMap (spelled values) := by
  refine List.flatMap_congr fun name hname => ?_
  rw [KeyName.written, requestWith_value hutil hconfig hvalues hpath hquery hname, spelled]

end RequestWith

theorem plain_none : PlainValues config fun _ => none := by
  intro _ _ _ h
  cases h

theorem flatMap_spelled_none {values : KeyName → Option Bytes} {names : List KeyName}
    (h : ∀ name ∈ names, values name = none) : names.flatMap (spelled values) = [] := by
  rw [List.flatMap_eq_nil_iff]
  intro name hname
  simp [spelled, h name hname]

/-- The value of one name. -/
def oneValue (name : KeyName) (value : Bytes) : KeyName → Option Bytes :=
  fun n => if n = name then some value else none

theorem plain_single {name : KeyName} {value : Bytes} (hvalue : 0 ∉ value ∧ 38 ∉ value) :
    PlainValues config (oneValue name value) := by
  intro n _ v h
  unfold oneValue at h
  split_ifs at h
  cases h
  exact hvalue

theorem flatMap_single {names : List KeyName} (hnodup : names.Nodup) {name : KeyName} (hname : name ∈ names)
    (value : Bytes) :
    names.flatMap (spelled (oneValue name value)) = name.text ++ value := by
  obtain ⟨before, after, rfl⟩ := List.append_of_mem hname
  rw [List.nodup_middle, List.nodup_cons, List.mem_append, not_or] at hnodup
  have hother : ∀ l : List KeyName, name ∉ l → l.flatMap (spelled (oneValue name value)) = [] := by
    intro l hl
    refine flatMap_spelled_none fun n hn => ?_
    have hne : n ≠ name := fun h => hl (h ▸ hn)
    simp [oneValue, hne]
  rw [List.flatMap_append, List.flatMap_cons, hother before hnodup.1.1, hother after hnodup.1.2]
  simp [spelled, oneValue]

/-- The values of two names. -/
def twoValues (name : KeyName) (value : Bytes) (other : KeyName) (value' : Bytes) : KeyName → Option Bytes :=
  fun n => if n = name then some value else oneValue other value' n

theorem plain_pair {name other : KeyName} {value value' : Bytes} (hvalue : 0 ∉ value ∧ 38 ∉ value)
    (hvalue' : 0 ∉ value' ∧ 38 ∉ value') : PlainValues config (twoValues name value other value') := by
  intro n hn v h
  unfold twoValues at h
  split_ifs at h
  · cases h
    exact hvalue
  · exact plain_single hvalue' n hn v h

theorem flatMap_pair {before after : List KeyName} {name other : KeyName} (hnodup : (before ++ name :: after).Nodup)
    (hother : other ∈ after) (value value' : Bytes) :
    (before ++ name :: after).flatMap (spelled (twoValues name value other value')) =
      name.text ++ value ++ (other.text ++ value') := by
  have hafter := (List.nodup_append.1 hnodup).2.1
  have hsingle : after.flatMap (spelled (twoValues name value other value')) =
      after.flatMap (spelled (oneValue other value')) := by
    refine List.flatMap_congr fun n hn => ?_
    have hne : n ≠ name := by
      rintro rfl
      exact (List.nodup_cons.1 hafter).1 hn
    simp [spelled, twoValues, hne]
  have hbefore : before.flatMap (spelled (twoValues name value other value')) = [] := by
    refine flatMap_spelled_none fun n hn => ?_
    have hdisjoint := (List.nodup_append.1 hnodup).2.2 n hn
    simp [twoValues, oneValue, hdisjoint name List.mem_cons_self, hdisjoint other (List.mem_cons_of_mem _ hother)]
  rw [List.flatMap_append, List.flatMap_cons, hbefore, hsingle, flatMap_single (List.nodup_cons.1 hafter).2 hother]
  simp [spelled, twoValues]

/-- Two requests of a kind that are hashed alike. -/
theorem not_separates (hcase : config.ignoreCase = false) {requests : RequestHeaders H → Prop}
    {r₁ r₂ : RequestHeaders H} (h₁ : requests r₁) (h₂ : requests r₂)
    (hne : keyParts util config r₁ ≠ keyParts util config r₂)
    (hbase : keyBase util config r₁ ++ keyNames util config r₁ =
      keyBase util config r₂ ++ keyNames util config r₂) :
    ¬ Separates util config requests := by
  intro h
  refine h [] r₁ r₂ h₁ h₂ hne ?_
  rw [rawKey_eq hcase, rawKey_eq hcase, hbase]

section Collisions
variable (hutil : util.Lawful) (hconfig : config.Ordinary) (hcase : config.ignoreCase = false)
  {requests : RequestHeaders H → Prop}
include hutil hconfig hcase

/-- A name that is taken for the end of what stands before it. -/
theorem unmarked_collides {name : KeyName} (hname : name ∈ config.names) {method host₁ path₁ host₂ path₂ : Bytes}
    (hclean₁ : Clean method host₁ path₁) (hclean₂ : Clean method host₂ path₂)
    (hbase : baseText config method host₁ path₁ = baseText config method host₂ path₂ ++ name.text)
    (h₁ : requests (requestWith config (fun _ => none) method host₁ path₁))
    (h₂ : requests (requestWith config (oneValue name []) method host₂ path₂)) :
    ¬ Separates util config requests := by
  have hempty : PlainValues config (oneValue name []) := plain_single (by simp)
  refine not_separates hcase h₁ h₂ (fun hsame => ?_) ?_
  · have hvalue := value_of_keyParts hsame hname
    rw [requestWith_value hutil hconfig plain_none hclean₁.2.2.1 hclean₁.2.2.2.1 hname,
      requestWith_value hutil hconfig hempty hclean₂.2.2.1 hclean₂.2.2.2.1 hname] at hvalue
    simp [oneValue] at hvalue
  · rw [requestWith_base hutil hconfig plain_none hclean₁, requestWith_base hutil hconfig hempty hclean₂,
      requestWith_names hutil hconfig plain_none hclean₁.2.2.1 hclean₁.2.2.2.1,
      requestWith_names hutil hconfig hempty hclean₂.2.2.1 hclean₂.2.2.2.1,
      flatMap_single hconfig.once hname, flatMap_spelled_none fun _ _ => rfl, hbase]
    simp

/-- A name that takes in the next one. -/
theorem names_collide {before after : List KeyName} {name other : KeyName}
    (hnames : config.names = before ++ name :: after) (hother : other ∈ after)
    {method host path : Bytes} (hclean : Clean method host path)
    (hrequests : ∀ values, requests (requestWith config values method host path)) :
    ¬ Separates util config requests := by
  have hname : name ∈ config.names := by simp [hnames]
  have hin : other ∈ config.names := by simp [hnames, hother]
  have hplain : 0 ∉ other.text ∧ 38 ∉ other.text := by
    have hordinary := hconfig.names other hin
    cases other with
    | query n => exact ⟨hordinary.1, hordinary.2.1⟩
    | header n =>
      obtain ⟨-, hamp, key, rfl, -⟩ := hordinary
      exact ⟨key.noNul, hamp⟩
  have hsingle : PlainValues config (oneValue name other.text) := plain_single hplain
  have hpair : PlainValues config (twoValues name [] other []) := plain_pair (by simp) (by simp)
  have hne : other ≠ name := by
    rintro rfl
    have hnodup := hnames ▸ hconfig.once
    exact (List.nodup_cons.1 (List.nodup_append.1 hnodup).2.1).1 hother
  refine not_separates hcase (hrequests (oneValue name other.text)) (hrequests (twoValues name [] other []))
    (fun hsame => ?_) ?_
  · have hvalue := value_of_keyParts hsame hin
    rw [requestWith_value hutil hconfig hsingle hclean.2.2.1 hclean.2.2.2.1 hin,
      requestWith_value hutil hconfig hpair hclean.2.2.1 hclean.2.2.2.1 hin] at hvalue
    simp [oneValue, twoValues, hne] at hvalue
  · rw [requestWith_base hutil hconfig hsingle hclean, requestWith_base hutil hconfig hpair hclean,
      requestWith_names hutil hconfig hsingle hclean.2.2.1 hclean.2.2.2.1,
      requestWith_names hutil hconfig hpair hclean.2.2.1 hclean.2.2.2.1,
      flatMap_single hconfig.once hname, hnames, flatMap_pair (hnames ▸ hconfig.once) hother]
    simp

end Collisions

/-- A header that comes twice is hashed as if it came once. -/
theorem repeated_collide (hconfig : config.Ordinary) (hcase : config.ignoreCase = false)
    {requests : RequestHeaders H → Prop} {name : KeyName} (hname : name ∈ config.names) (htwice : ¬ name.Single H)
    {method host path : HeaderString} (hrequests : ∀ h, requests (builtRequest h method host path)) :
    ¬ Separates util config requests := by
  cases name with
  | query name => exact absurd trivial htwice
  | header name =>
    obtain ⟨-, -, key, rfl, hkey⟩ := hconfig.names _ hname
    obtain ⟨h, hlong⟩ : ∃ h : H, ¬ (get h key).length ≤ 1 := by
      simpa [KeyName.Single, filter_key_bytes] using htwice
    obtain ⟨first, second, rest, hget⟩ : ∃ first second rest, get h key = first :: second :: rest := by
      rcases hget : get h key with _ | ⟨first, _ | ⟨second, rest⟩⟩
      · simp [hget] at hlong
      · simp [hget] at hlong
      · exact ⟨first, second, rest, rfl⟩
    refine not_separates hcase (hrequests h) (hrequests (set h key first.value)) (fun hsame => ?_) ?_
    · obtain ⟨header, hheader, hlower⟩ : ∃ header ∈ config.headersKeys, toLower header = key.bytes := by
        simpa [KeyMakerConfig.names] using hname
      have hheaders := List.map_inj_left.1 (congrArg KeyParts.headers hsame) header hheader
      have hlength := congrArg List.length hheaders
      simp only [configuredHeader, hlower, filter_key_bytes, get_builtRequest _ _ _ _ hkey, get_set, hget, List.length_map,
        List.length_cons, List.length_nil] at hlength
      omega
    · have hnames : keyNames util config (builtRequest h method host path) =
          keyNames util config (builtRequest (set h key first.value) method host path) := by
        refine List.flatMap_congr fun other hother => ?_
        have hvalue : other.value util (builtRequest h method host path) =
            other.value util (builtRequest (set h key first.value) method host path) := by
          cases other with
          | query query => rfl
          | header other =>
            obtain ⟨-, -, key', rfl, hkey'⟩ := hconfig.names _ hother
            simp only [KeyName.value, filter_key_bytes, get_builtRequest _ _ _ _ hkey']
            by_cases hsame : key' = key
            · subst hsame
              rw [hget, get_set]
              rfl
            · rw [get_set_ne _ _ hsame]
        rw [KeyName.written, KeyName.written, hvalue]
      rw [hnames]
      rfl

section Converse
variable (hutil : util.Lawful) (hconfig : config.Ordinary) (hcase : config.ignoreCase = false)
  {requests : RequestHeaders H → Prop}
include hutil hconfig hcase

/-- A method that is taken for another one. -/
theorem methods_collide (hpath : config.excludePath = false)
    {method₁ host₁ path₁ method₂ host₂ path₂ : Bytes} (hne : method₁ ≠ method₂)
    (hclean₁ : Clean method₁ host₁ path₁) (hclean₂ : Clean method₂ host₂ path₂)
    (hbase : baseText config method₁ host₁ path₁ = baseText config method₂ host₂ path₂)
    (h₁ : requests (requestWith config (fun _ => none) method₁ host₁ path₁))
    (h₂ : requests (requestWith config (fun _ => none) method₂ host₂ path₂)) :
    ¬ Separates util config requests := by
  refine not_separates hcase h₁ h₂ (fun hsame => hne ?_) ?_
  · have hmethod := congrArg KeyParts.method hsame
    simpa [keyParts, hpath, requestWith, builtRequest, HeaderString.ofCString, cString_of_noNul hclean₁.1,
      cString_of_noNul hclean₂.1] using hmethod
  · rw [requestWith_base hutil hconfig plain_none hclean₁, requestWith_base hutil hconfig plain_none hclean₂,
      requestWith_names hutil hconfig plain_none hclean₁.2.2.1 hclean₁.2.2.2.1,
      requestWith_names hutil hconfig plain_none hclean₂.2.2.1 hclean₂.2.2.2.1, hbase]

/-- Requests of a kind that has the ones built here are separated only where
one name at most is listed. -/
theorem oneName_of_separates {method : Bytes} (hmethod : 0 ∉ method) {marked : Bytes → Prop}
    (hmarked : ∀ name ∈ config.names, ¬ marked name.text → ¬ Separates util config requests)
    (hrequests : ∀ h query, requests (builtRequest h (.ofCString method) (.ofCString [104]) (.ofCString (47 :: query))))
    (hseparates : Separates util config requests) : config.OneName H util marked := by
  intro name hname _
  refine ⟨?_, ?_, fun other hother _ => ?_⟩
  · by_contra hunmarked
    exact hmarked name hname hunmarked hseparates
  · by_contra htwice
    exact repeated_collide hconfig hcase hname htwice (fun h => hrequests h []) hseparates
  · by_contra hne
    have hclean : Clean method [104] [47] := ⟨hmethod, by decide, by decide, by decide, by decide⟩
    have hboth : ∀ values, requests (requestWith config values method [104] [47]) := fun values => hrequests _ _
    obtain ⟨before, after, hnames⟩ := List.append_of_mem hname
    rw [hnames, List.mem_append, List.mem_cons] at hother
    -- Whichever of the two comes first takes in the other.
    rcases hother with hother | hother | hother
    · obtain ⟨first, second, rfl⟩ := List.append_of_mem hother
      rw [List.append_assoc, List.cons_append] at hnames
      have hlater : name ∈ second ++ name :: after := by simp
      exact names_collide hutil hconfig hcase hnames hlater hclean hboth hseparates
    · exact hne hother
    · exact names_collide hutil hconfig hcase hnames hother hclean hboth hseparates

end Converse

theorem KeyName.Ordinary.noNul {name : KeyName} (h : name.Ordinary) : 0 ∉ name.text := by
  cases name with
  | query name => exact h.1
  | header name =>
    obtain ⟨-, -, key, rfl, -⟩ := h
    exact key.noNul

/-- Names that the requests let through do not tell apart. -/
theorem unmarked_letThrough (hutil : util.Lawful) (hconfig : config.Ordinary) (hcase : config.ignoreCase = false)
    {method : HeaderString} (hmethod : method ∈ methods) {name : KeyName} (hname : name ∈ config.names)
    (hunmarked : ¬ config.Marked name.text) : ¬ Separates util config (LetThrough (H := H) methods) := by
  have hzero := (hconfig.names name hname).noNul
  have hlet : ∀ values host path, 47 ∉ host →
      LetThrough methods (requestWith config values method.bytes host (47 :: path) : RequestHeaders H) := by
    intro values host path hhost
    refine ⟨by simpa [requestWith, builtRequest] using hmethod, fun h => hhost ?_, ?_⟩
    · exact (List.takeWhile_sublist _).mem h
    · exact ⟨cString (path ++ queryText 63 (givenParams config values)), rfl⟩
  have hclean : Clean method.bytes [104] [47] := ⟨method.noNul, by decide, by decide, by decide, by decide⟩
  unfold KeyMakerConfig.Marked at hunmarked
  cases hpath : config.excludePath with
  | true =>
    cases hhost : config.excludeHost with
    | true =>
      simp only [hpath, hhost, if_true, ne_eq, not_not] at hunmarked
      exact unmarked_collides hutil hconfig hcase hname hclean hclean (by simp [baseText, hpath, hhost, hunmarked])
        (hlet _ _ _ (by decide)) (hlet _ _ _ (by decide))
    | false =>
      simp only [hpath, hhost, if_true, Bool.false_eq_true, if_false] at hunmarked
      have hlonger : Clean method.bytes (104 :: name.text) [47] :=
        ⟨method.noNul, by simpa using hzero, by decide, by decide, by decide⟩
      exact unmarked_collides hutil hconfig hcase hname hlonger hclean (by simp [baseText, hpath, hhost])
        (hlet _ _ _ (by simpa using hunmarked)) (hlet _ _ _ (by decide))
  | false =>
    simp only [hpath, Bool.false_eq_true, if_false, not_or] at hunmarked
    have hlonger : Clean method.bytes [104] (47 :: name.text) :=
      ⟨method.noNul, by decide, by simpa using hzero, by simpa using hunmarked.1, by simpa using hunmarked.2⟩
    exact unmarked_collides hutil hconfig hcase hname hlonger hclean (by simp [baseText, hpath])
      (hlet _ _ _ (by decide)) (hlet _ _ _ (by decide))

/-- Methods of which one begins another, with a host that makes up for it. -/
theorem base_letThrough (hutil : util.Lawful) (hconfig : config.Ordinary) (hcase : config.ignoreCase = false)
    (hmethods : ∀ m ∈ methods, 47 ∉ m.bytes) (hbase : ¬ config.BaseApart methods) :
    ¬ Separates util config (LetThrough (H := H) methods) := by
  simp only [KeyMakerConfig.BaseApart, not_or, Bool.not_eq_true, not_forall] at hbase
  obtain ⟨hpath, hhost, m, hm, m', hm', ⟨more, hmore⟩, hne⟩ := hbase
  have hslash : 47 ∉ more := fun h => hmethods m' hm' (hmore ▸ List.mem_append_right _ h)
  have hzero : 0 ∉ more := fun h => m'.noNul (hmore ▸ List.mem_append_right _ h)
  have hlet : ∀ m ∈ methods, ∀ host, 47 ∉ host →
      LetThrough methods (requestWith config (fun _ => none) m.bytes host [47] : RequestHeaders H) := by
    intro m hm host hhost
    refine ⟨by simpa [requestWith, builtRequest] using hm, fun h => hhost ?_, ⟨_, rfl⟩⟩
    exact (List.takeWhile_sublist _).mem h
  have hclean₁ : Clean m'.bytes [104] [47] := ⟨m'.noNul, by decide, by decide, by decide, by decide⟩
  have hclean₂ : Clean m.bytes (more ++ [104]) [47] :=
    ⟨m.noNul, by simpa using hzero, by decide, by decide, by decide⟩
  refine methods_collide hutil hconfig hcase hpath (fun h => hne (HeaderString.ext h.symm)) hclean₁ hclean₂ ?_
    (hlet m' hm' _ (by decide)) (hlet m hm _ (by simpa using hslash))
  simp [baseText, hpath, hhost, ← hmore]

/-- Any two included parts can be shifted into one another. -/
theorem onePart_of_separates (hutil : util.Lawful) (hconfig : config.Ordinary) (hcase : config.ignoreCase = false)
    (hseparates : Separates util config fun _ : RequestHeaders H => True) : config.OnePart H util := by
  have hpath : config.excludePath = true := by
    by_contra hpath
    rw [Bool.not_eq_true] at hpath
    -- From the method into the host, or into the path where there is no host.
    cases hhost : config.excludeHost with
    | true =>
      have hclean₁ : Clean [71] [] [47, 47] := by decide
      have hclean₂ : Clean [71, 47] [] [47] := by decide
      exact methods_collide hutil hconfig hcase hpath (by decide) hclean₁ hclean₂
        (by simp [baseText, hpath, hhost]) trivial trivial hseparates
    | false =>
      have hclean₁ : Clean [71] [69, 104] [47] := by decide
      have hclean₂ : Clean [71, 69] [104] [47] := by decide
      exact methods_collide hutil hconfig hcase hpath (by decide) hclean₁ hclean₂
        (by simp [baseText, hpath, hhost]) trivial trivial hseparates
  have hclean : Clean [71] [104] [47] := by decide
  refine ⟨hpath, oneName_of_separates hutil hconfig hcase hclean.1 (fun name hname hunmarked => ?_)
    (fun _ _ => trivial) hseparates⟩
  have hzero := (hconfig.names name hname).noNul
  have hlonger : Clean [71] (104 :: name.text) [47] :=
    ⟨by decide, by simpa using hzero, by decide, by decide, by decide⟩
  cases hhost : config.excludeHost with
  | true =>
    simp only [hhost, true_and, ne_eq, not_not] at hunmarked
    exact unmarked_collides hutil hconfig hcase hname hclean hclean (by simp [baseText, hpath, hhost, hunmarked])
      trivial trivial
  | false =>
    exact unmarked_collides hutil hconfig hcase hname hlonger hclean (by simp [baseText, hpath, hhost])
      trivial trivial

/-- Which configurations keep requests apart: among all requests those that
include one part, among the ones let through those whose parts are told apart.
Both are enough for every configuration, and needed where the listed names are
ordinary and none is listed twice. -/
theorem separates_iff (util : PathUtil) (hutil : util.Lawful) (config : KeyMakerConfig)
    (hcase : config.ignoreCase = false) (methods : Set HeaderString) (hmethods : ∀ m ∈ methods, 47 ∉ m.bytes) :
    (config.OnePart H util → Separates util config fun _ : RequestHeaders H => True) ∧
    (config.Apart H util methods → Separates util config (LetThrough (H := H) methods)) ∧
    (config.Ordinary →
      ((Separates util config fun _ : RequestHeaders H => True) → config.OnePart H util) ∧
      (methods.Nonempty → Separates util config (LetThrough (H := H) methods) → config.Apart H util methods)) := by
  refine ⟨separates_of_onePart hcase, separates_of_apart hutil hcase hmethods, fun hconfig =>
    ⟨onePart_of_separates hutil hconfig hcase, ?_⟩⟩
  rintro ⟨method, hmethod⟩ hseparates
  refine ⟨by_contra fun hbase => base_letThrough hutil hconfig hcase hmethods hbase hseparates,
    oneName_of_separates hutil hconfig hcase method.noNul
      (fun name hname => unmarked_letThrough hutil hconfig hcase hmethod hname) (fun h query => ?_) hseparates⟩
  have hhost : 47 ∉ (HeaderString.ofCString [104]).bytes := by decide
  exact ⟨by simpa [builtRequest] using hmethod, hhost, ⟨cString query, rfl⟩⟩

/-! ## PlainValues requests -/

/-- Parameters behind a `&` or at the end come back one by one. -/
theorem splitOn_queryText {front : Bytes} (hfront : 38 ∉ front) (params : List (Bytes × Bytes))
    (hparams : ∀ q ∈ params, 38 ∉ q.1 ∧ 61 ∉ q.1 ∧ 38 ∉ q.2) :
    (front ++ queryText 38 params).splitOn 38 = front :: params.map fun q => q.1 ++ 61 :: q.2 := by
  induction params generalizing front with
  | nil => simpa [queryText] using List.splitOn_eq_singleton hfront
  | cons q params ih =>
    rw [List.forall_mem_cons] at hparams
    have hq : 38 ∉ q.1 ++ 61 :: q.2 := by
      simpa using ⟨hparams.1.1, hparams.1.2.2⟩
    rw [queryText, List.cons_append, List.cons_append, List.splitOn_append_cons_self_of_not_mem hfront,
      ih hq hparams.2, List.map_cons]

/-- A parameter is its name up to the first `=`. -/
theorem param_parts {name : Bytes} (hname : 61 ∉ name) (value : Bytes) :
    (name ++ 61 :: value).takeWhile (· ≠ 61) = name ∧
      ((name ++ 61 :: value).dropWhile (· ≠ 61)).drop 1 = value := by
  have hfree : ∀ b ∈ name, decide (b ≠ 61) = true := by
    intro b hb
    simp only [decide_eq_true_eq]
    rintro rfl
    exact hname hb
  constructor
  · rw [List.takeWhile_append_of_pos hfree]
    simp
  · rw [List.dropWhile_append_of_pos hfree]
    simp

theorem findSome_params (params : List (Bytes × Bytes)) (hparams : ∀ q ∈ params, 61 ∉ q.1) (name : Bytes) :
    (params.map fun q => q.1 ++ 61 :: q.2).findSome? (fun param =>
      if param.takeWhile (· ≠ 61) = name then some ((param.dropWhile (· ≠ 61)).drop 1) else none) =
      params.lookup name := by
  induction params with
  | nil => rfl
  | cons q params ih =>
    rw [List.forall_mem_cons] at hparams
    obtain ⟨hleft, hright⟩ := param_parts hparams.1 q.2
    rw [List.map_cons, List.findSome?_cons, hleft, hright, ih hparams.2, List.lookup_cons]
    by_cases heq : q.1 = name
    · simp [heq]
    · simp [heq, beq_false_of_ne (Ne.symm heq)]

theorem plainPathUtil_lawful : plainPathUtil.Lawful where
  removeQueryAndFragment_eq _ := rfl
  parseQueryString_eq path params hpath hparams name := by
    have hfree : ∀ b ∈ path, decide (b ≠ 63) = true := by
      intro b hb
      simp only [decide_eq_true_eq]
      rintro rfl
      exact hpath hb
    simp only [plainPathUtil]
    rw [List.dropWhile_append_of_pos hfree]
    cases params with
    | nil => rfl
    | cons q params =>
      have hcut : ((queryText 63 (q :: params)).dropWhile fun b => decide (b ≠ 63)).drop 1 =
          q.1 ++ 61 :: q.2 ++ queryText 38 params := by
        simp [queryText]
      have hamp : 38 ∉ q.1 ++ 61 :: q.2 := by
        have hq := hparams q List.mem_cons_self
        simpa using ⟨hq.1, hq.2.2⟩
      have hsplit := splitOn_queryText hamp params fun q hq => hparams q (List.mem_cons_of_mem _ hq)
      rw [hcut]
      split
      · rename_i hnil
        simp at hnil
      · rw [hsplit]
        exact findSome_params (q :: params) (fun p hp => (hparams p hp).2.1) name

/-- Two paths under one host, among requests with the methods that are looked
up. -/
theorem paths_separated :
    rawKey plainPathUtil {} (ascii "v1") (plainRequest "GET" "h" "/a?x=1") ≠
      rawKey plainPathUtil {} (ascii "v1") (plainRequest "GET" "h" "/b?x=1") := by
  have hapart : KeyMakerConfig.Apart HeaderList plainPathUtil {} {headerValue "GET", headerValue "HEAD"} := by
    refine ⟨.inr (.inr ?_), by simp [KeyMakerConfig.OneName, KeyMakerConfig.names]⟩
    rintro m (rfl | rfl) m' (rfl | rfl) h
    · rfl
    · exact absurd h (by decide)
    · exact absurd h (by decide)
    · rfl
  have hmethods : ∀ m ∈ ({headerValue "GET", headerValue "HEAD"} : Set HeaderString), 47 ∉ m.bytes := by
    rintro m (rfl | rfl) <;> decide
  have hseparates : Separates plainPathUtil {} (LetThrough (H := HeaderList) _) :=
    (separates_iff plainPathUtil plainPathUtil_lawful {} rfl _ hmethods).2.1 hapart
  exact hseparates _ _ _ ⟨.inl rfl, by decide, ⟨_, rfl⟩⟩ ⟨.inl rfl, by decide, ⟨_, rfl⟩⟩ (by decide)

/-- A parameter whose value ends in the name and value of the next one. -/
theorem parameters_collide :
    ∃ r₁ r₂ : RequestHeaders HeaderList,
      r₁.path.bytes = ascii "/p?a=xb1" ∧ r₂.path.bytes = ascii "/p?a=x&b=1" ∧
      keyParts plainPathUtil { queryParams := [ascii "a", ascii "b"] } r₁ ≠
        keyParts plainPathUtil { queryParams := [ascii "a", ascii "b"] } r₂ ∧
      rawKey plainPathUtil { queryParams := [ascii "a", ascii "b"] } (ascii "v1") r₁ =
        rawKey plainPathUtil { queryParams := [ascii "a", ascii "b"] } (ascii "v1") r₂ :=
  ⟨plainRequest "GET" "h" "/p?a=xb1", plainRequest "GET" "h" "/p?a=x&b=1", rfl, rfl, by decide, by decide⟩

end Key

end EnvoyProxy.Cache
