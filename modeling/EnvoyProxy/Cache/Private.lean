import EnvoyProxy.Cache.Filter
import EnvoyProxy.Http.Inline
/-!
# Private responses

Whether a response may be stored is decided in `encodeHeaders`, from the first
entry for `cache-control`, and then holds for all its data. A header map joins
the `cache-control` lines of a response in one entry, so a response that says
`private` in any of them is never stored: `private_never_stored`.
-/

namespace EnvoyProxy.Http

/-- `absl::ascii_isspace` -/
def isSpaceByte (b : UInt8) : Bool := b = 32 || 9 ≤ b && b ≤ 13

/-- `StringUtil::trim` -/
def trim (s : Bytes) : Bytes := ((s.dropWhile isSpaceByte).reverse.dropWhile isSpaceByte).reverse

/-- `StringUtil::caseFindToken`, which trims the tokens of the list. -/
def caseFindToken (source delimiters token : Bytes) : Bool :=
  (source.splitOnP (delimiters.contains ·)).any fun t => toLower (trim t) = toLower token

end EnvoyProxy.Http

namespace EnvoyProxy.Cache
open Http HeaderMap HttpCacheEntry HttpCacheFilter

/-- One of the tokens between the commas is `private`. -/
def SaysPrivate (value : Bytes) : Prop := ∃ token ∈ value.splitOnP (· = 44), toLower (trim token) = ascii "private"

section Private
variable {H : Type} [HeaderMap H]

/-! ## A response -/

/-- Data of a response, with the reading of the clock. -/
structure Frame where
  data : Bytes
  endStream : Bool
  now : UInt64

variable (env : FilterEnv) (usedCaches : List Bytes)

/-- What is inserted by the calls for the data of a response. -/
def encodeFrames (f : HttpCacheFilter H) : List Frame → Except FilterFault (List (CacheKeyType × Nat × HttpCacheEntry H))
  | [] => .ok []
  | frame :: frames => do
    let (f, inserted) ← f.encodeData usedCaches frame.data frame.endStream frame.now
    return inserted ++ (← encodeFrames f frames)

/-- What is inserted by the calls for a response. -/
def encodeResponse (f : HttpCacheFilter H) (headers : H) (endStream : Bool) (now : UInt64) (frames : List Frame) :
    Except FilterFault (List (CacheKeyType × Nat × HttpCacheEntry H)) := do
  let out ← f.encodeHeaders env usedCaches headers endStream now
  return out.inserted ++ (← encodeFrames usedCaches out.filter frames)

/-- A response with these headers is not stored: for no route and no levels,
after a hit or a miss, and in no number of frames. -/
def NeverStored (headers : H) : Prop :=
  ∀ (usedCaches : List Bytes) (f : HttpCacheFilter H) (endStream : Bool) (now : UInt64) (frames : List Frame)
    (inserted : List (CacheKeyType × Nat × HttpCacheEntry H)),
    encodeResponse env usedCaches f headers endStream now frames = .ok inserted → inserted = []

variable {env usedCaches} {f : HttpCacheFilter H} {headers : H}

/-! ## Nothing is stored -/

/-- Once the caches are off, nothing is inserted. -/
theorem encodeFrames_off (hoff : f.enableCaches = false) (frames : List Frame) :
    encodeFrames usedCaches f frames = .ok [] := by
  induction frames with
  | nil => rfl
  | cons frame frames ih =>
    have hdata : f.encodeData usedCaches frame.data frame.endStream frame.now = .ok (f, []) := by
      unfold HttpCacheFilter.encodeData
      rw [hoff]
    rw [encodeFrames, hdata, ok_bind]
    dsimp only
    rw [ih]
    rfl

/-- A response that is not to be cached is not stored. -/
theorem neverStored_first (h : isCacheableResponse env headers = false) : NeverStored env headers := by
  intro usedCaches f endStream now frames inserted hrun
  have hencode : f.encodeHeaders env usedCaches headers endStream now =
      .ok ⟨{ f with enableCaches := false }, headers, []⟩ := by
    unfold HttpCacheFilter.encodeHeaders
    rw [if_pos (.inr h)]
  unfold encodeResponse at hrun
  rw [hencode, ok_bind, encodeFrames_off rfl] at hrun
  cases hrun
  rfl

/-! ## The lines of a response -/

theorem saysPrivate_join (a b : Bytes) : SaysPrivate (a ++ 44 :: b) ↔ SaysPrivate a ∨ SaysPrivate b := by
  unfold SaysPrivate
  rw [List.splitOnP_append_cons a b (by simp)]
  simp only [List.mem_append, or_and_right, exists_or]

theorem not_saysPrivate_nil : ¬ SaysPrivate [] := by
  rintro ⟨token, htoken, hprivate⟩
  rw [List.splitOnP_nil, List.mem_singleton] at htoken
  subst htoken
  exact absurd hprivate (by decide)

/-- A joined value says what one of its parts says. -/
theorem saysPrivate_append (value data : HeaderString) :
    SaysPrivate (appendToHeader value data).bytes ↔ SaysPrivate value.bytes ∨ SaysPrivate data.bytes := by
  unfold appendToHeader
  split_ifs with hdata hvalue
  · simp [hdata, not_saysPrivate_nil]
  · simp [hvalue, not_saysPrivate_nil]
  · exact saysPrivate_join value.bytes data.bytes

theorem saysPrivate_foldl (values : List HeaderString) (v : HeaderString) :
    SaysPrivate (values.foldl appendToHeader v).bytes ↔ SaysPrivate v.bytes ∨ ∃ v' ∈ values, SaysPrivate v'.bytes := by
  induction values generalizing v with
  | nil => simp
  | cons v' values ih => simp only [List.foldl_cons, ih, saysPrivate_append, List.exists_mem_cons_iff, or_assoc]

variable [JoinsInline H]

/-- For every response, its `cache-control` lines in any number and at any
place: if one of them has the token `private`, nothing is inserted, for any
route, levels, filter and frames. -/
theorem private_never_stored (henv : ∀ s, env.caseFindToken s (ascii ",") (ascii "private") = true ↔ SaysPrivate s)
    (hinline : isInline H (headerName "cache-control") = true) (lines : List HeaderEntry)
    (hprivate : ∃ e ∈ lines, e.key = headerName "cache-control" ∧ SaysPrivate e.value.bytes) :
    NeverStored env (copyFrom lines : H) := by
  apply neverStored_first
  obtain ⟨e, he, hkey, hsays⟩ := hprivate
  have hget := get_copyFrom_inline (H := H) hinline (by decide) lines
  have hvalue : e.value ∈ (lines.filter (·.key = headerName "cache-control")).map (·.value) :=
    List.mem_map_of_mem (List.mem_filter.2 ⟨he, by simpa using hkey⟩)
  generalize (lines.filter (·.key = headerName "cache-control")).map (·.value) = values at hget hvalue
  rcases values with _ | ⟨v, vs⟩
  · cases hvalue
  · unfold isCacheableResponse
    rw [hget]
    dsimp only
    rw [Bool.not_eq_false', henv, saysPrivate_foldl]
    rcases List.mem_cons.1 hvalue with rfl | hvalue
    · exact .inl hsays
    · exact .inr ⟨_, hvalue, hsays⟩

end Private

/-! ## Two lines -/

def tokenEnv : FilterEnv where
  hash := id
  util := plainPathUtil
  caseFindToken := caseFindToken

theorem tokenEnv_private (s : Bytes) : tokenEnv.caseFindToken s (ascii ",") (ascii "private") = true ↔ SaysPrivate s := by
  have hcomma : (fun b => (ascii ",").contains b) = fun b : UInt8 => decide (b = 44) := by
    funext b
    rw [Bool.eq_iff_iff]
    simp [ascii]
  have hlower : toLower (ascii "private") = ascii "private" := by decide
  show caseFindToken s (ascii ",") (ascii "private") = true ↔ SaysPrivate s
  unfold caseFindToken SaysPrivate
  rw [hcomma, hlower]
  simp [List.any_eq_true]

/-- The second line says so. -/
theorem second_line_private : NeverStored tokenEnv (copyFrom [⟨headerName "cache-control", headerValue "max-age=60"⟩,
    ⟨headerName "cache-control", headerValue "no-store, Private"⟩] : InlineList) := by
  refine private_never_stored tokenEnv_private (by decide) _ ⟨_, List.mem_cons_of_mem _ (List.mem_singleton_self _), rfl, ?_⟩
  exact ⟨ascii " Private", by decide, by decide⟩

end EnvoyProxy.Cache
