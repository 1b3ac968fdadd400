import EnvoyProxy.Lib.Bytes
/-!
# Colours

`tryFindColor` of traffic_mark_filter.cc. Colours are names with dots, and a
name stands for all that go on behind a dot, so a colour that is not there is
replaced by the most specific one that stands for it. What that is depends on
the set of colours only; we show that one pass over a list finds it.
-/

namespace EnvoyProxy.TrafficMark

/-- The loop of `tryFindColor`. Nothing if `to_find[each.length()]` is out of
range. -/
def findFrom (toFind : Bytes) : List Bytes → Bytes → Option Bytes
  | [], fallback => some fallback
  | each :: colors, fallback =>
    if each = toFind then some toFind
    else if each.isPrefixOf toFind then do
      let next ← toFind[each.length]?
      if next = 46 ∧ fallback.length < each.length then findFrom toFind colors each else findFrom toFind colors fallback
    else findFrom toFind colors fallback

def tryFindColor (colors : List Bytes) (toFind : Bytes) : Option Bytes := findFrom toFind colors []

/-! ## The most specific colour -/

/-- The name goes on behind the colour with a dot. -/
def Covers (color name : Bytes) : Prop := color ++ [46] <+: name

/-- The longest of the colours that cover a name, or the empty one. -/
def IsFallback (colors : Set Bytes) (name color : Bytes) : Prop :=
  (color ∈ colors ∧ Covers color name ∧ ∀ c ∈ colors, Covers c name → c.length ≤ color.length) ∨
    (color = [] ∧ ∀ c ∈ colors, ¬ Covers c name)

/-- The name itself if it is a colour. -/
def MostSpecific (colors : Set Bytes) (name color : Bytes) : Prop :=
  (name ∈ colors ∧ color = name) ∨ (name ∉ colors ∧ IsFallback colors name color)

theorem Covers.isPrefix {color name : Bytes} (h : Covers color name) : color <+: name := (List.prefix_append color [46]).trans h

/-- There is one colour of a length that covers a name. -/
theorem Covers.eq_of_length {c c' name : Bytes} (h : Covers c name) (h' : Covers c' name)
    (hlen : c.length = c'.length) : c = c' :=
  (List.prefix_of_prefix_length_le h.isPrefix h'.isPrefix hlen.le).eq_of_length hlen

theorem IsFallback.unique {colors : Set Bytes} {name c c' : Bytes} (h : IsFallback colors name c)
    (h' : IsFallback colors name c') :
    c = c' := by
  rcases h with ⟨hmem, hc, hmax⟩ | ⟨rfl, hnone⟩
  · rcases h' with ⟨hmem', hc', hmax'⟩ | ⟨-, hnone'⟩
    · exact hc.eq_of_length hc' (le_antisymm (hmax' c hmem hc) (hmax c' hmem' hc'))
    · exact absurd hc (hnone' c hmem)
  · rcases h' with ⟨hmem', hc', -⟩ | ⟨rfl, -⟩
    · exact absurd hc' (hnone c' hmem')
    · rfl

theorem MostSpecific.unique {colors : Set Bytes} {name c c' : Bytes} (h : MostSpecific colors name c)
    (h' : MostSpecific colors name c') : c = c' := by
  rcases h with ⟨hmem, rfl⟩ | ⟨hnot, h⟩
  · rcases h' with ⟨-, rfl⟩ | ⟨hnot, -⟩
    · rfl
    · exact absurd hmem hnot
  · rcases h' with ⟨hmem, -⟩ | ⟨-, h'⟩
    · exact absurd hmem hnot
    · exact h.unique h'

/-! ## One pass -/

/-- The text behind a proper prefix begins at an index in range. -/
theorem covers_iff {color name : Bytes} (hstarts : color <+: name) (hne : color ≠ name) :
    ∃ next, name[color.length]? = some next ∧ (Covers color name ↔ next = 46) := by
  obtain ⟨rest, rfl⟩ := hstarts
  cases rest with
  | nil => exact absurd (List.append_nil color).symm hne
  | cons next rest =>
    refine ⟨next, by simp, ?_⟩
    unfold Covers
    rw [List.prefix_append_right_inj, List.cons_prefix_cons]
    simp [eq_comm]

/-- A colour more, which covers the name. -/
theorem IsFallback.covering {seen : Set Bytes} {name fallback each : Bytes} (h : IsFallback seen name fallback)
    (hcovers : Covers each name) :
    IsFallback (insert each seen) name (if fallback.length < each.length then each else fallback) := by
  left
  split_ifs with hlt
  · refine ⟨Set.mem_insert each seen, hcovers, fun c hc hcc => ?_⟩
    rcases Set.mem_insert_iff.1 hc with rfl | hc
    · exact le_refl _
    · rcases h with ⟨-, -, hmax⟩ | ⟨-, hnone⟩
      · exact (hmax c hc hcc).trans hlt.le
      · exact absurd hcc (hnone c hc)
  · rcases h with ⟨hmem, hfallback, hmax⟩ | ⟨rfl, hnone⟩
    · refine ⟨Set.mem_insert_of_mem each hmem, hfallback, fun c hc hcc => ?_⟩
      rcases Set.mem_insert_iff.1 hc with rfl | hc
      · exact Nat.le_of_not_lt hlt
      · exact hmax c hc hcc
    · -- only the empty colour is no longer than the empty fallback
      obtain rfl : each = [] := List.eq_nil_of_length_eq_zero (Nat.eq_zero_of_not_pos hlt)
      refine ⟨Set.mem_insert [] seen, hcovers, fun c hc hcc => ?_⟩
      rcases Set.mem_insert_iff.1 hc with rfl | hc
      · exact le_refl _
      · exact absurd hcc (hnone c hc)

/-- A colour more, which does not. -/
theorem IsFallback.other {seen : Set Bytes} {name fallback each : Bytes} (h : IsFallback seen name fallback)
    (hnot : ¬ Covers each name) : IsFallback (insert each seen) name fallback := by
  have hold : ∀ c ∈ insert each seen, Covers c name → c ∈ seen := by
    intro c hc hcc
    rcases Set.mem_insert_iff.1 hc with rfl | hc
    · exact absurd hcc hnot
    · exact hc
  rcases h with ⟨hmem, hfallback, hmax⟩ | ⟨rfl, hnone⟩
  · exact .inl ⟨Set.mem_insert_of_mem each hmem, hfallback, fun c hc hcc => hmax c (hold c hc hcc) hcc⟩
  · exact .inr ⟨rfl, fun c hc hcc => hnone c (hold c hc hcc) hcc⟩

/-- What the loop finds after the colours it has seen. -/
theorem findFrom_spec {name : Bytes} (colors : List Bytes) {seen : Set Bytes} {fallback : Bytes}
    (hseen : IsFallback seen name fallback)
    (hnot : name ∉ seen) : ∃ color, findFrom name colors fallback = some color ∧
      MostSpecific (seen ∪ {c | c ∈ colors}) name color := by
  induction colors generalizing seen fallback with
  | nil =>
    refine ⟨fallback, rfl, .inr ?_⟩
    simpa using ⟨hnot, hseen⟩
  | cons each colors ih =>
    have hunion : seen ∪ {c | c ∈ each :: colors} = insert each seen ∪ {c | c ∈ colors} := by
      ext c
      simp only [Set.mem_union, Set.mem_ofPred_eq, List.mem_cons, Set.mem_insert_iff]
      tauto
    by_cases heach : each = name
    · refine ⟨name, if_pos heach, .inl ⟨?_, rfl⟩⟩
      exact .inr (heach ▸ List.mem_cons_self)
    · have hnot' : name ∉ insert each seen := by
        rw [Set.mem_insert_iff]
        rintro (h | h)
        · exact heach h.symm
        · exact hnot h
      unfold findFrom
      rw [if_neg heach, hunion]
      by_cases hstarts : each <+: name
      · obtain ⟨next, hnext, hcovers⟩ := covers_iff hstarts heach
        rw [if_pos (List.isPrefixOf_iff_prefix.2 hstarts), hnext]
        by_cases hdot : next = 46
        · have hstep := ih (hseen.covering (hcovers.2 hdot)) hnot'
          simp only [Option.bind_eq_bind, Option.bind_some, hdot, true_and]
          split_ifs at hstep ⊢ with hlt <;> exact hstep
        · have hstep := ih (hseen.other fun hc => hdot (hcovers.1 hc)) hnot'
          simpa only [Option.bind_eq_bind, Option.bind_some, hdot, false_and, if_false] using hstep
      · rw [if_neg fun h => hstarts (List.isPrefixOf_iff_prefix.1 h)]
        exact ih (hseen.other fun hc => hstarts hc.isPrefix) hnot'

/-- `tryFindColor` never reads out of range and gives the most specific of the
colours, whatever their order and however often they are listed. -/
theorem tryFindColor_spec (colors : List Bytes) (toFind : Bytes) :
    (∃ color, tryFindColor colors toFind = some color ∧ MostSpecific {c | c ∈ colors} toFind color) ∧
      ∀ colors', (∀ c, c ∈ colors' ↔ c ∈ colors) → tryFindColor colors' toFind = tryFindColor colors toFind := by
  have hspec (colors : List Bytes) : ∃ color, tryFindColor colors toFind = some color ∧
      MostSpecific {c | c ∈ colors} toFind color := by
    have hstart : IsFallback ∅ toFind [] := .inr ⟨rfl, fun _ hc => absurd hc (Set.notMem_empty _)⟩
    have hfound := findFrom_spec colors hstart (Set.notMem_empty toFind)
    rwa [Set.empty_union] at hfound
  refine ⟨hspec colors, fun colors' hsame => ?_⟩
  obtain ⟨color, hcolor, hmost⟩ := hspec colors
  obtain ⟨color', hcolor', hmost'⟩ := hspec colors'
  rw [hcolor, hcolor']
  have hsets : {c | c ∈ colors'} = {c | c ∈ colors} := Set.ext hsame
  rw [hsets] at hmost'
  exact congrArg some (hmost'.unique hmost)

end EnvoyProxy.TrafficMark
