import EnvoyProxy.Lib.Maps
import EnvoyProxy.Lib.Search
import EnvoyProxy.HeaderRewrite.Rewriter
/-!
# Query strings

A query is a row of occurrences: texts between `&`s, each with a name that
ends at the first `=`. Envoy reads a query into a sorted map with one value
for each name, and writes such a map down with a `=` in every occurrence.
`QueryUtility` is what the filter relies on of these two.
-/

namespace EnvoyProxy.HeaderRewrite
open Http

/-! ## Occurrences -/

/-- The text after the first `?`. -/
def queryOf (path : Bytes) : Bytes := (path.dropWhile (· ≠ 63)).drop 1

/-- The texts between the `&`s. At the end there is no empty one. -/
def pieces (query : Bytes) : List Bytes :=
  if (query.splitOn 38).getLast? = some [] then (query.splitOn 38).dropLast else query.splitOn 38

/-- A parameter as it stands in a query. -/
structure Occurrence where
  name : Bytes
  text : Bytes
  deriving DecidableEq

namespace Occurrence

/-- A text, with the name before its first `=`. -/
def ofPiece (piece : Bytes) : Occurrence := ⟨piece.takeWhile (· ≠ 61), piece⟩

/-- How an entry of a map is written. -/
def ofEntry (e : Bytes × Bytes) : Occurrence := ⟨e.1, e.1 ++ 61 :: e.2⟩

/-- What is after the first `=`; nothing if there is none. -/
def value (o : Occurrence) : Bytes := o.text.drop (o.name.length + 1)

end Occurrence

def occurrences (path : Bytes) : List Occurrence := (pieces (queryOf path)).map .ofPiece

/-- A query with its `?`. -/
def queryText : List Occurrence → Bytes
  | [] => []
  | os => 63 :: List.intercalate [38] (os.map (·.text))

/-- `std::string`s in the order of a map, each less than the next. -/
abbrev Ascending (os : List Occurrence) : Prop := SortedBy (compare : Bytes → Bytes → Ordering) Occurrence.name os

namespace Occurrence

/-- An occurrence with a `=` is written as its name and value are. -/
theorem ofPiece_eq_ofEntry {piece : Bytes} (h : 61 ∈ piece) :
    ofPiece piece = ofEntry ((ofPiece piece).name, (ofPiece piece).value) := by
  obtain ⟨name, rest, rfl, hname⟩ := List.eq_append_cons_of_mem h
  have hnamed : ofPiece (name ++ 61 :: rest) = ⟨name, name ++ 61 :: rest⟩ := by
    unfold ofPiece
    rw [takeWhile_ne_append hname]
  have hdrop : (name ++ 61 :: rest).drop (name.length + 1) = rest := by
    rw [← List.drop_drop, List.drop_left]
    rfl
  simp only [hnamed, value, hdrop, ofEntry]

theorem ofPiece_ofEntry {e : Bytes × Bytes} (h : 61 ∉ e.1) : ofPiece (ofEntry e).text = ofEntry e := by
  unfold ofPiece ofEntry
  rw [takeWhile_ne_append h]

theorem equals_mem_ofEntry (e : Bytes × Bytes) : 61 ∈ (ofEntry e).text := by
  simp [ofEntry]

end Occurrence

/-! ## Reading back what was written -/

theorem not_mem_of_mem_splitOn {sep : UInt8} {text piece : Bytes} (h : piece ∈ text.splitOn sep) : sep ∉ piece := by
  induction text generalizing piece with
  | nil =>
    rw [List.splitOn_nil, List.mem_singleton] at h
    rw [h]
    exact List.not_mem_nil
  | cons b text ih =>
    rw [List.splitOn_cons_eq_if_modifyHead] at h
    split_ifs at h with hb
    · rcases List.mem_cons.1 h with rfl | h
      · exact List.not_mem_nil
      · exact ih h
    · obtain ⟨first, more, hsplit⟩ := List.exists_cons_of_ne_nil (List.splitOn_ne_nil sep text)
      rw [hsplit, List.modifyHead_cons] at h
      rcases List.mem_cons.1 h with rfl | h
      · intro hmem
        rcases List.mem_cons.1 hmem with rfl | hmem
        · exact hb (beq_self_eq_true sep)
        · exact ih (hsplit ▸ List.mem_cons_self) hmem
      · exact ih (hsplit ▸ List.mem_cons_of_mem first h)

theorem mem_pieces {query piece : Bytes} (h : piece ∈ pieces query) : 38 ∉ piece := by
  unfold pieces at h
  split_ifs at h
  · exact not_mem_of_mem_splitOn (List.mem_of_mem_dropLast h)
  · exact not_mem_of_mem_splitOn h

theorem pieces_intercalate {ps : List Bytes} (hsep : ∀ p ∈ ps, 38 ∉ p) (hne : ∀ p ∈ ps, p ≠ []) :
    pieces (List.intercalate [38] ps) = ps := by
  rcases eq_or_ne ps [] with rfl | hps
  · rfl
  · have hlast : ps.getLast? ≠ some [] := by
      intro hlast
      exact hne [] (List.mem_of_getLast? hlast) rfl
    unfold pieces
    rw [List.splitOn_intercalate 38 hsep hps, if_neg hlast]

theorem queryOf_queryText {path : Bytes} (h : 63 ∉ path) (os : List Occurrence) :
    queryOf (path ++ queryText os) = List.intercalate [38] (os.map (·.text)) := by
  have hdrop : (path ++ queryText os).dropWhile (· ≠ 63) = queryText os := by
    rw [List.dropWhile_append_of_pos]
    · cases os with
      | nil => rfl
      | cons o os => exact List.dropWhile_cons_of_neg (by simp)
    · intro b hb
      simp only [decide_eq_true_eq]
      rintro rfl
      exact h hb
  unfold queryOf
  rw [hdrop]
  cases os with
  | nil => rfl
  | cons o os => rfl

/-- A query of entries without `&`s is read as it was written. -/
theorem occurrences_queryText {path : Bytes} (hpath : 63 ∉ path) {entries : List (Bytes × Bytes)}
    (hname : ∀ e ∈ entries, 38 ∉ e.1 ∧ 61 ∉ e.1) (hvalue : ∀ e ∈ entries, 38 ∉ e.2) :
    occurrences (path ++ queryText (entries.map .ofEntry)) = entries.map .ofEntry := by
  have htexts : ∀ p ∈ (entries.map Occurrence.ofEntry).map (·.text), 38 ∉ p ∧ p ≠ [] := by
    intro p hp
    simp only [List.map_map, List.mem_map, Function.comp_apply] at hp
    obtain ⟨e, he, rfl⟩ := hp
    simp [Occurrence.ofEntry, (hname e he).1, hvalue e he]
  unfold occurrences
  rw [queryOf_queryText hpath, pieces_intercalate (fun p hp => (htexts p hp).1)
    (fun p hp => (htexts p hp).2), List.map_map,
    List.map_map]
  apply List.map_congr_left
  intro e he
  exact Occurrence.ofPiece_ofEntry (hname e he).2

/-! ## Envoy's functions -/

/-- Envoy's functions on paths, with what is known of the map a query is read
into: its names are those of the query, and each has the value of one of the
occurrences of that name. -/
structure QueryUtility where
  removeQueryAndFragment : Bytes → Bytes
  parseQueryString : Bytes → QueryParams
  queryParamsToString : QueryParams → Bytes
  parse_value : ∀ path name value, (parseQueryString path)[name]? = some value →
    ∃ o ∈ occurrences path, o.name = name ∧ o.value = value
  parse_name : ∀ path, ∀ o ∈ occurrences path, o.name ∈ parseQueryString path
  toString_eq : ∀ params, queryParamsToString params = queryText (params.toList.map .ofEntry)

/-- Reading with `emplace`: the first value of a name is kept. -/
def emplaceAll (os : List Occurrence) (m : QueryParams) : QueryParams :=
  os.foldl (fun m o => m.insertIfNew o.name o.value) m

theorem emplaceAll_value {os : List Occurrence} {m : QueryParams} {name value : Bytes}
    (h : (emplaceAll os m)[name]? = some value) :
    m[name]? = some value ∨ ∃ o ∈ os, o.name = name ∧ o.value = value := by
  induction os generalizing m with
  | nil => exact .inl h
  | cons o os ih =>
    rcases ih h with hm | ⟨o', ho', hsame⟩
    · rw [Std.TreeMap.getElem?_insertIfNew] at hm
      split_ifs at hm with hnew
      · exact .inr ⟨o, List.mem_cons_self, Std.LawfulEqCmp.eq_of_compare hnew.1, Option.some.inj hm⟩
      · exact .inl hm
    · exact .inr ⟨o', List.mem_cons_of_mem o ho', hsame⟩

theorem mem_emplaceAll {os : List Occurrence} {m : QueryParams} {name : Bytes}
    (h : name ∈ m ∨ ∃ o ∈ os, o.name = name) :
    name ∈ emplaceAll os m := by
  induction os generalizing m with
  | nil =>
    rcases h with h | ⟨o, ho, -⟩
    · exact h
    · cases ho
  | cons o os ih =>
    apply ih
    rw [Std.TreeMap.mem_insertIfNew]
    rcases h with h | ⟨o', ho', hname⟩
    · exact .inl (.inr h)
    · rcases List.mem_cons.1 ho' with rfl | ho'
      · exact .inl (.inl (by rw [hname]; exact Std.ReflCmp.compare_self))
      · exact .inr ⟨o', ho', hname⟩

def envoyQuery : QueryUtility where
  removeQueryAndFragment path := path.takeWhile fun b => b ≠ 63 ∧ b ≠ 35
  parseQueryString path := emplaceAll (occurrences path) ∅
  queryParamsToString params := queryText (params.toList.map .ofEntry)
  parse_value path name value h := by
    rcases emplaceAll_value h with h | h
    · simp at h
    · exact h
  parse_name path o ho := mem_emplaceAll (.inr ⟨o, ho, rfl⟩)
  toString_eq _ := rfl

end EnvoyProxy.HeaderRewrite
