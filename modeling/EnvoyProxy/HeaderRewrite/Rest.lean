import EnvoyProxy.HeaderRewrite.Filter
/-!
# The rest of the query

What becomes of the parameters that no rewriter is about. The map has one
value for each name, in the order of the names, and writes a `=` for each, so
a query that is written again keeps its other occurrences as they are exactly
if they looked like that before.
-/

namespace EnvoyProxy.HeaderRewrite
open Http

/-- The occurrences with other names. -/
def besides (P : Set Bytes) [DecidablePred (· ∈ P)] (os : List Occurrence) : List Occurrence := os.filter (·.name ∉ P)

section
variable {P : Set Bytes} [DecidablePred (· ∈ P)]

theorem mem_besides {os : List Occurrence} {o : Occurrence} : o ∈ besides P os ↔ o ∈ os ∧ o.name ∉ P := by
  simp [besides]

theorem besides_entries (entries : List (Bytes × Bytes)) :
    besides P (entries.map .ofEntry) = (entries.filter (·.1 ∉ P)).map .ofEntry := by
  unfold besides
  rw [List.filter_map]
  rfl

theorem besides_congr {params params' : QueryParams} (h : ∀ name ∉ P, params[name]? = params'[name]?) :
    besides P (params.toList.map .ofEntry) = besides P (params'.toList.map .ofEntry) := by
  rw [besides_entries, besides_entries]
  congr 1
  apply filter_toList_congr (p := fun name => decide (name ∉ P))
  intro name hname
  exact h name (of_decide_eq_true hname)

theorem ascending_besides (params : QueryParams) : Ascending (besides P (params.toList.map .ofEntry)) :=
  ((sortedBy_toList params).map (f := Occurrence.ofEntry)).filter _

theorem mem_entries {params : QueryParams} {o : Occurrence} :
    o ∈ params.toList.map .ofEntry ↔
      ∃ name value, params[name]? = some value ∧ Occurrence.ofEntry (name, value) = o := by
  simp only [List.mem_map, Prod.exists, Std.TreeMap.mem_toList_iff_getElem?_eq_some]

theorem eq_ofEntry_of_mem {path : Bytes} {o : Occurrence} (h : o ∈ occurrences path) (hequals : 61 ∈ o.text) :
    o = .ofEntry (o.name, o.value) := by
  obtain ⟨piece, -, rfl⟩ := List.mem_map.1 h
  exact Occurrence.ofPiece_eq_ofEntry hequals

/-- Reading a query and writing it again. -/
theorem besides_parse_iff (u : QueryUtility) (path : Bytes) :
    besides P ((u.parseQueryString path).toList.map .ofEntry) = besides P (occurrences path) ↔
      (∀ o ∈ besides P (occurrences path), 61 ∈ o.text) ∧ Ascending (besides P (occurrences path)) := by
  constructor
  · intro heq
    rw [← heq]
    refine ⟨fun o ho => ?_, ascending_besides _⟩
    obtain ⟨e, -, rfl⟩ := List.mem_map.1 (mem_besides.1 ho).1
    exact Occurrence.equals_mem_ofEntry e
  · rintro ⟨hequals, hsorted⟩
    apply (ascending_besides _).eq_of_mem_iff hsorted
    intro o
    constructor
    · intro hwritten
      obtain ⟨hentry, hname⟩ := mem_besides.1 hwritten
      obtain ⟨name, value, hvalue, rfl⟩ := mem_entries.1 hentry
      obtain ⟨o, ho, rfl, rfl⟩ := u.parse_value path name value hvalue
      have hin : o ∈ besides P (occurrences path) := mem_besides.2 ⟨ho, hname⟩
      rw [← eq_ofEntry_of_mem ho (hequals o hin)]
      exact hin
    · intro ho
      obtain ⟨hmem, hname⟩ := mem_besides.1 ho
      -- the map has the value of some occurrence with this name, and there is only one
      obtain ⟨value, hvalue⟩ := Option.isSome_iff_exists.1
        (Std.TreeMap.isSome_getElem?_iff_mem.2 (u.parse_name path o hmem))
      obtain ⟨o', ho', hsame, rfl⟩ := u.parse_value path o.name value hvalue
      have hin' : o' ∈ besides P (occurrences path) := mem_besides.2 ⟨ho', hsame ▸ hname⟩
      obtain rfl : o' = o := hsorted.eq_of_key hin' ho hsame
      exact mem_besides.2 ⟨mem_entries.2
        ⟨o'.name, o'.value, hvalue, (eq_ofEntry_of_mem ho' (hequals o' ho)).symm⟩, hname⟩

/-- An entry that came with the request holds none of the signs that queries are split at. -/
theorem parse_clean (u : QueryUtility) {path name value : Bytes}
    (h : (u.parseQueryString path)[name]? = some value) :
    38 ∉ name ∧ 61 ∉ name ∧ 38 ∉ value := by
  obtain ⟨o, ho, rfl, rfl⟩ := u.parse_value path name value h
  obtain ⟨piece, hpiece, rfl⟩ := List.mem_map.1 ho
  have hamp : 38 ∉ piece := mem_pieces hpiece
  refine ⟨fun hmem => ?_, fun hmem => ?_, fun hmem => ?_⟩
  · exact hamp ((List.takeWhile_prefix _).subset hmem)
  · simpa using List.mem_takeWhile_imp hmem
  · exact hamp (List.drop_subset _ _ hmem)

end

section
variable {H R T : Type} [TextHeaders H] (u : QueryUtility) (env : TemplateEnv T)
variable (config : HeaderRewriteConfig H R T) (route : Option (RouteConfig H R T))

/-- The query of the path that is sent on: that of the request, or the map. -/
def sentQuery (original : Bytes) (d : Decoded H) : List Occurrence :=
  if writesPath config route then d.request.params.toList.map .ofEntry else occurrences original

/-- The path that is sent on. -/
def sentPath (original : Bytes) (d : Decoded H) : Bytes :=
  if writesPath config route then d.request.path ++ queryText (sentQuery config route original d) else original

/-- Rewriters of the path and of parameters in `P` keep the rest of a query
exactly if the path is not written again, or each occurrence in the rest has a
`=` and their names ascend. The query that is written is the one that will be
read if the rewriters have put none of its signs into their texts. -/
theorem rest_kept_iff (P : Set Bytes) [DecidablePred (· ∈ P)] {headers : H} {original : Bytes}
    (hpath : pathOf headers = some original) (hconfig : config.decoder.TargetsOnly P)
    (hroute : ∀ r ∈ route, r.config.decoder.TargetsOnly P) :
    let d := decodeHeaders u env config route headers
    pathOf d.request.headers = some (sentPath config route original d) ∧
      (besides P (sentQuery config route original d) = besides P (occurrences original) ↔
        (writesPath config route = true →
          (∀ o ∈ besides P (occurrences original), 61 ∈ o.text) ∧ Ascending (besides P (occurrences original)))) ∧
      (63 ∉ d.request.path →
        (∀ name ∈ P, ∀ value, d.request.params[name]? = some value → 38 ∉ name ∧ 61 ∉ name ∧ 38 ∉ value) →
        occurrences (sentPath config route original d) = sentQuery config route original d) := by
  intro d
  obtain ⟨hparams, hsent⟩ : (∀ name ∉ P, d.request.params[name]? = (u.parseQueryString original)[name]?) ∧ _ :=
    decodeHeaders_leaves hpath hconfig hroute
  unfold sentPath sentQuery
  cases hwrites : writesPath config route with
  | false => exact ⟨by rw [hsent, hwrites]; rfl, ⟨by simp, fun _ => rfl⟩, fun _ _ => rfl⟩
  | true =>
    simp only [if_true, forall_const]
    refine ⟨?_, ?_, fun hpath hclean => ?_⟩
    · rw [hsent, hwrites, if_pos rfl, u.toString_eq]
    · rw [besides_congr hparams]
      exact besides_parse_iff u original
    · have hentries : ∀ e ∈ d.request.params.toList, 38 ∉ e.1 ∧ 61 ∉ e.1 ∧ 38 ∉ e.2 := by
        intro e he
        have hvalue := Std.TreeMap.mem_toList_iff_getElem?_eq_some.1 he
        by_cases hname : e.1 ∈ P
        · exact hclean e.1 hname e.2 hvalue
        · exact parse_clean u (hparams e.1 hname ▸ hvalue)
      exact occurrences_queryText hpath (fun e he => ⟨(hentries e he).1, (hentries e he).2.1⟩)
        fun e he => (hentries e he).2.2

end

/-! ## A rewriter that does not match -/

/-- Appends to a parameter of requests that never come. -/
def idleConfig : HeaderRewriteConfig HeaderTexts HeaderTexts Bytes where
  decoder := { extractors := [],
               rewriters := [{ target := .parameter (ascii "p"), operation := .append (ascii "x"), template := ascii "x",
                               matcher := some fun _ => false }] }
  encoder := { extractors := [], rewriters := [] }
  clearRouteCache := false
  encodesHeaders := rfl

/-- Templates without expressions. -/
def plainTemplates : TemplateEnv Bytes where
  parse := .ok
  render template _ := .ok template

/-- A request with nothing but a path. -/
def toPath (path : String) : HeaderTexts := [(ascii ":path", ascii path)]

theorem idleConfig_targets : idleConfig.decoder.TargetsOnly {ascii "p"} := by
  intro r hr
  obtain rfl := List.mem_singleton.1 hr
  exact .inr ⟨_, rfl, rfl⟩

/-- A sorted query. -/
theorem sorted_kept :
    besides {ascii "p"} (sentQuery idleConfig none (ascii "/search?a=1&b=2")
        (decodeHeaders envoyQuery plainTemplates idleConfig none (toPath "/search?a=1&b=2"))) =
      besides {ascii "p"} (occurrences (ascii "/search?a=1&b=2")) :=
  (rest_kept_iff envoyQuery plainTemplates idleConfig none {ascii "p"} rfl idleConfig_targets (by simp)).2.1.2
    fun _ => by decide

/-- Names that repeat or have no `=`, in another order. -/
theorem search_rebuilt :
    idleConfig.decoder.TargetsOnly {ascii "p"} ∧
      pathOf (toPath "/search?b=2&a&b=3") = some (ascii "/search?b=2&a&b=3") ∧
      pathOf (decodeHeaders envoyQuery plainTemplates idleConfig none (toPath "/search?b=2&a&b=3")).request.headers =
        some (ascii "/search?a=&b=2") ∧
      besides {ascii "p"} (occurrences (ascii "/search?a=&b=2")) ≠
        besides {ascii "p"} (occurrences (ascii "/search?b=2&a&b=3")) :=
  ⟨idleConfig_targets, rfl, by decide, by decide⟩

end EnvoyProxy.HeaderRewrite
