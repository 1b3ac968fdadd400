import EnvoyProxy.Dubbo.JsonToHessian
/-!
# What the converters convert

By the type of a parameter, its value is converted level by level, or the
value in a string is, or the value becomes its text. `converted` says which.
-/

namespace EnvoyProxy.Dubbo
open Json

/-- The types whose values may stand in a string. -/
def loadableTypes : List Bytes :=
  ["java.lang.Boolean", "boolean", "java.lang.Float", "float", "java.lang.Double", "double", "java.lang.Byte", "byte",
    "java.lang.Short", "short", "java.lang.Integer", "int", "java.lang.Long", "long", "java.util.List", "java.util.ArrayList",
    "java.util.LinkedList", "com.alibaba.fastjson.JSONArray", "java.util.Set", "java.util.HashSet", "java.util.TreeSet",
    "java.util.LinkedHashSet", "java.util.Map", "java.util.HashMap", "java.util.TreeMap", "java.util.LinkedHashMap"].map ascii

/-- The value that is converted level by level, if there is one: a value of
type `java.lang.String` becomes its text. -/
def convertedValue (json : Rapidjson) (value : Value) (type : Bytes) : Option Value :=
  match value with
  | .null => some .null
  | .string s => if type ∈ loadableTypes then json.parse s else some value
  | _ => if type = ascii "java.lang.String" then none else some value

section Converters
variable {json : Rapidjson} {order : HashOrder}

/-- What a converter does with the values of its type. -/
def Kind (json : Rapidjson) (order : HashOrder) (e : Bytes × JsonConverter) : Prop :=
  (e.1 ∈ loadableTypes ∧ ∃ checker, (∀ s, checker (.string s) = false) ∧ e.2 = loadableJsonConverter json order checker) ∨
  (e.1 = ascii "java.lang.String" ∧ e.2 = stringJsonConverter json order) ∨
  (e.1 ∉ loadableTypes ∧ e.1 ≠ ascii "java.lang.String" ∧ ∃ checker, e.2 = strictJsonConverter json order checker)

theorem kind_loadable {type : Bytes} (htype : type ∈ loadableTypes) {checker : JsonTypeChecker}
    (hchecker : ∀ s, checker (.string s) = false) :
    Kind json order (type, loadableJsonConverter json order checker) :=
  .inl ⟨htype, checker, hchecker, rfl⟩

theorem kind_strict {type : Bytes} (htype : type ∉ loadableTypes ∧ type ≠ ascii "java.lang.String") {checker : JsonTypeChecker} :
    Kind json order (type, strictJsonConverter json order checker) := .inr (.inr ⟨htype.1, htype.2, checker, rfl⟩)

theorem typedJsonConverters_kind : ∀ e ∈ typedJsonConverters json order, Kind json order e := by
  unfold typedJsonConverters
  simp only [List.forall_mem_cons]
  iterate 14 refine ⟨kind_loadable (by decide) fun _ => rfl, ?_⟩
  refine ⟨.inr (.inl ⟨rfl, rfl⟩), ?_⟩
  iterate 8 refine ⟨kind_strict (by decide), ?_⟩
  iterate 12 refine ⟨kind_loadable (by decide) fun _ => rfl, ?_⟩
  simp

theorem string_not_loadable : ascii "java.lang.String" ∉ loadableTypes := by decide

/-- The table has the types that `convertedValue` asks for. -/
theorem typedJsonConverters_complete {type : Bytes} (h : (typedJsonConverters json order).lookup type = none) :
    type ∉ loadableTypes ∧ type ≠ ascii "java.lang.String" := by
  have hnone : ∀ e ∈ typedJsonConverters json order, type ≠ e.1 := by simpa [List.lookup_eq_none_iff] using h
  have hnames : ∀ name ∈ ascii "java.lang.String" :: loadableTypes, name ∈ (typedJsonConverters json order).map (·.1) := by
    simp [loadableTypes, typedJsonConverters]
  have hother : ∀ name ∈ ascii "java.lang.String" :: loadableTypes, type ≠ name := by
    intro name hname heq
    obtain ⟨e, he, hkey⟩ := List.mem_map.1 (hnames name hname)
    exact hnone e he (heq.trans hkey.symm)
  exact ⟨fun hmem => hother type (List.mem_cons_of_mem _ hmem) rfl, hother _ List.mem_cons_self⟩

/-- A value of its own type, or of a type that has no converter. -/
theorem convertedValue_self {value : Value} {type : Bytes} (htype : type ≠ ascii "java.lang.String")
    (hvalue : ∀ s, value = .string s → type ∉ loadableTypes) : convertedValue json value type = some value := by
  unfold convertedValue
  split
  · rfl
  · rename_i s
    exact if_neg (hvalue s rfl)
  · exact if_neg htype

/-- What the converters return: the converted value, or a text. -/
theorem converted {value : Value} {type : Bytes} {ign : Bool} {v : HessianValue}
    (h : jsonValueToHessianValue json order value type ign = .ok v) :
    (∃ u, convertedValue json value type = some u ∧ v = jsonValueToHessianValueInternal order ign u 0 []) ∨
      (convertedValue json value type = none ∧ ∃ s, v = .string s) := by
  unfold jsonValueToHessianValue at h
  split at h
  · rename_i converter hlookup
    obtain ⟨pre, post, heq, -⟩ := List.lookup_eq_some_iff.1 hlookup
    have hmem : (type, converter) ∈ typedJsonConverters json order := by simp [heq]
    rcases typedJsonConverters_kind _ hmem with ⟨htype, checker, hchecker, rfl⟩ | ⟨rfl,
      rfl⟩ | ⟨htype, hother, checker, rfl⟩
    · have hother : type ≠ ascii "java.lang.String" := by
        rintro rfl
        exact string_not_loadable htype
      unfold loadableJsonConverter at h
      split_ifs at h with hcheck
      · cases h
        refine .inl ⟨value, convertedValue_self hother ?_, rfl⟩
        rintro s rfl
        rw [hchecker s] at hcheck
        cases hcheck
      · -- the value stands in a string
        split at h
        · rename_i s
          split at h
          · cases h
          · rename_i inner hread
            split_ifs at h
            cases h
            exact .inl ⟨inner, (if_pos htype).trans hread, rfl⟩
        · cases h
    · unfold stringJsonConverter at h
      split at h
      · cases h
        exact .inl ⟨.null, rfl, rfl⟩
      · rename_i s
        cases h
        refine .inl ⟨.string s, ?_, rfl⟩
        unfold convertedValue
        exact if_neg string_not_loadable
      · rename_i hnull hstring
        cases h
        refine .inr ⟨?_, _, rfl⟩
        unfold convertedValue
        split
        · exact absurd rfl hnull
        · rename_i s
          exact absurd rfl (hstring s)
        · rw [if_pos rfl]
    · unfold strictJsonConverter at h
      split_ifs at h
      cases h
      exact .inl ⟨value, convertedValue_self hother fun _ _ => htype, rfl⟩
  · rename_i hlookup
    cases h
    obtain ⟨htype, hother⟩ := typedJsonConverters_complete hlookup
    exact .inl ⟨value, convertedValue_self hother fun _ _ => htype, rfl⟩

end Converters

end EnvoyProxy.Dubbo
