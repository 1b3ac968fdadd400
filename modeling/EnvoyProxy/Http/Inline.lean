import EnvoyProxy.Http.Headers
/-!
# Inline headers

Envoy keeps one entry for an inline header; a value that is added to it is
joined to the one that is there (`JoinsInline`). The cache, compressor and
decompressor filters of the build register `cache-control` as such a header.
`InlineList` is a map of this kind.
-/

namespace EnvoyProxy.Http

/-- `HeaderMapImpl::appendToHeader`; the delimiter is a comma, but for
`cookie`. -/
def appendToHeader (value data : HeaderString) : HeaderString :=
  if data.bytes = [] then value
  else if value.bytes = [] then data
  else
    { bytes := value.bytes ++ 44 :: data.bytes
      noNul := by simp [value.noNul, data.noNul] }

/-- How lines are added to a map. -/
class JoinsInline (H : Type) [HeaderMap H] : Prop extends LawfulAddCopy H where
  get_create : ∀ k, HeaderMap.get (HeaderMap.create : H) k = []
  get_addCopy_inline : ∀ (h : H) (k : LowerCaseString) (v : HeaderString) (e : HeaderEntry), HeaderMap.isInline H k = true →
    k ≠ headerName "cookie" → HeaderMap.get h k = [e] → HeaderMap.get (HeaderMap.addCopy h k v) k = [⟨k, appendToHeader e.value v⟩]

/-- The lines of an inline header come together in one entry, the later behind
the earlier. -/
theorem get_copyFrom_inline {H : Type} [HeaderMap H] [JoinsInline H] {k : LowerCaseString} (hinline : HeaderMap.isInline H k = true)
    (hcookie : k ≠ headerName "cookie") (lines : List HeaderEntry) :
    HeaderMap.get (HeaderMap.copyFrom lines : H) k =
      match (lines.filter (·.key = k)).map (·.value) with
      | [] => []
      | v :: vs => [⟨k, vs.foldl appendToHeader v⟩] := by
  -- by induction on the lines, the last one last
  induction lines using List.reverseRecOn with
  | nil => exact JoinsInline.get_create k
  | append_singleton lines e ih =>
    rw [HeaderMap.copyFrom, List.foldl_append, ← HeaderMap.copyFrom, List.filter_append, List.map_append]
    show HeaderMap.get (HeaderMap.addCopy (HeaderMap.copyFrom lines : H) e.key e.value) k = _
    by_cases hkey : e.key = k
    · subst hkey
      have hlast : ([e].filter (·.key = e.key)).map (·.value) = [e.value] := by simp
      rw [hlast]
      generalize (lines.filter (·.key = e.key)).map (·.value) = values at ih ⊢
      rcases values with _ | ⟨v, vs⟩
      · exact HeaderMap.get_addCopy _ e.value ih
      · rw [JoinsInline.get_addCopy_inline _ e.key e.value _ hinline hcookie ih]
        simp [List.foldl_append]
    · have hlast : ([e].filter (·.key = k)).map (·.value) = [] := by simp [hkey]
      rw [HeaderMap.get_addCopy_ne _ _ (Ne.symm hkey), ih, hlast, List.append_nil]

/-! ## A list with inline headers -/

/-- The pseudo headers and `cache-control`. -/
def inlineNames : List LowerCaseString :=
  [headerName ":authority", headerName ":method", headerName ":path", headerName ":status", headerName "cache-control"]

/-- A header map in which the inline names do not repeat. -/
structure InlineList where
  entries : HeaderList
  once : ∀ k ∈ inlineNames, (entries.filter (·.key = k)).length ≤ 1

namespace InlineList

/-- Joins a value to the entries of a name. -/
def joinTo (l : HeaderList) (k : LowerCaseString) (v : HeaderString) : HeaderList :=
  l.map fun e => if e.key = k then ⟨k, appendToHeader e.value v⟩ else e

theorem joinTo_filter (l : HeaderList) (k k' : LowerCaseString) (v : HeaderString) :
    (joinTo l k v).filter (·.key = k') = joinTo (l.filter (·.key = k')) k v := by
  unfold joinTo
  rw [List.filter_map]
  congr 1
  apply List.filter_congr
  intro e _
  by_cases hkey : e.key = k <;> simp [hkey]

def addCopy (h : InlineList) (k : LowerCaseString) (v : HeaderString) : InlineList :=
  if hjoin : k ∈ inlineNames ∧ h.entries.filter (·.key = k) ≠ [] then
    { entries := joinTo h.entries k v
      once := by
        intro k' hk'
        rw [joinTo_filter, joinTo, List.length_map]
        exact h.once k' hk' }
  else
    { entries := h.entries ++ [⟨k, v⟩]
      once := by
        intro k' hk'
        rw [List.filter_append]
        by_cases hkey : k = k'
        · subst hkey
          have hnone : h.entries.filter (·.key = k) = [] := by
            by_contra hsome
            exact hjoin ⟨hk', hsome⟩
          simp [hnone]
        · simpa [hkey] using h.once k' hk' }

theorem addCopy_fresh {h : InlineList} {k : LowerCaseString} (v : HeaderString)
    (hfresh : k ∉ inlineNames ∨ h.entries.filter (·.key = k) = []) : (h.addCopy k v).entries = h.entries ++ [⟨k, v⟩] := by
  unfold addCopy
  rw [dif_neg]
  rintro ⟨hinline, hsome⟩
  exact hfresh.elim (fun hnot => hnot hinline) hsome

theorem addCopy_joined {h : InlineList} {k : LowerCaseString} (v : HeaderString) (hinline : k ∈ inlineNames)
    (hsome : h.entries.filter (·.key = k) ≠ []) : (h.addCopy k v).entries = joinTo h.entries k v := by
  unfold addCopy
  rw [dif_pos ⟨hinline, hsome⟩]

/-- A map can be built again from its entries. -/
theorem copy_entries (l : HeaderList) (acc : InlineList) (h : ∀ k ∈ inlineNames, ((acc.entries ++ l).filter (·.key = k)).length ≤ 1) :
    (l.foldl (fun m e => addCopy m e.key e.value) acc).entries = acc.entries ++ l := by
  induction l generalizing acc with
  | nil => simp
  | cons e l ih =>
    have hadd : (acc.addCopy e.key e.value).entries = acc.entries ++ [e] := by
      refine addCopy_fresh e.value ?_
      by_cases hinline : e.key ∈ inlineNames
      · right
        have honce := h e.key hinline
        rw [List.filter_append, List.filter_cons_of_pos (by simp), List.length_append, List.length_cons] at honce
        exact List.length_eq_zero_iff.1 (by omega)
      · exact .inl hinline
    rw [List.foldl_cons, ih _ (by rwa [hadd, List.append_assoc]), hadd, List.append_assoc]
    rfl

def remove (h : InlineList) (k : LowerCaseString) : InlineList where
  entries := h.entries.filter (·.key ≠ k)
  once := by
    intro k' hk'
    rw [List.filter_comm]
    exact (List.length_filter_le _ _).trans (h.once k' hk')

def set (h : InlineList) (k : LowerCaseString) (v : HeaderString) : InlineList where
  entries := HeaderList.set h.entries k v
  once := by
    intro k' hk'
    by_cases hkey : k' = k
    · subst hkey
      rw [HeaderList.set_eq]
      simp
    · have hother : ∀ e : HeaderEntry, e.key = k' → decide (e.key ≠ k) = true := by
        rintro e rfl
        simpa using hkey
      rw [← HeaderMap.filter_key_filter hother, HeaderList.set_ne, HeaderMap.filter_key_filter hother]
      exact h.once k' hk'

instance : HeaderMap InlineList where
  create := ⟨[], by simp⟩
  iterate h := h.entries
  addCopy := addCopy
  remove := remove
  set := set
  byteSize h := (h.entries.map fun e => e.key.bytes.length + e.value.bytes.length).sum
  isInline k := decide (k ∈ inlineNames)
  iterate_copy h := copy_entries h.entries ⟨[], by simp⟩ h.once
  iterate_addCopy h k v hinline := addCopy_fresh v (.inl (by simpa using hinline))
  iterate_remove _ _ := rfl
  iterate_set_eq h := HeaderList.set_eq h.entries
  iterate_set_ne h := HeaderList.set_ne h.entries
  isInline_xCache := by decide

instance : JoinsInline InlineList where
  iterate_addCopy_eq h k v hnone := by
    show (h.addCopy k v).entries.filter (·.key = k) = _
    rw [addCopy_fresh v (.inr hnone), List.filter_append, show h.entries.filter (·.key = k) = [] from hnone]
    simp
  iterate_addCopy_ne h k v := by
    show (h.addCopy k v).entries.filter (·.key ≠ k) = h.entries.filter (·.key ≠ k)
    by_cases hjoin : k ∈ inlineNames ∧ h.entries.filter (·.key = k) ≠ []
    · rw [addCopy_joined v hjoin.1 hjoin.2, joinTo, List.filter_map]
      have hkeys : (fun e : HeaderEntry => decide (e.key ≠ k)) ∘ (fun e => if e.key = k then ⟨k, appendToHeader e.value v⟩ else e) =
          fun e => decide (e.key ≠ k) := by
        funext e
        by_cases hkey : e.key = k <;> simp [hkey]
      rw [hkeys]
      refine (List.map_congr_left fun e he => if_neg ?_).trans (List.map_id' _)
      simpa using (List.mem_filter.1 he).2
    · rw [addCopy_fresh v (by tauto), List.filter_append]
      simp
  isInline_xDowngradeStatus := by decide
  get_create _ := rfl
  get_addCopy_inline h k v e hinline _ hget := by
    have hentry : h.entries.filter (·.key = k) = [e] := hget
    have hmem : e ∈ h.entries.filter (·.key = k) := hentry ▸ List.mem_singleton_self e
    have hkey : e.key = k := of_decide_eq_true (List.mem_filter.1 hmem).2
    show (h.addCopy k v).entries.filter (·.key = k) = _
    rw [addCopy_joined v (of_decide_eq_true hinline) (by simp [hentry]), joinTo_filter, hentry]
    simp [joinTo, hkey]

end InlineList

end EnvoyProxy.Http
