import Mathlib
/-!
# Lists sorted by a key

The entries of a sorted map, and what is made from them one by one, are lists
in which keys ascend and none is there twice. Such a list is known from its
members, and the entries of a map from what its keys are mapped to.
-/

namespace EnvoyProxy

variable {κ ν α β : Type} {cmp : κ → κ → Ordering}

/-- The keys ascend, and none is there twice. -/
def SortedBy (cmp : κ → κ → Ordering) (key : α → κ) (l : List α) : Prop := l.Pairwise fun a b => cmp (key a) (key b) = .lt

instance (key : α → κ) (l : List α) : Decidable (SortedBy cmp key l) := inferInstanceAs (Decidable (List.Pairwise _ _))

namespace SortedBy

theorem filter {key : α → κ} {l : List α} (p : α → Bool) (h : SortedBy cmp key l) : SortedBy cmp key (l.filter p) :=
  List.Pairwise.filter p h

theorem map {key : β → κ} {f : α → β} {l : List α} (h : SortedBy cmp (fun a => key (f a)) l) :
    SortedBy cmp key (l.map f) :=
  List.pairwise_map.2 h

variable [Std.TransCmp cmp]

theorem not_lt_self (k : κ) : cmp k k ≠ .lt := by
  have hself : cmp k k = .eq := Std.ReflCmp.compare_self
  rw [hself]
  simp

/-- One member for each key. -/
theorem eq_of_key {key : α → κ} {l : List α} (h : SortedBy cmp key l) {a b : α} (ha : a ∈ l) (hb : b ∈ l)
    (hkey : key a = key b) : a = b := by
  by_contra hne
  have hlt : cmp (key a) (key b) = .lt ∨ cmp (key b) (key a) = .lt := by
    induction l with
    | nil => cases ha
    | cons c l ih =>
      obtain ⟨hc, hl⟩ := List.pairwise_cons.1 h
      rcases List.mem_cons.1 ha with rfl | ha'
      · rcases List.mem_cons.1 hb with rfl | hb'
        · exact absurd rfl hne
        · exact .inl (hc b hb')
      · rcases List.mem_cons.1 hb with rfl | hb'
        · exact .inr (hc a ha')
        · exact ih hl ha' hb'
  rw [hkey, or_self] at hlt
  exact not_lt_self _ hlt

theorem eq_of_mem_iff {key : α → κ} {l l' : List α} (h : SortedBy cmp key l) (h' : SortedBy cmp key l')
    (hmem : ∀ a, a ∈ l ↔ a ∈ l') : l = l' := by
  have hirrefl : Std.Irrefl fun a b : α => cmp (key a) (key b) = .lt := ⟨fun a => not_lt_self (key a)⟩
  have hantisymm : Std.Antisymm fun a b : α => cmp (key a) (key b) = .lt :=
    ⟨fun a b hab hba => absurd (Std.TransCmp.lt_trans hab hba) (not_lt_self (key a))⟩
  exact List.Pairwise.eq_of_mem_iff h h' hmem

end SortedBy

variable [Std.TransCmp cmp]

theorem sortedBy_toList (m : Std.TreeMap κ ν cmp) : SortedBy cmp (·.1) m.toList := Std.TreeMap.ordered_keys_toList

/-- Maps that agree on some keys have the same entries there. -/
theorem filter_toList_congr [Std.LawfulEqCmp cmp] {m m' : Std.TreeMap κ ν cmp} {p : κ → Bool}
    (h : ∀ k, p k = true → m[k]? = m'[k]?) :
    m.toList.filter (p ·.1) = m'.toList.filter (p ·.1) := by
  apply ((sortedBy_toList m).filter _).eq_of_mem_iff ((sortedBy_toList m').filter _)
  rintro ⟨k, v⟩
  simp only [List.mem_filter, Std.TreeMap.mem_toList_iff_getElem?_eq_some]
  apply and_congr_left
  intro hp
  rw [h k hp]

end EnvoyProxy
