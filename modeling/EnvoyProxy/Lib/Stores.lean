import Mathlib
/-!
# Stores with read-only names

A store in which a name is read-only or mutable from its first write on.
Read-only names are written once, and a mutable name stays mutable; any other
write throws. We say for a row of writes when all of them are taken: it
depends on the names alone, not on the order of the writes.
-/

namespace EnvoyProxy

inductive StateType
  | ReadOnly
  | Mutable
  deriving DecidableEq

/-- `typeOf` is what a name is; `setData` throws when the name has read-only
data or data of another type. -/
class StateStore (S : Type) (K V E : outParam Type) [DecidableEq K] where
  typeOf : S → K → Option StateType
  setData : S → K → V → StateType → Except E S
  setData_isOk : ∀ s k v t, (∃ s', setData s k v t = .ok s') ↔ typeOf s k = none ∨ (typeOf s k = some .Mutable ∧ t = .Mutable)
  typeOf_setData : ∀ s k v t s', setData s k v t = .ok s' → ∀ k', typeOf s' k' = if k' = k then some t else typeOf s k'

structure Write (K V : Type) where
  name : K
  value : V
  type : StateType

namespace Write
variable {K V : Type}

/-- The names that are written read-only. -/
def readOnly (ws : List (Write K V)) : List K := (ws.filter (·.type = .ReadOnly)).map (·.name)

/-- The names that are written mutable. -/
def mutable (ws : List (Write K V)) : List K := (ws.filter (·.type = .Mutable)).map (·.name)

@[simp] theorem readOnly_cons (w : Write K V) (ws : List (Write K V)) :
    readOnly (w :: ws) = if w.type = .ReadOnly then w.name :: readOnly ws else readOnly ws := by
  unfold readOnly
  split_ifs with h <;> simp [h]

@[simp] theorem mutable_cons (w : Write K V) (ws : List (Write K V)) :
    mutable (w :: ws) = if w.type = .Mutable then w.name :: mutable ws else mutable ws := by
  unfold mutable
  split_ifs with h <;> simp [h]

end Write

namespace StateStore
variable {S K V E : Type} [DecidableEq K] [StateStore S K V E]

/-- Writes, one after the other. -/
def setAll (s : S) (ws : List (Write K V)) : Except E S := ws.foldlM (fun s w => setData s w.name w.value w.type) s

theorem setAll_append (s : S) (ws ws' : List (Write K V)) :
    setAll s (ws ++ ws') = (setAll s ws >>= fun s' => setAll s' ws') :=
  List.foldlM_append

/-- Each read-only name is new and is written once, and nothing mutable is
written over read-only data. -/
def Compatible (s : S) (ws : List (Write K V)) : Prop :=
  (Write.readOnly ws).Nodup ∧ (∀ k ∈ Write.readOnly ws, k ∉ Write.mutable ws ∧ typeOf s k = none) ∧
    ∀ k ∈ Write.mutable ws, typeOf s k ≠ some .ReadOnly

theorem compatible_nil (s : S) : Compatible s ([] : List (Write K V)) :=
  ⟨List.nodup_nil, fun _ h => absurd h List.not_mem_nil, fun _ h => absurd h List.not_mem_nil⟩

/-- One write more, in front. -/
theorem compatible_cons {s s' : S} {w : Write K V} {ws : List (Write K V)}
    (h : setData s w.name w.value w.type = .ok s') :
    Compatible s (w :: ws) ↔ Compatible s' ws := by
  have hallowed := (setData_isOk s w.name w.value w.type).1 ⟨s', h⟩
  have htype := typeOf_setData s w.name w.value w.type s' h
  unfold Compatible
  cases hw : w.type with
  | ReadOnly =>
    have hnew : typeOf s w.name = none := by simpa [hw] using hallowed
    simp only [Write.readOnly_cons, Write.mutable_cons, hw, if_true, reduceCtorEq, if_false,
      List.nodup_cons, List.forall_mem_cons]
    grind
  | Mutable =>
    have hnot : typeOf s w.name ≠ some .ReadOnly := by rcases hallowed with h | ⟨h, -⟩ <;> simp [h]
    simp only [Write.readOnly_cons, Write.mutable_cons, hw, if_true, reduceCtorEq, if_false, List.mem_cons, not_or]
    grind

/-- The first of compatible writes is taken. -/
theorem Compatible.head {s : S} {w : Write K V} {ws : List (Write K V)} (h : Compatible s (w :: ws)) :
    ∃ s', setData s w.name w.value w.type = .ok s' := by
  obtain ⟨-, hro, hmu⟩ := h
  apply (setData_isOk s w.name w.value w.type).2
  cases hw : w.type with
  | ReadOnly =>
    left
    exact (hro w.name (by simp [hw])).2
  | Mutable =>
    have hnot := hmu w.name (by simp [hw])
    cases htype : typeOf s w.name with
    | none => exact .inl rfl
    | some type =>
      cases type with
      | ReadOnly => exact absurd htype hnot
      | Mutable => exact .inr ⟨rfl, rfl⟩

theorem setAll_isOk_iff (s : S) (ws : List (Write K V)) : (∃ s', setAll s ws = .ok s') ↔ Compatible s ws := by
  induction ws generalizing s with
  | nil => exact ⟨fun _ => compatible_nil s, fun _ => ⟨s, rfl⟩⟩
  | cons w ws ih =>
    have hcons : setAll s (w :: ws) =
        (setData s w.name w.value w.type >>= fun s' => setAll s' ws) := List.foldlM_cons
    rw [hcons]
    cases hset : setData s w.name w.value w.type with
    | ok s' => exact (ih s').trans (compatible_cons hset).symm
    | error e =>
      constructor
      · rintro ⟨s', h⟩
        cases h
      · intro h
        obtain ⟨s', hs'⟩ := h.head
        rw [hset] at hs'
        cases hs'

end StateStore

end EnvoyProxy
