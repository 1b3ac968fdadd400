import EnvoyProxy.Http.Headers
import EnvoyProxy.Lib.Stores
/-!
# The metadata hub

The filter of metadata_hub.cc copies headers and route metadata into the
filter state of a stream: headers read-only, metadata mutable. It never asks
what is there already. Each call is a row of writes, and so is a stream; the
filter gets through a stream if these writes are compatible.
-/

namespace EnvoyProxy.MetadataHub
open Http

/-! ## Configuration -/

structure Record where
  name : Bytes
  rename : Bytes

structure ProtoCommonConfig where
  setToMetadata : List Record := []
  decodeHeadersToState : List Record := []
  encodeHeadersToState : List Record := []
  routeMetadataToState : List Bytes := []

/-- A header and the name of the state it is copied to, in lower case. -/
structure HeaderToState where
  rename : Bytes
  name : Bytes

/-- `HANDLE_HEADERS_TO_STATE` -/
def headersToState (records : List Record) : List HeaderToState :=
  records.filterMap fun record =>
    if record.name = [] then none
    else some ⟨toLower (if record.rename = [] then record.name else record.rename), toLower record.name⟩

structure MetadataHubCommonConfig where
  decodeHeadersToState : List HeaderToState
  encodeHeadersToState : List HeaderToState
  routeMetadataToState : List Bytes

def MetadataHubCommonConfig.create (config : ProtoCommonConfig) : MetadataHubCommonConfig where
  decodeHeadersToState := headersToState (config.decodeHeadersToState ++ config.setToMetadata)
  encodeHeadersToState := headersToState config.encodeHeadersToState
  routeMetadataToState := config.routeMetadataToState

/-! ## The filter -/

/-- `MetadataToSimpleMap` -/
abbrev SimpleMap := Std.TreeMap Bytes Bytes compare

structure Route where
  hasRouteEntry : Bool
  typedMetadata : Bytes → Option SimpleMap

/-- The filter state of a stream, and its active span. -/
structure Stream (S : Type) where
  filterState : S
  operation : Bytes := []
  tags : List (Bytes × Bytes) := []

section Model
variable {H R S E : Type} [HeaderMap H] [HeaderMap R] [StateStore S Bytes Bytes E]

/-- The first value of a header; empty without the header. -/
def valueOf (headers : H) (name : Bytes) : Bytes :=
  (((HeaderMap.iterate headers).find? (·.key.bytes = name)).map (·.value.bytes)).getD []

def setHeader (headers : H) (s : Stream S) (record : HeaderToState) : Except E (Stream S) :=
  if valueOf headers record.name = [] then .ok s
  else do
    let state ← StateStore.setData s.filterState record.rename (valueOf headers record.name) .ReadOnly
    return { s with filterState := state }

def setPair (s : Stream S) (pair : Bytes × Bytes) : Except E (Stream S) := do
  let state ← StateStore.setData s.filterState pair.1 pair.2 .Mutable
  return { s with filterState := state, tags := s.tags ++ [pair] }

def metadataToState (typedMetadata : Bytes → Option SimpleMap) (s : Stream S) (ns : Bytes) : Except E (Stream S) :=
  match typedMetadata ns with
  | none => .ok s
  | some metadata => metadata.toList.foldlM setPair s

variable (config : MetadataHubCommonConfig) (removeQueryAndFragment : Bytes → Bytes)

def decodeHeaders (headers : H) (route : Option Route) (s : Stream S) : Except E (Stream S) := do
  let s := { s with operation := removeQueryAndFragment (valueOf headers (ascii ":path")) }
  let s ← config.decodeHeadersToState.foldlM (setHeader headers) s
  if config.routeMetadataToState = [] then return s
  else
    match route with
    | none => return s
    | some route =>
      if route.hasRouteEntry then config.routeMetadataToState.foldlM (metadataToState route.typedMetadata) s
      else return s

def encodeHeaders (headers : R) (s : Stream S) : Except E (Stream S) :=
  config.encodeHeadersToState.foldlM (setHeader headers) s

/-- A call on the filter of one stream. -/
inductive Call (H R : Type)
  | decodeHeaders (headers : H) (route : Option Route)
  | encodeHeaders (headers : R)

def step (s : Stream S) : Call H R → Except E (Stream S)
  | .decodeHeaders headers route => decodeHeaders config removeQueryAndFragment headers route s
  | .encodeHeaders headers => encodeHeaders config headers s

end Model

/-! ## What is written -/

/-- The headers of the records, if they have a value. -/
def headerWrites {H : Type} [HeaderMap H] (records : List HeaderToState) (headers : H) : List (Write Bytes Bytes) :=
  records.flatMap fun record =>
    if valueOf headers record.name = [] then [] else [⟨record.rename, valueOf headers record.name, .ReadOnly⟩]

/-- The values of a namespace. -/
def metadataWrites (typedMetadata : Bytes → Option SimpleMap) (ns : Bytes) : List (Write Bytes Bytes) :=
  match typedMetadata ns with
  | none => []
  | some metadata => metadata.toList.flatMap fun pair => [⟨pair.1, pair.2, .Mutable⟩]

/-- The metadata of the configured namespaces, if there is a route. -/
def routeWrites (config : MetadataHubCommonConfig) : Option Route → List (Write Bytes Bytes)
  | none => []
  | some route => if route.hasRouteEntry then config.routeMetadataToState.flatMap (metadataWrites route.typedMetadata) else []

def Call.writes {H R : Type} [HeaderMap H] [HeaderMap R] (config : MetadataHubCommonConfig) : Call H R → List (Write Bytes Bytes)
  | .decodeHeaders headers route => headerWrites config.decodeHeadersToState headers ++ routeWrites config route
  | .encodeHeaders headers => headerWrites config.encodeHeadersToState headers

section Writes
variable {H R S E : Type} [HeaderMap H] [HeaderMap R] [StateStore S Bytes Bytes E]
variable (config : MetadataHubCommonConfig) (removeQueryAndFragment : Bytes → Bytes)

/-- The filter state goes through these writes, or throws where they throw. -/
def Sets (f : Stream S → Except E (Stream S)) (ws : List (Write Bytes Bytes)) : Prop :=
  ∀ s, (f s).map (·.filterState) = StateStore.setAll s.filterState ws

theorem sets_nil : Sets (.ok : Stream S → Except E (Stream S)) [] := fun _ => rfl

theorem Sets.append {f g : Stream S → Except E (Stream S)} {ws ws' : List (Write Bytes Bytes)}
    (hf : Sets f ws) (hg : Sets g ws') :
    Sets (fun s => f s >>= g) (ws ++ ws') := by
  intro s
  show (f s >>= g).map _ = _
  rw [StateStore.setAll_append, ← hf s]
  cases f s with
  | error e => rfl
  | ok s' => exact hg s'

theorem sets_foldlM {α : Type} {f : Stream S → α → Except E (Stream S)} {w : α → List (Write Bytes Bytes)}
    (h : ∀ a, Sets (fun s => f s a) (w a)) (l : List α) : Sets (fun s => l.foldlM f s) (l.flatMap w) := by
  induction l with
  | nil => exact sets_nil
  | cons a l ih => exact (h a).append ih

theorem setHeader_sets (headers : H) (record : HeaderToState) :
    Sets (fun s : Stream S => setHeader headers s record)
      (if valueOf headers record.name = [] then []
        else [⟨record.rename, valueOf headers record.name, .ReadOnly⟩]) := by
  intro s
  unfold setHeader
  split_ifs
  · rfl
  · show Except.map _ (StateStore.setData _ _ _ _ >>= _) = (StateStore.setData _ _ _ _ >>= _)
    cases StateStore.setData s.filterState record.rename (valueOf headers record.name) .ReadOnly with
    | ok state => rfl
    | error e => rfl

theorem setPair_sets (pair : Bytes × Bytes) :
    Sets (fun s : Stream S => setPair s pair) [⟨pair.1, pair.2, .Mutable⟩] := by
  intro s
  show Except.map _ (StateStore.setData _ _ _ _ >>= _) = (StateStore.setData _ _ _ _ >>= _)
  cases StateStore.setData s.filterState pair.1 pair.2 .Mutable with
  | ok state => rfl
  | error e => rfl

theorem metadataToState_sets (typedMetadata : Bytes → Option SimpleMap) (ns : Bytes) :
    Sets (fun s : Stream S => metadataToState typedMetadata s ns) (metadataWrites typedMetadata ns) := by
  unfold metadataToState metadataWrites
  cases typedMetadata ns with
  | none => exact sets_nil
  | some metadata => exact sets_foldlM setPair_sets metadata.toList

/-- Without namespaces there is nothing to write. -/
theorem routeWrites_nil (h : config.routeMetadataToState = []) (route : Option Route) :
    routeWrites config route = [] := by
  cases route with
  | none => rfl
  | some route => simp [routeWrites, h]

theorem decodeHeaders_sets (headers : H) (route : Option Route) :
    Sets (fun s : Stream S => decodeHeaders config removeQueryAndFragment headers route s)
      (headerWrites config.decodeHeadersToState headers ++ routeWrites config route) := by
  have hheaders := sets_foldlM (fun record => setHeader_sets (S := S) headers record) config.decodeHeadersToState
  have hroute : Sets (fun s : Stream S =>
      if config.routeMetadataToState = [] then .ok s
      else
        match route with
        | none => .ok s
        | some route =>
          if route.hasRouteEntry then
            config.routeMetadataToState.foldlM (metadataToState route.typedMetadata) s
          else .ok s)
      (routeWrites config route) := by
    by_cases hnone : config.routeMetadataToState = []
    · simp only [hnone, if_true, routeWrites_nil config hnone]
      exact sets_nil
    · simp only [hnone, if_false]
      cases route with
      | none => exact sets_nil
      | some route =>
        simp only [routeWrites]
        split_ifs
        · exact sets_foldlM (metadataToState_sets route.typedMetadata) _
        · exact sets_nil
  intro s
  exact hheaders.append hroute { s with operation := removeQueryAndFragment (valueOf headers (ascii ":path")) }

theorem step_sets (call : Call H R) :
    Sets (fun s : Stream S => step config removeQueryAndFragment s call) (call.writes config) := by
  cases call with
  | decodeHeaders headers route => exact decodeHeaders_sets config removeQueryAndFragment headers route
  | encodeHeaders headers => exact sets_foldlM (setHeader_sets headers) config.encodeHeadersToState

/-- A stream gets through all calls of the filter exactly if the names that the
filter has headers or metadata for are compatible: each name from a header is
new to the filter state and comes once, and none is a name in the metadata. -/
theorem run_isOk_iff (calls : List (Call H R)) (s : Stream S) :
    (∃ s', calls.foldlM (step config removeQueryAndFragment) s = .ok s') ↔
      StateStore.Compatible s.filterState (calls.flatMap (Call.writes config)) := by
  have hrun : (calls.foldlM (step config removeQueryAndFragment) s).map (·.filterState) =
      StateStore.setAll s.filterState (calls.flatMap (Call.writes config)) :=
    sets_foldlM (step_sets config removeQueryAndFragment) calls s
  rw [← StateStore.setAll_isOk_iff, ← hrun]
  cases calls.foldlM (step config removeQueryAndFragment) s with
  | ok s' => exact ⟨fun _ => ⟨_, rfl⟩, fun _ => ⟨_, rfl⟩⟩
  | error e =>
    constructor
    · rintro ⟨s', h⟩
      cases h
    · rintro ⟨s', h⟩
      cases h

end Writes

/-! ## A filter state in a map -/

abbrev StateMap := Std.TreeMap Bytes (StateType × Bytes) compare

/-- `FilterStateImpl::setData` -/
def StateMap.setData (m : StateMap) (name value : Bytes) (type : StateType) : Except Bytes StateMap :=
  match m[name]?.map Prod.fst with
  | none => .ok (m.insert name (type, value))
  | some .ReadOnly => .error (ascii "FilterState::setData<T> called twice on same ReadOnly state.")
  | some .Mutable =>
    if type = .Mutable then .ok (m.insert name (type, value))
    else .error (ascii "FilterState::setData<T> called twice with different state types.")

instance : StateStore StateMap Bytes Bytes Bytes where
  typeOf m name := m[name]?.map Prod.fst
  setData := StateMap.setData
  setData_isOk m name value type := by
    unfold StateMap.setData
    cases m[name]?.map Prod.fst with
    | none => exact ⟨fun _ => .inl rfl, fun _ => ⟨_, rfl⟩⟩
    | some old => cases old <;> cases type <;> simp [Except.ok.injEq]
  typeOf_setData m name value type m' h name' := by
    have hm : m' = m.insert name (type, value) := by
      unfold StateMap.setData at h
      split at h
      · exact (Except.ok.inj h).symm
      · cases h
      · split_ifs at h
        exact (Except.ok.inj h).symm
    rw [hm, Std.TreeMap.getElem?_insert]
    by_cases hname : name' = name
    · simp [hname]
    · rw [if_neg hname, if_neg fun he => hname (Std.LawfulEqCmp.eq_of_compare he).symm]

/-- Two headers under one name. -/
def userRecords : MetadataHubCommonConfig :=
  .create { decodeHeadersToState := [⟨ascii "X-User", ascii "user"⟩, ⟨ascii "X-Account", ascii "user"⟩] }

def withBoth : HeaderList := [⟨headerName ":path", headerValue "/"⟩, ⟨headerName "x-user", headerValue "bob"⟩,
  ⟨headerName "x-account", headerValue "7"⟩]

/-- A request that has both headers makes the filter throw. -/
theorem user_twice : ¬ ∃ s', [(.decodeHeaders withBoth none : Call HeaderList HeaderList)].foldlM
    (step (S := StateMap) userRecords id) { filterState := ∅ } = .ok s' := by
  rintro ⟨s', h⟩
  have herror : [(.decodeHeaders withBoth none : Call HeaderList HeaderList)].foldlM
      (step (S := StateMap) userRecords id)
      { filterState := ∅ } = .error (ascii "FilterState::setData<T> called twice on same ReadOnly state.") := by rfl
  rw [herror] at h
  cases h

end EnvoyProxy.MetadataHub
