import EnvoyProxy.Lib.Runs
import EnvoyProxy.Rider.PluginHandle
/-!
# The Lua machines of a worker

A worker has one Lua machine for each `vm_id` in use. The plugins that ask for
it share it: `getOrCreateThreadLocalLuaVM` (vm.cc) finds it through a weak
pointer, and it lives as long as a handle of one of them or a stream's filter
does.
`handles_isolated`: plugins share a machine exactly when they ask for the same
one, and what others do never touches a living plugin's functions.
`registry_exact`: what is left behind in a machine, function by function.
-/

namespace EnvoyProxy.Rider

/-! ## One machine -/

/-- A plugin that has been started, with what its script returned. -/
structure StartedPlugin (F : Type) where
  vmId : Bytes
  exports : Field → LuaValue F
  handle : PluginHandle

/-- `LuaVirtualMachine`, with the registry of its state and the plugins that
run on it. -/
structure LuaVirtualMachine (F : Type) where
  vmId : Bytes
  packagePath : Bytes
  registry : Registry F := []
  /-- The keys of threads, shared tables and whatever else is not a handler. -/
  others : List Nat := []
  handles : List (StartedPlugin F) := []
  /-- The plugins whose handle has been destroyed. -/
  ended : List (StartedPlugin F) := []
  /-- The filters of streams: their contexts hold the machine too. -/
  streams : Nat := 0

/-- The table that a script has returned. -/
def Loaded.exports {F : Type} : Loaded F → Field → LuaValue F
  | .table t => t
  | _ => fun _ => .nil

namespace LuaVirtualMachine
variable {F : Type} (keys : Keys F)

/-- A weak pointer to the machine can be locked. -/
def alive (vm : LuaVirtualMachine F) : Bool := !vm.handles.isEmpty || vm.streams != 0

/-- `startPlugin`. When the script or its `on_configure` fails, the handle is
destroyed at once; an error that Lua raises on its own ends the process. -/
def startPlugin (vmId : Bytes) (loaded : Loaded F) (configured : Bool) (vm : LuaVirtualMachine F) :
    Except LuaException (LuaVirtualMachine F) :=
  match startPluginHandle keys loaded vm.registry with
  | .error .badArgument => .error .badArgument
  | .error _ => .ok vm
  | .ok (handle, registry) =>
    let started : StartedPlugin F := { vmId, exports := loaded.exports, handle }
    if (handle.ref .onConfigure).isSome && !configured then
      .ok { vm with registry := handle.destroy registry, ended := vm.ended ++ [started] }
    else .ok { vm with registry, handles := vm.handles ++ [started] }

def destroyHandle (i : Nat) (vm : LuaVirtualMachine F) : LuaVirtualMachine F :=
  match vm.handles[i]? with
  | none => vm
  | some started =>
    { vm with
      registry := started.handle.destroy vm.registry
      handles := vm.handles.eraseIdx i
      ended := vm.ended ++ [started] }

/-- A stream gets a filter of one of the plugins. -/
def openStream (i : Nat) (vm : LuaVirtualMachine F) : LuaVirtualMachine F :=
  if i < vm.handles.length then { vm with streams := vm.streams + 1 } else vm

def closeStream (vm : LuaVirtualMachine F) : LuaVirtualMachine F := { vm with streams := vm.streams - 1 }

/-- Somebody else keeps a value in the registry. -/
def refOther (value : F) (vm : LuaVirtualMachine F) : LuaVirtualMachine F :=
  { vm with registry := (keys.key vm.registry, value) :: vm.registry, others := keys.key vm.registry :: vm.others }

/-- Somebody else gives a value back. -/
def unrefOther (key : Nat) (vm : LuaVirtualMachine F) : LuaVirtualMachine F :=
  if key ∈ vm.others then { vm with registry := luaLUnref vm.registry key, others := vm.others.erase key } else vm

end LuaVirtualMachine

/-! ## The machines of a worker -/

structure WorkerMachines (F : Type) where
  machines : Nat → LuaVirtualMachine F := fun _ => { vmId := [], packagePath := [] }
  made : Nat := 0
  /-- `local_lua_virtual_machines` -/
  localLuaVirtualMachines : Bytes → Option Nat := fun _ => none

/-- What happens on a worker. Each event that takes references brings the keys
that `luaL_ref` gives it: what the free list holds by then is left open. -/
inductive MachineEvent (F : Type)
  /-- A plugin starts: whether its package path can be added, what its script
  returns and whether `on_configure` succeeds. -/
  | start (vmId packagePath : Bytes) (opened : Bool) (loaded : Loaded F) (configured : Bool) (keys : Keys F)
  | destroy (machine i : Nat)
  | openStream (machine i : Nat)
  | closeStream (machine : Nat)
  | refOther (machine : Nat) (value : F) (keys : Keys F)
  | unrefOther (machine key : Nat)

namespace WorkerMachines
variable {F : Type}

/-- The machine, unless its constructor throws. A pointer that has expired is
erased either way. -/
def getOrCreateThreadLocalLuaVM (vmId packagePath : Bytes) (opened : Bool) (w : WorkerMachines F) : WorkerMachines F × Option Nat :=
  match (w.localLuaVirtualMachines vmId).filter fun m => (w.machines m).alive with
  | some m => (w, some m)
  | none =>
    if opened then
      ({ machines := Function.update w.machines w.made { vmId, packagePath }
         made := w.made + 1
         localLuaVirtualMachines := Function.update w.localLuaVirtualMachines vmId (some w.made) }, some w.made)
    else ({ w with localLuaVirtualMachines := Function.update w.localLuaVirtualMachines vmId none }, none)

def set (w : WorkerMachines F) (m : Nat) (vm : LuaVirtualMachine F) : WorkerMachines F :=
  { w with machines := Function.update w.machines m vm }

def step (w : WorkerMachines F) : MachineEvent F → Except LuaException (WorkerMachines F)
  | .start vmId packagePath opened loaded configured keys =>
    match w.getOrCreateThreadLocalLuaVM vmId packagePath opened with
    | (w, none) => .ok w
    | (w, some m) => do return w.set m (← (w.machines m).startPlugin keys vmId loaded configured)
  | .destroy m i => .ok (w.set m ((w.machines m).destroyHandle i))
  | .openStream m i => .ok (w.set m ((w.machines m).openStream i))
  | .closeStream m => .ok (w.set m (w.machines m).closeStream)
  | .refOther m value keys => .ok (w.set m ((w.machines m).refOther keys value))
  | .unrefOther m key => .ok (w.set m ((w.machines m).unrefOther key))

end WorkerMachines

/-! ## What a plugin holds -/

/-- The fields that are looked at. -/
def looked {F : Type} (t : Field → LuaValue F) : List Field :=
  match optString (t .version) with
  | .ok rawVersion => .onConfigure :: handlerFields rawVersion
  | .error _ => []

/-- The fields whose references `~PluginHandle` gives back. -/
def releasedFields : List Field := [.onConfigure, .onRequest, .onResponse]

namespace StartedPlugin
variable {F : Type} (p : StartedPlugin F)

/-- The function that a reference was taken to. -/
def taken (field : Field) : Option F := if field ∈ looked p.exports then (p.exports field).function? else none

/-- The keys that a handle gives back. -/
def released : List Nat := releasedFields.filterMap p.handle.ref

/-- The keys that it does not give back. -/
def leaked : List Nat := headerBodyFields.filterMap p.handle.ref

/-- There is a reference for each function. -/
def Matches : Prop := ∀ field, (p.handle.ref field).isSome = (p.taken field).isSome

/-- Each reference leads to its function. -/
def Found (r : Registry F) : Prop := ∀ field, (p.handle.ref field).bind (luaRawgeti r) = p.taken field

end StartedPlugin

section
variable {F : Type} {p : StartedPlugin F} {r r' : Registry F}

theorem mem_looked {t : Field → LuaValue F} {field : Field} (h : field ∈ looked t) :
    field ∈ releasedFields ++ headerBodyFields := by
  unfold looked at h
  split at h
  · rename_i rawVersion _
    cases rawVersion with
    | none =>
      revert h
      cases field <;> decide
    | some text =>
      have h' : field ∈ Field.onConfigure :: headerBodyFields := h
      revert h'
      cases field <;> decide
  · cases h

/-- All references are to fields of either kind. -/
theorem StartedPlugin.Matches.mem_keys (h : p.Matches) {field : Field} {key : Nat} (href : p.handle.ref field = some key) :
    key ∈ p.released ++ p.leaked := by
  have htaken := h field
  rw [href, StartedPlugin.taken] at htaken
  split_ifs at htaken with hlooked
  · have hfield := mem_looked hlooked
    rw [StartedPlugin.released, StartedPlugin.leaked, ← List.filterMap_append]
    exact List.mem_filterMap.2 ⟨field, hfield, href⟩
  · cases htaken

theorem StartedPlugin.Found.congr (h : p.Found r)
    (hr : ∀ field key, p.handle.ref field = some key → luaRawgeti r' key = luaRawgeti r key) :
    p.Found r' := by
  intro field
  rw [← h field]
  cases href : p.handle.ref field with
  | none => rfl
  | some key => exact hr field key href

theorem luaRawgeti_ne_none {key : Nat} : luaRawgeti r key ≠ none ↔ key ∈ r.map (·.1) := by
  unfold luaRawgeti
  rw [ne_eq, List.lookup_eq_none_iff]
  constructor
  · intro h
    by_contra hmem
    refine h fun e he => bne_iff_ne.2 ?_
    rintro rfl
    exact hmem (List.mem_map_of_mem he)
  · intro hmem h
    obtain ⟨e, he, rfl⟩ := List.mem_map.1 hmem
    exact bne_iff_ne.1 (h e he) rfl

theorem luaLUnref_keys (r : Registry F) (key : Nat) : (luaLUnref r key).map (·.1) = (r.map (·.1)).filter (· ≠ key) := by
  unfold luaLUnref
  rw [List.filter_map]
  rfl

/-- A handle takes its keys out of the registry. -/
theorem destroy_keys (p : StartedPlugin F) (r : Registry F) :
    (p.handle.destroy r).map (·.1) = (r.map (·.1)).filter (· ∉ p.released) := by
  have hall : ∀ (fields : List Field) (r : Registry F),
      (fields.foldl (fun r field => (p.handle.ref field).elim r (luaLUnref r)) r).map (·.1) =
        (r.map (·.1)).filter (· ∉ fields.filterMap p.handle.ref) := by
    intro fields
    induction fields with
    | nil => simp
    | cons field fields ih =>
      intro r
      rw [List.foldl_cons, ih, List.filterMap_cons]
      cases p.handle.ref field with
      | none => rfl
      | some key =>
        rw [Option.elim_some, luaLUnref_keys, List.filter_filter]
        congr 1
        funext key'
        simp [Bool.and_comm]
  exact hall releasedFields r

/-- What is left of keys when some of them are given back. -/
theorem filter_released {released rest : List Nat} (h : (released ++ rest).Nodup) :
    (released ++ rest).filter (· ∉ released) = rest := by
  have hdisjoint := List.disjoint_of_nodup_append h
  rw [List.filter_append, List.filter_eq_nil_iff.2 (by simp), List.nil_append, List.filter_eq_self.2]
  intro key hkey
  exact decide_eq_true fun hmem => hdisjoint hmem hkey

end

/-! ## A plugin starts -/

section
variable {F : Type} {keys : Keys F} {t : Field → LuaValue F} {r r' : Registry F} {handle : PluginHandle}

theorem takeRef_nodup (t : Field → LuaValue F) {s : PluginHandle × Registry F} (h : (s.2.map (·.1)).Nodup) (field : Field) :
    ((takeRef keys t s field).2.map (·.1)).Nodup := by
  unfold takeRef
  cases t field with
  | function f =>
    refine List.nodup_cons.2 ⟨?_, h⟩
    rw [← luaRawgeti_ne_none, not_not]
    exact keys.unused s.2
  | _ => exact h

/-- A plugin that starts adds the keys of its handle to the registry. -/
structure Starts (p : StartedPlugin F) (r r' : Registry F) : Prop where
  keys : (r'.map (·.1)).Perm (p.released ++ p.leaked ++ r.map (·.1))
  nodup : (p.released ++ p.leaked ++ r.map (·.1)).Nodup
  kept : ∀ key, luaRawgeti r key ≠ none → luaRawgeti r' key = luaRawgeti r key
  found : p.Found r'
  isTaken : p.Matches

theorem startPluginHandle_starts (vmId : Bytes) (h : startPluginHandle keys (.table t) r = .ok (handle, r'))
    (hr : (r.map (·.1)).Nodup) : Starts ⟨vmId, t, handle⟩ r r' := by
  obtain ⟨rawVersion, hraw, -, htaken⟩ := startPluginHandle_taken h
  have hlooked : ∀ field, field ∈ (Field.onConfigure :: handlerFields rawVersion).reverse ++ [] ↔ field ∈ looked t := by
    intro field
    unfold looked
    rw [hraw]
    simp [or_comm]
  have hfound : ∀ field, (handle.ref field).bind (luaRawgeti r') = if field ∈ looked t then (t field).function? else none := by
    intro field
    rw [htaken.found field]
    simp only [hlooked]
  have hmatches : StartedPlugin.Matches ⟨vmId, t, handle⟩ := by
    intro field
    rw [StartedPlugin.taken, ← hfound field]
    cases href : handle.ref field with
    | none => rfl
    | some key =>
      obtain ⟨f, hf⟩ := Option.ne_none_iff_exists'.1 (htaken.new field key href).2
      rw [Option.bind_some, hf]
      rfl
  have hnew : ∀ key ∈ (releasedFields ++ headerBodyFields).filterMap handle.ref,
      luaRawgeti r key = none ∧ luaRawgeti r' key ≠ none := by
    intro key hkey
    obtain ⟨field, -, href⟩ := List.mem_filterMap.1 hkey
    exact htaken.new field key href
  have hnodup : ((releasedFields ++ headerBodyFields).filterMap handle.ref ++ r.map (·.1)).Nodup := by
    refine List.Nodup.append (List.Nodup.filterMap ?_ (by decide)) hr ?_
    · intro field field' key href href'
      exact htaken.distinct field field' key href href'
    · intro key hkey hold
      exact luaRawgeti_ne_none.2 hold (hnew key hkey).1
  have hnodup' : (r'.map (·.1)).Nodup := by
    unfold startPluginHandle at h
    simp only [hraw] at h
    have hresult : (Field.onConfigure :: handlerFields rawVersion).foldl (takeRef keys t)
        ({ version := resolveVersion rawVersion }, r) = (handle, r') := by injection h
    have hall : ∀ (fields : List Field) (s : PluginHandle × Registry F), (s.2.map (·.1)).Nodup →
        ((fields.foldl (takeRef keys t) s).2.map (·.1)).Nodup := by
      intro fields
      induction fields with
      | nil => exact fun _ h => h
      | cons field fields ih => exact fun s h => ih _ (takeRef_nodup t h field)
    have hstart := hall (.onConfigure :: handlerFields rawVersion) ({ version := resolveVersion rawVersion }, r) hr
    rw [hresult] at hstart
    exact hstart
  have hsplit : StartedPlugin.released ⟨vmId, t, handle⟩ ++ StartedPlugin.leaked ⟨vmId, t, handle⟩ =
      (releasedFields ++ headerBodyFields).filterMap handle.ref := List.filterMap_append.symm
  refine ⟨?_, ?_, htaken.kept, hfound, hmatches⟩
  · rw [hsplit, List.perm_ext_iff_of_nodup hnodup' hnodup]
    intro key
    rw [← luaRawgeti_ne_none, List.mem_append, ← luaRawgeti_ne_none]
    constructor
    · intro hkey
      by_cases hold : luaRawgeti r key = none
      · obtain ⟨field, href⟩ := htaken.known key hold hkey
        rw [← hsplit]
        exact .inl (hmatches.mem_keys href)
      · exact .inr hold
    · rintro (hkey | hold)
      · exact (hnew key hkey).2
      · rwa [htaken.kept key hold]
  · rw [hsplit]
    exact hnodup

end

/-! ## What a machine holds -/

namespace LuaVirtualMachine
variable {F : Type} {keys : Keys F} {vm vm' : LuaVirtualMachine F}

/-- The keys that somebody holds, or that somebody has not given back. -/
def held (vm : LuaVirtualMachine F) : List Nat :=
  vm.others ++ vm.handles.flatMap (fun p => p.released ++ p.leaked) ++ vm.ended.flatMap (·.leaked)

structure Tidy (vm : LuaVirtualMachine F) : Prop where
  keys : (vm.registry.map (·.1)).Perm vm.held
  nodup : vm.held.Nodup
  found : ∀ p ∈ vm.handles, p.Found vm.registry
  isTaken : ∀ p ∈ vm.handles ++ vm.ended, p.Matches
  vmId : ∀ p ∈ vm.handles, p.vmId = vm.vmId

theorem tidy_new (vmId packagePath : Bytes) : ({ vmId, packagePath } : LuaVirtualMachine F).Tidy :=
  ⟨.refl _, .nil, by simp, by simp, by simp⟩

/-- The keys of a living plugin are held. -/
theorem Tidy.mem_held (h : vm.Tidy) {p : StartedPlugin F} (hp : p ∈ vm.handles) {field : Field} {key : Nat}
    (href : p.handle.ref field = some key) : key ∈ vm.held := by
  have hkey := (h.isTaken p (List.mem_append_left _ hp)).mem_keys href
  exact List.mem_append_left _ (List.mem_append_right _ (List.mem_flatMap.2 ⟨p, hp, hkey⟩))

/-- When the handle of a plugin is destroyed, the other keys stay. -/
theorem released_gone {p : StartedPlugin F} {r : Registry F} {rest : List Nat} (hkeys : (r.map (·.1)).Perm (p.released ++ rest))
    (hnodup : (p.released ++ rest).Nodup) :
    ((p.handle.destroy r).map (·.1)).Perm rest ∧ ∀ key ∈ rest, luaRawgeti (p.handle.destroy r) key = luaRawgeti r key := by
  constructor
  · rw [destroy_keys]
    have hfilter := hkeys.filter fun key => decide (key ∉ p.released)
    rwa [filter_released hnodup] at hfilter
  · intro key hkey
    rw [luaRawgeti_destroy, if_neg]
    have hnot : key ∉ p.released := fun hmem => List.disjoint_of_nodup_append hnodup hmem hkey
    simpa [StartedPlugin.released, releasedFields] using hnot

theorem Tidy.startPlugin (h : vm.Tidy) {loaded : Loaded F} {configured : Bool}
    (hstart : vm.startPlugin keys vm.vmId loaded configured = .ok vm') : vm'.Tidy ∧ vm'.vmId = vm.vmId := by
  unfold LuaVirtualMachine.startPlugin at hstart
  cases hhandle : startPluginHandle keys loaded vm.registry with
  | error e =>
    rw [hhandle] at hstart
    cases e <;> cases hstart <;> exact ⟨h, rfl⟩
  | ok result =>
    obtain ⟨handle, registry⟩ := result
    rw [hhandle] at hstart
    cases loaded with
    | error | notTable => cases hhandle
    | table t =>
      have hstarts := startPluginHandle_starts vm.vmId hhandle (h.keys.nodup_iff.2 h.nodup)
      simp only [Loaded.exports] at hstart
      generalize hp : (⟨vm.vmId, t, handle⟩ : StartedPlugin F) = p at hstart hstarts
      have hkeys : (registry.map (·.1)).Perm (p.released ++ (p.leaked ++ vm.held)) := by
        rw [← List.append_assoc]
        exact hstarts.keys.trans (h.keys.append_left _)
      have hnodup : (p.released ++ (p.leaked ++ vm.held)).Nodup := by
        rw [← List.append_assoc, ← (h.keys.append_left _).nodup_iff]
        exact hstarts.nodup
      have hold : ∀ q ∈ vm.handles, q.Found registry := by
        intro q hq
        refine (h.found q hq).congr fun field key href => hstarts.kept key ?_
        rw [luaRawgeti_ne_none, h.keys.mem_iff]
        exact h.mem_held hq href
      have hmatches : ∀ q ∈ vm.handles ++ vm.ended ++ [p], q.Matches := by
        intro q hq
        rcases List.mem_append.1 hq with hq | hq
        · exact h.isTaken q hq
        · exact List.mem_singleton.1 hq ▸ hstarts.isTaken
      split_ifs at hstart
      · -- `on_configure` fails, and the handle is destroyed
        cases hstart
        obtain ⟨hgone, hsame⟩ := released_gone hkeys hnodup
        have hhandle : p.handle = handle := by rw [← hp]
        have hheld : (p.leaked ++ vm.held).Perm (vm.others ++ vm.handles.flatMap (fun p => p.released ++ p.leaked) ++
            (vm.ended ++ [p]).flatMap (·.leaked)) := by
          rw [List.flatMap_append, List.flatMap_singleton, ← List.append_assoc]
          exact List.perm_append_comm
        refine ⟨⟨hhandle ▸ hgone.trans hheld, hheld.nodup_iff.1 hnodup.of_append_right, ?_, ?_, h.vmId⟩, rfl⟩
        · intro q hq
          refine (hold q hq).congr fun field key href => hhandle ▸ hsame key ?_
          exact List.mem_append_right _ (h.mem_held hq href)
        · intro q hq
          exact hmatches q (by simpa [or_assoc] using hq)
      · cases hstart
        have hheld : (p.released ++ (p.leaked ++ vm.held)).Perm
            (vm.others ++ (vm.handles ++ [p]).flatMap (fun p => p.released ++ p.leaked) ++
              vm.ended.flatMap (·.leaked)) := by
          rw [List.flatMap_append, List.flatMap_singleton, held, List.perm_iff_count]
          intro key
          simp only [List.count_append]
          omega
        refine ⟨⟨hkeys.trans hheld, hheld.nodup_iff.1 hnodup, ?_, ?_, ?_⟩, rfl⟩
        · intro q hq
          rcases List.mem_append.1 hq with hq | hq
          · exact hold q hq
          · exact List.mem_singleton.1 hq ▸ hstarts.found
        · intro q hq
          exact hmatches q (by simpa [or_assoc, or_comm, or_left_comm] using hq)
        · intro q hq
          rcases List.mem_append.1 hq with hq | hq
          · exact h.vmId q hq
          · rw [List.mem_singleton.1 hq, ← hp]

theorem Tidy.destroyHandle (h : vm.Tidy) (i : Nat) : (vm.destroyHandle i).Tidy := by
  unfold LuaVirtualMachine.destroyHandle
  cases hi : vm.handles[i]? with
  | none => exact h
  | some p =>
    obtain ⟨hlt, rfl⟩ := List.getElem?_eq_some_iff.1 hi
    have hsplit := (List.getElem_cons_eraseIdx_perm hlt).flatMap_right fun p => p.released ++ p.leaked
    have hrest : vm.held.Perm (vm.handles[i].released ++ (vm.others ++
        (vm.handles.eraseIdx i).flatMap (fun p => p.released ++ p.leaked) ++ (vm.ended ++ [vm.handles[i]]).flatMap (·.leaked))) := by
      rw [List.perm_iff_count] at hsplit ⊢
      intro key
      have hcount := hsplit key
      simp only [held, List.flatMap_append, List.flatMap_cons, List.flatMap_nil, List.count_append, List.count_nil] at hcount ⊢
      omega
    obtain ⟨hgone, hsame⟩ := released_gone (h.keys.trans hrest) (hrest.nodup_iff.1 h.nodup)
    have hmem : ∀ q ∈ vm.handles.eraseIdx i, q ∈ vm.handles := fun q hq => List.mem_of_mem_eraseIdx hq
    refine ⟨hgone, (hrest.nodup_iff.1 h.nodup).of_append_right, ?_, ?_, fun q hq => h.vmId q (hmem q hq)⟩
    · intro q hq
      refine (h.found q (hmem q hq)).congr fun field key href => hsame key ?_
      have hkey := (h.isTaken q (List.mem_append_left _ (hmem q hq))).mem_keys href
      exact List.mem_append_left _ (List.mem_append_right _ (List.mem_flatMap.2 ⟨q, hq, hkey⟩))
    · intro q hq
      apply h.isTaken
      rcases List.mem_append.1 hq with hq | hq
      · exact List.mem_append_left _ (hmem q hq)
      · rcases List.mem_append.1 hq with hq | hq
        · exact List.mem_append_right _ hq
        · exact List.mem_append_left _ (List.mem_singleton.1 hq ▸ List.getElem_mem hlt)

theorem Tidy.refOther (h : vm.Tidy) (value : F) : (vm.refOther keys value).Tidy := by
  have hnew : keys.key vm.registry ∉ vm.held := by
    rw [← h.keys.mem_iff, ← luaRawgeti_ne_none, not_not]
    exact keys.unused vm.registry
  refine ⟨h.keys.cons _, List.nodup_cons.2 ⟨hnew, h.nodup⟩, ?_, h.isTaken, h.vmId⟩
  intro p hp
  refine (h.found p hp).congr fun field key href => ?_
  show luaRawgeti ((keys.key vm.registry, value) :: vm.registry) key = _
  rw [luaRawgeti_cons, if_neg]
  rintro rfl
  exact hnew (h.mem_held hp href)

theorem Tidy.unrefOther (h : vm.Tidy) (key : Nat) : (vm.unrefOther key).Tidy := by
  unfold LuaVirtualMachine.unrefOther
  split_ifs with hkey
  · have hrest : vm.held.Perm ([key] ++ (vm.others.erase key ++ vm.handles.flatMap (fun p => p.released ++ p.leaked) ++
        vm.ended.flatMap (·.leaked))) := by
      have hothers := List.perm_cons_erase hkey
      rw [List.perm_iff_count] at hothers ⊢
      intro k
      have hcount := hothers k
      simp only [held, List.count_append, List.count_cons, List.count_nil] at hcount ⊢
      omega
    have hnodup := hrest.nodup_iff.1 h.nodup
    refine ⟨?_, hnodup.of_append_right, ?_, h.isTaken, h.vmId⟩
    · have hfilter := (h.keys.trans hrest).filter fun k => decide (k ∉ [key])
      rw [filter_released hnodup] at hfilter
      rw [luaLUnref_keys]
      simp only [List.mem_singleton] at hfilter
      exact hfilter
    · intro p hp
      refine (h.found p hp).congr fun field k href => ?_
      show luaRawgeti (luaLUnref vm.registry key) k = _
      rw [luaRawgeti_unref, if_neg]
      rintro rfl
      have hmem := (h.isTaken p (List.mem_append_left _ hp)).mem_keys href
      refine List.disjoint_of_nodup_append hnodup (List.mem_singleton_self k) ?_
      exact List.mem_append_left _ (List.mem_append_right _ (List.mem_flatMap.2 ⟨p, hp, hmem⟩))
  · exact h

theorem Tidy.openStream (h : vm.Tidy) (i : Nat) : (vm.openStream i).Tidy := by
  unfold LuaVirtualMachine.openStream
  split_ifs
  · exact ⟨h.keys, h.nodup, h.found, h.isTaken, h.vmId⟩
  · exact h

theorem Tidy.closeStream (h : vm.Tidy) : vm.closeStream.Tidy := ⟨h.keys, h.nodup, h.found, h.isTaken, h.vmId⟩

theorem alive_iff (vm : LuaVirtualMachine F) : vm.alive = true ↔ vm.handles ≠ [] ∨ vm.streams ≠ 0 := by
  simp [alive]

/-- Nothing but a plugin that starts brings a machine to life. -/
structure Older (vm vm' : LuaVirtualMachine F) : Prop where
  vmId : vm'.vmId = vm.vmId
  alive : vm'.alive = true → vm.alive = true

theorem older_destroyHandle (vm : LuaVirtualMachine F) (i : Nat) : vm.Older (vm.destroyHandle i) := by
  unfold destroyHandle
  cases vm.handles[i]? with
  | none => exact ⟨rfl, id⟩
  | some p =>
    refine ⟨rfl, fun h => ?_⟩
    rw [alive_iff] at h ⊢
    refine h.imp_left fun h hnil => h ?_
    simp [hnil]

theorem older_openStream (vm : LuaVirtualMachine F) (i : Nat) : vm.Older (vm.openStream i) := by
  unfold openStream
  split_ifs with hi
  · refine ⟨rfl, fun _ => vm.alive_iff.2 (.inl ?_)⟩
    rintro hnil
    simp [hnil] at hi
  · exact ⟨rfl, id⟩

theorem older_closeStream (vm : LuaVirtualMachine F) : vm.Older vm.closeStream := by
  refine ⟨rfl, fun h => ?_⟩
  rw [alive_iff] at h ⊢
  exact h.imp_right fun h hnil => h (by simp [closeStream, hnil])

theorem older_unrefOther (vm : LuaVirtualMachine F) (key : Nat) : vm.Older (vm.unrefOther key) := by
  unfold unrefOther
  split_ifs <;> exact ⟨rfl, id⟩

end LuaVirtualMachine

/-! ## All machines of a worker -/

namespace WorkerMachines
variable {F : Type} {w : WorkerMachines F} {m : Nat}

/-- The machines in use are those that the weak pointers lead to. -/
structure Shared (w : WorkerMachines F) : Prop where
  tidy : ∀ m, (w.machines m).Tidy
  localId : ∀ vmId m, w.localLuaVirtualMachines vmId = some m → m < w.made ∧ (w.machines m).vmId = vmId
  inUse : ∀ m, (w.machines m).alive = true → w.localLuaVirtualMachines (w.machines m).vmId = some m

theorem Shared.set (h : w.Shared) {vm : LuaVirtualMachine F} (htidy : vm.Tidy) (hvmId : vm.vmId = (w.machines m).vmId)
    (hinUse : vm.alive = true → w.localLuaVirtualMachines vm.vmId = some m) : (w.set m vm).Shared := by
  refine ⟨fun m' => ?_, fun vmId m' hlocal => ?_, fun m' => ?_⟩
  · by_cases hm : m' = m
    · subst hm
      simpa [WorkerMachines.set] using htidy
    · simpa [WorkerMachines.set, hm] using h.tidy m'
  · obtain ⟨hlt, hid⟩ := h.localId vmId m' hlocal
    refine ⟨hlt, ?_⟩
    by_cases hm : m' = m
    · subst hm
      simpa [WorkerMachines.set] using hvmId.trans hid
    · simpa [WorkerMachines.set, hm] using hid
  · by_cases hm : m' = m
    · subst hm
      simpa [WorkerMachines.set] using hinUse
    · simpa [WorkerMachines.set, hm] using h.inUse m'

theorem Shared.set_older (h : w.Shared) {vm : LuaVirtualMachine F} (htidy : vm.Tidy) (holder : (w.machines m).Older vm) :
    (w.set m vm).Shared :=
  h.set htidy holder.vmId fun halive => holder.vmId ▸ h.inUse m (holder.alive halive)

/-- The machine that is found or made has the id that was asked for. -/
theorem Shared.getOrCreate (h : w.Shared) (vmId packagePath : Bytes) (opened : Bool) {w' : WorkerMachines F} {found : Option Nat}
    (hget : w.getOrCreateThreadLocalLuaVM vmId packagePath opened = (w', found)) :
    w'.Shared ∧ ∀ m, found = some m → w'.localLuaVirtualMachines vmId = some m ∧ (w'.machines m).vmId = vmId := by
  unfold getOrCreateThreadLocalLuaVM at hget
  cases hlocal : (w.localLuaVirtualMachines vmId).filter fun m => (w.machines m).alive with
  | some m =>
    rw [hlocal] at hget
    cases hget
    refine ⟨h, ?_⟩
    rintro m' ⟨⟩
    have hm := (Option.filter_eq_some_iff.1 hlocal).1
    exact ⟨hm, (h.localId vmId m hm).2⟩
  | none =>
    rw [hlocal] at hget
    -- no machine in use has this id
    have hunused : ∀ m, (w.machines m).alive = true → (w.machines m).vmId ≠ vmId := by
      rintro m hm rfl
      have hnot := Option.filter_eq_none_iff.1 hlocal m (h.inUse m hm)
      exact hnot hm
    split_ifs at hget
    · cases hget
      refine ⟨⟨fun m => ?_, fun id m hm => ?_, fun m hm => ?_⟩, ?_⟩
      · by_cases hmade : m = w.made
        · simpa [hmade] using LuaVirtualMachine.tidy_new vmId packagePath
        · simpa [hmade] using h.tidy m
      · by_cases hid : id = vmId
        · subst hid
          obtain rfl : w.made = m := by simpa using hm
          simp
        · obtain ⟨hlt, hvm⟩ := h.localId id m (by simpa [hid] using hm)
          exact ⟨Nat.lt_succ_of_lt hlt, by simpa [hlt.ne] using hvm⟩
      · by_cases hmade : m = w.made
        · simp [hmade, LuaVirtualMachine.alive] at hm
        · simp only [Function.update_of_ne hmade] at hm ⊢
          rw [Function.update_of_ne (hunused m hm)]
          exact h.inUse m hm
      · rintro m ⟨⟩
        simp
    · cases hget
      refine ⟨⟨h.tidy, fun id m hm => ?_, fun m hm => ?_⟩, by rintro m ⟨⟩⟩
      · by_cases hid : id = vmId
        · simp [hid] at hm
        · exact h.localId id m (by simpa [hid] using hm)
      · show Function.update w.localLuaVirtualMachines vmId none (w.machines m).vmId = some m
        rw [Function.update_of_ne (hunused m hm)]
        exact h.inUse m hm

theorem shared_step {w' : WorkerMachines F} {e : MachineEvent F} (h : w.Shared) (hstep : step w e = .ok w') : w'.Shared := by
  cases e with
  | start vmId packagePath opened loaded configured keys =>
    simp only [step] at hstep
    rcases hget : w.getOrCreateThreadLocalLuaVM vmId packagePath opened with ⟨w₁, _ | m⟩
    · rw [hget] at hstep
      cases hstep
      exact (h.getOrCreate vmId packagePath opened hget).1
    · rw [hget] at hstep
      obtain ⟨h₁, hfound⟩ := h.getOrCreate vmId packagePath opened hget
      obtain ⟨hlocal, rfl⟩ := hfound m rfl
      obtain ⟨vm, hstart, hstep⟩ := bind_eq_ok hstep
      cases hstep
      obtain ⟨htidy, hvmId⟩ := (h₁.tidy m).startPlugin hstart
      exact h₁.set htidy hvmId fun _ => hvmId ▸ hlocal
  | destroy m i =>
    cases hstep
    exact h.set_older ((h.tidy m).destroyHandle i) ((w.machines m).older_destroyHandle i)
  | openStream m i =>
    cases hstep
    exact h.set_older ((h.tidy m).openStream i) ((w.machines m).older_openStream i)
  | closeStream m =>
    cases hstep
    exact h.set_older (h.tidy m).closeStream (w.machines m).older_closeStream
  | refOther m value keys =>
    cases hstep
    exact h.set_older ((h.tidy m).refOther value) ⟨rfl, id⟩
  | unrefOther m key =>
    cases hstep
    exact h.set_older ((h.tidy m).unrefOther key) ((w.machines m).older_unrefOther key)

theorem shared_run (h : Reach step always {} w) : w.Shared :=
  h.invariant _ ⟨fun _ => LuaVirtualMachine.tidy_new _ _, by rintro _ _ ⟨⟩, fun _ h => by cases h⟩
    fun _ _ _ h _ => shared_step h

/-- Living plugins share a machine exactly when they have asked for the same
id, and each finds its own functions under its references, whatever the other
plugins and the rest of the machine have kept and given back. -/
theorem handles_isolated (h : Reach step always {} w) {m : Nat} {p : StartedPlugin F} (hp : p ∈ (w.machines m).handles) :
    (∀ m' p', p' ∈ (w.machines m').handles → (m = m' ↔ p.vmId = p'.vmId)) ∧
      ∀ field, (p.handle.ref field).bind (luaRawgeti (w.machines m).registry) = p.taken field := by
  have hshared := shared_run h
  refine ⟨fun m' p' hp' => ?_, (hshared.tidy m).found p hp⟩
  have hid := (hshared.tidy m).vmId p hp
  have hid' := (hshared.tidy m').vmId p' hp'
  constructor
  · rintro rfl
    exact hid.trans hid'.symm
  · intro heq
    have hlocal := hshared.inUse m ((w.machines m).alive_iff.2 (.inl (List.ne_nil_of_mem hp)))
    have hlocal' := hshared.inUse m' ((w.machines m').alive_iff.2 (.inl (List.ne_nil_of_mem hp')))
    rw [← hid, heq, hid', hlocal'] at hlocal
    exact (Option.some.inj hlocal).symm

/-- Two plugins share a machine, and the first is gone again. -/
def sharing : List (MachineEvent Nat) :=
  [.start (ascii "vm") [] true (.table (script (.string (ascii "v2")) (.function 8))) true counted,
    .start (ascii "vm") [] true (.table (script .nil .nil)) true counted, .destroy 0 0]

theorem second_isolated : ∃ w p, sharing.foldlM step {} = .ok w ∧ p ∈ (w.machines 0).handles ∧
    p.taken .onRequest = some 7 ∧ (p.handle.ref .onRequest).bind (luaRawgeti (w.machines 0).registry) = some 7 := by
  refine ⟨_, _, rfl, List.mem_cons_self .., rfl, ?_⟩
  exact (handles_isolated (@reach_of_foldlM _ _ _ step {} _ sharing rfl) (List.mem_cons_self ..)).2 .onRequest

/-- A machine's registry holds what others keep, a function for each handler
of a living plugin, and one for each handler of version 2 of every plugin that
has run on the machine and is gone: these are never given back. -/
theorem registry_exact (h : Reach step always {} w) (m : Nat) :
    ((w.machines m).registry.map (·.1)).Nodup ∧
      (w.machines m).registry.length = (w.machines m).others.length +
        ((w.machines m).handles.map fun p => (releasedFields ++ headerBodyFields).countP fun field => (p.taken field).isSome).sum +
        ((w.machines m).ended.map fun p => headerBodyFields.countP fun field => (p.taken field).isSome).sum := by
  have htidy := (shared_run h).tidy m
  refine ⟨htidy.keys.nodup_iff.2 htidy.nodup, ?_⟩
  have hcount : ∀ p ∈ (w.machines m).handles ++ (w.machines m).ended, ∀ fields : List Field,
      (fields.filterMap p.handle.ref).length = fields.countP fun field => (p.taken field).isSome := by
    intro p hp fields
    rw [List.length_filterMap_eq_countP]
    exact List.countP_congr fun field _ => by rw [htidy.isTaken p hp field]
  have hlength := htidy.keys.length_eq
  rw [List.length_map] at hlength
  rw [hlength, LuaVirtualMachine.held, List.length_append, List.length_append, List.length_flatMap, List.length_flatMap]
  congr 2
  · congr 1
    refine List.map_congr_left fun p hp => ?_
    rw [StartedPlugin.released, StartedPlugin.leaked, ← List.filterMap_append]
    exact hcount p (List.mem_append_left _ hp) _
  · refine List.map_congr_left fun p hp => ?_
    exact hcount p (List.mem_append_right _ hp) _

/-- The body handler of the plugin that is gone is still there. -/
theorem body_handler_left : ∃ w, sharing.foldlM step {} = .ok w ∧ (w.machines 0).registry.length = 0 + 1 + 1 :=
  ⟨_, rfl, (registry_exact (@reach_of_foldlM _ _ _ step {} _ sharing rfl) 0).2⟩

end WorkerMachines

end EnvoyProxy.Rider
