import EnvoyProxy.Lib.Bytes
import EnvoyProxy.Lib.Runs
/-!
# Handlers of the admin port

The configurations of the super cache and of the dynamic downgrade filter
(`CommonCacheConfig`, `DynamicDowngradeCommonConfig`) extend the admin port by
a handler that refers to them. A new configuration takes the path over from an
older one, which may be destroyed later than that. `handler_of_newest`:
whatever order they come and go in, a path is served by the newest
configuration that asked for it, while that lives, and by none otherwise.
-/

namespace EnvoyProxy.Admin

/-- The admin server, seen through the handlers it has. A callback is given by
the configuration that it refers to. -/
class AdminServer (A : Type) where
  /-- A path that can be shown without being escaped. -/
  accepts : A → Bytes → Bool
  handlerOf : A → Bytes → Option Nat
  removable : A → Bytes → Bool
  addHandler : A → (path : Bytes) → (callback : Nat) → (removable mutatesServerState : Bool) → Bool × A
  removeHandler : A → Bytes → Bool × A

/-- A path has one handler: it is not added twice, and it stays when it is not
removable. -/
class LawfulAdminServer (A : Type) [AdminServer A] : Prop where
  handlerOf_add : ∀ (a : A) (path : Bytes) (callback : Nat) (removable mutates : Bool) (q : Bytes),
    AdminServer.handlerOf (AdminServer.addHandler a path callback removable mutates).2 q =
      if q = path ∧ AdminServer.accepts a path ∧ AdminServer.handlerOf a path = none then some callback else AdminServer.handlerOf a q
  removable_add : ∀ (a : A) (path : Bytes) (callback : Nat) (removable mutates : Bool) (q : Bytes),
    AdminServer.removable (AdminServer.addHandler a path callback removable mutates).2 q =
      if q = path ∧ AdminServer.accepts a path ∧ AdminServer.handlerOf a path = none then removable else AdminServer.removable a q
  handlerOf_remove : ∀ (a : A) (path q : Bytes),
    AdminServer.handlerOf (AdminServer.removeHandler a path).2 q =
      if q = path ∧ AdminServer.removable a path then none else AdminServer.handlerOf a q
  removable_remove : ∀ (a : A) (path q : Bytes), q ≠ path →
    AdminServer.removable (AdminServer.removeHandler a path).2 q = AdminServer.removable a q
  accepts_add : ∀ (a : A) (path : Bytes) (callback : Nat) (removable mutates : Bool),
    AdminServer.accepts (AdminServer.addHandler a path callback removable mutates).2 = AdminServer.accepts a
  accepts_remove : ∀ (a : A) (path : Bytes), AdminServer.accepts (AdminServer.removeHandler a path).2 = AdminServer.accepts a

/-! ## Configurations -/

inductive FilterName
  | superCache
  | dynamicDowngrade
  deriving DecidableEq, Repr

def FilterName.apis : FilterName → Bytes
  | .superCache => ascii "/httpfilter/super_cache/"
  | .dynamicDowngrade => ascii "/httpfilter/dynamic_downgrade/"

/-- A path belongs to one of the filters. -/
theorem FilterName.eq_of_apis {f g : FilterName} {p q : Bytes} (h : f.apis ++ p = g.apis ++ q) : f = g := by
  cases f <;> cases g
  · rfl
  · simp [FilterName.apis, ascii] at h
  · simp [FilterName.apis, ascii] at h
  · rfl

/-- A common configuration of one of the filters. -/
structure CommonConfig where
  id : Nat
  filter : FilterName
  adminHandlerUuid : Bytes := []
  finalApisPrefix : Bytes := []
  alive : Bool := true
  deriving DecidableEq, Repr

/-- The destructor has run. -/
def CommonConfig.destroyed (c : CommonConfig) : CommonConfig := { c with alive := false }

structure Server (A : Type) where
  admin : A
  /-- `ADMIN_HANDLER_UUID_MAP`, a static member of each class. -/
  adminHandlerUuidMap : FilterName → AList fun _ : Bytes => Bytes := fun _ => ∅
  /-- The newest first. The destroyed ones stay here. -/
  configs : List CommonConfig := []

inductive Event
  /-- `usedCaches` says whether the configuration has caches, `uuid` is what
  the random generator returns. -/
  | construct (filter : FilterName) (apisPrefix : Bytes) (usedCaches : Bool) (uuid : Bytes)
  | destroy (id : Nat)
  deriving DecidableEq, Repr

/-- There is no such object. -/
inductive AdminFault
  | notAlive
  deriving DecidableEq, Repr

section Steps
variable {A : Type} [AdminServer A]

/-- The constructor. -/
def Server.construct (s : Server A) (filter : FilterName) (apisPrefix : Bytes) (usedCaches : Bool) (uuid : Bytes) : Server A :=
  let id := s.configs.length
  if apisPrefix = [] ∨ usedCaches = false then { s with configs := { id, filter } :: s.configs }
  else
    let finalApisPrefix := filter.apis ++ apisPrefix
    -- an old handler is rewritten
    let admin := (AdminServer.removeHandler s.admin finalApisPrefix).2
    { s with
      adminHandlerUuidMap :=
        Function.update s.adminHandlerUuidMap filter ((s.adminHandlerUuidMap filter).insert finalApisPrefix uuid)
      admin := (AdminServer.addHandler admin finalApisPrefix id true true).2
      configs := { id, filter, adminHandlerUuid := uuid, finalApisPrefix } :: s.configs }

/-- The destructor of a configuration. -/
def Server.destruct (s : Server A) (c : CommonConfig) : Server A :=
  if c.finalApisPrefix = [] then s
  else if (s.adminHandlerUuidMap c.filter).lookup c.finalApisPrefix = some c.adminHandlerUuid then
    -- the handler is not rewritten by a newer configuration
    { s with
      admin := (AdminServer.removeHandler s.admin c.finalApisPrefix).2
      adminHandlerUuidMap :=
        Function.update s.adminHandlerUuidMap c.filter ((s.adminHandlerUuidMap c.filter).erase c.finalApisPrefix) }
  else s

def Server.step (s : Server A) : Event → Except AdminFault (Server A)
  | .construct filter apisPrefix usedCaches uuid => .ok (s.construct filter apisPrefix usedCaches uuid)
  | .destroy id =>
    match s.configs.find? fun c => c.id = id && c.alive with
    | none => .error .notAlive
    | some c =>
      let s := s.destruct c
      .ok { s with configs := s.configs.map fun c => if c.id = id then c.destroyed else c }

/-- The generator does not return what a living configuration got from it. -/
def Fresh (s : Server A) : Event → Prop
  | .construct _ _ _ uuid => ∀ c ∈ s.configs, c.alive = true → c.finalApisPrefix ≠ [] → c.adminHandlerUuid ≠ uuid
  | .destroy _ => True

instance (s : Server A) : (e : Event) → Decidable (Fresh s e)
  | .construct _ _ _ uuid =>
    inferInstanceAs (Decidable (∀ c ∈ s.configs, c.alive = true → c.finalApisPrefix ≠ [] → c.adminHandlerUuid ≠ uuid))
  | .destroy _ => isTrue trivial

end Steps

/-! ## Who has a path -/

section Newest
variable {A : Type}

/-- The configuration that asked for a path last. -/
def Server.newest (s : Server A) (path : Bytes) : Option CommonConfig := s.configs.find? fun c => c.finalApisPrefix = path

/-- It, unless it is destroyed. -/
def Server.ownerOf (s : Server A) (path : Bytes) : Option CommonConfig := (s.newest path).filter (·.alive)

theorem Server.ownerOf_eq_some {s : Server A} {path : Bytes} {c : CommonConfig} :
    s.ownerOf path = some c ↔ s.newest path = some c ∧ c.alive = true := by
  rw [Server.ownerOf, Option.filter_eq_some_iff]

theorem Server.newest_mem {s : Server A} {path : Bytes} {c : CommonConfig} (h : s.newest path = some c) :
    c ∈ s.configs ∧ c.finalApisPrefix = path :=
  ⟨List.mem_of_find?_eq_some h, by simpa using List.find?_some h⟩

theorem Server.ownerOf_path {s : Server A} {path : Bytes} {c : CommonConfig} (h : s.ownerOf path = some c) :
    c.finalApisPrefix = path :=
  (newest_mem (ownerOf_eq_some.1 h).1).2

/-- The owner of a path is destroyed, or another configuration. -/
theorem Server.ownerOf_destroyed {s : Server A} (hnodup : (s.configs.map (·.id)).Nodup) {c : CommonConfig} (hc : c ∈ s.configs)
    (admin : A) (map : FilterName → AList fun _ : Bytes => Bytes) (path : Bytes) :
    (Server.mk admin map (s.configs.map fun c' => if c'.id = c.id then c'.destroyed else c')).ownerOf path =
      if s.ownerOf path = some c then none else s.ownerOf path := by
  have hnewest : (Server.mk admin map (s.configs.map fun c' => if c'.id = c.id then c'.destroyed else c')).newest path =
      (s.newest path).map fun c' => if c'.id = c.id then c'.destroyed else c' := by
    rw [newest, newest, List.find?_map]
    congr 2
    funext c'
    simp only [Function.comp]
    split_ifs <;> rfl
  rw [ownerOf, hnewest, ownerOf]
  cases hfind : s.newest path with
  | none => simp
  | some n =>
    have hn := (newest_mem hfind).1
    by_cases hid : n.id = c.id
    · obtain rfl : n = c := List.inj_on_of_nodup_map hnodup hn hc hid
      cases halive : n.alive <;> simp [CommonConfig.destroyed, Option.filter, halive]
    · have hne : n ≠ c := fun h => hid (congrArg _ h)
      cases halive : n.alive <;> simp [hid, Option.filter, halive, hne]

end Newest

section Invariant
variable {A : Type} [AdminServer A]

/-- What the admin server, the maps and the configurations say is the same. -/
structure Inv (a₀ : A) (s : Server A) : Prop where
  ids : ∀ c ∈ s.configs, c.id < s.configs.length
  nodup : (s.configs.map (·.id)).Nodup
  paths : ∀ c ∈ s.configs, c.finalApisPrefix ≠ [] → ∃ p, c.finalApisPrefix = c.filter.apis ++ p
  uuids : s.configs.Pairwise fun new old =>
    old.alive = true → old.finalApisPrefix ≠ [] → new.finalApisPrefix ≠ [] → old.adminHandlerUuid ≠ new.adminHandlerUuid
  map_eq : ∀ filter path, path ≠ [] →
    (s.adminHandlerUuidMap filter).lookup path = ((s.ownerOf path).filter (·.filter = filter)).map (·.adminHandlerUuid)
  accepts : AdminServer.accepts s.admin = AdminServer.accepts a₀
  handler : ∀ path, path ≠ [] → AdminServer.handlerOf a₀ path = none →
    AdminServer.handlerOf s.admin path = if AdminServer.accepts a₀ path then (s.ownerOf path).map (·.id) else none
  removable : ∀ path, path ≠ [] → AdminServer.handlerOf a₀ path = none → AdminServer.handlerOf s.admin path ≠ none →
    AdminServer.removable s.admin path = true

variable {a₀ : A} {s s' : Server A}

theorem Inv.start (a₀ : A) : Inv a₀ { admin := a₀ } where
  ids := by simp
  nodup := List.nodup_nil
  paths := by simp
  uuids := List.Pairwise.nil
  map_eq _ _ _ := rfl
  accepts := rfl
  handler path _ hfree := by simp [hfree, Server.ownerOf, Server.newest]
  removable path _ hfree hsome := absurd hfree hsome

/-- The map tells the owner of a path from the older configurations. -/
theorem Inv.lookup_eq_uuid_iff (h : Inv a₀ s) {c : CommonConfig} (hc : c ∈ s.configs) (halive : c.alive = true)
    (hpath : c.finalApisPrefix ≠ []) :
    (s.adminHandlerUuidMap c.filter).lookup c.finalApisPrefix = some c.adminHandlerUuid ↔ s.ownerOf c.finalApisPrefix = some c := by
  rw [h.map_eq c.filter c.finalApisPrefix hpath, Option.map_eq_some_iff]
  constructor
  · rintro ⟨n, hn, huuid⟩
    have howner := (Option.filter_eq_some_iff.1 hn).1
    obtain ⟨hfind, -⟩ := Server.ownerOf_eq_some.1 howner
    obtain ⟨hmatch, older, newer, hsplit, hnewer⟩ := List.find?_eq_some_iff_append.1 hfind
    have huuids := h.uuids
    rw [hsplit] at hc huuids
    rcases List.mem_append.1 hc with hc | hc
    · exact absurd (hnewer c hc) (by simp)
    · rcases List.mem_cons.1 hc with rfl | hc
      · exact howner
      · -- two living configurations have different uuids
        have hne := (List.pairwise_cons.1 (List.pairwise_append.1 huuids).2.1).1 c hc halive hpath
        rw [of_decide_eq_true hmatch] at hne
        exact absurd huuid.symm (hne hpath)
  · intro howner
    exact ⟨c, Option.filter_eq_some_iff.2 ⟨howner, by simp⟩, rfl⟩

/-- The destructor clears the path of its configuration if that owns it. -/
theorem Inv.destruct_cases (h : Inv a₀ s) {c : CommonConfig} (hc : c ∈ s.configs) (halive : c.alive = true) :
    (c.finalApisPrefix ≠ [] ∧ s.ownerOf c.finalApisPrefix = some c ∧ s.destruct c = { s with
      admin := (AdminServer.removeHandler s.admin c.finalApisPrefix).2
      adminHandlerUuidMap :=
        Function.update s.adminHandlerUuidMap c.filter ((s.adminHandlerUuidMap c.filter).erase c.finalApisPrefix) }) ∨
    (s.destruct c = s ∧ ∀ path, path ≠ [] → s.ownerOf path ≠ some c) := by
  unfold Server.destruct
  split_ifs with hnone hlookup
  · refine .inr ⟨rfl, fun path hpath howner => hpath ?_⟩
    rw [← Server.ownerOf_path howner, hnone]
  · exact .inl ⟨hnone, (h.lookup_eq_uuid_iff hc halive hnone).1 hlookup, rfl⟩
  · refine .inr ⟨rfl, fun path hpath howner => hlookup ((h.lookup_eq_uuid_iff hc halive hnone).2 ?_)⟩
    rwa [Server.ownerOf_path howner]

theorem Inv.owner_filter (h : Inv a₀ s) {path : Bytes} (hpath : path ≠ []) {c : CommonConfig} (howner : s.ownerOf path = some c)
    {filter : FilterName} {p : Bytes} (hp : path = filter.apis ++ p) : c.filter = filter := by
  obtain ⟨hmem, rfl⟩ := Server.newest_mem (Server.ownerOf_eq_some.1 howner).1
  obtain ⟨q, hq⟩ := h.paths c hmem hpath
  exact FilterName.eq_of_apis (hq ▸ hp)

variable [LawfulAdminServer A]

/-- After a path is cleared nothing is there. -/
theorem Inv.handler_removed (h : Inv a₀ s) {path : Bytes} (hpath : path ≠ []) (hfree : AdminServer.handlerOf a₀ path = none) :
    AdminServer.handlerOf (AdminServer.removeHandler s.admin path).2 path = none := by
  rw [LawfulAdminServer.handlerOf_remove]
  by_cases hsome : AdminServer.handlerOf s.admin path = none
  · simp [hsome]
  · simp [h.removable path hpath hfree hsome]

theorem Inv.construct (h : Inv a₀ s) (filter : FilterName) (apisPrefix : Bytes) (usedCaches : Bool) {uuid : Bytes}
    (hfresh : ∀ c ∈ s.configs, c.alive = true → c.finalApisPrefix ≠ [] → c.adminHandlerUuid ≠ uuid) :
    Inv a₀ (s.construct filter apisPrefix usedCaches uuid) := by
  have hlt : ∀ c ∈ s.configs, c.id < s.configs.length + 1 := fun c hc => (h.ids c hc).trans (Nat.lt_succ_self _)
  have hnew : s.configs.length ∉ s.configs.map (·.id) := by
    rintro hmem
    obtain ⟨c, hc, hid⟩ := List.mem_map.1 hmem
    exact absurd hid (h.ids c hc).ne
  unfold Server.construct
  split_ifs with hnone
  · have howner : ∀ path, path ≠ [] →
        (Server.mk s.admin s.adminHandlerUuidMap ({ id := s.configs.length, filter } :: s.configs)).ownerOf path = s.ownerOf path := by
      intro path hpath
      simp [Server.ownerOf, Server.newest, Ne.symm hpath]
    refine ⟨?_, List.nodup_cons.2 ⟨hnew, h.nodup⟩, ?_, List.pairwise_cons.2 ⟨?_, h.uuids⟩, ?_, h.accepts, ?_, h.removable⟩
    · simpa using hlt
    · intro c hc hpath
      rcases List.mem_cons.1 hc with rfl | hc
      · exact absurd rfl hpath
      · exact h.paths c hc hpath
    · intro c _ _ _ hpath
      exact absurd rfl hpath
    · intro f path hpath
      rw [howner path hpath]
      exact h.map_eq f path hpath
    · intro path hpath hfree
      rw [howner path hpath]
      exact h.handler path hpath hfree
  · obtain ⟨hasked, -⟩ := not_or.1 hnone
    have hfinal : filter.apis ++ apisPrefix ≠ [] := List.append_ne_nil_of_right_ne_nil _ hasked
    have howner : ∀ (admin : A) map path, (Server.mk admin map
        ({ id := s.configs.length, filter, adminHandlerUuid := uuid, finalApisPrefix := filter.apis ++ apisPrefix } :: s.configs)).ownerOf
          path = if path = filter.apis ++ apisPrefix then
            some { id := s.configs.length, filter, adminHandlerUuid := uuid, finalApisPrefix := filter.apis ++ apisPrefix }
          else s.ownerOf path := by
      intro admin map path
      by_cases hpath : path = filter.apis ++ apisPrefix
      · simp [Server.ownerOf, Server.newest, hpath, Option.filter]
      · simp [Server.ownerOf, Server.newest, hpath, Ne.symm hpath]
    refine ⟨?_, List.nodup_cons.2 ⟨hnew, h.nodup⟩, ?_, List.pairwise_cons.2 ⟨?_, h.uuids⟩, ?_, ?_, ?_, ?_⟩
    · simpa using hlt
    · intro c hc hpath
      rcases List.mem_cons.1 hc with rfl | hc
      · exact ⟨apisPrefix, rfl⟩
      · exact h.paths c hc hpath
    · intro c hc halive hpath _
      exact hfresh c hc halive hpath
    · intro f path hpath
      rw [howner]
      by_cases hf : f = filter
      · subst hf
        dsimp only
        rw [Function.update_self]
        by_cases hpath' : path = f.apis ++ apisPrefix
        · subst hpath'
          simp [AList.lookup_insert, Option.filter]
        · rw [AList.lookup_insert_ne hpath', h.map_eq f path hpath, if_neg hpath']
      · dsimp only
        rw [Function.update_of_ne hf, h.map_eq f path hpath]
        by_cases hpath' : path = filter.apis ++ apisPrefix
        · -- the path belongs to the other filter
          rw [if_pos hpath']
          have hother : (s.ownerOf path).filter (·.filter = f) = none := by
            rw [Option.filter_eq_none_iff]
            intro c hc hfilter
            exact hf ((of_decide_eq_true hfilter).symm.trans (h.owner_filter hpath hc hpath'))
          rw [hother]
          simp [Option.filter, Ne.symm hf]
        · rw [if_neg hpath']
    · rw [LawfulAdminServer.accepts_add, LawfulAdminServer.accepts_remove, h.accepts]
    · intro path hpath hfree
      rw [howner, LawfulAdminServer.handlerOf_add, LawfulAdminServer.accepts_remove, h.accepts]
      by_cases hpath' : path = filter.apis ++ apisPrefix
      · subst hpath'
        rw [h.handler_removed hpath hfree]
        simp
      · rw [if_neg (by simp [hpath']), if_neg hpath', LawfulAdminServer.handlerOf_remove, if_neg (by simp [hpath'])]
        exact h.handler path hpath hfree
    · intro path hpath hfree hsome
      rw [LawfulAdminServer.handlerOf_add] at hsome
      rw [LawfulAdminServer.removable_add]
      by_cases hadded : path = filter.apis ++ apisPrefix ∧
          AdminServer.accepts (AdminServer.removeHandler s.admin (filter.apis ++ apisPrefix)).2 (filter.apis ++ apisPrefix) = true ∧
          AdminServer.handlerOf (AdminServer.removeHandler s.admin (filter.apis ++ apisPrefix)).2 (filter.apis ++ apisPrefix) = none
      · rw [if_pos hadded]
      · rw [if_neg hadded] at hsome ⊢
        by_cases hpath' : path = filter.apis ++ apisPrefix
        · subst hpath'
          exact absurd (h.handler_removed hpath hfree) hsome
        · rw [LawfulAdminServer.removable_remove _ _ _ hpath']
          rw [LawfulAdminServer.handlerOf_remove, if_neg (by simp [hpath'])] at hsome
          exact h.removable path hpath hfree hsome

/-- The destructor of the owner clears its path, and that of another
configuration changes nothing. -/
theorem Inv.destroy (h : Inv a₀ s) {c : CommonConfig} (hc : c ∈ s.configs) (halive : c.alive = true) :
    Inv a₀ { s.destruct c with configs := (s.destruct c).configs.map fun c' => if c'.id = c.id then c'.destroyed else c' } := by
  have hids : ∀ configs : List CommonConfig,
      (configs.map fun c' => if c'.id = c.id then c'.destroyed else c').map (·.id) = configs.map (·.id) := by
    intro configs
    rw [List.map_map]
    apply List.map_congr_left
    intro c' _
    simp only [Function.comp]
    split_ifs <;> rfl
  have hconfigs : (s.destruct c).configs = s.configs := by
    unfold Server.destruct
    split_ifs <;> rfl
  have hkept : ∀ c' ∈ s.configs.map (fun c' => if c'.id = c.id then c'.destroyed else c'), ∃ c₀ ∈ s.configs,
      c'.id = c₀.id ∧ c'.finalApisPrefix = c₀.finalApisPrefix ∧ c'.filter = c₀.filter := by
    intro c' hc'
    obtain ⟨c₀, hc₀, rfl⟩ := List.mem_map.1 hc'
    refine ⟨c₀, hc₀, ?_⟩
    split_ifs <;> exact ⟨rfl, rfl, rfl⟩
  have howner := fun path => Server.ownerOf_destroyed h.nodup hc (s.destruct c).admin (s.destruct c).adminHandlerUuidMap path
  rw [hconfigs]
  refine ⟨?_, ?_, ?_, ?_, ?_, ?_, ?_, ?_⟩
  · intro c' hc'
    obtain ⟨c₀, hc₀, hid, -⟩ := hkept c' hc'
    rw [hid, List.length_map]
    exact h.ids c₀ hc₀
  · rw [hids]
    exact h.nodup
  · intro c' hc' hpath
    obtain ⟨c₀, hc₀, -, hfinal, hfilter⟩ := hkept c' hc'
    rw [hfinal] at hpath ⊢
    rw [hfilter]
    exact h.paths c₀ hc₀ hpath
  · rw [List.pairwise_map]
    apply h.uuids.imp
    intro new old hne
    split_ifs <;> first | exact hne | simp [CommonConfig.destroyed]
  all_goals rcases h.destruct_cases hc halive with ⟨hpath₀, hown, hdestruct⟩ | ⟨hdestruct, hother⟩
  · intro filter path hpath
    rw [howner, hdestruct]
    dsimp only
    by_cases hfilter : filter = c.filter
    · subst hfilter
      rw [Function.update_self]
      by_cases hsame : path = c.finalApisPrefix
      · subst hsame
        rw [if_pos hown, AList.lookup_erase]
        rfl
      · rw [AList.lookup_erase_ne hsame, if_neg (fun hc' => hsame (Server.ownerOf_path hc').symm)]
        exact h.map_eq c.filter path hpath
    · rw [Function.update_of_ne hfilter, h.map_eq filter path hpath]
      split_ifs with hc'
      · simp [hc', Option.filter, Ne.symm hfilter]
      · rfl
  · intro filter path hpath
    rw [howner, if_neg (hother path hpath), hdestruct]
    exact h.map_eq filter path hpath
  · rw [hdestruct]
    exact (LawfulAdminServer.accepts_remove _ _).trans h.accepts
  · rw [hdestruct]
    exact h.accepts
  · intro path hpath hfree
    rw [howner, hdestruct]
    by_cases hsame : path = c.finalApisPrefix
    · subst hsame
      rw [if_pos hown]
      simpa using h.handler_removed hpath hfree
    · rw [if_neg (fun hc' => hsame (Server.ownerOf_path hc').symm)]
      have hkept := LawfulAdminServer.handlerOf_remove s.admin c.finalApisPrefix path
      rw [if_neg (by simp [hsame])] at hkept
      exact hkept.trans (h.handler path hpath hfree)
  · intro path hpath hfree
    rw [howner, if_neg (hother path hpath), hdestruct]
    exact h.handler path hpath hfree
  · intro path hpath hfree hsome
    rw [hdestruct] at hsome ⊢
    dsimp only at hsome ⊢
    by_cases hsame : path = c.finalApisPrefix
    · subst hsame
      exact absurd (h.handler_removed hpath hfree) hsome
    · rw [LawfulAdminServer.handlerOf_remove, if_neg (by simp [hsame])] at hsome
      rw [LawfulAdminServer.removable_remove _ _ _ hsame]
      exact h.removable path hpath hfree hsome
  · intro path hpath hfree hsome
    rw [hdestruct] at hsome ⊢
    exact h.removable path hpath hfree hsome

theorem Inv.reachable {a₀ : A} {s : Server A} (h : Reach Server.step Fresh { admin := a₀ } s) : Inv a₀ s := by
  refine h.invariant (Inv a₀) (.start a₀) ?_
  rintro s e s' hs hfresh hstep
  cases e with
  | construct filter apisPrefix usedCaches uuid =>
    cases hstep
    exact hs.construct filter apisPrefix usedCaches hfresh
  | destroy id =>
    unfold Server.step at hstep
    cases hfind : s.configs.find? fun c => c.id = id && c.alive with
    | none => simp [hfind] at hstep
    | some c =>
      simp only [hfind] at hstep
      cases hstep
      have hfound := List.find?_some hfind
      obtain ⟨hid, halive⟩ := Bool.and_eq_true_iff.1 hfound
      obtain rfl := of_decide_eq_true hid
      exact hs.destroy (List.mem_of_find?_eq_some hfind) halive

/-- Whatever order configurations come and go in, a path is served by the
newest one that asked for it while it lives, and no handler refers to a
destroyed one. -/
theorem handler_of_newest {a₀ : A} {s : Server A} (h : Reach Server.step Fresh { admin := a₀ } s) {path : Bytes} (hpath : path ≠ [])
    (hfree : AdminServer.handlerOf a₀ path = none) :
    (AdminServer.accepts a₀ path = true →
      AdminServer.handlerOf s.admin path = ((s.newest path).filter (·.alive)).map (·.id)) ∧
    ∀ id, AdminServer.handlerOf s.admin path = some id →
      ∃ c ∈ s.configs, c.id = id ∧ c.alive = true ∧ c.finalApisPrefix = path := by
  have hhandler := (Inv.reachable h).handler path hpath hfree
  constructor
  · intro haccepts
    rw [hhandler, if_pos haccepts]
    rfl
  · intro id hid
    rw [hhandler] at hid
    split_ifs at hid
    obtain ⟨c, hc, rfl⟩ := Option.map_eq_some_iff.1 hid
    obtain ⟨hnewest, halive⟩ := Server.ownerOf_eq_some.1 hc
    obtain ⟨hmem, hfinal⟩ := Server.newest_mem hnewest
    exact ⟨c, hmem, rfl, halive, hfinal⟩

end Invariant

/-! ## A server -/

structure UrlHandler where
  path : Bytes
  handler : Nat
  removable : Bool
  deriving DecidableEq

/-- The handlers of a server, the newest last. -/
structure AdminImpl where
  handlers : List UrlHandler := []
  nodup : (handlers.map (·.path)).Nodup := by simp

namespace AdminImpl

/-- Nothing in it has to be escaped. -/
def isSafe (path : Bytes) : Bool := path.all fun b => b ∉ ascii "&\"'<>"

def find (a : AdminImpl) (path : Bytes) : Option UrlHandler := a.handlers.find? (·.path = path)

def addHandler (a : AdminImpl) (path : Bytes) (handler : Nat) (removable : Bool) : Bool × AdminImpl :=
  if h : isSafe path = true ∧ a.find path = none then
    (true, {
      handlers := a.handlers ++ [⟨path, handler, removable⟩]
      nodup := by
        have hnew : ∀ x ∈ a.handlers, ¬ x.path = path := by simpa [find] using h.2
        rw [List.map_append, List.nodup_append]
        refine ⟨a.nodup, List.nodup_singleton _, ?_⟩
        intro p hp q hq
        obtain ⟨x, hx, rfl⟩ := List.mem_map.1 hp
        rw [List.mem_singleton.1 hq]
        exact hnew x hx })
  else (false, a)

def removeHandler (a : AdminImpl) (path : Bytes) : Bool × AdminImpl :=
  let kept := a.handlers.filter fun h => !(decide (h.path = path) && h.removable)
  (decide (kept.length < a.handlers.length), { handlers := kept, nodup := a.nodup.sublist (List.filter_sublist.map _) })

instance : AdminServer AdminImpl where
  accepts _ := isSafe
  handlerOf a path := (a.find path).map (·.handler)
  removable a path := ((a.find path).map (·.removable)).getD false
  addHandler a path handler removable _ := a.addHandler path handler removable
  removeHandler := removeHandler

theorem find_addHandler (a : AdminImpl) (path : Bytes) (handler : Nat) (removable : Bool) (q : Bytes) :
    (a.addHandler path handler removable).2.find q =
      if q = path ∧ isSafe path = true ∧ a.find path = none then some ⟨path, handler, removable⟩ else a.find q := by
  unfold addHandler
  split_ifs with hadd hq hq
  · obtain ⟨rfl, -⟩ := hq
    have hnone : a.handlers.find? (·.path = q) = none := hadd.2
    simp [find, List.find?_append, hnone]
  · have hne : ¬ path = q := fun h => hq ⟨h.symm, hadd⟩
    simp [find, List.find?_append, hne]
  · exact absurd hq.2 hadd
  · rfl

theorem find_removeHandler (a : AdminImpl) (path q : Bytes) :
    (a.removeHandler path).2.find q = if q = path ∧ ((a.find path).map (·.removable)).getD false = true then none else a.find q := by
  have hfind : (a.removeHandler path).2.find q =
      a.handlers.find? fun h => !(decide (h.path = path) && h.removable) && decide (h.path = q) := by
    rw [find, removeHandler, List.find?_filter]
    simp only [Bool.decide_and, Bool.decide_eq_true]
  rw [hfind]
  by_cases hq : q = path
  · subst hq
    cases hfound : a.find q with
    | none =>
      have hnone : ∀ x ∈ a.handlers, ¬ x.path = q := by simpa [find] using hfound
      rw [if_neg (by simp), List.find?_eq_none]
      intro x hx
      simp [hnone x hx]
    | some h =>
      obtain ⟨hpath, older, newer, hsplit, holder⟩ := List.find?_eq_some_iff_append.1 hfound
      have hnodup := a.nodup
      rw [hsplit] at hnodup ⊢
      have hpath' := of_decide_eq_true hpath
      have hnewer : newer.find? (fun x => !(decide (x.path = q) && x.removable) && decide (x.path = q)) = none := by
        rw [List.find?_eq_none]
        intro x hx hmatch
        simp only [List.map_append, List.map_cons, List.nodup_append, List.nodup_cons] at hnodup
        obtain ⟨-, hxq⟩ := Bool.and_eq_true_iff.1 hmatch
        exact hnodup.2.1.1 (List.mem_map.2 ⟨x, hx, (of_decide_eq_true hxq).trans hpath'.symm⟩)
      have holder' : older.find? (fun x => !(decide (x.path = q) && x.removable) && decide (x.path = q)) = none := by
        rw [List.find?_eq_none]
        intro x hx hmatch
        have hne := holder x hx
        simp_all
      rw [List.find?_append, holder', List.find?_cons, hnewer]
      cases hremovable : h.removable <;> simp [hpath', hremovable]
  · rw [if_neg (by simp [hq]), find]
    congr 1
    funext h
    by_cases hpath : h.path = q
    · simp [hpath, hq]
    · simp [hpath]

instance : LawfulAdminServer AdminImpl where
  handlerOf_add a path handler removable _ q := by
    change ((a.addHandler path handler removable).2.find q).map (·.handler) = _
    rw [find_addHandler]
    simp only [AdminServer.accepts, AdminServer.handlerOf, Option.map_eq_none_iff]
    split_ifs <;> rfl
  removable_add a path handler removable _ q := by
    change (((a.addHandler path handler removable).2.find q).map (·.removable)).getD false = _
    rw [find_addHandler]
    simp only [AdminServer.accepts, AdminServer.handlerOf, AdminServer.removable, Option.map_eq_none_iff]
    split_ifs <;> rfl
  handlerOf_remove a path q := by
    change ((a.removeHandler path).2.find q).map (·.handler) = _
    rw [find_removeHandler]
    simp only [AdminServer.handlerOf, AdminServer.removable]
    split_ifs <;> rfl
  removable_remove a path q hq := by
    change (((a.removeHandler path).2.find q).map (·.removable)).getD false = _
    rw [find_removeHandler, if_neg (by simp [hq])]
    rfl
  accepts_add _ _ _ _ _ := rfl
  accepts_remove _ _ := rfl

end AdminImpl

/-- The older of two configurations is destroyed, then the newer one. -/
theorem older_destroyed_first :
    ∃ s s' : Server AdminImpl,
      Reach Server.step Fresh { admin := {} } s ∧ Server.step s (.destroy 1) = .ok s' ∧
      AdminServer.handlerOf s.admin (ascii "/httpfilter/super_cache/a") = some 1 ∧
      AdminServer.handlerOf s'.admin (ascii "/httpfilter/super_cache/a") = none := by
  have h₁ := reach_start Server.step Fresh ({ admin := {} } : Server AdminImpl)
  have h₂ := h₁.next (e := .construct .superCache (ascii "a") true (ascii "1")) (by decide) rfl
  have h₃ := h₂.next (e := .construct .superCache (ascii "a") true (ascii "2")) (by decide) rfl
  have h₄ := h₃.next (e := .destroy 0) (by decide) rfl
  have h₅ := h₄.next (e := .destroy 1) (by decide) rfl
  refine ⟨_, _, h₄, rfl, ?_, ?_⟩
  · rw [(handler_of_newest h₄ (by decide) rfl).1 (by decide)]
    rfl
  · rw [(handler_of_newest h₅ (by decide) rfl).1 (by decide)]
    rfl

end EnvoyProxy.Admin
