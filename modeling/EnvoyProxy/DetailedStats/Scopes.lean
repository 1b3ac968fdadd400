import EnvoyProxy.Lib.Runs
import EnvoyProxy.Lib.Json
/-!
# Shared stats scopes

`TagsMetadataStats` (detailed_stats.h, detailed_stats.cc): objects built from
the same configuration string share their `StatsScopes`, which a map of weak
pointers finds again. A `StatsScopes` is known by its control block, with the
number of strong references to it. The destructor of an object has two steps,
the move out of `scopes_` and the call that takes the lock, and any steps of
other threads may come between them. `scopes_shared`: the entry of a
configuration is there as long as somebody holds the scopes, and no longer.
-/

namespace EnvoyProxy.DetailedStats

/-- The life of an object, with the string it was built from. -/
inductive Stage
  | live (config : Bytes) (scopes : Option Nat)
  /-- The scopes are an argument of `eraseStatsScopes`, which waits. -/
  | destroying (config : Bytes) (scopes : Option Nat)
  | gone
  deriving DecidableEq, Repr

namespace Stage

/-- The reference an object holds, or its destructor. -/
def scopes : Stage → Option Nat
  | .live _ scopes | .destroying _ scopes => scopes
  | .gone => none

def config : Stage → Option Bytes
  | .live config _ | .destroying config _ => some config
  | .gone => none

/-- The object holds a reference to these scopes. -/
def holds (p : Nat) (stage : Stage) : Bool := stage.scopes = some p

end Stage

structure Process where
  /-- `cached_stats_scopes_` -/
  cachedStatsScopes : Bytes → Option Nat := fun _ => none
  useCount : Nat → Nat := fun _ => 0
  stringConfig : Nat → Bytes := fun _ => []
  /-- The `StatsScopes` made so far. -/
  made : Nat := 0
  objects : List Stage := []

/-- `ASSERT(scopes != nullptr)` -/
inductive StatsFault
  | nullScopes
  deriving DecidableEq, Repr

namespace Process

/-- New scopes, with one reference, and their entry in the map. -/
def makeScopes (s : Process) (config : Bytes) : Option Nat × Process :=
  (some s.made,
    { s with
      useCount := Function.update s.useCount s.made 1
      stringConfig := Function.update s.stringConfig s.made config
      cachedStatsScopes := Function.update s.cachedStatsScopes config (some s.made)
      made := s.made + 1 })

/-- `weak_ptr::lock` -/
def lock (s : Process) (p : Nat) : Option Nat × Process :=
  if s.useCount p = 0 then (none, s) else (some p, { s with useCount := Function.update s.useCount p (s.useCount p + 1) })

/-- From the string of the configuration on. -/
def getStatsScopesFromProto (s : Process) (config : Bytes) : Option Nat × Process :=
  match s.cachedStatsScopes config with
  | none => s.makeScopes config
  | some p => if s.useCount p = 0 then s.makeScopes config else s.lock p

def eraseStatsScopes (s : Process) (scopes : Option Nat) : Except StatsFault Process :=
  match scopes with
  | none => .error .nullScopes
  | some p =>
    let s := if s.useCount p = 1 then
        { s with cachedStatsScopes := Function.update s.cachedStatsScopes (s.stringConfig p) none } else s
    -- `scopes.reset()`
    .ok { s with useCount := Function.update s.useCount p (s.useCount p - 1) }

end Process

/-- What the threads do, one at a time. -/
inductive Event
  | construct (config : Bytes)
  /-- The destructor of an object moves out of `scopes_`. -/
  | moveOut (object : Nat)
  /-- It takes the lock. -/
  | erase (object : Nat)
  deriving DecidableEq, Repr

/-- An object is destroyed once. -/
def Scheduled (s : Process) : Event → Prop
  | .construct _ => True
  | .moveOut i => ∃ config scopes, s.objects[i]? = some (.live config scopes)
  | .erase i => ∃ config scopes, s.objects[i]? = some (.destroying config scopes)

def step (s : Process) : Event → Except StatsFault Process
  | .construct config =>
    let (scopes, s) := s.getStatsScopesFromProto config
    .ok { s with objects := s.objects ++ [.live config scopes] }
  | .moveOut i =>
    match s.objects[i]? with
    | some (.live config scopes) => .ok { s with objects := s.objects.set i (.destroying config scopes) }
    | _ => .ok s
  | .erase i =>
    match s.objects[i]? with
    | some (.destroying _ scopes) => do
      let s ← s.eraseStatsScopes scopes
      return { s with objects := s.objects.set i .gone }
    | _ => .ok s

/-! ## The invariant -/

/-- Somebody still holds scopes of this configuration. -/
def Remains (s : Process) (config : Bytes) : Prop := ∃ stage ∈ s.objects, stage.config = some config

structure Inv (s : Process) : Prop where
  /-- The count is the number of references. -/
  counted : ∀ p, s.useCount p = s.objects.countP (Stage.holds p)
  /-- A holder has the scopes of its configuration that the map knows. -/
  cached : ∀ stage ∈ s.objects, ∀ config, stage.config = some config →
    ∃ p, stage.scopes = some p ∧ p < s.made ∧ s.stringConfig p = config ∧ s.cachedStatsScopes config = some p
  /-- An entry has a holder. -/
  held : ∀ config p, s.cachedStatsScopes config = some p → Remains s config

theorem inv_start : Inv {} where
  counted _ := rfl
  cached := by simp
  held _ _ h := by cases h

variable {s : Process}

theorem Stage.config_of_holds {p : Nat} {stage : Stage} (h : stage.holds p = true) :
    ∃ config, stage.config = some config := by
  cases stage with
  | live config scopes | destroying config scopes => exact ⟨config, rfl⟩
  | gone => simp [Stage.holds, Stage.scopes] at h

/-- Scopes with an entry have a reference. -/
theorem Inv.useCount_pos (hi : Inv s) {config : Bytes} {p : Nat}
    (h : s.cachedStatsScopes config = some p) : 0 < s.useCount p := by
  obtain ⟨stage, hmem, hconfig⟩ := hi.held config p h
  obtain ⟨q, hscopes, -, -, hcached⟩ := hi.cached stage hmem config hconfig
  obtain rfl := Option.some.inj (hcached.symm.trans h)
  rw [hi.counted]
  exact List.countP_pos_iff.2 ⟨stage, hmem, by simp [Stage.holds, hscopes]⟩

/-- New scopes have no references yet. -/
theorem Inv.useCount_made (hi : Inv s) : s.useCount s.made = 0 := by
  rw [hi.counted, List.countP_eq_zero]
  intro stage hmem hholds
  obtain ⟨config, hconfig⟩ := Stage.config_of_holds hholds
  obtain ⟨p, hscopes, hlt, -⟩ := hi.cached stage hmem config hconfig
  obtain rfl : p = s.made := by simpa [Stage.holds, hscopes] using hholds
  omega

/-- The next reference to scopes. -/
theorem countP_snoc (objects : List Stage) (config : Bytes) (q p : Nat) :
    (objects ++ [Stage.live config (some q)]).countP (Stage.holds p) =
      objects.countP (Stage.holds p) + if q = p then 1 else 0 := by
  rw [List.countP_append, List.countP_singleton]
  simp [Stage.holds, Stage.scopes]

theorem Inv.construct (hi : Inv s) {config : Bytes} {scopes : Option Nat} {t : Process}
    (h : s.getStatsScopesFromProto config = (scopes, t)) :
    Inv { t with objects := t.objects ++ [.live config scopes] } := by
  unfold Process.getStatsScopesFromProto at h
  have hkept : ∀ stage ∈ s.objects, ∀ config', stage.config = some config' → s.cachedStatsScopes config' ≠ none := by
    intro stage hmem config' hconfig
    obtain ⟨p, -, -, -, hcached⟩ := hi.cached stage hmem config' hconfig
    simp [hcached]
  cases hentry : s.cachedStatsScopes config with
  | none =>
    -- nobody has these scopes
    rw [hentry] at h
    cases h
    refine ⟨fun p => ?_, ?_, ?_⟩
    · dsimp only
      rw [countP_snoc, ← hi.counted]
      by_cases hp : s.made = p
      · subst hp
        simp [hi.useCount_made]
      · simp [hp, Function.update_of_ne (Ne.symm hp)]
    · intro stage hmem config' hconfig
      rcases List.mem_append.1 hmem with hmem | hmem
      · obtain ⟨p, hscopes, hlt, hstring, hcached⟩ := hi.cached stage hmem config' hconfig
        have hne : config' ≠ config := by
          rintro rfl
          exact hkept stage hmem config' hconfig hentry
        refine ⟨p, hscopes, Nat.lt_succ_of_lt hlt, ?_, ?_⟩
        · exact (Function.update_of_ne hlt.ne _ _).trans hstring
        · exact (Function.update_of_ne hne _ _).trans hcached
      · obtain rfl := List.mem_singleton.1 hmem
        cases hconfig
        exact ⟨s.made, rfl, Nat.lt_succ_self _, Function.update_self _ _ _, Function.update_self _ _ _⟩
    · intro config' p hcached
      by_cases hne : config' = config
      · exact ⟨_, List.mem_append_right _ List.mem_cons_self, by rw [hne]; rfl⟩
      · obtain ⟨stage, hmem, hconfig⟩ := hi.held config' p ((Function.update_of_ne hne _ _).symm.trans hcached)
        exact ⟨stage, List.mem_append_left _ hmem, hconfig⟩
  | some q =>
    -- the entry has a holder, so the lock gives one more reference
    have hpos : s.useCount q ≠ 0 := (hi.useCount_pos hentry).ne'
    rw [hentry] at h
    dsimp only at h
    rw [if_neg hpos, Process.lock, if_neg hpos] at h
    cases h
    obtain ⟨holder, hholder, hholds⟩ := hi.held config q hentry
    obtain ⟨q', -, hlt, hstring, hcached⟩ := hi.cached holder hholder config hholds
    obtain rfl := Option.some.inj (hcached.symm.trans hentry)
    refine ⟨fun p => ?_, ?_, ?_⟩
    · dsimp only
      rw [countP_snoc, ← hi.counted]
      by_cases hp : q' = p
      · subst hp
        simp
      · simp [hp, Function.update_of_ne (Ne.symm hp)]
    · intro stage hmem config' hconfig
      rcases List.mem_append.1 hmem with hmem | hmem
      · exact hi.cached stage hmem config' hconfig
      · obtain rfl := List.mem_singleton.1 hmem
        cases hconfig
        exact ⟨q', rfl, hlt, hstring, hcached⟩
    · intro config' p hcached'
      obtain ⟨stage, hmem, hconfig⟩ := hi.held config' p hcached'
      exact ⟨stage, List.mem_append_left _ hmem, hconfig⟩

/-- The references when an object changes. -/
theorem countP_set_holds {i : Nat} {stage stage' : Stage} (h : s.objects[i]? = some stage) (p : Nat) :
    (s.objects.set i stage').countP (Stage.holds p) =
      s.objects.countP (Stage.holds p) - (if stage.holds p then 1 else 0) + if stage'.holds p then 1 else 0 := by
  obtain ⟨hlt, hget⟩ := List.getElem?_eq_some_iff.1 h
  rw [List.countP_set hlt, hget]

/-- Moving the reference into the argument changes nothing. -/
theorem Inv.moveOut (hi : Inv s) {i : Nat} {config : Bytes} {scopes : Option Nat}
    (h : s.objects[i]? = some (.live config scopes)) :
    Inv { s with objects := s.objects.set i (.destroying config scopes) } := by
  have hmem : Stage.live config scopes ∈ s.objects := List.mem_of_getElem? h
  refine ⟨fun p => ?_, ?_, ?_⟩
  · dsimp only
    rw [countP_set_holds h, hi.counted]
    have hsame : (Stage.destroying config scopes).holds p = (Stage.live config scopes).holds p := rfl
    rw [hsame]
    by_cases hholds : (Stage.live config scopes).holds p = true
    · have hpos := List.countP_pos_iff.2 ⟨_, hmem, hholds⟩
      rw [if_pos hholds]
      omega
    · rw [if_neg hholds]
      rfl
  · intro stage hmem' config' hconfig
    rcases List.mem_or_eq_of_mem_set hmem' with hmem' | rfl
    · exact hi.cached stage hmem' config' hconfig
    · exact hi.cached _ hmem config' hconfig
  · intro config' p hcached
    obtain ⟨stage, hmem', hconfig⟩ := hi.held config' p hcached
    obtain ⟨j, hj⟩ := List.mem_iff_getElem?.1 hmem'
    by_cases hij : i = j
    · subst hij
      obtain rfl := Option.some.inj (h.symm.trans hj)
      exact ⟨_, List.mem_set (List.getElem?_eq_some_iff.1 h).1 _, hconfig⟩
    · exact ⟨stage, List.mem_iff_getElem?.2 ⟨j, (List.getElem?_set_ne hij).trans hj⟩, hconfig⟩

/-- The last reference takes the entry with it. -/
theorem Inv.erase (hi : Inv s) {i : Nat} {config : Bytes} {scopes : Option Nat}
    (h : s.objects[i]? = some (.destroying config scopes)) :
    ∃ t, s.eraseStatsScopes scopes = .ok t ∧ Inv { t with objects := t.objects.set i .gone } := by
  obtain ⟨p, hscopes, hlt, hstring, hcached⟩ := hi.cached _ (List.mem_of_getElem? h) config rfl
  obtain rfl : scopes = some p := hscopes
  have hcount : ∀ q, (s.objects.set i .gone).countP (Stage.holds q) =
      s.objects.countP (Stage.holds q) - if p = q then 1 else 0 := by
    intro q
    rw [countP_set_holds h]
    simp [Stage.holds, Stage.scopes]
  have hcounted : ∀ q, Function.update s.useCount p (s.useCount p - 1) q =
      (s.objects.set i .gone).countP (Stage.holds q) := by
    intro q
    rw [hcount, ← hi.counted]
    by_cases hq : p = q
    · subst hq
      simp
    · simp [hq, Function.update_of_ne (Ne.symm hq)]
  have hrest : ∀ stage ∈ s.objects.set i .gone, ∀ config', stage.config = some config' → stage ∈ s.objects := by
    intro stage hmem config' hconfig
    rcases List.mem_or_eq_of_mem_set hmem with hmem | rfl
    · exact hmem
    · cases hconfig
  have hother : ∀ stage ∈ s.objects, ∀ config', stage.config = some config' → config' ≠ config →
      stage ∈ s.objects.set i .gone := by
    intro stage hmem config' hconfig hne
    obtain ⟨j, hj⟩ := List.mem_iff_getElem?.1 hmem
    have hij : i ≠ j := by
      rintro rfl
      obtain rfl := Option.some.inj (h.symm.trans hj)
      exact hne (Option.some.inj hconfig).symm
    exact List.mem_iff_getElem?.2 ⟨j, (List.getElem?_set_ne hij).trans hj⟩
  unfold Process.eraseStatsScopes
  by_cases hlast : s.useCount p = 1
  · -- nobody else holds these scopes
    have hnobody : ∀ stage ∈ s.objects.set i .gone, stage.holds p = false := by
      have hzero : (s.objects.set i .gone).countP (Stage.holds p) = 0 := by
        rw [hcount, ← hi.counted, hlast, if_pos rfl]
      intro stage hmem
      simpa using List.countP_eq_zero.1 hzero stage hmem
    simp only [if_pos hlast, hstring]
    refine ⟨_, rfl, hcounted, ?_, ?_⟩
    · intro stage hmem config' hconfig
      obtain ⟨q, hscopes', hlt', hstring', hcached'⟩ :=
        hi.cached stage (hrest stage hmem config' hconfig) config' hconfig
      refine ⟨q, hscopes', hlt', hstring', ?_⟩
      have hne : config' ≠ config := by
        rintro rfl
        obtain rfl := Option.some.inj (hcached'.symm.trans hcached)
        simpa [Stage.holds, hscopes'] using hnobody stage hmem
      exact (Function.update_of_ne hne _ _).trans hcached'
    · intro config' q hcached'
      have hne : config' ≠ config := by
        rintro rfl
        cases (Function.update_self _ _ _).symm.trans hcached'
      obtain ⟨stage, hmem, hconfig⟩ := hi.held config' q ((Function.update_of_ne hne _ _).symm.trans hcached')
      exact ⟨stage, hother stage hmem config' hconfig hne, hconfig⟩
  · simp only [if_neg hlast]
    refine ⟨_, rfl, hcounted, ?_, ?_⟩
    · intro stage hmem config' hconfig
      exact hi.cached stage (hrest stage hmem config' hconfig) config' hconfig
    · intro config' q hcached'
      by_cases hne : config' = config
      · -- another holder of the same scopes is left
        subst hne
        have hpos : 0 < (s.objects.set i .gone).countP (Stage.holds p) := by
          have := hi.useCount_pos hcached
          rw [hcount, ← hi.counted, if_pos rfl]
          omega
        obtain ⟨stage, hmem, hholds⟩ := List.countP_pos_iff.1 hpos
        obtain ⟨config'', hconfig⟩ := Stage.config_of_holds hholds
        obtain ⟨q', hscopes', -, hstring', -⟩ := hi.cached stage (hrest stage hmem _ hconfig) _ hconfig
        obtain rfl : q' = p := by simpa [Stage.holds, hscopes'] using hholds
        obtain rfl := hstring.symm.trans hstring'
        exact ⟨stage, hmem, hconfig⟩
      · obtain ⟨stage, hmem, hconfig⟩ := hi.held config' q hcached'
        exact ⟨stage, hother stage hmem config' hconfig hne, hconfig⟩

/-- A step that is scheduled keeps the invariant, and its assertion holds. -/
theorem Inv.step (hi : Inv s) {e : Event} (hc : Scheduled s e) : ∃ t, step s e = .ok t ∧ Inv t := by
  cases e with
  | construct config => exact ⟨_, rfl, hi.construct rfl⟩
  | moveOut i =>
    obtain ⟨config, scopes, h⟩ := hc
    refine ⟨_, ?_, hi.moveOut h⟩
    simp only [DetailedStats.step, h]
  | erase i =>
    obtain ⟨config, scopes, h⟩ := hc
    obtain ⟨t, ht, hinv⟩ := hi.erase h
    have hobjects : t.objects = s.objects := by
      cases scopes with
      | none => cases ht
      | some p =>
        unfold Process.eraseStatsScopes at ht
        cases ht
        dsimp only
        split_ifs <;> rfl
    refine ⟨_, ?_, hinv⟩
    simp only [DetailedStats.step, h, ht, ok_bind, hobjects]
    rfl

/-- In every interleaving, live objects of one configuration hold the same
scopes, which are not null and not freed and which the map knows; a
configuration that nobody holds has no entry; and no assertion fails. -/
theorem scopes_shared (h : Reach step Scheduled {} s) :
    (∀ config scopes scopes', Stage.live config scopes ∈ s.objects → Stage.live config scopes' ∈ s.objects → scopes = scopes') ∧
    (∀ config scopes, Stage.live config scopes ∈ s.objects →
      ∃ p, scopes = some p ∧ 0 < s.useCount p ∧ s.stringConfig p = config ∧ s.cachedStatsScopes config = some p) ∧
    (∀ config, ¬ Remains s config → s.cachedStatsScopes config = none) ∧
    ∀ e, Scheduled s e → ∃ t, step s e = .ok t := by
  have hi : Inv s := by
    refine h.invariant Inv inv_start fun s e s' hi hc hs => ?_
    obtain ⟨t, ht, hinv⟩ := hi.step hc
    obtain rfl := Except.ok.inj (ht.symm.trans hs)
    exact hinv
  have hlive : ∀ config scopes, Stage.live config scopes ∈ s.objects →
      ∃ p, scopes = some p ∧ 0 < s.useCount p ∧ s.stringConfig p = config ∧ s.cachedStatsScopes config = some p := by
    intro config scopes hmem
    obtain ⟨p, hscopes, -, hstring, hcached⟩ := hi.cached _ hmem config rfl
    exact ⟨p, hscopes, hi.useCount_pos hcached, hstring, hcached⟩
  refine ⟨?_, hlive, ?_, fun e he => (hi.step he).imp fun _ h => h.1⟩
  · intro config scopes scopes' hmem hmem'
    obtain ⟨p, rfl, -, -, hcached⟩ := hlive config scopes hmem
    obtain ⟨p', rfl, -, -, hcached'⟩ := hlive config scopes' hmem'
    exact hcached.symm.trans hcached'
  · intro config hnot
    cases hcached : s.cachedStatsScopes config with
    | none => rfl
    | some p => exact absurd (hi.held config p hcached) hnot

/-- An object is made while the destructor of another one waits for the lock. -/
theorem recreated_shared :
    ∃ s, Reach step Scheduled {} s ∧ s.objects = [.gone, .live [97] (some 0)] ∧ s.cachedStatsScopes [97] = some 0 := by
  have hmade : Reach step Scheduled {} _ := .next (e := Event.construct [97]) .start trivial rfl
  have hmoved := Reach.next (e := Event.moveOut 0) hmade ⟨_, _, rfl⟩ rfl
  have hremade := Reach.next (e := Event.construct [97]) hmoved trivial rfl
  have herased := Reach.next (e := Event.erase 0) hremade ⟨_, _, rfl⟩ rfl
  obtain ⟨p, hp, -, -, hcached⟩ := (scopes_shared herased).2.1 [97] (some 0)
    (List.mem_cons_of_mem _ List.mem_cons_self)
  cases hp
  exact ⟨_, herased, rfl, hcached⟩

end EnvoyProxy.DetailedStats
