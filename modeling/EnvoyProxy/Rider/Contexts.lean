import EnvoyProxy.Rider.Kept
/-!
# The context of the interface

The functions of version 2 of the interface work on `global_ctx`, of which a
worker thread has one. A `Worker` starts plugins and runs filters of any of
them, in any order. `isolated_iff` says when the context is that of the code
that runs.
-/

namespace EnvoyProxy.Rider
open Json Http StreamWrapper

variable {H : Type} [HeaderMap H]

/-! ## One filter -/

/-- A filter whose code has only run under its own context, while it was there. -/
structure Owned (plugin : Plugin) (i : Nat) (s : Stream H) : Prop where
  self : s.self = i
  filter : ∀ p, s.globalCtx ≠ some (.root p)
  entries : plugin.version = .v2 → ∀ e ∈ s.entered, e.globalCtx = some (.filter i) ∧ e.alive = true

/-- A filter that has not been destroyed. -/
structure OwnedLive (plugin : Plugin) (i : Nat) (s : Stream H) : Prop extends Owned plugin i s where
  live : s.destroyed = false

section Owned
variable {plugin : Plugin} {i : Nat}

omit [HeaderMap H] in
/-- What is not looked at may change. -/
theorem Owned.congr {s t : Stream H} (hs : Owned plugin i s) (hself : t.self = s.self)
    (hctx : ∀ p, t.globalCtx ≠ some (.root p)) (hentered : t.entered = s.entered) : Owned plugin i t := by
  refine ⟨hself.trans hs.self, hctx, ?_⟩
  rw [hentered]
  exact hs.entries

omit [HeaderMap H] in
theorem Owned.passBy {s : Stream H} (hs : Owned plugin i s) : Owned plugin i s.passBy := by
  refine hs.congr (t := s.passBy) rfl ?_ rfl
  unfold Stream.passBy
  cases s.elsewhere s.entered.length with
  | none => exact hs.filter
  | some j => simp

omit [HeaderMap H] in
theorem Owned.enter {s : Stream H} (hs : Owned plugin i s) (hlive : s.destroyed = false)
    (hctx : plugin.version = .v2 → s.globalCtx = some (.filter i)) (d : StreamDirection) (handler : Handler)
    (headers resumable : Bool) (buffer : Option Bytes) :
    Owned plugin i (s.enter d handler headers resumable buffer) := by
  refine ⟨hs.self, hs.filter, ?_⟩
  intro hversion e he
  rcases List.mem_append.1 he with he | he
  · exact hs.entries hversion e he
  · rw [List.mem_singleton.1 he]
    exact ⟨hctx hversion, by simp [hlive]⟩

omit [HeaderMap H] in
theorem OwnedLive.congr {s t : Stream H} (hs : OwnedLive plugin i s) (hself : t.self = s.self)
    (hctx : ∀ p, t.globalCtx ≠ some (.root p)) (hentered : t.entered = s.entered)
    (hlive : t.destroyed = s.destroyed) :
    OwnedLive plugin i t :=
  ⟨hs.toOwned.congr hself hctx hentered, hlive.trans hs.live⟩

omit [HeaderMap H] in
/-- An effect without a response. -/
theorem OwnedLive.silent {d : StreamDirection} {w w' : StreamWrapper} {s s' : Stream H}
    (he : Effect plugin (silent d) (w, s) (w', s')) (hs : OwnedLive plugin i s) : OwnedLive plugin i s' := by
  cases he with
  | wrapper => exact hs
  | globalCtx => exact hs.congr rfl (by rintro _ ⟨⟩) rfl rfl
  | error | raised => exact hs.congr rfl hs.filter rfl rfl
  | responded hrespond => cases hrespond
  | enterV1 handler resumable buffer hversion =>
    refine ⟨hs.toOwned.enter hs.live ?_ _ _ _ _ _, hs.live⟩
    exact fun h => absurd (hversion.symm.trans h) (by simp)
  | enter handler resumable buffer =>
    have hset : Owned plugin i s.setGlobalCtx := hs.toOwned.congr rfl (by rintro _ ⟨⟩) rfl
    refine ⟨hset.enter hs.live ?_ _ _ _ _ _, hs.live⟩
    intro _
    rw [Stream.setGlobalCtx, hs.self]

omit [HeaderMap H] in
theorem OwnedLive.setSide {s : Stream H} (hs : OwnedLive plugin i s) (d : StreamDirection) (side : Side H) :
    OwnedLive plugin i (s.setSide d side) := by
  cases d
  · exact hs.congr rfl hs.filter rfl rfl
  · exact hs.congr rfl hs.filter rfl rfl

omit [HeaderMap H] in
theorem OwnedLive.gate {d : StreamDirection} {s : Stream H} (hs : OwnedLive plugin i s) :
    OwnedLive plugin i (gate plugin d s).2 := by
  unfold Rider.gate
  cases d with
  | upstreamToDownstream => exact hs
  | downstreamToUpstream =>
    dsimp only
    split
    · exact hs
    · exact hs
    · exact hs.congr rfl hs.filter rfl rfl

/-- For a direction whose effects are kept. -/
theorem owned_kept {d : StreamDirection}
    (heffect : ∀ w s w' s', Effect plugin (filterCallbacks plugin d) (w, s) (w', s') → OwnedLive plugin i s →
      OwnedLive (H := H) plugin i s') :
    Kept (H := H) plugin d (OwnedLive plugin i) (fun _ => OwnedLive plugin i) where
  effect := heffect
  side := fun _ _ _ _ he => he.same.2
  load := fun _ _ hs _ => hs
  store := fun _ _ hs => hs.setSide d _
  gate := fun _ hs => hs.gate
  setHeaders := fun _ hs => hs.setSide d _
  answered := fun _ hs => hs.congr rfl hs.filter rfl rfl
  passBy := fun _ hs => ⟨hs.toOwned.passBy, hs.live⟩
  create := fun _ _ hs _ => hs
  createData := fun _ _ hs _ _ _ _ => hs
  pipe := fun _ _ _ hs _ => hs.setSide d _
  skipped := fun _ _ _ hs _ => hs.gate.setSide d _

theorem owned_response : Kept (H := H) plugin .upstreamToDownstream (OwnedLive plugin i)
    (fun _ => OwnedLive plugin i) :=
  owned_kept fun _ _ _ _ he hs => OwnedLive.silent he hs

theorem owned_request : Kept (H := H) plugin .downstreamToUpstream (OwnedLive plugin i)
    (fun _ => OwnedLive plugin i) := by
  apply owned_kept
  intro w s w' s' he hs
  rcases he.decoder with hsilent | ⟨-, headers, bytes, hrespond⟩
  · exact OwnedLive.silent hsilent hs
  · have hraised : OwnedLive plugin i { s with responded := true } := hs.congr rfl hs.filter rfl rfl
    exact owned_response.respond hraised hrespond

/-- No callback enters Lua code under another context, whatever the context is
before it. -/
theorem owned_step {s : Stream H} (hs : Owned plugin i s) (e : Event H) : Owned plugin i (s.step plugin e) := by
  by_cases hdestroy : e = .onDestroy
  · subst hdestroy
    exact hs.congr rfl hs.filter rfl
  · cases hlive : s.destroyed with
    | true =>
      -- nothing happens to a stream that is gone
      have hover : s.over = true := by simp [Stream.over, hlive]
      cases e with
      | arrival d a => simpa [Stream.step, hover] using hs
      | httpDone d =>
        dsimp only [Stream.step]
        cases (s.side d).streamWrapper with
        | none => exact hs
        | some w => simpa [hover] using hs
      | onDestroy => exact absurd rfl hdestroy
    | false =>
      have hall : OwnedLive plugin i s := ⟨hs, hlive⟩
      refine (step_kept (I := fun _ _ => OwnedLive plugin i) ?_ hall hdestroy).toOwned
      intro d
      cases d
      · exact owned_request
      · exact owned_response

end Owned

/-! ## A worker -/

/-- The filters of a worker thread with their plugins, and the contexts under
which `on_configure` has called functions of the interface. -/
structure Worker (H : Type) where
  globalCtx : Option Context := none
  filters : List (Nat × Stream H) := []
  configured : List (Nat × Option Context) := []

inductive WorkerEvent (H : Type)
  /-- `startPlugin`, whose `on_configure` calls functions of version 2 of the
  interface or does not. -/
  | startPlugin (plugin : Nat) (callsInterface : Bool)
  /-- `Filter::Filter`, in a stream with other filters. -/
  | construct (plugin : Nat) (route : Route) (elsewhere : Nat → Option Nat)
  | callback (filter : Nat) (event : Event H)

namespace Worker

def step (plugins : Nat → Plugin) (w : Worker H) : WorkerEvent H → Worker H
  | .startPlugin plugin callsInterface =>
    if callsInterface then { w with configured := w.configured ++ [(plugin, w.globalCtx)] } else w
  | .construct plugin route elsewhere =>
    let filter := w.filters.length
    { w with globalCtx := some (.filter filter), filters := w.filters ++ [(plugin, { self := filter, route, elsewhere })] }
  | .callback filter event =>
    match w.filters[filter]? with
    | some (plugin, s) =>
      let s := { s with globalCtx := w.globalCtx }.step (plugins plugin) event
      { w with globalCtx := s.globalCtx, filters := w.filters.set filter (plugin, s) }
    | none => w

def run (plugins : Nat → Plugin) (w : Worker H) (es : List (WorkerEvent H)) : Worker H := es.foldl (step plugins) w

end Worker

/-- Code of version 2 has only called the interface under its own context, that
of a filter while it was there. -/
structure Isolated (plugins : Nat → Plugin) (w : Worker H) : Prop where
  filters : ∀ (i : Nat) p s, w.filters[i]? = some (p, s) → (plugins p).version = .v2 →
    ∀ e ∈ s.entered, e.globalCtx = some (.filter i) ∧ e.alive = true
  configured : ∀ c ∈ w.configured, c.2 = some (.root c.1)

/-- The context is that of a filter, and every filter is `Owned`. -/
structure Worker.Inv (plugins : Nat → Plugin) (w : Worker H) : Prop where
  ctx : ∀ p, w.globalCtx ≠ some (.root p)
  filters : ∀ (i : Nat) p s, w.filters[i]? = some (p, s) → Owned (plugins p) i s

theorem Worker.inv_step {plugins : Nat → Plugin} {w : Worker H} (hw : w.Inv plugins) (e : WorkerEvent H) :
    (w.step plugins e).Inv plugins := by
  cases e with
  | startPlugin plugin callsInterface =>
    dsimp only [Worker.step]
    split_ifs
    · exact ⟨hw.ctx, hw.filters⟩
    · exact hw
  | construct plugin route elsewhere =>
    refine ⟨by rintro _ ⟨⟩, ?_⟩
    intro i p s hs
    dsimp only [Worker.step] at hs
    rcases Nat.lt_trichotomy i w.filters.length with hi | rfl | hi
    · rw [List.getElem?_append_left hi] at hs
      exact hw.filters i p s hs
    · rw [List.getElem?_concat_length] at hs
      cases hs
      exact ⟨rfl, by simp, fun _ => by simp⟩
    · rw [List.getElem?_eq_none (by simpa using hi)] at hs
      cases hs
  | callback filter event =>
    dsimp only [Worker.step]
    split
    · rename_i plugin s hfilter
      have hstart : Owned (plugins plugin) filter { s with globalCtx := w.globalCtx } :=
        (hw.filters filter plugin s hfilter).congr rfl hw.ctx rfl
      have hstep := owned_step hstart event
      refine ⟨hstep.filter, ?_⟩
      intro i p t ht
      by_cases hi : i = filter
      · subst hi
        obtain ⟨hlength, -⟩ := List.getElem?_eq_some_iff.1 hfilter
        rw [List.getElem?_set_self hlength] at ht
        cases ht
        exact hstep
      · rw [List.getElem?_set_ne (Ne.symm hi)] at ht
        exact hw.filters i p t ht
    · exact hw

theorem Worker.inv_run {plugins : Nat → Plugin} {w : Worker H} (hw : w.Inv plugins) (es : List (WorkerEvent H)) :
    (w.run plugins es).Inv plugins := by
  induction es generalizing w with
  | nil => exact hw
  | cons e es ih => exact ih (Worker.inv_step hw e)

/-- What `on_configure` has found in `global_ctx` is never its own context. -/
theorem configured_run {plugins : Nat → Plugin} {w : Worker H} (hw : w.Inv plugins) (es : List (WorkerEvent H)) :
    (∀ c ∈ (w.run plugins es).configured, c.2 = some (.root c.1)) ↔
      (∀ c ∈ w.configured, c.2 = some (.root c.1)) ∧ ∀ p, .startPlugin p true ∉ es := by
  induction es generalizing w with
  | nil => simp [Worker.run]
  | cons e es ih =>
    have hstep : (∀ c ∈ (w.step plugins e).configured, c.2 = some (.root c.1)) ↔
        (∀ c ∈ w.configured, c.2 = some (.root c.1)) ∧ ∀ p, .startPlugin p true ≠ e := by
      cases e with
      | startPlugin plugin callsInterface =>
        cases callsInterface with
        | false => simp [Worker.step]
        | true =>
          apply iff_of_false
          · intro hall
            exact hw.ctx plugin (hall (plugin, w.globalCtx) (by simp [Worker.step]))
          · exact fun hall => hall.2 plugin rfl
      | construct plugin route elsewhere => simp [Worker.step]
      | callback filter event =>
        dsimp only [Worker.step]
        split <;> simp
    have hrun : w.run plugins (e :: es) = (w.step plugins e).run plugins es := rfl
    rw [hrun, ih (Worker.inv_step hw e), hstep, and_assoc]
    apply and_congr_right
    intro _
    simp only [List.mem_cons, not_or]
    exact forall_and.symm

/-- The code is isolated in a run exactly when no `on_configure` calls the
interface. -/
theorem isolated_iff (plugins : Nat → Plugin) (es : List (WorkerEvent H)) :
    Isolated plugins (Worker.run plugins {} es) ↔ ∀ p, .startPlugin p true ∉ es := by
  have hstart : Worker.Inv plugins ({} : Worker H) := ⟨by simp, fun i p s hs => by cases hs⟩
  have hinv := Worker.inv_run hstart es
  have hconfigured := configured_run hstart es
  constructor
  · intro hisolated
    exact (hconfigured.1 hisolated.configured).2
  · intro hnone
    refine ⟨?_, hconfigured.2 ⟨by simp, hnone⟩⟩
    intro i p s hs hversion
    exact (hinv.filters i p s hs).entries hversion

/-- A plugin is started first, and reads its configuration. -/
theorem configure_without_context :
    let plugins : Nat → Plugin := fun _ => { version := .v2, script := fun _ => .finish }
    let w : Worker HeaderList := Worker.run plugins {} [.startPlugin 0 true]
    w.configured = [(0, none)] ∧ ¬ Isolated plugins w := by
  intro plugins w
  have hconfigured : w.configured = [(0, none)] := rfl
  refine ⟨hconfigured, ?_⟩
  intro hisolated
  have hall := hisolated.configured
  rw [hconfigured] at hall
  cases hall _ (List.mem_singleton_self _)

end EnvoyProxy.Rider
