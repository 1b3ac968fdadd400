import EnvoyProxy.Lib.Fuel
import EnvoyProxy.Dubbo.Request
/-!
# The context of a configuration

`DubboBridgeContext` keeps its attachments in three hash maps, which the
constructor fills from the configuration in one loop. A hash map is iterated
in any order, so a context is known up to the order of its attachments.
-/

namespace EnvoyProxy.Dubbo
open Json

/-- The static attachments of a configuration, with the group in front. -/
def staticEntries (config : ProtoDubboBridgeContext) : FlatStringMap :=
  (if config.group ≠ [] then [(ascii "group", config.group)] else []) ++
    config.attachments.filterMap fun a => match a.source with | .static value => some (a.name, value) | _ => none

/-- The attachments taken from headers, with the name of the header. -/
def headerEntries (config : ProtoDubboBridgeContext) : FlatStringMap :=
  config.attachments.filterMap fun a => match a.source with | .header name => some (a.name, lowerCase name) | _ => none

/-- The attachments taken from cookies, with the name of the cookie. -/
def cookieEntries (config : ProtoDubboBridgeContext) : FlatStringMap :=
  config.attachments.filterMap fun a => match a.source with | .cookie name => some (a.name, name) | _ => none

/-- A map holds these entries, the first one under a name that is there twice. -/
structure HoldsExactly (m entries : FlatStringMap) : Prop where
  nodup : (m.map Prod.fst).Nodup
  mem : ∀ key value, (key, value) ∈ m ↔ entries.lookup key = some value

theorem holdsExactly_nil : HoldsExactly [] [] := ⟨by simp, by simp⟩

theorem HoldsExactly.perm {m m' entries : FlatStringMap} (h : HoldsExactly m entries) (hp : m'.Perm m) :
    HoldsExactly m' entries :=
  ⟨(hp.map _).nodup_iff.2 h.nodup, fun key value => hp.mem_iff.trans (h.mem key value)⟩

theorem HoldsExactly.insert {m entries : FlatStringMap} (h : HoldsExactly m entries) (e : Bytes × Bytes) :
    HoldsExactly (m.insert e) (entries ++ [e]) := by
  have hlookup : ∀ key, (entries ++ [e]).lookup key =
      (entries.lookup key).or (if key = e.1 then some e.2 else none) := by
    intro key
    obtain ⟨k, v⟩ := e
    rw [List.lookup_append, List.lookup_cons]
    by_cases hk : key = k
    · simp [hk]
    · simp [hk, beq_eq_false_iff_ne.2 hk]
  unfold FlatStringMap.insert
  by_cases hkey : e.1 ∈ m.map Prod.fst
  · -- the name is there, and its entry stays
    rw [if_pos hkey]
    refine ⟨h.nodup, fun key value => ?_⟩
    rw [h.mem, hlookup]
    cases hl : entries.lookup key with
    | some v => rfl
    | none =>
      have hne : key ≠ e.1 := by
        rintro rfl
        obtain ⟨x, hx, hxe⟩ := List.mem_map.1 hkey
        have := (h.mem x.1 x.2).1 hx
        rw [hxe, hl] at this
        cases this
      simp [hne]
  · rw [if_neg hkey]
    refine ⟨?_, fun key value => ?_⟩
    · rw [List.map_append, List.nodup_append]
      refine ⟨h.nodup, by simp, ?_⟩
      rintro k hk k' hk' rfl
      obtain rfl : k = e.1 := by simpa using hk'
      exact hkey hk
    · rw [List.mem_append, h.mem, hlookup, List.mem_singleton]
      cases hl : entries.lookup key with
      | some v =>
        have hne : key ≠ e.1 := by
          rintro rfl
          exact hkey (List.mem_map.2 ⟨(e.1, v), (h.mem _ _).2 hl, rfl⟩)
        simp [Prod.ext_iff, hne]
      | none => by_cases hk : key = e.1 <;> simp [Prod.ext_iff, hk, eq_comm]

theorem HoldsExactly.foldl {m entries : FlatStringMap} (h : HoldsExactly m entries) (es : FlatStringMap) :
    HoldsExactly (es.foldl FlatStringMap.insert m) (entries ++ es) := by
  induction es generalizing m entries with
  | nil => rwa [List.append_nil]
  | cons e es ih =>
    have := ih (h.insert e)
    rwa [List.append_assoc] at this

/-- The loop over the configured attachments fills each of the maps. -/
theorem attach_foldl (attachments : List ProtoAttachment) (context : DubboBridgeContext) :
    (attachments.foldl DubboBridgeContext.attach context).staticAttachs =
      (attachments.filterMap fun a => match a.source with | .static value => some (a.name, value) | _ => none).foldl
        FlatStringMap.insert context.staticAttachs ∧
    (attachments.foldl DubboBridgeContext.attach context).headerAttachs =
      (attachments.filterMap fun a => match a.source with | .header name => some (a.name, lowerCase name) | _ => none).foldl
        FlatStringMap.insert context.headerAttachs ∧
    (attachments.foldl DubboBridgeContext.attach context).cookieAttachs =
      (attachments.filterMap fun a => match a.source with | .cookie name => some (a.name, name) | _ => none).foldl
        FlatStringMap.insert context.cookieAttachs := by
  induction attachments generalizing context with
  | nil => exact ⟨rfl, rfl, rfl⟩
  | cons a attachments ih =>
    obtain ⟨hs, hh, hc⟩ := ih (context.attach a)
    simp only [List.foldl_cons, List.filterMap_cons, hs, hh, hc]
    unfold DubboBridgeContext.attach
    cases a.source <;> exact ⟨rfl, rfl, rfl⟩

theorem attach_foldl_names (attachments : List ProtoAttachment) (context : DubboBridgeContext) :
    (attachments.foldl DubboBridgeContext.attach context).service = context.service ∧
    (attachments.foldl DubboBridgeContext.attach context).version = context.version ∧
    (attachments.foldl DubboBridgeContext.attach context).method = context.method := by
  induction attachments generalizing context with
  | nil => exact ⟨rfl, rfl, rfl⟩
  | cons a attachments ih =>
    rw [List.foldl_cons, (ih _).1, (ih _).2.1, (ih _).2.2]
    unfold DubboBridgeContext.attach
    cases a.source <;> exact ⟨rfl, rfl, rfl⟩

theorem ofProto_type {jsonDefault : Bytes → Bytes → Bool → Option HessianValue} {index : Nat}
    {config : ProtoParameter}
    {ignoreNull : Bool} {parameter : Parameter}
    (h : Parameter.ofProto jsonDefault index config ignoreNull = .ok parameter) : parameter.type = config.type := by
  unfold Parameter.ofProto at h
  split_ifs at h
  · cases hd : jsonDefault config.default_ config.type ignoreNull with
    | none => rw [hd] at h; cases h
    | some v => rw [hd] at h; cases h; rfl
  · cases h
    rfl

theorem map_eq_of_forall₂ {α β γ : Type} {R : α → β → Prop} {f : α → γ} {g : β → γ} {as : List α} {bs : List β}
    (h : List.Forall₂ R as bs) (hfg : ∀ a b, R a b → g b = f a) : bs.map g = as.map f := by
  induction h with
  | nil => rfl
  | cons hab _ ih => rw [List.map_cons, List.map_cons, ih, hfg _ _ hab]

/-- A context from the constructor. Its hash maps are iterated in some order. -/
structure Built (jsonDefault : Bytes → Bytes → Bool → Option HessianValue) (config : ProtoDubboBridgeContext)
    (context : DubboBridgeContext) : Prop where
  ofProto : ∃ built, DubboBridgeContext.ofProto jsonDefault config = .ok built ∧
    context.service = built.service ∧ context.version = built.version ∧ context.method = built.method ∧
    context.params = built.params ∧ context.staticAttachs.Perm built.staticAttachs ∧
    context.headerAttachs.Perm built.headerAttachs ∧ context.cookieAttachs.Perm built.cookieAttachs

/-- What a request takes from the configuration. -/
structure Configured (config : ProtoDubboBridgeContext) (context : DubboBridgeContext) : Prop where
  service : context.service = config.service
  version : context.version = config.version
  method : context.method = config.method
  types : context.params.map (·.type) = config.parameters.map (·.type)
  static : HoldsExactly context.staticAttachs (staticEntries config)
  header : HoldsExactly context.headerAttachs (headerEntries config)
  cookie : HoldsExactly context.cookieAttachs (cookieEntries config)

theorem Built.configured {jsonDefault : Bytes → Bytes → Bool → Option HessianValue}
    {config : ProtoDubboBridgeContext}
    {context : DubboBridgeContext} (h : Built jsonDefault config context) : Configured config context := by
  obtain ⟨built, hbuilt, hservice, hversion, hmethod, hparams, hstatic, hheader, hcookie⟩ := h
  obtain ⟨params, hp, hbuilt⟩ := bind_eq_ok hbuilt
  obtain rfl := (Except.ok.inj hbuilt).symm
  have hgroup : HoldsExactly (if config.group ≠ [] then FlatStringMap.insert [] (ascii "group", config.group) else [])
      (if config.group ≠ [] then [(ascii "group", config.group)] else []) := by
    split_ifs
    · exact holdsExactly_nil.insert _
    · exact holdsExactly_nil
  have hnames := fun context => attach_foldl_names config.attachments context
  refine ⟨hservice.trans (hnames _).1, hversion.trans (hnames _).2.1, hmethod.trans (hnames _).2.2, ?_, ?_, ?_, ?_⟩
  · have htypes : params.map (·.type) = config.parameters.zipIdx.map (·.1.type) :=
      map_eq_of_forall₂ (mapM_ok hp) fun _ _ h => ofProto_type h
    have hfst : config.parameters.zipIdx.map (·.1.type) = (config.parameters.zipIdx.map Prod.fst).map (·.type) := by
      rw [List.map_map]
      rfl
    rw [hparams, htypes, hfst, List.zipIdx_map_fst]
  · refine HoldsExactly.perm ?_ hstatic
    simp only [(attach_foldl _ _).1]
    exact hgroup.foldl _
  · refine HoldsExactly.perm ?_ hheader
    simp only [(attach_foldl _ _).2.1]
    exact holdsExactly_nil.foldl _
  · refine HoldsExactly.perm ?_ hcookie
    simp only [(attach_foldl _ _).2.2]
    exact holdsExactly_nil.foldl _

end EnvoyProxy.Dubbo
