import EnvoyProxy.Rider.Filter
/-!
# The handlers of a plugin

`LuaThread::startPluginHandle` (vm.cc) takes references to the functions of the
table that a script returns, `Filter` (filter.cc) starts code with them, and
`~PluginHandle` (context.cc) gives them back. Which references are taken
depends on whether there is a version at all, which are used on the version.
-/

namespace EnvoyProxy.Rider

/-! ## The registry of a Lua state -/

/-- The functions that are kept, by their keys. -/
abbrev Registry (F : Type) := List (Nat × F)

/-- `lua_rawgeti` -/
def luaRawgeti {F : Type} (r : Registry F) (key : Nat) : Option F := List.lookup key r

/-- How `luaL_ref` finds a key: one that is not in use. -/
structure Keys (F : Type) where
  key : Registry F → Nat
  unused : ∀ r, luaRawgeti r (key r) = none

/-- `LUA_NOREF` is `none`. -/
abbrev Ref := Option Nat

def luaLUnref {F : Type} (r : Registry F) (key : Nat) : Registry F := r.filter fun e => e.1 ≠ key

/-! ## The table of a script -/

inductive LuaValue (F : Type)
  | nil
  | string (bytes : Bytes)
  /-- With the text that `lua_tolstring` makes of it. -/
  | number (text : Bytes)
  | function (f : F)
  /-- A boolean, a table and so on. -/
  | other

/-- The fields that are read. -/
inductive Field
  | version
  | onConfigure
  | onRequest
  | onResponse
  | onRequestHeader
  | onRequestBody
  | onResponseHeader
  | onResponseBody
  deriving DecidableEq, Repr

/-- What running a script has left on the stack. -/
inductive Loaded (F : Type)
  | error (rc : Int)
  | notTable
  | table (t : Field → LuaValue F)

inductive LuaException
  /-- "load lua script error: {}" -/
  | loadScript (rc : Int)
  /-- "expect lua script to return a table" -/
  | expectTable
  /-- An error that `luaL_checklstring` raises. -/
  | badArgument

/-- `luaL_optlstring(state, -1, nullptr, ..)` -/
def optString {F : Type} : LuaValue F → Except LuaException (Option Bytes)
  | .nil => .ok none
  | .string bytes => .ok (some bytes)
  | .number text => .ok (some text)
  | .function _ | .other => .error .badArgument

/-! ## The handle -/

structure PluginHandle where
  version : Version
  /-- `on_configure_ref_` and the six others, by their fields. -/
  ref : Field → Ref := fun _ => none

def resolveVersion : Option Bytes → Version
  | some version => if version = ascii "v1" then .v1 else if version = ascii "v2" then .v2 else .v1
  | none => .v1

section
variable {F : Type} (keys : Keys F)

/-- A reference to a function. Without one the reference stays `LUA_NOREF`. -/
def takeRef (t : Field → LuaValue F) (s : PluginHandle × Registry F) (field : Field) : PluginHandle × Registry F :=
  match t field with
  | .function f =>
    let key := keys.key s.2
    ({ s.1 with ref := Function.update s.1.ref field (some key) }, (key, f) :: s.2)
  | .nil => ({ s.1 with ref := Function.update s.1.ref field none }, s.2)
  | _ => s

/-- The handlers that are looked for, with a version and without. -/
def handlerFields (rawVersion : Option Bytes) : List Field :=
  if rawVersion.isSome then [.onRequestHeader, .onRequestBody, .onResponseHeader, .onResponseBody] else [.onRequest, .onResponse]

def startPluginHandle (loaded : Loaded F) (r : Registry F) : Except LuaException (PluginHandle × Registry F) :=
  match loaded with
  | .error rc => .error (.loadScript rc)
  | .notTable => .error .expectTable
  | .table t => do
    let rawVersion ← optString (t .version)
    let handle : PluginHandle := { version := resolveVersion rawVersion }
    .ok ((.onConfigure :: handlerFields rawVersion).foldl (takeRef keys t) (handle, r))

end

namespace PluginHandle
variable {F : Type}

/-- `~PluginHandle` -/
def destroy (handle : PluginHandle) (r : Registry F) : Registry F :=
  [Field.onConfigure, .onRequest, .onResponse].foldl (fun r field => (handle.ref field).elim r (luaLUnref r)) r

/-- The references that the callbacks of a direction start code with:
`decodeHeaders` and `decodeData`, `encodeHeaders` and `encodeData`. -/
def handlerRef (handle : PluginHandle) (d : StreamDirection) (handler : Handler) : Ref :=
  match handle.version, d, handler with
  | .v1, .downstreamToUpstream, .message => handle.ref .onRequest
  | .v1, .upstreamToDownstream, .message => handle.ref .onResponse
  | .v2, .downstreamToUpstream, .header => handle.ref .onRequestHeader
  | .v2, .downstreamToUpstream, .body => handle.ref .onRequestBody
  | .v2, .upstreamToDownstream, .header => handle.ref .onResponseHeader
  | .v2, .upstreamToDownstream, .body => handle.ref .onResponseBody
  | _, _, _ => none

/-- The function that `Coroutine::start` finds under the reference. -/
def invoked (handle : PluginHandle) (r : Registry F) (d : StreamDirection) (handler : Handler) : Option F :=
  (handle.handlerRef d handler).bind (luaRawgeti r)

/-- The plugin that filters run: a handler is there if its reference is. -/
def plugin (handle : PluginHandle) (allowNoRoute : Bool) (script : Nat → Script) : Plugin where
  version := handle.version
  onRequest := (handle.ref .onRequest).isSome
  onResponse := (handle.ref .onResponse).isSome
  onRequestHeader := (handle.ref .onRequestHeader).isSome
  onRequestBody := (handle.ref .onRequestBody).isSome
  onResponseHeader := (handle.ref .onResponseHeader).isSome
  onResponseBody := (handle.ref .onResponseBody).isSome
  allowNoRoute
  script

/-- The handlers of the filter's model are those that have a reference. -/
theorem plugin_handlers (handle : PluginHandle) (allowNoRoute : Bool) (script : Nat → Script) (d : StreamDirection) :
    (handle.version = .v1 →
        (handle.plugin allowNoRoute script).onMessage d = (handle.handlerRef d .message).isSome) ∧
      (handle.version = .v2 → (handle.plugin allowNoRoute script).onHeader d = (handle.handlerRef d .header).isSome ∧
        (handle.plugin allowNoRoute script).onBody d = (handle.handlerRef d .body).isSome) := by
  constructor
  · intro hversion
    unfold handlerRef
    rw [hversion]
    cases d <;> rfl
  · intro hversion
    unfold handlerRef
    rw [hversion]
    cases d <;> exact ⟨rfl, rfl⟩

end PluginHandle

/-! ## What a table exports -/

def LuaValue.function? {F : Type} : LuaValue F → Option F
  | .function f => some f
  | _ => none

/-- The field of a handler: a message in version 1, headers and body in
version 2. -/
def exportField : Version → StreamDirection → Handler → Option Field
  | .v1, .downstreamToUpstream, .message => some .onRequest
  | .v1, .upstreamToDownstream, .message => some .onResponse
  | .v2, .downstreamToUpstream, .header => some .onRequestHeader
  | .v2, .downstreamToUpstream, .body => some .onRequestBody
  | .v2, .upstreamToDownstream, .header => some .onResponseHeader
  | .v2, .upstreamToDownstream, .body => some .onResponseBody
  | _, _, _ => none

def exported {F : Type} (t : Field → LuaValue F) (version : Version) (d : StreamDirection) (handler : Handler) : Option F :=
  (exportField version d handler).bind fun field => (t field).function?

/-- A plugin's handlers are honoured: those that are exported are invoked, and
no reference outlives the handle. -/
structure Honoured {F : Type} (t : Field → LuaValue F) (r : Registry F) (handle : PluginHandle) (r' : Registry F) : Prop where
  invoked : ∀ d handler, handle.invoked r' d handler = exported t handle.version d handler
  /-- Whatever the registry has become in the meantime. -/
  released : ∀ key, luaRawgeti r key = none → luaRawgeti r' key ≠ none →
    ∀ r'' : Registry F, luaRawgeti (handle.destroy r'') key = none

/-! ## Taking references -/

section
variable {F : Type}

theorem luaRawgeti_cons (key key' : Nat) (f : F) (r : Registry F) :
    luaRawgeti ((key', f) :: r) key = if key = key' then some f else luaRawgeti r key := by
  unfold luaRawgeti
  rw [List.lookup_cons]
  by_cases h : key = key'
  · simp [h]
  · rw [if_neg h, beq_false_of_ne h]

theorem luaLUnref_cons (key key' : Nat) (f : F) (r : Registry F) :
    luaLUnref ((key', f) :: r) key = if key' = key then luaLUnref r key else (key', f) :: luaLUnref r key := by
  unfold luaLUnref
  by_cases h : key' = key <;> simp [h]

theorem luaRawgeti_unref (key key' : Nat) (r : Registry F) :
    luaRawgeti (luaLUnref r key') key = if key = key' then none else luaRawgeti r key := by
  induction r with
  | nil => exact (ite_self none).symm
  | cons e r ih =>
    obtain ⟨k, f⟩ := e
    rw [luaLUnref_cons, luaRawgeti_cons]
    by_cases hk : k = key'
    · rw [if_pos hk, ih, hk]
      by_cases h : key = key'
      · rw [if_pos h, if_pos h]
      · rw [if_neg h, if_neg h, if_neg h]
    · rw [if_neg hk, luaRawgeti_cons, ih]
      by_cases h : key = k
      · have hne : key ≠ key' := fun h' => hk (h.symm.trans h')
        rw [if_pos h, if_neg hne, if_pos h]
      · rw [if_neg h, if_neg h]

/-- The references of the fields that have been looked at. -/
structure Taken (t : Field → LuaValue F) (r : Registry F) (done : List Field) (s : PluginHandle × Registry F) : Prop where
  found : ∀ field, (s.1.ref field).bind (luaRawgeti s.2) = if field ∈ done then (t field).function? else none
  new : ∀ field key, s.1.ref field = some key → luaRawgeti r key = none ∧ luaRawgeti s.2 key ≠ none
  distinct : ∀ field field' key, s.1.ref field = some key → s.1.ref field' = some key → field = field'
  /-- The registry has grown by their keys only. -/
  known : ∀ key, luaRawgeti r key = none → luaRawgeti s.2 key ≠ none → ∃ field, s.1.ref field = some key
  kept : ∀ key, luaRawgeti r key ≠ none → luaRawgeti s.2 key = luaRawgeti r key

variable {t : Field → LuaValue F} {r : Registry F}

theorem taken_nil (t : Field → LuaValue F) (r : Registry F) (version : Version) : Taken t r [] ({ version }, r) where
  found _ := by simp
  new _ _ h := by cases h
  distinct _ _ _ h := by cases h
  known _ h h' := absurd h h'
  kept _ _ := rfl

section
variable {done : List Field} {s : PluginHandle × Registry F} {field : Field}

theorem Taken.ref_none (hs : Taken t r done s) (hfield : field ∉ done) : s.1.ref field = none := by
  cases href : s.1.ref field with
  | none => rfl
  | some key =>
    have hfound := hs.found field
    rw [href, if_neg hfield] at hfound
    exact absurd hfound (hs.new field key href).2

/-- A field without a function changes nothing. -/
theorem Taken.skip (hs : Taken t r done s) (hfield : field ∉ done) (hvalue : (t field).function? = none) :
    Taken t r (field :: done) s := by
  refine ⟨fun field' => ?_, hs.new, hs.distinct, hs.known, hs.kept⟩
  rw [hs.found]
  by_cases heq : field' = field
  · subst heq
    simp [hfield, hvalue]
  · simp [heq]

/-- A function is kept under a key that is not in use. -/
theorem Taken.add (hs : Taken t r done s) (hfield : field ∉ done) {f : F}
    (hvalue : (t field).function? = some f) {key : Nat}
    (hunused : luaRawgeti s.2 key = none) :
    Taken t r (field :: done) ({ s.1 with ref := Function.update s.1.ref field (some key) }, (key, f) :: s.2) := by
  have hkey : luaRawgeti r key = none := by
    by_contra hused
    exact hused ((hs.kept key hused).symm.trans hunused)
  have hother {field' : Field} {k : Nat} (href : s.1.ref field' = some k) : k ≠ key := by
    rintro rfl
    exact (hs.new field' _ href).2 hunused
  have hnew : Function.update s.1.ref field (some key) field = some key := Function.update_self ..
  have hrefs {field' : Field} (heq : field' ≠ field) :
      Function.update s.1.ref field (some key) field' = s.1.ref field' :=
    Function.update_of_ne heq ..
  refine ⟨fun field' => ?_, fun field' k href => ?_, fun field₁ field₂ k h₁ h₂ => ?_, fun k hr hk =>
    ?_, fun k hk => ?_⟩
  · by_cases heq : field' = field
    · subst heq
      simp [luaRawgeti_cons, hvalue]
    · have hrest := hs.found field'
      cases href : s.1.ref field' with
      | none => simpa [heq, href] using hrest
      | some k => simpa [heq, href, luaRawgeti_cons, hother href] using hrest
  · by_cases heq : field' = field
    · subst heq
      obtain rfl : key = k := Option.some.inj (hnew.symm.trans href)
      exact ⟨hkey, by simp [luaRawgeti_cons]⟩
    · have href := (hrefs heq).symm.trans href
      refine ⟨(hs.new field' k href).1, ?_⟩
      rw [luaRawgeti_cons, if_neg (hother href)]
      exact (hs.new field' k href).2
  · by_cases heq₁ : field₁ = field <;> by_cases heq₂ : field₂ = field
    · exact heq₁.trans heq₂.symm
    · subst heq₁
      obtain rfl : key = k := Option.some.inj (hnew.symm.trans h₁)
      exact absurd rfl (hother ((hrefs heq₂).symm.trans h₂))
    · subst heq₂
      obtain rfl : key = k := Option.some.inj (hnew.symm.trans h₂)
      exact absurd rfl (hother ((hrefs heq₁).symm.trans h₁))
    · exact hs.distinct field₁ field₂ k ((hrefs heq₁).symm.trans h₁) ((hrefs heq₂).symm.trans h₂)
  · by_cases heq : k = key
    · exact ⟨field, by simp [heq]⟩
    · rw [luaRawgeti_cons, if_neg heq] at hk
      obtain ⟨field', href⟩ := hs.known k hr hk
      have hne : field' ≠ field := by
        rintro rfl
        cases (hs.ref_none hfield).symm.trans href
      exact ⟨field', (hrefs hne).trans href⟩
  · have hne : k ≠ key := by
      rintro rfl
      exact hk hkey
    rw [luaRawgeti_cons, if_neg hne]
    exact hs.kept k hk

theorem Taken.takeRef (keys : Keys F) (hs : Taken t r done s) (hfield : field ∉ done) :
    Taken t r (field :: done) (takeRef keys t s field) := by
  unfold Rider.takeRef
  cases hvalue : t field with
  | function f => exact hs.add hfield (by rw [hvalue]; rfl) (keys.unused s.2)
  | nil =>
    have hid : Function.update s.1.ref field none = s.1.ref := by rw [← hs.ref_none hfield, Function.update_eq_self]
    dsimp only
    rw [hid]
    exact hs.skip hfield (by rw [hvalue]; rfl)
  | string | number | other => exact hs.skip hfield (by rw [hvalue]; rfl)

end

theorem takeRef_version (keys : Keys F) (t : Field → LuaValue F) (s : PluginHandle × Registry F) (field : Field) :
    (takeRef keys t s field).1.version = s.1.version := by
  unfold takeRef
  cases t field <;> rfl

/-- All fields of a list. -/
theorem Taken.takeRefs (keys : Keys F) {done fields : List Field} {s : PluginHandle × Registry F}
    (hs : Taken t r done s)
    (hdistinct : (fields.reverse ++ done).Nodup) :
    Taken t r (fields.reverse ++ done) (fields.foldl (Rider.takeRef keys t) s) := by
  induction fields generalizing done s with
  | nil => exact hs
  | cons field fields ih =>
    rw [List.reverse_cons, List.append_assoc] at hdistinct ⊢
    have hfield : field ∉ done := (List.nodup_cons.1 hdistinct.of_append_right).1
    exact ih (hs.takeRef keys hfield) hdistinct

theorem takeRefs_version (keys : Keys F) (t : Field → LuaValue F) (fields : List Field)
    (s : PluginHandle × Registry F) :
    (fields.foldl (takeRef keys t) s).1.version = s.1.version := by
  induction fields generalizing s with
  | nil => rfl
  | cons field fields ih => exact (ih _).trans (takeRef_version keys t s field)

/-! ## Giving them back -/

theorem luaRawgeti_elim (ref : Ref) (r : Registry F) (key : Nat) :
    luaRawgeti (ref.elim r (luaLUnref r)) key = if ref = some key then none else luaRawgeti r key := by
  cases ref with
  | none => rfl
  | some k =>
    simp only [Option.elim_some, luaRawgeti_unref, Option.some.injEq]
    by_cases h : key = k
    · rw [if_pos h, if_pos h.symm]
    · rw [if_neg h, if_neg (Ne.symm h)]

theorem luaRawgeti_destroy (handle : PluginHandle) (r : Registry F) (key : Nat) :
    luaRawgeti (handle.destroy r) key =
      if handle.ref .onConfigure = some key ∨ handle.ref .onRequest = some key ∨
      handle.ref .onResponse = some key then none
      else luaRawgeti r key := by
  unfold PluginHandle.destroy
  simp only [List.foldl_cons, List.foldl_nil, luaRawgeti_elim]
  split_ifs <;> simp_all

/-! ## The handlers of a table -/

section
variable {keys : Keys F} {handle : PluginHandle} {r' : Registry F}

/-- The four handlers of version 2. -/
def headerBodyFields : List Field := [.onRequestHeader, .onRequestBody, .onResponseHeader, .onResponseBody]

theorem startPluginHandle_taken (h : startPluginHandle keys (.table t) r = .ok (handle, r')) :
    ∃ rawVersion, optString (t .version) = .ok rawVersion ∧ handle.version = resolveVersion rawVersion ∧
      Taken t r ((.onConfigure :: handlerFields rawVersion).reverse ++ []) (handle, r') := by
  unfold startPluginHandle at h
  obtain ⟨rawVersion, hraw, h⟩ := bind_eq_ok h
  have hresult : (Field.onConfigure :: handlerFields rawVersion).foldl (takeRef keys t)
      ({ version := resolveVersion rawVersion }, r) =
      (handle, r') := by injection h
  have hversion := takeRefs_version keys t (.onConfigure :: handlerFields rawVersion)
    ({ version := resolveVersion rawVersion }, r)
  have hdistinct : ((Field.onConfigure :: handlerFields rawVersion).reverse ++ []).Nodup := by
    cases rawVersion with
    | none => decide
    | some text =>
      exact (by decide : [Field.onResponseBody, .onResponseHeader, .onRequestBody, .onRequestHeader,
        .onConfigure].Nodup)
  have htaken := (taken_nil t r (resolveVersion rawVersion)).takeRefs keys hdistinct
  rw [hresult] at hversion htaken
  exact ⟨rawVersion, hraw, hversion, htaken⟩

theorem optString_none {v : LuaValue F} (h : optString v = .ok none) : v = .nil := by
  cases v with
  | nil => rfl
  | string | number | function | other => cases h

theorem resolveVersion_some (text : Bytes) : resolveVersion (some text) = .v2 ↔ text = ascii "v2" := by
  unfold resolveVersion
  by_cases h : text = ascii "v1"
  · subst h
    decide
  · have hne : ascii "v2" ≠ ascii "v1" := by decide
    by_cases h' : text = ascii "v2" <;> simp [h, h', hne]

/-- A reference is there if a function is. -/
theorem Taken.ref_iff {done : List Field} {s : PluginHandle × Registry F} (hs : Taken t r done s)
    {field : Field} (hfield : field ∈ done) :
    s.1.ref field = none ↔ (t field).function? = none := by
  have hfound := hs.found field
  rw [if_pos hfield] at hfound
  rw [← hfound]
  cases href : s.1.ref field with
  | none => simp
  | some key => simpa using (hs.new field key href).2

/-- Without a version the handlers of version 1 are taken, used and given
back. -/
theorem honoured_default (hversion : handle.version = .v1)
    (hs : Taken t r [.onResponse, .onRequest, .onConfigure] (handle, r')) :
    Honoured t r handle r' := by
  refine ⟨fun d handler => ?_, fun key hr hr' r'' => ?_⟩
  · unfold PluginHandle.invoked PluginHandle.handlerRef exported
    rw [hversion]
    cases d <;> cases handler <;> first | rfl | exact (hs.found _).trans (if_pos (by decide))
  · obtain ⟨field, href⟩ := hs.known key hr hr'
    have hfield : field ∈ [Field.onResponse, .onRequest, .onConfigure] := by
      by_contra hfield
      cases (hs.ref_none hfield).symm.trans href
    rw [luaRawgeti_destroy, if_pos]
    rcases List.mem_cons.1 hfield with rfl | hfield
    · exact .inr (.inr href)
    · rcases List.mem_cons.1 hfield with rfl | hfield
      · exact .inr (.inl href)
      · obtain rfl := List.mem_singleton.1 hfield
        exact .inl href

/-- With a version the handlers of version 2 are taken. They are never given
back, and version 1 does not use them. -/
theorem honoured_versioned
    (hs : Taken t r [.onResponseBody, .onResponseHeader, .onRequestBody, .onRequestHeader,
    .onConfigure] (handle, r')) :
    Honoured t r handle r' ↔ (∀ field ∈ headerBodyFields, (t field).function? = none) ∧
      (handle.version = .v2 ∨ (t .onRequest).function? = none ∧ (t .onResponse).function? = none) := by
  have hrequest : handle.ref .onRequest = none := hs.ref_none (by decide)
  have hresponse : handle.ref .onResponse = none := hs.ref_none (by decide)
  have hmem {field : Field} (hfield : field ∈ headerBodyFields) :
      field ∈ [Field.onResponseBody, .onResponseHeader, .onRequestBody, .onRequestHeader, .onConfigure] := by
    revert hfield
    cases field <;> decide
  constructor
  · rintro ⟨hinvoked, hreleased⟩
    refine ⟨fun field hfield => ?_, ?_⟩
    · -- the reference of such a function would still be there
      rw [← hs.ref_iff (hmem hfield)]
      cases href : handle.ref field with
      | none => rfl
      | some key =>
        obtain ⟨hunused, hused⟩ := hs.new field key href
        have hgone := hreleased key hunused hused r'
        rw [luaRawgeti_destroy, if_neg] at hgone
        · exact absurd hgone hused
        · rintro (hconfigure | hrequest' | hresponse')
          · have heq := hs.distinct field .onConfigure key href hconfigure
            subst heq
            exact absurd hfield (by decide)
          · cases hrequest.symm.trans hrequest'
          · cases hresponse.symm.trans hresponse'
    · cases hversion : handle.version with
      | v2 => exact .inl rfl
      | v1 =>
        right
        have hmessage (d : StreamDirection) := hinvoked d .message
        unfold PluginHandle.invoked PluginHandle.handlerRef exported at hmessage
        rw [hversion] at hmessage
        have hdown := hmessage .downstreamToUpstream
        have hup := hmessage .upstreamToDownstream
        simp only [hrequest, hresponse, exportField, Option.bind_none, Option.bind_some] at hdown hup
        exact ⟨hdown.symm, hup.symm⟩
  · rintro ⟨hnone, hversion⟩
    refine ⟨fun d handler => ?_, fun key hr hr' r'' => ?_⟩
    · unfold PluginHandle.invoked PluginHandle.handlerRef exported
      cases hv : handle.version with
      | v2 => cases d <;> cases handler <;> first | rfl | exact (hs.found _).trans (if_pos (by decide))
      | v1 =>
        obtain ⟨hreq, hresp⟩ := hversion.resolve_left (by simp [hv])
        cases d <;> cases handler <;> simp [exportField, hrequest, hresponse, hreq, hresp]
    · obtain ⟨field, href⟩ := hs.known key hr hr'
      have hfield : field = .onConfigure := by
        by_contra hne
        have hin : field ∈ headerBodyFields ∨ handle.ref field = none := by
          by_cases hdone : field ∈
            [Field.onResponseBody, .onResponseHeader, .onRequestBody, .onRequestHeader, .onConfigure]
          · left
            revert hdone hne
            cases field <;> decide
          · exact .inr (hs.ref_none hdone)
        rcases hin with hin | hin
        · cases ((hs.ref_iff (hmem hin)).2 (hnone field hin)).symm.trans href
        · cases hin.symm.trans href
      subst hfield
      rw [luaRawgeti_destroy, if_pos (.inl href)]

/-- The handlers of a table are honoured, all invoked and all given back, if
and only if the table has no version, or none of the functions that a version
makes a difference for. -/
theorem honoured_iff (keys : Keys F) (t : Field → LuaValue F) (r : Registry F) {handle : PluginHandle} {r' : Registry F}
    (h : startPluginHandle keys (.table t) r = .ok (handle, r')) :
    Honoured t r handle r' ↔ t .version = .nil ∨ (∀ field ∈ headerBodyFields, (t field).function? = none) ∧
      (optString (t .version) = .ok (some (ascii "v2")) ∨ (t .onRequest).function? = none ∧ (t .onResponse).function? = none) := by
  obtain ⟨rawVersion, hraw, hversion, htaken⟩ := startPluginHandle_taken h
  cases rawVersion with
  | none => exact ⟨fun _ => .inl (optString_none hraw), fun _ => honoured_default hversion htaken⟩
  | some text =>
    have hnil : t .version ≠ .nil := by
      intro hnil
      rw [hnil] at hraw
      cases hraw
    have hv2 : handle.version = .v2 ↔ optString (t .version) = .ok (some (ascii "v2")) := by
      rw [hversion, resolveVersion_some, hraw]
      exact ⟨fun h => by rw [h], fun h => by injection h with h; injection h⟩
    rw [honoured_versioned htaken, hv2]
    exact ⟨.inr, fun h => h.resolve_left hnil⟩

end

end

/-- Keys that are only counted up. -/
def counted : Keys Nat where
  key r := (r.map (·.1)).sum + 1
  unused r := by
    unfold luaRawgeti
    rw [List.lookup_eq_none_iff]
    intro e he
    have hle : e.1 ≤ (r.map (·.1)).sum := List.single_le_sum (by simp) _ (List.mem_map_of_mem he)
    exact bne_iff_ne.2 (Nat.lt_succ_of_le hle).ne'

/-- A table with a version, `on_request` and, with the last argument,
`on_request_body`. -/
def script (version : LuaValue Nat) (body : LuaValue Nat) : Field → LuaValue Nat
  | .version => version
  | .onRequest => .function 7
  | .onRequestBody => body
  | _ => .nil

/-- Without a version `on_request` is taken, used and given back. -/
theorem default_honoured : ∃ handle r', startPluginHandle counted (.table (script .nil .nil)) [] = .ok (handle, r') ∧
    Honoured (script .nil .nil) [] handle r' :=
  ⟨_, _, rfl, (honoured_iff counted (script .nil .nil) [] rfl).2 (.inl rfl)⟩

/-- With the version "v1" nothing is invoked for `on_request`; with "v2" the
reference of `on_request_body` outlives the handle. -/
theorem versions_dishonoured :
    (∃ handle r', startPluginHandle counted (.table (script (.string (ascii "v1")) .nil)) [] = .ok (handle, r') ∧
      handle.version = .v1 ∧ exported (script (.string (ascii "v1")) .nil) .v1 .downstreamToUpstream .message = some 7 ∧
      handle.invoked r' .downstreamToUpstream .message = none ∧ ¬ Honoured (script (.string (ascii "v1")) .nil) [] handle r') ∧
    ∃ handle r', startPluginHandle counted (.table (script (.string (ascii "v2")) (.function 8))) [] = .ok (handle, r') ∧
      luaRawgeti (handle.destroy r') 1 = some 8 ∧ ¬ Honoured (script (.string (ascii "v2")) (.function 8)) [] handle r' := by
  refine ⟨⟨_, _, rfl, rfl, rfl, rfl, fun h => ?_⟩, ⟨_, _, rfl, rfl, fun h => ?_⟩⟩
  · cases h.invoked .downstreamToUpstream .message
  · cases h.released 1 rfl (by rintro ⟨⟩) [(1, 8)]

end EnvoyProxy.Rider
