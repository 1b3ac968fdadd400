import EnvoyProxy.Dubbo.Request
/-!
# Defaults of parameters

The default of a parameter is one object that all requests of a route share,
and `populateGenericTypes` changes the object it is given. So the objects are
written down here with the pointers to them: those of the defaults, and the
new ones that getters make for a request.
-/

namespace EnvoyProxy.Dubbo
open Json

/-- The objects behind the pointers, in the order they were made. -/
abbrev Objects := List HessianValue

section Arguments
variable (getter : ArgumentGetter)

/-- The loop over the parameters, each with the pointer to its default. -/
def writeArguments : List (Parameter × Nat) → Objects → Objects × Except Bytes (List HessianValue)
  | [], objects => (objects, .ok [])
  | (parameter, default_) :: rest, objects =>
    match getter.getArgumentByParameter { parameter with default_ := objects.getD default_ .null } with
    | .error e => (objects, .error e)
    | .ok (some object) =>
      let pointer := objects.length
      let objects := (objects ++ [object]).modify pointer (populateGenericTypes parameter.generic)
      let (after, arguments) := writeArguments rest objects
      (after, arguments.map (objects.getD pointer .null :: ·))
    | .ok none =>
      if parameter.required then
        (objects, .error (ascii "Dubbo bridge: " ++ natText parameter.index ++ ascii "/" ++ parameter.name ++ ascii "/" ++
          parameter.type ++ ascii " is required but not provided"))
      else
        let (after, arguments) := writeArguments rest objects
        (after, arguments.map (objects.getD default_ .null :: ·))

/-- The arguments of a request; the defaults are the first objects. -/
def serve (context : DubboBridgeContext) (objects : Objects) : Objects × Except Bytes (List HessianValue) :=
  writeArguments getter context.params.zipIdx objects

end Arguments

/-- The objects after some requests. -/
def serveAll (context : DubboBridgeContext) (requests : List ArgumentGetter) : Objects :=
  requests.foldl (fun objects getter => (serve getter context objects).1) (context.params.map (·.default_))

/-- The getter has an object for the parameter. -/
def Supplied (getter : ArgumentGetter) (parameter : Parameter) : Prop := ∃ v, getter.getArgumentByParameter parameter = .ok (some v)

/-- The value for a parameter: what the getter has, or the default. -/
def selected (getter : ArgumentGetter) (parameter : Parameter) : HessianValue :=
  match getter.getArgumentByParameter parameter with
  | .ok (some v) => v
  | _ => parameter.default_

section Serve
variable {getter : ArgumentGetter}

/-- One more argument in front of the others. -/
theorem map_cons_eq (argument : HessianValue) (arguments : Except Bytes (List HessianValue)) :
    arguments.map (argument :: ·) = (do let rest ← arguments; return argument :: rest) := by
  cases arguments <;> rfl

/-- Objects are made and never changed, and the arguments are those that
`writeRequestBody` encodes. -/
theorem writeArguments_spec {ps : List (Parameter × Nat)} {objects : Objects}
    (h : ∀ p ∈ ps, objects[p.2]? = some p.1.default_) :
    objects <+: (writeArguments getter ps objects).1 ∧
      (writeArguments getter ps objects).2 = (ps.map (·.1)).mapM (argumentObject getter) := by
  induction ps generalizing objects with
  | nil => exact ⟨List.prefix_rfl, rfl⟩
  | cons p ps ih =>
    obtain ⟨parameter, default_⟩ := p
    have hdefault : objects.getD default_ .null = parameter.default_ := by
      rw [List.getD_eq_getElem?_getD, h _ List.mem_cons_self]
      rfl
    have hparameter : { parameter with default_ := objects.getD default_ .null } = parameter := by rw [hdefault]
    have hrest : ∀ p ∈ ps, objects[p.2]? = some p.1.default_ := fun p hp => h p (List.mem_cons_of_mem _ hp)
    rw [writeArguments, hparameter, List.map_cons, List.mapM_cons]
    unfold argumentObject
    rcases hget : getter.getArgumentByParameter parameter with e | (_ | object)
    · exact ⟨List.prefix_rfl, rfl⟩
    · dsimp only
      split_ifs with hrequired
      · exact ⟨List.prefix_rfl, rfl⟩
      · -- the default is sent as it is
        obtain ⟨hkeeps, harguments⟩ := ih hrest
        refine ⟨hkeeps, ?_⟩
        rw [hdefault, map_cons_eq, harguments]
        rfl
    · dsimp only
      -- the object is the last one, and the default stays where it was
      have hmodify : (objects ++ [object]).modify objects.length (populateGenericTypes parameter.generic) =
          objects ++ [populateGenericTypes parameter.generic object] := by
        simp [List.modify_eq_take_drop]
      have hkept : ∀ p ∈ ps, (objects ++ [populateGenericTypes parameter.generic object])[p.2]? =
          some p.1.default_ := by
        intro p hp
        rw [List.getElem?_append_left (List.getElem?_eq_some_iff.1 (hrest p hp)).1]
        exact hrest p hp
      obtain ⟨hkeeps, harguments⟩ := ih hkept
      rw [hmodify]
      refine ⟨(List.prefix_append _ _).trans hkeeps, ?_⟩
      rw [map_cons_eq, harguments, List.getD_eq_getElem?_getD, List.getElem?_concat_length]
      rfl

/-- The defaults are where they were. -/
def Stored (context : DubboBridgeContext) (objects : Objects) : Prop :=
  ∀ (i : Nat) (p : Parameter), context.params[i]? = some p → objects[i]? = some p.default_

theorem Stored.at {context : DubboBridgeContext} {objects : Objects} (h : Stored context objects) :
    ∀ p ∈ context.params.zipIdx, objects[p.2]? = some p.1.default_ := by
  rintro ⟨p, i⟩ hp
  exact h i p (List.mem_zipIdx_iff_getElem?.1 hp)

/-- The arguments of a request, and the defaults after it. -/
theorem Stored.serve {context : DubboBridgeContext} {objects : Objects} (h : Stored context objects)
    (getter : ArgumentGetter) :
    Stored context (serve getter context objects).1 ∧
      (serve getter context objects).2 = context.params.mapM (argumentObject getter) := by
  obtain ⟨hkeeps, harguments⟩ := @writeArguments_spec getter _ _ h.at
  constructor
  · intro i p hp
    obtain ⟨made, hmade⟩ := hkeeps
    have hi := h i p hp
    unfold Dubbo.serve
    rw [← hmade, List.getElem?_append_left (List.getElem?_eq_some_iff.1 hi).1]
    exact hi
  · unfold Dubbo.serve
    rw [harguments, List.zipIdx_map_fst]

/-- No request changes a default. -/
theorem serveAll_stored (context : DubboBridgeContext) (requests : List ArgumentGetter) :
    Stored context (serveAll context requests) := by
  have hrun : ∀ objects, Stored context objects →
      Stored context (requests.foldl (fun objects getter => (serve getter context objects).1) objects) := by
    induction requests with
    | nil => exact fun _ h => h
    | cons getter requests ih => exact fun objects h => ih _ (h.serve getter).1
  apply hrun
  intro i p hp
  rw [List.getElem?_map, hp]
  rfl

theorem mapM_getElem? {ps : List Parameter} {arguments : List HessianValue}
    (h : ps.mapM (argumentObject getter) = .ok arguments)
    {i : Nat} {p : Parameter} (hp : ps[i]? = some p) : ∃ v, argumentObject getter p = .ok v ∧
    arguments[i]? = some v := by
  induction ps generalizing arguments i with
  | nil => cases hp
  | cons q ps ih =>
    rw [List.mapM_cons] at h
    cases hq : argumentObject getter q with
    | error e =>
      rw [hq] at h
      cases h
    | ok v =>
      cases hps : ps.mapM (argumentObject getter) with
      | error e =>
        rw [hq, hps] at h
        cases h
      | ok vs =>
        rw [hq, hps] at h
        cases h
        cases i with
        | zero =>
          cases hp
          exact ⟨v, hq, rfl⟩
        | succ i => exact ih hps hp

/-- An argument is what was selected with its generic types, except that a
default goes without them. -/
theorem argumentObject_populated_iff {p : Parameter} {v : HessianValue} (h : argumentObject getter p = .ok v) :
    v = populateGenericTypes p.generic (selected getter p) ↔
      Supplied getter p ∨ populateGenericTypes p.generic p.default_ = p.default_ := by
  unfold argumentObject at h
  unfold selected Supplied
  rcases hget : getter.getArgumentByParameter p with e | (_ | object)
  · rw [hget] at h
    cases h
  · rw [hget] at h
    by_cases hrequired : p.required
    · simp [hrequired, bind, Except.bind] at h
    · obtain rfl : p.default_ = v := by simpa [hrequired, bind, Except.bind, pure, Except.pure] using h
      simp [eq_comm]
  · rw [hget] at h
    cases h
    simp

/-- After any requests the defaults are what they were, and a request gets the
arguments of `writeRequestBody`. One of them carries its generic types exactly
when the request supplied it, or when they leave its default as it is. -/
theorem arguments_populated_iff (context : DubboBridgeContext) (requests : List ArgumentGetter) (getter : ArgumentGetter) :
    Stored context (serveAll context requests) ∧
      (serve getter context (serveAll context requests)).2 = context.params.mapM (argumentObject getter) ∧
      ∀ arguments, (serve getter context (serveAll context requests)).2 = .ok arguments →
        ∀ (i : Nat) (p : Parameter), context.params[i]? = some p →
          (arguments[i]? = some (populateGenericTypes p.generic (selected getter p)) ↔
            Supplied getter p ∨ populateGenericTypes p.generic p.default_ = p.default_) := by
  have hstored := serveAll_stored context requests
  have hserve := (hstored.serve getter).2
  refine ⟨hstored, hserve, ?_⟩
  intro arguments harguments i p hp
  obtain ⟨v, hv, hat⟩ := mapM_getElem? (hserve.symm.trans harguments) hp
  rw [hat, Option.some_inj]
  exact argumentObject_populated_iff hv

/-- The user of the documented example: a default, and a class for it. -/
def queryUser : DubboBridgeContext where
  service := ascii "org.apache.dubbo.UserProvider"
  version := []
  method := ascii "queryUser"
  staticAttachs := []
  headerAttachs := []
  cookieAttachs := []
  params :=
    [{ index := 0, type := ascii "org.apache.dubbo.User", name := ascii "user", required := false
       default_ := .untypedMap [(.string (ascii "id"), .string (ascii "A001"))]
       generic := [⟨ascii ".", [], ascii "org.apache.dubbo.FakeUser"⟩] }]

/-- A request without arguments. -/
def noArguments : ArgumentGetter where
  getArgumentByParameter _ := .ok none
  attachmentsFromGetter := none

/-- The default of the documented example is sent without its class. -/
theorem default_not_populated :
    ¬ ∀ (context : DubboBridgeContext) (getter : ArgumentGetter) (arguments : List HessianValue),
      context.params.mapM (argumentObject getter) = .ok arguments →
        ∀ (i : Nat) (p : Parameter), context.params[i]? = some p →
          arguments[i]? = some (populateGenericTypes p.generic (selected getter p)) := by
  intro h
  have hsent := h queryUser noArguments [.untypedMap [(.string (ascii "id"), .string (ascii "A001"))]] rfl 0 _ rfl
  have hpopulated : populateGenericTypes [⟨ascii ".", [], ascii "org.apache.dubbo.FakeUser"⟩]
      (.untypedMap [(.string (ascii "id"), .string (ascii "A001"))]) =
      .untypedMap [(.string (ascii "id"), .string (ascii "A001")), (.string (ascii "class"), .string (ascii "org.apache.dubbo.FakeUser"))] := rfl
  have := (Option.some_inj.1 hsent).trans hpopulated
  simp at this

end Serve

end EnvoyProxy.Dubbo
