import EnvoyProxy.Waf.Filter
/-!
# Body limits

Both transactions are shown the slices of a body in one loop, and the loop
ends when one of them reports its limit. The other then misses what is left of
the body. `bodies_shown_iff` says exactly when it does not.
-/

namespace EnvoyProxy.Waf
open Http HeaderMap WafFilter

/-! ## What fits -/

/-- The limit, if there is one, allows that many bytes. -/
def Fits (limit : Option Nat) (n : Nat) : Prop := ∀ l ∈ limit, n ≤ l

instance (limit : Option Nat) (n : Nat) : Decidable (Fits limit n) :=
  decidable_of_iff (limit.all (n ≤ ·) = true) (by unfold Fits; cases limit <;> simp)

/-- What is taken of a slice after `n` bytes. One that does not fit is cut, or
not taken at all. -/
def share (limit : Option Nat) (cuts : Bool) (n : Nat) (slice : Bytes) : Bytes :=
  if Fits limit (n + slice.length) then slice
  else if cuts then slice.take (limit.getD 0 - n) else []

/-- What fits of a body after `n` bytes. -/
def fitting (limit : Option Nat) (cuts : Bool) (n : Nat) : List Bytes → Bytes
  | [] => []
  | slice :: slices =>
    if Fits limit (n + slice.length) then slice ++ fitting limit cuts (n + slice.length) slices else share limit cuts n slice

theorem fits_none (n : Nat) : Fits none n := by rintro _ ⟨⟩

theorem not_fits {limit : Option Nat} {n : Nat} (h : ¬ Fits limit n) : ∃ l, limit = some l ∧ l < n := by
  cases limit with
  | none => exact absurd (fits_none n) h
  | some l => exact ⟨l, rfl, by simpa [Fits] using h⟩

/-- Without a limit, all of the body. -/
theorem fitting_none (cuts : Bool) (n : Nat) (slices : List Bytes) :
    fitting none cuts n slices = slices.flatten := by
  induction slices generalizing n with
  | nil => rfl
  | cons slice slices ih => rw [fitting, if_pos (fits_none _), ih, List.flatten_cons]

/-- Nothing when the limit has been reached. -/
theorem fitting_full {l n : Nat} (h : l ≤ n) (cuts : Bool) (slices : List Bytes) :
    fitting (some l) cuts n slices = [] := by
  induction slices generalizing n with
  | nil => rfl
  | cons slice slices ih =>
    unfold fitting
    by_cases hfits : Fits (some l) (n + slice.length)
    · have hle : n + slice.length ≤ l := hfits l rfl
      have hempty : slice = [] := List.length_eq_zero_iff.1 (by omega)
      rw [if_pos hfits, ih (by omega), hempty]
      rfl
    · have hroom : (some l).getD 0 - n = 0 := Nat.sub_eq_zero_of_le h
      rw [if_neg hfits, share, if_neg hfits, hroom, List.take_zero, ite_self]

/-- Where slices are cut, the longest prefix of the body within the limit. -/
theorem fitting_cuts (l n : Nat) (slices : List Bytes) :
    fitting (some l) true n slices = slices.flatten.take (l - n) := by
  induction slices generalizing n with
  | nil => simp [fitting]
  | cons slice slices ih =>
    unfold fitting
    rw [List.flatten_cons]
    by_cases hfits : Fits (some l) (n + slice.length)
    · have hle : n + slice.length ≤ l := hfits l rfl
      have hroom : l - n = slice.length + (l - (n + slice.length)) := by omega
      rw [if_pos hfits, ih, hroom, List.take_length_add_append]
    · obtain ⟨_, ⟨⟩, hlt⟩ := not_fits hfits
      rw [if_neg hfits, share, if_neg hfits, if_pos rfl, Option.getD_some, List.take_append_of_le_length (by omega)]

/-! ## Transactions with limits -/

/-- The direction of a body. -/
inductive Way
  | request
  | response
  deriving DecidableEq, Repr

section Limits
variable {T H : Type} (modsec : Modsecurity T)

def bodyCalls : Way → BodyCalls T
  | .request => requestBody modsec
  | .response => responseBody modsec

def processBody : Way → T → T
  | .request => modsec.processRequestBody
  | .response => modsec.processResponseBody

/-- The bytes that have been appended, the limit, and whether slices are cut.
Reaching the limit is reported by the result or by not growing. -/
structure BodyLimit (way : Way) (body : T → Bytes) (limit : T → Option Nat) (cuts : T → Bool) : Prop where
  length : ∀ t, (bodyCalls modsec way).length t = (body t).length
  append : ∀ t slice, body ((bodyCalls modsec way).append t slice).1 = body t ++ share (limit t) (cuts t) (body t).length slice
  reports : ∀ t slice, ((bodyCalls modsec way).append t slice).2 = false → ¬ Fits (limit t) ((body t).length + slice.length)
  limit_append : ∀ t slice, limit ((bodyCalls modsec way).append t slice).1 = limit t
  cuts_append : ∀ t slice, cuts ((bodyCalls modsec way).append t slice).1 = cuts t
  process : ∀ t, body (processBody modsec way t) = body t
  intervention : ∀ t, body (modsec.intervention t).1 = body t

variable {modsec} {way : Way} {body : T → Bytes} {limit : T → Option Nat} {cuts : T → Bool}

/-- What has been appended, if there is a transaction. -/
def bodyOf (body : T → Bytes) (t : Option T) : Bytes := (t.map body).getD []

/-- What a transaction still has to see of a body. -/
def wanted (body : T → Bytes) (limit : T → Option Nat) (cuts : T → Bool) (t : Option T) (slices : List Bytes) : Bytes :=
  (t.map fun t => fitting (limit t) (cuts t) (body t).length slices).getD []

theorem appendSlice_some (calls : BodyCalls T) (slice : Bytes) (t : T) :
    calls.appendSlice slice (some t) = (some (calls.append t slice).1,
      !(calls.append t slice).2 || (decide (0 < slice.length) && decide (calls.length t = calls.length (calls.append t slice).1))) := rfl

/-- A slice that does not fit is the last one that matters. -/
theorem appendSlice_wanted (h : BodyLimit modsec way body limit cuts) (t : Option T) (slice : Bytes)
    (slices : List Bytes) :
    let r := (bodyCalls modsec way).appendSlice slice t
    bodyOf body t ++ wanted body limit cuts t (slice :: slices) =
      if r.2 then bodyOf body r.1 else bodyOf body r.1 ++ wanted body limit cuts r.1 slices := by
  cases t with
  | none => rfl
  | some t =>
    have happend := h.append t slice
    have hreports := h.reports t slice
    have hlimit := h.limit_append t slice
    have hcuts := h.cuts_append t slice
    rw [appendSlice_some]
    generalize (bodyCalls modsec way).append t slice = r at happend hreports hlimit hcuts ⊢
    obtain ⟨t', ok⟩ := r
    dsimp only at happend hreports hlimit hcuts ⊢
    have hgrows : (body t').length = (body t).length + (share (limit t) (cuts t) (body t).length slice).length := by
      rw [happend, List.length_append]
    rw [h.length, h.length, hgrows]
    show body t ++ fitting (limit t) (cuts t) (body t).length (slice :: slices) = if _ then body t'
      else body t' ++ fitting (limit t') (cuts t') (body t').length slices
    rw [fitting]
    by_cases hfits : Fits (limit t) ((body t).length + slice.length)
    · have hshare : share (limit t) (cuts t) (body t).length slice = slice := if_pos hfits
      have hok : ok = true := by
        cases ok with
        | true => rfl
        | false => exact absurd hfits (hreports rfl)
      rw [hshare] at hgrows happend ⊢
      have hnot : ¬ (!true ||
          (decide (0 < slice.length) && decide
          ((body t).length = (body t).length + slice.length))) = true := by
        simp only [Bool.not_true, Bool.false_or, Bool.and_eq_true, decide_eq_true_eq]
        omega
      rw [if_pos hfits, hok, if_neg hnot, hlimit, hcuts, hgrows, happend, List.append_assoc]
    · rw [if_neg hfits, ← happend]
      split_ifs with hreached
      · rfl
      · -- nothing was reported, and there is no room left
        obtain ⟨l, hl, hlt⟩ := not_fits hfits
        have hfull : l ≤ (body t').length := by
          unfold share at hgrows hreached
          rw [if_neg hfits] at hgrows hreached
          by_cases hcut : cuts t = true
          · rw [if_pos hcut, hl, Option.getD_some, List.length_take] at hgrows
            omega
          · rw [if_neg hcut] at hreached
            have hempty : slice.length = 0 := by
              by_contra hne
              apply hreached
              simp only [List.length_nil, Nat.add_zero, decide_true, Bool.and_true, Bool.or_eq_true,
                decide_eq_true_eq]
              exact .inr (Nat.pos_of_ne_zero hne)
            omega
        rw [hlimit, hl, fitting_full hfull, List.append_nil]

/-! ## The loop -/

/-- When one transaction reports its limit, the other has seen all of the body
that it can. -/
def Unhidden (calls : BodyCalls T) (body : T → Bytes) (limit : T → Option Nat) (cuts : T → Bool) : Option T → Option T → List Bytes → Prop
  | _, _, [] => True
  | global, route, slice :: slices =>
    let (global, reached) := calls.appendSlice slice global
    -- the route does not see this slice
    if reached then wanted body limit cuts route (slice :: slices) = []
    else
      let (route, reached) := calls.appendSlice slice route
      if reached then wanted body limit cuts global slices = [] else Unhidden calls body limit cuts global route slices

/-- Both transactions get what they want of a body. -/
def Shown (body : T → Bytes) (limit : T → Option Nat) (cuts : T → Bool) (f g : WafFilter T H) (slices : List Bytes) : Prop :=
  ∀ who, bodyOf body (g.transactionOf who) = bodyOf body (f.transactionOf who) ++ wanted body limit cuts (f.transactionOf who) slices

theorem shown_iff {f g : WafFilter T H} {slices : List Bytes} :
    Shown body limit cuts f g slices ↔
      bodyOf body g.transaction = bodyOf body f.transaction ++ wanted body limit cuts f.transaction slices ∧
      bodyOf body g.transactionRoute =
        bodyOf body f.transactionRoute ++ wanted body limit cuts f.transactionRoute slices := by
  constructor
  · exact fun h => ⟨h .global, h .route⟩
  · rintro ⟨hglobal, hroute⟩ (_ | _)
    · exact hglobal
    · exact hroute

theorem appendSlices_shown_iff (h : BodyLimit modsec way body limit cuts) (f : WafFilter T H) (slices : List Bytes) :
    Shown body limit cuts f ((bodyCalls modsec way).appendSlices f slices).1 slices ↔
      Unhidden (bodyCalls modsec way) body limit cuts f.transaction f.transactionRoute slices := by
  -- by induction on the slices; the loop ends where one of the two reports
  induction slices generalizing f with
  | nil =>
    rw [shown_iff]
    unfold BodyCalls.appendSlices Unhidden wanted
    cases f.transaction <;> cases f.transactionRoute <;> simp [fitting]
  | cons slice slices ih =>
    have hglobal := appendSlice_wanted h f.transaction slice slices
    have hroute := appendSlice_wanted h f.transactionRoute slice slices
    unfold BodyCalls.appendSlices Unhidden
    dsimp only at hglobal hroute ⊢
    generalize (bodyCalls modsec way).appendSlice slice f.transaction = a at hglobal ⊢
    obtain ⟨global, reached⟩ := a
    generalize (bodyCalls modsec way).appendSlice slice f.transactionRoute = b at hroute ⊢
    obtain ⟨route, reached'⟩ := b
    dsimp only at hglobal hroute ⊢
    cases reached with
    | true =>
      simp only [if_true] at hglobal ⊢
      rw [shown_iff, hglobal]
      simp
    | false =>
      simp only [Bool.false_eq_true, if_false] at hglobal ⊢
      cases reached' with
      | true =>
        simp only [if_true] at hroute ⊢
        rw [shown_iff, hglobal, hroute]
        simp
      | false =>
        simp only [Bool.false_eq_true, if_false] at hroute ⊢
        have hrest := ih { f with transaction := global, transactionRoute := route }
        rw [← hrest, shown_iff, shown_iff, hglobal, hroute]

theorem appendSlices_cons (calls : BodyCalls T) (f : WafFilter T H) (slice : Bytes) (slices : List Bytes) :
    calls.appendSlices f (slice :: slices) =
      let global := calls.appendSlice slice f.transaction
      let route := calls.appendSlice slice f.transactionRoute
      if global.2 then ({ f with transaction := global.1 }, true)
      else if route.2 then ({ f with transaction := global.1, transactionRoute := route.1 }, true)
      else calls.appendSlices { f with transaction := global.1, transactionRoute := route.1 } slices := rfl

/-- The loop goes on with the next slices as if they were of one frame. -/
theorem appendSlices_append (calls : BodyCalls T) (f : WafFilter T H) (slices slices' : List Bytes) :
    calls.appendSlices f (slices ++ slices') =
      if (calls.appendSlices f slices).2 then calls.appendSlices f slices
      else calls.appendSlices (calls.appendSlices f slices).1 slices' := by
  induction slices generalizing f with
  | nil => rfl
  | cons slice slices ih =>
    rw [List.cons_append, appendSlices_cons, appendSlices_cons]
    dsimp only
    by_cases hglobal : (calls.appendSlice slice f.transaction).2 = true
    · simp only [if_pos hglobal, if_true]
    · by_cases hroute : (calls.appendSlice slice f.transactionRoute).2 = true
      · simp only [if_neg hglobal, if_pos hroute, if_true]
      · simp only [if_neg hglobal, if_neg hroute]
        exact ih _

/-! ## Frames -/

/-- A frame of a body, and what is in the buffer before it. -/
structure DataFrame where
  slices : List Bytes
  endStream : Bool
  buffer : Option (List Piece) := none

variable (modsec) in
/-- `decodeData` or `encodeData`. -/
def takeFrame [HeaderMap H] (way : Way) (f : WafFilter T H) (frame : DataFrame) : WafFilter T H :=
  match way with
  | .request => (f.decodeData modsec frame.slices frame.endStream).1
  | .response => (f.encodeData modsec frame.slices frame.endStream frame.buffer).1

variable (modsec) in
def takeFrames [HeaderMap H] (way : Way) (f : WafFilter T H) (frames : List DataFrame) : WafFilter T H :=
  frames.foldl (takeFrame modsec way) f

/-- The body has been looked at. -/
def processed (way : Way) (f : WafFilter T H) : Bool :=
  match way with
  | .request => f.requestProcessed
  | .response => f.responseProcessed

/-- The body is still to be looked at. -/
structure Unseen (way : Way) (f : WafFilter T H) : Prop where
  processed : processed way f = false
  intervined : f.intervined = false
  isSendLocalReply : f.isSendLocalReply = false

/-- The same bytes have been appended. -/
def SameBodies (body : T → Bytes) (f g : WafFilter T H) : Prop :=
  ∀ who, (g.transactionOf who).map body = (f.transactionOf who).map body

theorem SameBodies.trans {f₁ f₂ f₃ : WafFilter T H} (h : SameBodies body f₁ f₂)
    (h' : SameBodies body f₂ f₃) : SameBodies body f₁ f₃ :=
  fun who => (h' who).trans (h who)

theorem sameBodies_intervention (h : BodyLimit modsec way body limit cuts) {f : WafFilter T H} {who : Who} {t : T}
    (ht : f.transactionOf who = some t) {call : T → T} (hcall : ∀ t, body (call t) = body t) :
    SameBodies body f (f.intervention modsec who (call t)) := by
  -- the transaction is replaced by one with the same body
  have hset : ∀ {g : WafFilter T H} {t' : T}, g.transactionOf .global = f.transactionOf .global →
      g.transactionOf .route = f.transactionOf .route → body t' = body t → SameBodies body f
        (g.setTransaction t' who) := by
    intro g t' hglobal hroute hbody who'
    have hself : (some t').map body = (f.transactionOf who).map body := by
      rw [ht]
      exact congrArg some hbody
    cases who <;> cases who'
    · exact hself
    · exact congrArg (Option.map body) hroute
    · exact congrArg (Option.map body) hglobal
    · exact hself
  unfold WafFilter.intervention
  split
  · exact hset rfl rfl (hcall t)
  · have hint := h.intervention (call t)
    generalize modsec.intervention (call t) = r at hint ⊢
    obtain ⟨t', status⟩ := r
    have hbody : body t' = body t := hint.trans (hcall t)
    cases status with
    | none => exact hset rfl rfl hbody
    | some status =>
      have hsame := hset (g := f) rfl rfl hbody
      intro who'
      rw [← hsame who']
      cases who <;> cases who' <;> rfl

theorem sameBodies_runPhases (h : BodyLimit modsec way body limit cuts) (f : WafFilter T H) (phase : Phase) :
    SameBodies body f (f.runPhases modsec (both phase (processBody modsec way))).1 := by
  have hphases : ∀ (phases : List (Who × Phase × (T → T))) (f : WafFilter T H),
    (∀ p ∈ phases, ∀ t, body (p.2.2 t) = body t) →
      SameBodies body f (f.runPhases modsec phases).1 := by
    intro phases
    induction phases with
    | nil => exact fun _ _ _ => rfl
    | cons p phases ih =>
      intro f hcalls
      obtain ⟨who, phase, call⟩ := p
      obtain ⟨hcall, hrest⟩ := List.forall_mem_cons.1 hcalls
      rcases ht : f.transactionOf who with _ | t
      · rw [runPhases_absent ht]
        exact ih f hrest
      · have hsame := sameBodies_intervention h ht hcall
        cases hint : (f.intervention modsec who (call t)).intervined with
        | true => rwa [runPhases_stop ht hint]
        | false =>
          rw [runPhases_next ht hint]
          exact hsame.trans (ih _ hrest)
  apply hphases
  unfold both
  simp only [List.mem_cons, List.not_mem_nil, or_false]
  rintro p (rfl | rfl)
  · exact h.process
  · exact h.process

/-! ## The calls for the frames -/

theorem sameBodies_of_eq {f g : WafFilter T H} (h : g.transaction = f.transaction)
    (h' : g.transactionRoute = f.transactionRoute) :
    SameBodies body f g := by
  rintro (_ | _)
  · exact congrArg (Option.map body) h
  · exact congrArg (Option.map body) h'

section Calls
variable [HeaderMap H] {f : WafFilter T H} {frame : DataFrame}

/-- A body that has been looked at is looked at no more. -/
theorem takeFrame_processed (h : processed way f = true) (frame : DataFrame) : takeFrame modsec way f frame = f := by
  unfold takeFrame
  cases way with
  | request =>
    have hprocessed : f.requestProcessed = true := h
    unfold WafFilter.decodeData
    dsimp only
    by_cases hidle : f.isIdle = true
    · rw [if_pos hidle]
    · rw [if_neg hidle, if_pos (.inr hprocessed)]
  | response =>
    have hprocessed : f.responseProcessed = true := h
    unfold WafFilter.encodeData
    dsimp only
    by_cases hidle : f.isIdle = true
    · rw [if_pos hidle]
    · rw [if_neg hidle, if_pos (.inl hprocessed)]

theorem takeFrame_idle (h : f.isIdle = true) (frame : DataFrame) : takeFrame modsec way f frame = f := by
  unfold takeFrame WafFilter.decodeData WafFilter.encodeData
  cases way <;> simp only [if_pos h]

/-- A frame after which more is to come. -/
theorem takeFrame_more (hf : Unseen way f) (hbusy : f.isIdle = false) (hend : frame.endStream = false)
    (hreached : ((bodyCalls modsec way).appendSlices f frame.slices).2 = false) :
    let g := ((bodyCalls modsec way).appendSlices f frame.slices).1
    let g' := takeFrame modsec way f frame
    g'.transaction = g.transaction ∧ g'.transactionRoute = g.transactionRoute ∧ Unseen way g' := by
  obtain ⟨hprocessed, hint, hreply⟩ := hf
  cases way with
  | request =>
    have hprocessed : f.requestProcessed = false := hprocessed
    obtain ⟨hkeeps, hint'⟩ := keeps_appendSlices (requestBody modsec) f frame.slices
    have hreached : ((requestBody modsec).appendSlices f frame.slices).2 = false := hreached
    have hcall : takeFrame modsec .request f frame = ((requestBody modsec).appendSlices f frame.slices).1 := by
      unfold takeFrame WafFilter.decodeData
      dsimp only
      rw [if_neg (by simp [hbusy]), if_neg (by simp [hint, hprocessed]), if_neg (by simp [hend, hreached])]
    refine ⟨by rw [hcall]; rfl, by rw [hcall]; rfl, ?_⟩
    rw [hcall]
    exact ⟨hkeeps.requestProcessed.trans hprocessed, hint'.trans hint, hkeeps.isSendLocalReply.trans hreply⟩
  | response =>
    have hprocessed : f.responseProcessed = false := hprocessed
    obtain ⟨hkeeps, hint'⟩ := keeps_appendSlices (responseBody modsec)
      { f with endStream := frame.endStream } frame.slices
    obtain ⟨hglobal, hroute, hsame⟩ :=
      appendSlices_congr (responseBody modsec) (f := { f with endStream := frame.endStream })
        (g := f) rfl rfl frame.slices
    have hreached : ((responseBody modsec).appendSlices { f with endStream := frame.endStream }
      frame.slices).2 = false := hsame.trans hreached
    have hcall : takeFrame modsec .response f frame =
        ((responseBody modsec).appendSlices { f with endStream := frame.endStream } frame.slices).1 := by
      have hmore : ¬ (frame.endStream ||
          ((responseBody modsec).appendSlices { f with endStream := frame.endStream }
          frame.slices).2) = true := by
        rw [hreached, hend]
        simp
      unfold takeFrame WafFilter.encodeData
      dsimp only
      rw [if_neg (by simp [hbusy]), if_neg (by simp [hreply, hprocessed]), if_neg (by simp [hint]), if_neg hmore]
    refine ⟨by rw [hcall]; exact hglobal, by rw [hcall]; exact hroute, ?_⟩
    rw [hcall]
    exact ⟨hkeeps.responseProcessed.trans hprocessed, hint'.trans hint, hkeeps.isSendLocalReply.trans hreply⟩

theorem sendEncodeReply_fields (g : WafFilter T H) (buffer : Option (List Piece)) :
    (g.sendEncodeReply buffer).1.transaction = g.transaction ∧
    (g.sendEncodeReply buffer).1.transactionRoute = g.transactionRoute ∧
      (g.sendEncodeReply buffer).1.responseProcessed = g.responseProcessed := by
  unfold WafFilter.sendEncodeReply
  split
  · cases buffer <;> exact ⟨rfl, rfl, rfl⟩
  · exact ⟨rfl, rfl, rfl⟩

/-- The frame with which the body is looked at. -/
theorem takeFrame_last (h : BodyLimit modsec way body limit cuts) (hf : Unseen way f) (hbusy : f.isIdle = false)
    (hlast : frame.endStream = true ∨ ((bodyCalls modsec way).appendSlices f frame.slices).2 = true) :
    processed way (takeFrame modsec way f frame) = true ∧
      SameBodies body ((bodyCalls modsec way).appendSlices f frame.slices).1 (takeFrame modsec way f frame) := by
  obtain ⟨hprocessed, hint, hreply⟩ := hf
  cases way with
  | request =>
    have hprocessed : f.requestProcessed = false := hprocessed
    have hlast : (frame.endStream || ((requestBody modsec).appendSlices f frame.slices).2) = true := by
      rw [Bool.or_eq_true]
      exact hlast
    have hcall : takeFrame modsec .request f frame =
        let g := (WafFilter.runPhases modsec
          { ((requestBody modsec).appendSlices f frame.slices).1 with requestProcessed := true }
          (both .requestBody modsec.processRequestBody)).1
        if g.intervined then { g with isSendLocalReply := true } else g := by
      unfold takeFrame WafFilter.decodeData
      dsimp only
      rw [if_neg (by simp [hbusy]), if_neg (by simp [hint, hprocessed]), if_pos hlast]
      split_ifs <;> rfl
    have hkeeps := keeps_runPhases modsec
      { ((requestBody modsec).appendSlices f frame.slices).1 with requestProcessed := true }
      (both .requestBody modsec.processRequestBody)
    have hsame := sameBodies_runPhases h
      { ((requestBody modsec).appendSlices f frame.slices).1 with requestProcessed := true } .requestBody
    rw [hcall]
    dsimp only
    split_ifs
    · exact ⟨hkeeps.requestProcessed, fun who => by cases who <;> [exact hsame .global; exact hsame .route]⟩
    · exact ⟨hkeeps.requestProcessed, fun who => by cases who <;> [exact hsame .global; exact hsame .route]⟩
  | response =>
    have hprocessed : f.responseProcessed = false := hprocessed
    obtain ⟨hglobal, hroute, hreached⟩ :=
      appendSlices_congr (responseBody modsec) (f := { f with endStream := frame.endStream })
        (g := f) rfl rfl frame.slices
    have hlast : (frame.endStream ||
        ((responseBody modsec).appendSlices { f with endStream := frame.endStream }
        frame.slices).2) = true := by
      rw [hreached, Bool.or_eq_true]
      exact hlast
    set g : WafFilter T H :=
      { ((responseBody modsec).appendSlices { f with endStream := frame.endStream }
        frame.slices).1 with responseProcessed := true } with hg
    have hcall : takeFrame modsec .response f frame =
        let g := (WafFilter.runPhases modsec g (both .responseBody modsec.processResponseBody)).1
        if g.intervined then (g.sendEncodeReply frame.buffer).1 else g := by
      unfold takeFrame WafFilter.encodeData
      dsimp only
      rw [if_neg (by simp [hbusy]), if_neg (by simp [hreply, hprocessed]), if_neg (by simp [hint]), if_pos hlast]
      split_ifs <;> rfl
    have hkeeps := keeps_runPhases modsec g (both .responseBody modsec.processResponseBody)
    have hsame : SameBodies body ((responseBody modsec).appendSlices f frame.slices).1
        (WafFilter.runPhases modsec g (both .responseBody modsec.processResponseBody)).1 :=
      (sameBodies_of_eq (g := g) hglobal hroute).trans (sameBodies_runPhases h g .responseBody)
    rw [hcall]
    dsimp only
    split_ifs
    · obtain ⟨hglobal', hroute', hdone⟩ := sendEncodeReply_fields
        (WafFilter.runPhases modsec g (both .responseBody modsec.processResponseBody)).1 frame.buffer
      exact ⟨hdone.trans hkeeps.responseProcessed, hsame.trans (sameBodies_of_eq hglobal' hroute')⟩
    · exact ⟨hkeeps.responseProcessed, hsame⟩

omit [HeaderMap H] in
theorem idle_transactionOf (h : f.isIdle = true) (who : Who) : f.transactionOf who = none := by
  unfold WafFilter.isIdle at h
  rw [Bool.and_eq_true, Option.isNone_iff_eq_none, Option.isNone_iff_eq_none] at h
  cases who with
  | global => exact h.1
  | route => exact h.2

/-- The frames are looked at as one: what has been appended in the end is what
the loop over all slices appends. -/
theorem takeFrames_bodies (h : BodyLimit modsec way body limit cuts) (hf : Unseen way f) {frames : List DataFrame}
    (hframes : ∀ frame ∈ frames.dropLast, frame.endStream = false) :
    SameBodies body ((bodyCalls modsec way).appendSlices f (frames.flatMap DataFrame.slices)).1
      (takeFrames modsec way f frames) := by
  induction frames generalizing f with
  | nil => exact fun _ => rfl
  | cons frame frames ih =>
    have hrest : ∀ frame ∈ frames.dropLast, frame.endStream = false := by
      intro frame' hmem
      apply hframes
      cases frames with
      | nil => cases hmem
      | cons _ _ => exact List.mem_cons_of_mem _ hmem
    have hstays : ∀ {g : WafFilter T H}, (∀ frame, takeFrame modsec way g frame = g) →
        takeFrames modsec way g frames = g := by
      intro g hg
      unfold takeFrames
      exact List.foldlRecOn (motive := fun g' => g' = g) frames _ rfl fun g' hg' frame _ => by rw [hg', hg]
    have hcons : takeFrames modsec way f (frame :: frames) =
        takeFrames modsec way (takeFrame modsec way f frame) frames := rfl
    by_cases hbusy : f.isIdle = true
    · -- nothing is there to be shown anything
      have hkeeps := (keeps_appendSlices (bodyCalls modsec way) f ((frame :: frames).flatMap DataFrame.slices)).1
      rw [hcons, takeFrame_idle hbusy, hstays (takeFrame_idle hbusy)]
      intro who
      rw [idle_transactionOf hbusy, idle_transactionOf (hkeeps.isIdle.trans hbusy)]
    rw [Bool.not_eq_true] at hbusy
    rw [hcons, List.flatMap_cons, appendSlices_append]
    by_cases hlast : frame.endStream = true ∨ ((bodyCalls modsec way).appendSlices f frame.slices).2 = true
    · obtain ⟨hdone, hsame⟩ := takeFrame_last h hf hbusy hlast
      rw [hstays (takeFrame_processed hdone)]
      by_cases hreached : ((bodyCalls modsec way).appendSlices f frame.slices).2 = true
      · rwa [if_pos hreached]
      · have hend := hlast.resolve_right hreached
        cases frames with
        | nil => rwa [if_neg hreached]
        | cons frame' frames => exact absurd (hend.symm.trans (hframes frame List.mem_cons_self)) (by simp)
    · rw [not_or, Bool.not_eq_true, Bool.not_eq_true] at hlast
      obtain ⟨hglobal, hroute, hunseen⟩ := takeFrame_more hf hbusy hlast.1 hlast.2
      rw [if_neg (by rw [hlast.2]; simp)]
      obtain ⟨hglobal', hroute', -⟩ := appendSlices_congr (bodyCalls modsec way) hglobal hroute
        (frames.flatMap DataFrame.slices)
      exact (sameBodies_of_eq hglobal' hroute').trans (ih hunseen hrest)

/-- Every transaction has been shown exactly what fits of the body, whatever
its frames and slices, if and only if no limit hides anything from the other
transaction. -/
theorem bodies_shown_iff (h : BodyLimit modsec way body limit cuts) (hf : Unseen way f) (frames : List DataFrame)
    (hframes : ∀ frame ∈ frames.dropLast, frame.endStream = false) :
    (∀ who t, f.transactionOf who = some t → ∃ t', (takeFrames modsec way f frames).transactionOf who = some t' ∧
        body t' = body t ++ fitting (limit t) (cuts t) (body t).length (frames.flatMap DataFrame.slices)) ↔
      Unhidden (bodyCalls modsec way) body limit cuts f.transaction f.transactionRoute (frames.flatMap DataFrame.slices) := by
  have hsame := takeFrames_bodies h hf hframes
  rw [← appendSlices_shown_iff h f]
  apply forall_congr'
  intro who
  unfold bodyOf
  rw [← hsame who]
  cases ht : f.transactionOf who with
  | none =>
    have hkeeps := (keeps_appendSlices (bodyCalls modsec way) f (frames.flatMap DataFrame.slices)).1
    have hnone : (((bodyCalls modsec way).appendSlices f
        (frames.flatMap DataFrame.slices)).1.transactionOf who) = none := by
      rw [← Option.not_isSome_iff_eq_none, hkeeps.present who, ht]
      simp
    rw [hsame who, hnone]
    simp [wanted]
  | some t =>
    have hkeeps := (keeps_appendSlices (bodyCalls modsec way) f (frames.flatMap DataFrame.slices)).1
    have hpresent : ((takeFrames modsec way f frames).transactionOf who).isSome := by
      rw [← Option.isSome_map (f := body), hsame who, Option.isSome_map, hkeeps.present who, ht]
      rfl
    obtain ⟨t', ht'⟩ := Option.isSome_iff_exists.1 hpresent
    rw [ht']
    simp [wanted]

end Calls

end Limits

/-! ## Two limits -/

/-- A transaction that only keeps a body, cut at a limit. -/
def limitedBody : Modsecurity (Bytes × Option Nat) where
  getRuleEngineState _ := .EnabledRuleEngine
  processConnection t _ _ _ _ := t
  processURI t _ _ _ := t
  addRequestHeader t _ _ := t
  processRequestHeaders t := t
  getRequestBodyLength t := t.1.length
  appendRequestBody t slice := ((t.1 ++ share t.2 true t.1.length slice, t.2), decide (Fits t.2 (t.1.length + slice.length)))
  processRequestBody t := t
  addResponseHeader t _ _ := t
  processResponseHeaders t _ _ := t
  getResponseBodyLength t := t.1.length
  appendResponseBody t slice := ((t.1 ++ share t.2 true t.1.length slice, t.2), decide (Fits t.2 (t.1.length + slice.length)))
  processResponseBody t := t
  intervention t := (t, none)

theorem limitedBody_limit (way : Way) : BodyLimit limitedBody way Prod.fst Prod.snd fun _ => true := by
  cases way <;> exact ⟨fun _ => rfl, fun _ _ => rfl, fun _ _ => of_decide_eq_false, fun _ _ => rfl,
    fun _ _ => rfl, fun _ => rfl, fun _ => rfl⟩

/-- Equal limits, which the body reaches with its third byte. -/
theorem equal_limits_shown :
    let f : WafFilter (Bytes × Option Nat) HeaderList := fresh (some ([], some 2)) (some ([], some 2))
    ∀ who t, f.transactionOf who = some t → ∃ t',
      (takeFrames limitedBody .request f
          [⟨[[1], [2]], false, none⟩, ⟨[[3]], true, none⟩]).transactionOf who = some t' ∧
        t'.1 = t.1 ++ fitting t.2 true t.1.length [[1], [2], [3]] := by
  intro f
  apply (bodies_shown_iff (limitedBody_limit .request) ⟨rfl, rfl, rfl⟩
    [⟨[[1], [2]], false, none⟩, ⟨[[3]], true, none⟩] ?_).2
  · exact rfl
  · intro frame hframe
    rw [List.mem_singleton.1 hframe]

/-- A limit of one byte hides the body from a transaction without a limit. -/
theorem limit_hides :
    let f : WafFilter (Bytes × Option Nat) HeaderList := fresh (some ([], some 1)) (some ([], none))
    let g := takeFrames limitedBody .request f [⟨[[1, 2], [3]], true, none⟩]
    g.transaction = some ([1], some 1) ∧ g.transactionRoute = some ([], none) ∧
      fitting none true 0 [[1, 2], [3]] = [1, 2, 3] ∧
      ¬ ∀ who t, f.transactionOf who = some t → ∃ t', g.transactionOf who = some t' ∧
        t'.1 = t.1 ++ fitting t.2 true t.1.length [[1, 2], [3]] := by
  intro f g
  refine ⟨rfl, rfl, rfl, ?_⟩
  intro hall
  obtain ⟨t', ht', hbody⟩ := hall .route _ rfl
  cases ht'
  exact absurd hbody (by decide)

end EnvoyProxy.Waf
