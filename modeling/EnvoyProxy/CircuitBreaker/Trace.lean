import EnvoyProxy.CircuitBreaker.RollingNumber
/-!
# What the breaker answers

The answers of a breaker in terms of its calls alone: the slow requests in a
row (`slowInARow`), the calls of the window (`callsIn`) and the latest call that
opened it (`Latest`). What opens a breaker, and for how long, is a `Policy`: that
which the code computes from the settings (`computed`, with which `after_agrees`
holds for any doubles), and that which the settings say (`exact`).
`isOpen_iff`: the breaker is open until the break after the latest call that
opened it is over, unless a call has already seen that.
-/

namespace EnvoyProxy.CircuitBreaker
open Window RollingNumberImpl

/-- What opens a breaker, and for how long. -/
structure Policy where
  /-- A response time above the threshold. -/
  slow : Int → Bool
  /-- So many slow requests in a row. -/
  tooManySlow : Nat → Bool
  tooManyErrors : (total errors : Nat) → Bool
  /-- Seconds. -/
  window : Nat
  /-- The end of a break that starts at a time. -/
  breakEnd : SystemTime → SystemTime

/-- A number of calls, as a double. -/
def count (D : Type) [Doubles D] (n : Nat) : D := ((n : Int) : D)

section Settings
variable {D : Type}

/-- There is a number of slow requests in a row that opens the breaker. -/
def CircuitBreakerSettings.tooManySlow (settings : CircuitBreakerSettings D) (inARow : Nat) : Bool :=
  decide (0 < settings.consecutiveSlowRequests ∧ settings.consecutiveSlowRequests.toNat ≤ inARow)

/-- What the code computes, with its doubles and its 64 bits. -/
def CircuitBreakerSettings.computed [Doubles D] (settings : CircuitBreakerSettings D) : Policy where
  slow rt :=
    match settings.averageResponseTimeThreshold with
    | none => false
    | some threshold => decide (((threshold : Int) : D) < (rt : D))
  tooManySlow := settings.tooManySlow
  tooManyErrors total errors :=
    decide (0 < settings.minRequestAmount ∧ 0 < settings.errorPercentThreshold) &&
      CircuitBreakerImpl.tooManyErrors settings (count D total) (count D errors)
  window := settings.lookbackDuration / 1000
  breakEnd := CircuitBreakerImpl.deadline settings

/-- What the settings say, with exact ratios and times. -/
def CircuitBreakerSettings.exact (settings : CircuitBreakerSettings ℚ) : Policy where
  slow rt :=
    match settings.averageResponseTimeThreshold with
    | none => false
    | some threshold => decide ((threshold : Int) < rt)
  tooManySlow := settings.tooManySlow
  tooManyErrors total errors := decide (0 < settings.minRequestAmount ∧ 0 < settings.errorPercentThreshold ∧
    settings.minRequestAmount.toNat ≤ total ∧ settings.errorPercentThreshold * total ≤ errors * 100)
  window := settings.lookbackDuration / 1000
  breakEnd start := start + settings.breakDuration * 1000000

end Settings

def Call.isUpdate : Call → Bool
  | .updateMetrics .. => true
  | .isOpen => false

def Call.isError : Call → Bool
  | .updateMetrics error _ => error
  | .isOpen => false

variable (p : Policy)

/-- The calls of a kind in the last seconds of the window. -/
def callsIn (kind : Call → Bool) (now : SystemTime) (h : History) : Nat :=
  h.countP fun e => kind e.2 && decide (unixTimeNowSeconds now - p.window < unixTimeNowSeconds e.1)

/-- With so many slow requests in a row, or with too many errors. -/
def triggersWith (inARow : Nat) (now : SystemTime) (h : History) : Bool :=
  p.tooManySlow inARow || p.tooManyErrors (callsIn p Call.isUpdate now h) (callsIn p Call.isError now h)

mutual

/-- The slow requests since the last that was not slow, and since a call saw
the end of a break. -/
def slowInARow : History → Nat
  | [] => 0
  | (_, .updateMetrics _ rt) :: h => if p.slow rt then slowInARow h + 1 else 0
  | (now, .isOpen) :: h => if (inForce h).any (p.breakEnd · < now) then 0 else slowInARow h

/-- The time of the latest call that opened the breaker, until a call sees the
end of its break. -/
def inForce : History → Option SystemTime
  | [] => none
  | (now, .updateMetrics error rt) :: h =>
    if triggersWith p (if p.slow rt then slowInARow h + 1 else 0) now ((now, .updateMetrics error rt) :: h) then some now
    else inForce h
  | (now, .isOpen) :: h => if (inForce h).any (p.breakEnd · < now) then none else inForce h

end

/-- A call that opens the breaker, after the calls `h`. -/
def Triggers (now : SystemTime) (c : Call) (h : History) : Prop :=
  c.isUpdate = true ∧ triggersWith p (slowInARow p ((now, c) :: h)) now ((now, c) :: h) = true

/-- A call that sees the end of a break. -/
def Expires (now : SystemTime) (c : Call) (h : History) : Prop :=
  c = .isOpen ∧ ∃ start, inForce p h = some start ∧ p.breakEnd start < now

/-- The latest call that opened the breaker was at `start`, and no call since
has seen the end of its break. -/
def Latest (h : History) (start : SystemTime) : Prop :=
  ∃ later c earlier, h = later ++ (start, c) :: earlier ∧ Triggers p start c earlier ∧
    ∀ last now c' between, later = last ++ (now, c') :: between →
      ¬ Triggers p now c' (between ++ (start, c) :: earlier) ∧ ¬ Expires p now c' (between ++ (start, c) :: earlier)

/-- Time does not go back. -/
def Ordered (h : History) : Prop := h.Pairwise fun later earlier => earlier.1 ≤ later.1

/-- There were never 2^32 slow requests in a row. -/
def FewSlow : History → Prop
  | [] => True
  | e :: h => slowInARow p (e :: h) < 2 ^ 32 ∧ FewSlow h

/-- The break of every call that opens the breaker has an end in 64 bits. -/
def DeadlinesFit : History → Prop
  | [] => True
  | (now, c) :: h => (Triggers p now c h → -2 ^ 63 ≤ p.breakEnd now ∧ p.breakEnd now < 2 ^ 63) ∧ DeadlinesFit h

variable {p} {now start : SystemTime} {c : Call} {h : History}

/-! ## The call in force -/

theorem inForce_update (error : Bool) (rt : Int) :
    inForce p ((now, .updateMetrics error rt) :: h) =
      if triggersWith p (slowInARow p ((now, .updateMetrics error rt) :: h)) now ((now, .updateMetrics error rt) :: h)
      then some now else inForce p h := by
  rw [inForce, slowInARow]

theorem triggers_update {error : Bool} {rt : Int} :
    Triggers p now (.updateMetrics error rt) h ↔
      triggersWith p (slowInARow p ((now, .updateMetrics error rt) :: h)) now
        ((now, .updateMetrics error rt) :: h) = true := by
  simp [Triggers, Call.isUpdate]

theorem not_triggers_isOpen : ¬ Triggers p now .isOpen h := by
  rintro ⟨hupdate, -⟩
  cases hupdate

theorem expires_isOpen : Expires p now .isOpen h ↔ (inForce p h).any
    (p.breakEnd · < now) = true := by
  simp [Expires, Option.any_eq_true]

theorem latest_cons_triggers (h' : Triggers p now c h) :
    Latest p ((now, c) :: h) start ↔ start = now := by
  constructor
  · rintro ⟨_ | ⟨e, later⟩, c', earlier, heq, -, hquiet⟩
    · cases heq
      rfl
    · -- the first call is later than the one in force, and opens the breaker too
      obtain ⟨rfl, rfl⟩ := List.cons.inj heq
      exact absurd h' (hquiet [] now c later rfl).1
  · rintro rfl
    refine ⟨[], c, h, rfl, h', ?_⟩
    intro last now' c' between heq
    cases last <;> cases heq

theorem latest_cons_expires (h' : Expires p now c h) : ¬ Latest p ((now, c) :: h) start := by
  rintro ⟨_ | ⟨e, later⟩, c', earlier, heq, htriggers, hquiet⟩
  · cases heq
    obtain ⟨rfl, -⟩ := h'
    exact not_triggers_isOpen htriggers
  · obtain ⟨rfl, rfl⟩ := List.cons.inj heq
    exact absurd h' (hquiet [] now c later rfl).2

theorem latest_cons_quiet (h' : ¬ Triggers p now c h) (h'' : ¬ Expires p now c h) :
    Latest p ((now, c) :: h) start ↔ Latest p h start := by
  constructor
  · rintro ⟨_ | ⟨e, later⟩, c', earlier, heq, htriggers, hquiet⟩
    · cases heq
      exact absurd htriggers h'
    · obtain ⟨rfl, rfl⟩ := List.cons.inj heq
      refine ⟨later, c', earlier, rfl, htriggers, ?_⟩
      intro last now' c'' between hlater
      exact hquiet ((now, c) :: last) now' c'' between (by rw [hlater, List.cons_append])
  · rintro ⟨later, c', earlier, rfl, htriggers, hquiet⟩
    refine ⟨(now, c) :: later, c', earlier, rfl, htriggers, ?_⟩
    intro last now' c'' between heq
    rcases last with _ | ⟨e, last⟩
    · cases heq
      exact ⟨h', h''⟩
    · obtain ⟨rfl, hlater⟩ := List.cons.inj heq
      exact hquiet last now' c'' between hlater

/-- The recursion finds the latest call. -/
theorem inForce_eq_some : inForce p h = some start ↔ Latest p h start := by
  induction h with
  | nil =>
    refine iff_of_false (by rintro ⟨⟩) ?_
    rintro ⟨later, c, earlier, heq, -⟩
    simp at heq
  | cons e h ih =>
    obtain ⟨now, c⟩ := e
    cases c with
    | updateMetrics error rt =>
      by_cases htriggers : Triggers p now (.updateMetrics error rt) h
      · rw [latest_cons_triggers htriggers, inForce_update, if_pos (triggers_update.1 htriggers),
          Option.some.injEq, eq_comm]
      · rw [latest_cons_quiet htriggers (fun hexpires => by cases hexpires.1), inForce_update,
          if_neg fun hyes => htriggers (triggers_update.2 hyes), ih]
    | isOpen =>
      by_cases hexpires : Expires p now .isOpen h
      · rw [inForce, if_pos (expires_isOpen.1 hexpires)]
        exact iff_of_false (by simp) (latest_cons_expires hexpires)
      · rw [latest_cons_quiet not_triggers_isOpen hexpires, inForce, if_neg fun hyes =>
          hexpires (expires_isOpen.2 hyes), ih]

/-! ## The windows -/

/-- What the calls of a kind put into a window, the earlier first. -/
def amountsOf (kind : Call → Bool) : History → List (Int × ℕ)
  | [] => []
  | (now, c) :: h => if kind c then amountsOf kind h ++ [(unixTimeNowSeconds now, 1)] else amountsOf kind h

theorem sum_amountsOf (kind : Call → Bool) (window : Nat) (h : History) (hlast : ∀ e ∈ h, e.1 ≤ now) :
    ((inWindow window now (amountsOf kind h)).map (·.2)).sum =
      h.countP fun e => kind e.2 && decide (unixTimeNowSeconds now - (window / 1000 : Nat) < unixTimeNowSeconds e.1) := by
  induction h with
  | nil => rfl
  | cons e h ih =>
    obtain ⟨t, c⟩ := e
    have hrest := ih fun e he => hlast e (List.mem_cons_of_mem _ he)
    have ht : unixTimeNowSeconds t ≤ unixTimeNowSeconds now := unixTimeNowSeconds_le (hlast (t, c) List.mem_cons_self)
    rw [List.countP_cons]
    cases hkind : kind c with
    | false => simpa [amountsOf, hkind] using hrest
    | true =>
      rw [amountsOf, if_pos hkind, ← hrest, inWindow, List.filter_append, List.map_append, List.sum_append]
      by_cases htick : unixTimeNowSeconds now - (window / 1000 : Nat) < unixTimeNowSeconds t
      · have hin : unixTimeNowSeconds now - (window : Int) / 1000 < unixTimeNowSeconds t := by omega
        simp [inWindow, hin, ht]
      · have hout : ¬ unixTimeNowSeconds now - (window : Int) / 1000 < unixTimeNowSeconds t := by omega
        simp [inWindow, hout]

section Windows
variable {D : Type} [Doubles D] {settings : CircuitBreakerSettings D} {kind : Call → Bool} {r : RollingNumberImpl D}

/-- A window has counted the calls of a kind, and was read at times of calls. -/
def Counts (settings : CircuitBreakerSettings D) (kind : Call → Bool) (h : History) (r : RollingNumberImpl D) : Prop :=
  ∃ ops, r = afterAll settings.lookbackDuration ops ∧
    increments ops = ((amountsOf kind h).map fun a => (a.1, count D a.2)) ∧
    ∀ t ∈ ops.flatMap Operation.times, ∃ e ∈ h, e.1 = t

theorem counts_create (settings : CircuitBreakerSettings D) (kind : Call → Bool) :
    Counts settings kind [] (.create settings.lookbackDuration) :=
  ⟨[], (ofMilliseconds_natCast _).symm, rfl, by simp⟩

theorem Counts.skip (hr : Counts settings kind h r) (hkind : kind c = false) :
    Counts settings kind ((now, c) :: h) r := by
  obtain ⟨ops, rfl, hops, htimes⟩ := hr
  refine ⟨ops, rfl, ?_, fun t ht => ?_⟩
  · rw [hops, amountsOf, if_neg (by simp [hkind])]
  · obtain ⟨e, he, het⟩ := htimes t ht
    exact ⟨e, List.mem_cons_of_mem _ he, het⟩

theorem Counts.increment (hr : Counts settings kind h r) (hkind : kind c = true) :
    Counts settings kind ((now, c) :: h) (r.increment now ((1 : Int) : D)) := by
  obtain ⟨ops, rfl, hops, htimes⟩ := hr
  refine ⟨.increment now now ((1 : Int) : D) :: ops, (incrementAt_self _ _ _).symm, ?_, fun t ht => ?_⟩
  · rw [increments, hops, amountsOf, if_pos hkind, List.map_append]
    rfl
  · rw [List.flatMap_cons, List.mem_append] at ht
    rcases ht with ht | ht
    · exact ⟨(now, c), List.mem_cons_self, by simpa [Operation.times, eq_comm] using ht⟩
    · obtain ⟨e, he, het⟩ := htimes t ht
      exact ⟨e, List.mem_cons_of_mem _ he, het⟩

/-- Reading a window drops old buckets. -/
theorem Counts.removeOldBuckets (hr : Counts settings kind ((now, c) :: h) r) :
    Counts settings kind ((now, c) :: h) (r.removeOldBuckets now) := by
  obtain ⟨ops, rfl, hops, htimes⟩ := hr
  refine ⟨.sum now now :: ops, rfl, hops, fun t ht => ?_⟩
  rw [List.flatMap_cons, List.mem_append] at ht
  rcases ht with ht | ht
  · exact ⟨(now, c), List.mem_cons_self, by simpa [Operation.times, eq_comm] using ht⟩
  · exact htimes t ht

/-- It counts the calls of the window, as long as doubles count them. -/
theorem Counts.sum {fits : ℕ → Prop} (hexact : Exact (count D) fits) (hr : Counts settings kind h r) (hlast : ∀ e ∈ h, e.1 ≤ now)
    (hfits : ∀ n ≤ h.length, fits n) : (r.sum now).1 = count D (callsIn settings.computed kind now h) := by
  obtain ⟨ops, rfl, hops, htimes⟩ := hr
  have hbefore : ∀ t ∈ ops.flatMap Operation.times, t ≤ now := by
    intro t ht
    obtain ⟨e, he, rfl⟩ := htimes t ht
    exact hlast e he
  have hsum := sum_amountsOf kind settings.lookbackDuration h hlast
  have hcalls : ((inWindow settings.lookbackDuration now (amountsOf kind h)).map (·.2)).sum =
      callsIn settings.computed kind now h := hsum
  rw [← sumAt_self, sumAt_cast hexact hbefore now hops (hfits _ (hsum ▸ List.countP_le_length)), hcalls]

end Windows

/-! ## The breaker -/

section Breaker
variable {D : Type} [Doubles D] {settings : CircuitBreakerSettings D} {b : CircuitBreakerImpl D} {error : Bool} {rt : Int}

/-- A breaker in the state that its calls give. -/
structure Agrees (settings : CircuitBreakerSettings D) (h : History) (c : CircuitBreakerImpl D) : Prop where
  validTime : c.validTime = (inForce settings.computed h).map settings.computed.breakEnd
  count : c.consecutiveSlowRequestCount.toNat = slowInARow settings.computed h
  requests : Counts settings Call.isUpdate h c.requests
  errors : Counts settings Call.isError h c.errors

theorem slowInARow_eq_zero (hnone : settings.averageResponseTimeThreshold = none) (h : History) :
    slowInARow settings.computed h = 0 := by
  induction h with
  | nil => rfl
  | cons e h ih =>
    obtain ⟨now, _ | _⟩ := e
    · simp [slowInARow, CircuitBreakerSettings.computed, hnone]
    · rw [slowInARow, ih, ite_self]

theorem record_requests : (b.record settings now error rt).requests = b.requests.increment now ((1 : Int) : D) := by
  unfold CircuitBreakerImpl.record
  cases error <;> cases settings.averageResponseTimeThreshold <;> rfl

theorem record_errors :
    (b.record settings now error rt).errors = if error then b.errors.increment now ((1 : Int) : D) else b.errors := by
  unfold CircuitBreakerImpl.record
  cases error <;> cases settings.averageResponseTimeThreshold <;> rfl

theorem record_validTime : (b.record settings now error rt).validTime = b.validTime := by
  unfold CircuitBreakerImpl.record
  cases error <;> cases settings.averageResponseTimeThreshold <;> rfl

theorem record_count : (b.record settings now error rt).consecutiveSlowRequestCount =
    match settings.averageResponseTimeThreshold with
    | none => b.consecutiveSlowRequestCount
    | some threshold => if ((threshold : Int) : D) < (rt : D) then b.consecutiveSlowRequestCount + 1 else 0 := by
  unfold CircuitBreakerImpl.record
  cases error <;> cases settings.averageResponseTimeThreshold <;> rfl

/-- The counter follows the slow requests in a row while it does not wrap. -/
theorem record_slow (hcount : b.consecutiveSlowRequestCount.toNat = slowInARow settings.computed h)
    (hfew : slowInARow settings.computed ((now, .updateMetrics error rt) :: h) < 2 ^ 32) :
    (b.record settings now error rt).consecutiveSlowRequestCount.toNat =
      slowInARow settings.computed ((now, .updateMetrics error rt) :: h) := by
  rw [record_count]
  rcases hthreshold : settings.averageResponseTimeThreshold with _ | threshold
  · rw [slowInARow_eq_zero hthreshold, ← slowInARow_eq_zero hthreshold h]
    exact hcount
  · rw [slowInARow] at hfew ⊢
    by_cases hslow : ((threshold : Int) : D) < (rt : D)
    · have hyes : settings.computed.slow rt = true := by simp [CircuitBreakerSettings.computed, hthreshold, hslow]
      rw [if_pos hyes] at hfew ⊢
      dsimp only
      rw [if_pos hslow, UInt32.toNat_add, hcount]
      exact Nat.mod_eq_of_lt hfew
    · have hno : settings.computed.slow rt = false := by simp [CircuitBreakerSettings.computed, hthreshold, hslow]
      dsimp only
      rw [if_neg hslow, hno]
      rfl

section Exact
variable {fits : ℕ → Prop} (hexact : Exact (count D) fits)
include hexact

/-- Looking at the errors, after the call that is counted. -/
theorem errorPercent_agrees (hrequests : Counts settings Call.isUpdate ((now, c) :: h) b.requests)
    (herrors : Counts settings Call.isError ((now, c) :: h) b.errors) (hlast : ∀ e ∈ (now, c) :: h, e.1 ≤ now)
    (hfits : ∀ n ≤ ((now, c) :: h).length, fits n) :
    (b.errorPercent settings now).1 = settings.computed.tooManyErrors (callsIn settings.computed Call.isUpdate now ((now, c) :: h))
        (callsIn settings.computed Call.isError now ((now, c) :: h)) ∧
      Counts settings Call.isUpdate ((now, c) :: h) (b.errorPercent settings now).2.requests ∧
      Counts settings Call.isError ((now, c) :: h) (b.errorPercent settings now).2.errors ∧
      (b.errorPercent settings now).2.consecutiveSlowRequestCount = b.consecutiveSlowRequestCount ∧
      (b.errorPercent settings now).2.validTime = b.validTime := by
  have htotal := hrequests.sum hexact hlast hfits
  have hfailed := herrors.sum hexact hlast hfits
  generalize hrequestsIn : callsIn settings.computed Call.isUpdate now ((now, c) :: h) = total at htotal ⊢
  generalize herrorsIn : callsIn settings.computed Call.isError now ((now, c) :: h) = failed at hfailed ⊢
  have hmeans : settings.computed.tooManyErrors total failed =
      (decide (0 < settings.minRequestAmount ∧ 0 < settings.errorPercentThreshold) &&
        CircuitBreakerImpl.tooManyErrors settings (count D total) (count D failed)) := rfl
  rw [hmeans]
  unfold CircuitBreakerImpl.errorPercent
  split_ifs with hset
  · refine ⟨?_, hrequests.removeOldBuckets, herrors.removeOldBuckets, rfl, rfl⟩
    show CircuitBreakerImpl.tooManyErrors settings (b.requests.sum now).1 (b.errors.sum now).1 = _
    rw [htotal, hfailed, decide_eq_true hset, Bool.true_and]
  · refine ⟨?_, hrequests, herrors, rfl, rfl⟩
    rw [decide_eq_false hset, Bool.false_and]

theorem updateMetrics_agrees (hb : Agrees settings h b) (hlast : ∀ e ∈ h, e.1 ≤ now)
    (hfits : ∀ n ≤ h.length + 1, fits n) (hfew : slowInARow settings.computed ((now, .updateMetrics error rt) :: h) < 2 ^ 32) :
    Agrees settings ((now, .updateMetrics error rt) :: h) (b.updateMetrics settings now error rt) := by
  have hlast' : ∀ e ∈ (now, Call.updateMetrics error rt) :: h, e.1 ≤ now := by
    intro e he
    rcases List.mem_cons.1 he with rfl | he
    · exact le_rfl
    · exact hlast e he
  have hcount := record_slow hb.count hfew
  have hrequests : Counts settings Call.isUpdate ((now, .updateMetrics error rt) :: h)
      (b.record settings now error rt).requests := by
    rw [record_requests]
    exact hb.requests.increment rfl
  have herrors : Counts settings Call.isError ((now, .updateMetrics error rt) :: h)
      (b.record settings now error rt).errors := by
    rw [record_errors]
    cases error with
    | false => exact hb.errors.skip rfl
    | true => exact hb.errors.increment rfl
  obtain ⟨hfailing, hrequests', herrors', hcount', hvalid⟩ := errorPercent_agrees hexact hrequests herrors hlast' hfits
  have hslow : decide (0 < settings.consecutiveSlowRequests ∧ settings.consecutiveSlowRequests ≤
      (b.record settings now error rt).consecutiveSlowRequestCount) =
        settings.computed.tooManySlow (slowInARow settings.computed ((now, .updateMetrics error rt) :: h)) := by
    show _ = decide _
    rw [decide_eq_decide, UInt32.le_iff_toNat_le, hcount]
  unfold CircuitBreakerImpl.updateMetrics
  dsimp only
  rw [hslow, hfailing, ← triggersWith]
  split_ifs with htriggers
  · refine ⟨?_, ?_, hrequests', herrors'⟩
    · rw [inForce_update, if_pos htriggers]
      rfl
    · exact hcount' ▸ hcount
  · refine ⟨?_, hcount' ▸ hcount, hrequests', herrors'⟩
    rw [inForce_update, if_neg htriggers, hvalid, record_validTime, hb.validTime]

omit hexact in
theorem isOpen_agrees (hb : Agrees settings h b) (now : SystemTime) :
    Agrees settings ((now, .isOpen) :: h) (b.isOpen now).2 := by
  unfold CircuitBreakerImpl.isOpen
  rw [hb.validTime]
  rcases hforce : inForce settings.computed h with _ | start
  · refine ⟨?_, ?_, hb.requests.skip rfl, hb.errors.skip rfl⟩
    · show b.validTime = _
      rw [hb.validTime, inForce, hforce]
      rfl
    · rw [slowInARow, hforce]
      exact hb.count
  · simp only [Option.map_some]
    split_ifs with hover
    · refine ⟨?_, ?_, hb.requests.skip rfl, hb.errors.skip rfl⟩
      · rw [inForce, hforce, if_pos (by simpa using hover)]
        rfl
      · rw [slowInARow, hforce, if_pos (by simpa using hover)]
        rfl
    · refine ⟨?_, ?_, hb.requests.skip rfl, hb.errors.skip rfl⟩
      · rw [inForce, hforce, if_neg (by simpa using hover), hb.validTime, hforce]
      · rw [slowInARow, hforce, if_neg (by simpa using hover)]
        exact hb.count

/-- For any doubles that count the calls without rounding. -/
theorem after_agrees (hordered : Ordered h) (hfits : ∀ n ≤ h.length, fits n) (hfew : FewSlow settings.computed h) :
    Agrees settings h (after settings h) := by
  -- by induction on the calls, the latest last
  induction h with
  | nil => exact ⟨rfl, rfl, counts_create settings _, counts_create settings _⟩
  | cons e h ih =>
    obtain ⟨now, c⟩ := e
    obtain ⟨hlast, hbefore⟩ := List.pairwise_cons.1 hordered
    have hb := ih hbefore (fun n hn => hfits n (hn.trans (Nat.le_succ _))) hfew.2
    cases c with
    | updateMetrics error rt => exact updateMetrics_agrees hexact hb hlast hfits hfew.1
    | isOpen => exact isOpen_agrees hb now

end Exact

/-- The answer of a breaker that its calls have brought to its state. -/
theorem Agrees.isOpen (hb : Agrees settings h b) (now : SystemTime) :
    (b.isOpen now).1 = true ↔ ∃ start, Latest settings.computed h start ∧ now ≤ settings.computed.breakEnd start := by
  simp only [← inForce_eq_some]
  unfold CircuitBreakerImpl.isOpen
  rw [hb.validTime]
  rcases inForce settings.computed h with _ | start
  · simp
  · simp only [Option.map_some, Option.some.injEq, exists_eq_left']
    split_ifs with hover
    · exact iff_of_false (by simp) (not_le.2 hover)
    · exact iff_of_true rfl (not_lt.1 hover)

end Breaker

/-! ## Exact numbers -/

theorem exact_count : Exact (count ℚ) fun _ => True where
  zero := rfl
  add m n _ := by simp [count]
  part _ _ _ := trivial

section Rationals
variable {settings : CircuitBreakerSettings ℚ}

theorem slow_exact (settings : CircuitBreakerSettings ℚ) (rt : Int) : settings.computed.slow rt = settings.exact.slow rt := by
  unfold CircuitBreakerSettings.computed CircuitBreakerSettings.exact
  rcases settings.averageResponseTimeThreshold with _ | threshold
  · rfl
  · exact decide_eq_decide.2 Int.cast_lt

/-- The ratio of two sums, for a threshold on the number of requests. -/
theorem percent_iff {least total errors : Nat} {percent : ℚ} (hleast : 0 < least) :
    ((least : ℚ) ≤ total ∧ percent ≤ (errors : ℚ) / total * 100) ↔ least ≤ total ∧ percent * total ≤ errors * 100 := by
  rw [Nat.cast_le]
  apply and_congr_right
  intro hle
  have htotal : (0 : ℚ) < total := by exact_mod_cast hleast.trans_le hle
  rw [div_mul_eq_mul_div, le_div_iff₀ htotal]

theorem tooManyErrors_exact (settings : CircuitBreakerSettings ℚ) (total errors : Nat) :
    settings.computed.tooManyErrors total errors = settings.exact.tooManyErrors total errors := by
  show (decide _ && decide _) = decide _
  rw [← Bool.decide_and, decide_eq_decide, and_assoc]
  refine and_congr_right fun hmin => and_congr_right fun _ => ?_
  simpa [count] using percent_iff (UInt32.lt_iff_toNat_lt.1 hmin)

theorem triggersWith_exact (settings : CircuitBreakerSettings ℚ) (inARow : Nat) (now : SystemTime) (h : History) :
    triggersWith settings.computed inARow now h = triggersWith settings.exact inARow now h :=
  congrArg₂ (· || ·) rfl (tooManyErrors_exact settings _ _)

/-- While the ends of the breaks are in 64 bits, the code computes what the
settings say. -/
theorem computed_eq_exact (hfit : DeadlinesFit settings.exact h) :
    slowInARow settings.computed h = slowInARow settings.exact h ∧ inForce settings.computed h = inForce settings.exact h ∧
      ∀ start, inForce settings.exact h = some start → settings.computed.breakEnd start = settings.exact.breakEnd start := by
  induction h with
  | nil => exact ⟨rfl, rfl, by rintro start ⟨⟩⟩
  | cons e h ih =>
    obtain ⟨now, c⟩ := e
    obtain ⟨hnow, hbefore⟩ := hfit
    obtain ⟨hslow, hforce, hend⟩ := ih hbefore
    cases c with
    | updateMetrics error rt =>
      have hslow' : slowInARow settings.computed ((now, .updateMetrics error rt) :: h) =
          slowInARow settings.exact ((now, .updateMetrics error rt) :: h) := by
        rw [slowInARow, slowInARow, slow_exact, hslow]
      refine ⟨hslow', ?_, fun start hstart => ?_⟩
      · rw [inForce_update, inForce_update, hslow', triggersWith_exact, hforce]
      · rw [inForce_update] at hstart
        split_ifs at hstart with htriggers
        · cases hstart
          obtain ⟨hleast, hmost⟩ := hnow (triggers_update.2 htriggers)
          exact int64_of_lt hleast hmost
        · exact hend start hstart
    | isOpen =>
      have hany : (inForce settings.computed h).any (settings.computed.breakEnd · < now) =
          (inForce settings.exact h).any (settings.exact.breakEnd · < now) := by
        rw [hforce]
        rcases hstart : inForce settings.exact h with _ | start
        · rfl
        · rw [Option.any_some, Option.any_some, hend start hstart]
      refine ⟨?_, ?_, fun start hstart => ?_⟩
      · rw [slowInARow, slowInARow, hany, hslow]
      · rw [inForce, inForce, hany, hforce]
      · rw [inForce] at hstart
        split_ifs at hstart
        exact hend start hstart

theorem fewSlow_computed (hfit : DeadlinesFit settings.exact h) (hfew : FewSlow settings.exact h) :
    FewSlow settings.computed h := by
  induction h with
  | nil => trivial
  | cons e h ih =>
    refine ⟨?_, ih hfit.2 hfew.2⟩
    rw [(computed_eq_exact hfit).1]
    exact hfew.1

end Rationals

theorem after_exact (settings : CircuitBreakerSettings ℚ) (hordered : Ordered h) (hfew : FewSlow settings.exact h)
    (hfit : DeadlinesFit settings.exact h) : Agrees settings h (after settings h) :=
  after_agrees exact_count hordered (fun _ _ => trivial) (fewSlow_computed hfit hfew)

/-- For every settings and every calls in the order of time, while there were
never 2^32 slow requests in a row and every break has an end in 64 bits: the
breaker is open until the break after the latest call that opened it, if no
call has seen its end. Seeing it resets the counter of slow requests and leaves
the windows. -/
theorem isOpen_iff (settings : CircuitBreakerSettings ℚ) (h : History) (now : SystemTime) (hordered : Ordered h)
    (hfew : FewSlow settings.exact h) (hfit : DeadlinesFit settings.exact h) :
    (((after settings h).isOpen now).1 = true ↔
        ∃ start, Latest settings.exact h start ∧ now ≤ settings.exact.breakEnd start) ∧
      (Expires settings.exact now .isOpen h → (after settings ((now, .isOpen) :: h)).consecutiveSlowRequestCount = 0 ∧
        (after settings ((now, .isOpen) :: h)).requests = (after settings h).requests ∧
        (after settings ((now, .isOpen) :: h)).errors = (after settings h).errors) := by
  have hagrees := after_exact settings hordered hfew hfit
  obtain ⟨-, hforce, hend⟩ := computed_eq_exact hfit
  constructor
  · rw [hagrees.isOpen now]
    simp only [← inForce_eq_some, hforce]
    exact exists_congr fun start => and_congr_right fun hstart => by rw [hend start hstart]
  · rintro ⟨-, start, hstart, hover⟩
    have hover' : settings.computed.breakEnd start < now := (hend start hstart).trans_lt hover
    simp only [after, CircuitBreakerImpl.isOpen, hagrees.validTime, hforce, hstart, Option.map_some, if_pos hover', and_self]

/-! ## Runs -/

/-- One slow request opens the breaker for a second. -/
def oneSlow : CircuitBreakerSettings ℚ where
  consecutiveSlowRequests := 1
  averageResponseTimeThreshold := some 0
  errorPercentThreshold := 0
  minRequestAmount := 0
  breakDuration := 1000
  httpStatus := 503

theorem oneSlow_opens :
    ((after oneSlow [(0, .updateMetrics false 1)]).isOpen 1000000000).1 = true := by
  refine (isOpen_iff oneSlow [(0, .updateMetrics false 1)] 1000000000 (List.pairwise_singleton _ _)
    ⟨by decide, trivial⟩ ⟨fun _ => by decide, trivial⟩).1.2 ⟨0, ?_, by decide⟩
  exact inForce_eq_some.1 (by decide)

/-- Slow requests at the epoch. -/
def slowRequests (n : Nat) : History := List.replicate n (0, .updateMetrics false 1)

theorem slowInARow_slowRequests (n : Nat) : slowInARow oneSlow.exact (slowRequests n) = n := by
  induction n with
  | zero => rfl
  | succ n ih =>
    rw [slowRequests, List.replicate_succ, slowInARow, ← slowRequests, ih]
    rfl

theorem fewSlow_slowRequests {n : Nat} (hn : n < 2 ^ 32) : FewSlow oneSlow.exact (slowRequests n) := by
  induction n with
  | zero => trivial
  | succ n ih =>
    refine ⟨?_, ih (by omega)⟩
    have hcount := slowInARow_slowRequests (n + 1)
    rw [slowRequests, List.replicate_succ] at hcount
    rw [hcount]
    exact hn

theorem deadlinesFit_slowRequests (n : Nat) : DeadlinesFit oneSlow.exact (slowRequests n) := by
  induction n with
  | zero => trivial
  | succ n ih => exact ⟨fun _ => by decide, ih⟩

theorem ordered_slowRequests (n : Nat) : Ordered (slowRequests n) := by
  apply List.pairwise_replicate.2
  exact .inr le_rfl

/-- Every slow request opens the breaker. -/
theorem triggersWith_oneSlow (n : Nat) (now : SystemTime) (h : History) :
    triggersWith oneSlow.exact (n + 1) now h = true := by
  simp [triggersWith, oneSlow, CircuitBreakerSettings.exact, CircuitBreakerSettings.tooManySlow]

theorem inForce_slowRequests (n : Nat) : inForce oneSlow.exact (slowRequests (n + 1)) = some 0 := by
  have hcount := slowInARow_slowRequests (n + 1)
  rw [slowRequests, List.replicate_succ] at hcount ⊢
  rw [inForce_update, hcount, triggersWith_oneSlow]
  rfl

theorem slowRequests_agree {n : Nat} (hn : n < 2 ^ 32) : Agrees oneSlow (slowRequests n) (after oneSlow (slowRequests n)) :=
  after_exact oneSlow (ordered_slowRequests n) (fewSlow_slowRequests hn) (deadlinesFit_slowRequests n)

/-- The last of 2^32 slow requests in a row does not open the breaker again. -/
theorem wrapped_count {n : Nat} (hn : n + 1 = 2 ^ 32) (now : SystemTime) :
    (after oneSlow ((now, .updateMetrics false 1) :: slowRequests n)).validTime =
    (after oneSlow (slowRequests n)).validTime := by
  have hwrap : (after oneSlow (slowRequests n)).consecutiveSlowRequestCount + 1 = 0 := by
    apply UInt32.toNat_inj.1
    rw [UInt32.toNat_add, (slowRequests_agree (by omega)).count, (computed_eq_exact (deadlinesFit_slowRequests n)).1,
      slowInARow_slowRequests]
    show (n + 1) % 2 ^ 32 = 0
    rw [hn, Nat.mod_self]
  have hcount : ((after oneSlow (slowRequests n)).record oneSlow now false 1).consecutiveSlowRequestCount = 0 := by
    rw [record_count]
    exact hwrap
  have hpercent : ∀ b : CircuitBreakerImpl ℚ, b.errorPercent oneSlow now = (false, b) :=
    fun b => if_neg (by simp [oneSlow])
  rw [after, CircuitBreakerImpl.updateMetrics, hcount]
  simp only [hpercent, Bool.or_false]
  rw [if_neg (by decide)]
  exact record_validTime

/-- 2^32 slow requests, the last five seconds after the others: the last one
does not count, and the break after the others is over. -/
theorem last_slow_missed :
    ¬ ∀ (h : History) (now : SystemTime), Ordered ((now, .isOpen) :: h) →
      (((after oneSlow h).isOpen now).1 = true ↔
        ∃ start, Latest oneSlow.exact h start ∧ now ≤ oneSlow.exact.breakEnd start) := by
  intro hall
  obtain ⟨n, hn⟩ : ∃ n, n + 2 = 2 ^ 32 := ⟨2 ^ 32 - 2, by norm_num⟩
  have hordered : Ordered
      ((5000000000, .isOpen) :: (5000000000, .updateMetrics false 1) :: slowRequests (n + 1)) := by
    have hlast : ∀ e ∈ slowRequests (n + 1), e.1 ≤ 5000000000 := by
      intro e he
      rw [List.eq_of_mem_replicate he]
      decide
    refine List.pairwise_cons.2 ⟨?_, List.pairwise_cons.2 ⟨hlast, ordered_slowRequests _⟩⟩
    intro e he
    rcases List.mem_cons.1 he with rfl | he
    · exact le_rfl
    · exact hlast e he
  have hlatest : Latest oneSlow.exact ((5000000000, .updateMetrics false 1) :: slowRequests (n + 1)) 5000000000 := by
    apply inForce_eq_some.1
    rw [inForce_update, slowInARow, slowInARow_slowRequests]
    exact if_pos (triggersWith_oneSlow (n + 1) _ _)
  have hopen := (hall _ _ hordered).2 ⟨5000000000, hlatest, by decide⟩
  -- the break in force is the one that started before the last request
  obtain ⟨-, hforce, hend⟩ := computed_eq_exact (deadlinesFit_slowRequests (n + 1))
  have hzero := hend 0 (inForce_slowRequests n)
  unfold CircuitBreakerImpl.isOpen at hopen
  rw [wrapped_count (n := n + 1) (by omega), (slowRequests_agree (n := n + 1) (by omega)).validTime, hforce, inForce_slowRequests,
    Option.map_some, hzero] at hopen
  simp [CircuitBreakerSettings.exact, oneSlow] at hopen

end EnvoyProxy.CircuitBreaker
