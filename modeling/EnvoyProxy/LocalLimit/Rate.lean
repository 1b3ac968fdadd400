import EnvoyProxy.LocalLimit.Bucket
/-!
# What the local limit lets through

However the requests fall on the workers, a rule lets no more of them through
in a window of time than its buckets give (`admitted_le`), whatever the other
rules do. Requests that keep to every rate are all let through
(`conforming_pass`).
-/

namespace EnvoyProxy.LocalLimit
open Http Downgrade TokenBucket

/-- The requests of two workers take from one bucket. -/
def Shares (useThreadLocalTokenBucket : Bool) (w w' : Worker) : Prop := useThreadLocalTokenBucket = true → w' = w

instance (useThreadLocalTokenBucket : Bool) (w w' : Worker) : Decidable (Shares useThreadLocalTokenBucket w w') :=
  inferInstanceAs (Decidable (_ → _))

variable {B H : Type} [TokenBucketImpl B]

/-! ## One rule -/

theorem TokenBucketPtr.consume_given (bucket : TokenBucketPtr B) (worker : Worker) (now : MonotonicTime) :
    (bucket.consume worker now 1 false).1 = (TokenBucketImpl.take (bucket.impl worker) now).1 := by
  cases bucket <;> rfl

theorem TokenBucketPtr.consume_isThreadLocal (bucket : TokenBucketPtr B) (worker : Worker) (now : MonotonicTime) :
    (bucket.consume worker now 1 false).2.isThreadLocal = bucket.isThreadLocal := by
  cases bucket <;> rfl

/-- A token leaves the bucket of its worker, and no other. -/
theorem TokenBucketPtr.consume_impl (bucket : TokenBucketPtr B) (worker w : Worker) (now : MonotonicTime) :
    (bucket.consume worker now 1 false).2.impl w =
      if Shares bucket.isThreadLocal w worker then (TokenBucketImpl.take (bucket.impl w) now).2 else bucket.impl w := by
  cases bucket with
  | accurate impl => simp [consume, TokenBucketPtr.impl, Shares, isThreadLocal, TokenBucketImpl.take]
  | threadLocal impls =>
    by_cases hsame : worker = w
    · subst hsame
      simp [consume, TokenBucketPtr.impl, Shares, TokenBucketImpl.take]
    · rw [if_neg fun h => hsame (h rfl)]
      simp [consume, TokenBucketPtr.impl, Function.update_of_ne (Ne.symm hsame)]

omit [TokenBucketImpl B] in
theorem TokenBucketPtr.impl_eq (bucket : TokenBucketPtr B) {w worker : Worker} (h : Shares bucket.isThreadLocal w worker) :
    bucket.impl worker = bucket.impl w := by
  cases bucket with
  | accurate impl => rfl
  | threadLocal impls => rw [h rfl]

/-- A rule asks the bucket of a worker for this request. -/
def asksFor (rqx : List (HeaderData H)) (useThreadLocalTokenBucket : Bool) (w : Worker) (a : Arrival H) : Bool :=
  matchHeaders a.headers rqx && decide (Shares useThreadLocalTokenBucket w a.worker)

/-- The times at which a rule asks the bucket of a worker. -/
def askedAt (rqx : List (HeaderData H)) (useThreadLocalTokenBucket : Bool) (w : Worker) (as : List (Arrival H)) : List MonotonicTime :=
  (as.filter (asksFor rqx useThreadLocalTokenBucket w)).map (·.now)

namespace RateLimitEntry

/-- The requests that the rule refuses when it meets them one after the other. -/
def limits (entry : RateLimitEntry B H) : List (Arrival H) → List Bool
  | [] => []
  | a :: as => (entry.limit a).1 :: (entry.limit a).2.limits as

theorem limit_matching {entry : RateLimitEntry B H} {a : Arrival H} (h : matchHeaders a.headers entry.enableRqx = true) :
    entry.limit a = (decide ((TokenBucketImpl.take (entry.tokenBucket.impl a.worker) a.now).1 < 1),
      { entry with tokenBucket := (entry.tokenBucket.consume a.worker a.now 1 false).2 }) := by
  unfold limit
  rw [if_pos h, ← entry.tokenBucket.consume_given]

theorem limit_other {entry : RateLimitEntry B H} {a : Arrival H} (h : matchHeaders a.headers entry.enableRqx = false) :
    entry.limit a = (false, entry) := by
  unfold limit
  rw [if_neg (by simp [h])]

theorem limit_enableRqx (entry : RateLimitEntry B H) (a : Arrival H) : (entry.limit a).2.enableRqx = entry.enableRqx := by
  unfold limit
  split_ifs <;> rfl

theorem limit_isThreadLocal (entry : RateLimitEntry B H) (a : Arrival H) :
    (entry.limit a).2.tokenBucket.isThreadLocal = entry.tokenBucket.isThreadLocal := by
  unfold limit
  split_ifs
  · exact entry.tokenBucket.consume_isThreadLocal a.worker a.now
  · rfl

/-- What happens to the bucket of a worker: the tokens it is asked for leave it. -/
theorem limit_impl (entry : RateLimitEntry B H) (a : Arrival H) (w : Worker) :
    (entry.limit a).2.tokenBucket.impl w =
      if asksFor entry.enableRqx entry.tokenBucket.isThreadLocal w a then
        (TokenBucketImpl.take (entry.tokenBucket.impl w) a.now).2
      else entry.tokenBucket.impl w := by
  unfold asksFor
  cases hmatch : matchHeaders a.headers entry.enableRqx with
  | true =>
    rw [limit_matching hmatch]
    simpa using entry.tokenBucket.consume_impl a.worker w a.now
  | false =>
    rw [limit_other hmatch]
    simp

/-- The rule asks one bucket, and its answer is whether it got a token. -/
theorem limit_asked {entry : RateLimitEntry B H} {a : Arrival H} {w : Worker}
    (h : asksFor entry.enableRqx entry.tokenBucket.isThreadLocal w a = true) :
    (entry.limit a).1 = decide ((TokenBucketImpl.take (entry.tokenBucket.impl w) a.now).1 < 1) := by
  obtain ⟨hmatch, hshares⟩ := Bool.and_eq_true_iff.1 h
  rw [limit_matching hmatch, entry.tokenBucket.impl_eq (of_decide_eq_true hshares)]

theorem askedAt_cons (rqx : List (HeaderData H)) (tl : Bool) (w : Worker) (a : Arrival H) (as : List (Arrival H)) :
    askedAt rqx tl w (a :: as) = if asksFor rqx tl w a then a.now :: askedAt rqx tl w as else askedAt rqx tl w as := by
  unfold askedAt
  by_cases h : asksFor rqx tl w a = true <;> simp [h]

/-- The requests of a window that take from the bucket of a worker and are not
refused by the rule: each of them has got a token. -/
theorem unlimited_le (entry : RateLimitEntry B H) (w : Worker) (s e : MonotonicTime) (as : List (Arrival H)) :
    ((as.zip (entry.limits as)).countP fun x =>
        !x.2 && asksFor entry.enableRqx entry.tokenBucket.isThreadLocal w x.1 && decide (s ≤ x.1.now ∧ x.1.now ≤ e)) ≤
      givenIn s e (askedAt entry.enableRqx entry.tokenBucket.isThreadLocal w as)
        (takeAll TokenBucketImpl.take (entry.tokenBucket.impl w)
          (askedAt entry.enableRqx entry.tokenBucket.isThreadLocal w as)).1 := by
  induction as generalizing entry with
  | nil => simp [limits, askedAt]
  | cons a as ih =>
    have hrest := ih (entry.limit a).2
    rw [limit_enableRqx, limit_isThreadLocal, limit_impl] at hrest
    rw [limits, List.zip_cons_cons, List.countP_cons, askedAt_cons]
    by_cases hasks : asksFor entry.enableRqx entry.tokenBucket.isThreadLocal w a = true
    · simp only [hasks, if_true] at hrest ⊢
      rw [takeAll, givenIn_cons, limit_asked hasks]
      by_cases hin : s ≤ a.now ∧ a.now ≤ e
      · by_cases hgot : (TokenBucketImpl.take (entry.tokenBucket.impl w) a.now).1 < 1
        · simp only [hgot, hin, decide_true, Bool.not_true, Bool.false_and, Bool.false_eq_true, if_false, and_self, if_true]
          omega
        · simp only [hgot, hin, decide_true, decide_false, Bool.not_false, Bool.and_self, and_self, if_true]
          omega
      · simpa [hin] using hrest
    · simp only [hasks, Bool.false_eq_true, if_false, Bool.and_false, Bool.false_and, Nat.add_zero] at hrest ⊢
      exact hrest

/-- A rule that gets its token every time refuses nothing. -/
theorem limits_eq_false {entry : RateLimitEntry B H} {as : List (Arrival H)}
    (h : ∀ w, ∀ n ∈ (takeAll TokenBucketImpl.take (entry.tokenBucket.impl w)
      (askedAt entry.enableRqx entry.tokenBucket.isThreadLocal w as)).1, n = 1) :
    ∀ limited ∈ entry.limits as, limited = false := by
  induction as generalizing entry with
  | nil => simp [limits]
  | cons a as ih =>
    have hrest : ∀ limited ∈ (entry.limit a).2.limits as, limited = false := by
      apply ih
      intro w n hn
      rw [limit_enableRqx, limit_isThreadLocal, limit_impl] at hn
      apply h w n
      rw [askedAt_cons]
      by_cases hasks : asksFor entry.enableRqx entry.tokenBucket.isThreadLocal w a = true
      · simp only [hasks, if_true] at hn ⊢
        exact List.mem_cons_of_mem _ hn
      · simpa [hasks] using hn
    have hfirst : (entry.limit a).1 = false := by
      cases hmatch : matchHeaders a.headers entry.enableRqx with
      | false => rw [limit_other hmatch]
      | true =>
        have hasks : asksFor entry.enableRqx entry.tokenBucket.isThreadLocal a.worker a = true := by
          simp [asksFor, hmatch, Shares]
        have hgot := h a.worker (TokenBucketImpl.take (entry.tokenBucket.impl a.worker) a.now).1
        rw [askedAt_cons, if_pos hasks] at hgot
        rw [limit_asked hasks, hgot List.mem_cons_self]
        rfl
    intro limited hlimited
    rcases List.mem_cons.1 hlimited with rfl | hlimited
    · exact hfirst
    · exact hrest limited hlimited

end RateLimitEntry

/-! ## All rules -/

theorem LocalLimitRouteConfig.limit_fst (config : LocalLimitRouteConfig B H) (a : Arrival H) :
    (config.limit a).1 = config.any fun entry => (entry.limit a).1 := by
  have hfold : ∀ (b : Bool) (l : List (RateLimitEntry B H)),
      l.foldl (fun limit entry => limit || (entry.limit a).1) b = (b || l.any fun entry => (entry.limit a).1) := by
    intro b l
    induction l generalizing b with
    | nil => simp
    | cons entry l ih => rw [List.foldl_cons, ih, List.any_cons, Bool.or_assoc]
  exact (hfold false config).trans (Bool.false_or _)

theorem serve_cons (config : LocalLimitRouteConfig B H) (a : Arrival H) (as : List (Arrival H)) :
    (serve config (a :: as)).1 =
      (if (config.limit a).1 then .StopIteration else .Continue) :: (serve (config.limit a).2 as).1 := by
  rw [serve]
  simp only [decodeHeaders, if_true]
  split_ifs <;> rfl

/-- What every rule lets through is let through by each of them. -/
theorem passed_le {config : LocalLimitRouteConfig B H} {entry : RateLimitEntry B H} (h : entry ∈ config)
    (p : Arrival H → Bool) (as : List (Arrival H)) :
    ((as.zip (serve config as).1).countP fun x => decide (x.2 = .Continue) && p x.1) ≤
      (as.zip (entry.limits as)).countP fun x => !x.2 && p x.1 := by
  induction as generalizing config entry with
  | nil => simp
  | cons a as ih =>
    have hnext : (entry.limit a).2 ∈ (config.limit a).2 := List.mem_map_of_mem h
    rw [serve_cons, RateLimitEntry.limits, List.zip_cons_cons, List.zip_cons_cons, List.countP_cons, List.countP_cons]
    apply Nat.add_le_add (ih hnext)
    cases hlimited : (config.limit a).1 with
    | true => simp
    | false =>
      rw [config.limit_fst, List.any_eq_false] at hlimited
      simp [Bool.eq_false_iff.2 (hlimited entry h)]

theorem serve_all {config : LocalLimitRouteConfig B H} {as : List (Arrival H)}
    (h : ∀ entry ∈ config, ∀ limited ∈ entry.limits as, limited = false) :
    ∀ status ∈ (serve config as).1, status = .Continue := by
  induction as generalizing config with
  | nil => simp [serve]
  | cons a as ih =>
    have hlimit : (config.limit a).1 = false := by
      rw [config.limit_fst, List.any_eq_false]
      intro entry hentry
      simp [h entry hentry _ List.mem_cons_self]
    have hrest : ∀ status ∈ (serve (config.limit a).2 as).1, status = .Continue := by
      apply ih
      intro entry hentry limited hlimited
      obtain ⟨entry, hmem, rfl⟩ := List.mem_map.1 hentry
      exact h entry hmem limited (List.mem_cons_of_mem _ hlimited)
    rw [serve_cons, hlimit]
    intro status hstatus
    rcases List.mem_cons.1 hstatus with rfl | hstatus
    · rfl
    · exact hrest status hstatus

/-! ## Rates -/

theorem LocalLimitRouteConfig.mem_create {rules : List (ProtoCommonRateLimit H)} {rule : ProtoCommonRateLimit H} (h : rule ∈ rules)
    (useThreadLocalTokenBucket : Bool) (now : MonotonicTime) (later : Worker → MonotonicTime) :
    RateLimitEntry.create rule useThreadLocalTokenBucket now later ∈
      (LocalLimitRouteConfig.create rules useThreadLocalTokenBucket now later : LocalLimitRouteConfig B H) :=
  List.mem_map_of_mem h

theorem RateLimitEntry.create_isThreadLocal (rule : ProtoCommonRateLimit H) (useThreadLocalTokenBucket : Bool) (now : MonotonicTime)
    (later : Worker → MonotonicTime) :
    (RateLimitEntry.create rule useThreadLocalTokenBucket now later : RateLimitEntry B H).tokenBucket.isThreadLocal =
      useThreadLocalTokenBucket := by
  cases useThreadLocalTokenBucket <;> rfl

theorem RateLimitEntry.create_impl (rule : ProtoCommonRateLimit H) (useThreadLocalTokenBucket : Bool) (now : MonotonicTime)
    (later : Worker → MonotonicTime) (w : Worker) :
    (RateLimitEntry.create rule useThreadLocalTokenBucket now later : RateLimitEntry B H).tokenBucket.impl w =
      TokenBucketImpl.create rule.rate rule.fillRate (if useThreadLocalTokenBucket then later w else now) := by
  cases useThreadLocalTokenBucket <;> rfl

theorem ProtoCommonRateLimit.fillRate_nonneg (rule : ProtoCommonRateLimit H) : 0 ≤ rule.fillRate := by
  have hcycle : 0 ≤ rule.unit.cycle := by cases rule.unit <;> norm_num [UnitType.cycle]
  exact div_nonneg (Nat.cast_nonneg _) hcycle

theorem askedAt_sorted {as : List (Arrival H)} (h : as.Pairwise fun a a' => a.now ≤ a'.now) (rqx : List (HeaderData H)) (tl : Bool)
    (w : Worker) : (askedAt rqx tl w as).Pairwise (· ≤ ·) :=
  List.pairwise_map.2 (h.filter _)

/-- The requests of some workers are the requests of one of them, for each. -/
theorem countP_workers_le {X : Type} (p : X → Bool) (worker : X → Worker) (ws : Finset Worker) (xs : List X) :
    xs.countP (fun x => p x && decide (worker x ∈ ws)) ≤ ∑ w ∈ ws, xs.countP fun x => p x && decide (worker x = w) := by
  induction ws using Finset.induction_on with
  | empty => simp
  | insert w ws hw ih =>
    have hinsert : ∀ xs : List X, xs.countP (fun x => p x && decide (worker x ∈ insert w ws)) ≤
        xs.countP (fun x => p x && decide (worker x = w)) + xs.countP (fun x => p x && decide (worker x ∈ ws)) := by
      intro xs
      induction xs with
      | nil => simp
      | cons x xs ihxs =>
        simp only [List.countP_cons]
        cases hp : p x <;> by_cases hx : worker x = w <;> by_cases hmem : worker x ∈ ws <;>
          simp [hx, hmem] at ihxs ⊢ <;> omega
    rw [Finset.sum_insert hw]
    exact (hinsert xs).trans (Nat.add_le_add_left ih _)

section Lawful
variable [LawfulTokenBucketImpl B]

/-- What a new rule lets the requests that take from one of its buckets do. -/
theorem unlimited_create_le (rule : ProtoCommonRateLimit H) (useThreadLocalTokenBucket : Bool) (now : MonotonicTime)
    (later : Worker → MonotonicTime) (w : Worker) {s e : MonotonicTime} (hse : s ≤ e) {as : List (Arrival H)}
    (h : as.Pairwise fun a a' => a.now ≤ a'.now) :
    (((as.zip ((RateLimitEntry.create rule useThreadLocalTokenBucket now later : RateLimitEntry B H).limits as)).countP fun x =>
        !x.2 && asksFor rule.matcher useThreadLocalTokenBucket w x.1 && decide (s ≤ x.1.now ∧ x.1.now ≤ e) : Nat) : ℚ) ≤
      LawfulTokenBucketImpl.burst B rule.rate + rule.fillRate * (e - s) := by
  have hrate := rule.fillRate_nonneg
  have hcount := RateLimitEntry.unlimited_le
    (RateLimitEntry.create rule useThreadLocalTokenBucket now later : RateLimitEntry B H) w s e as
  have hbounded := (LawfulTokenBucketImpl.bounded rule.rate rule.fillRate hrate).given_le hrate hse
    (LawfulTokenBucketImpl.made_create rule.rate rule.fillRate (if useThreadLocalTokenBucket then later w else now) hrate :
      (_ : B) ∈ _) (askedAt_sorted h rule.matcher useThreadLocalTokenBucket w)
  rw [RateLimitEntry.create_isThreadLocal, RateLimitEntry.create_impl] at hcount
  exact (Nat.cast_le.2 hcount).trans hbounded

/-- A rule lets no more of the requests of some workers through in a window
than its bucket gives, or than the buckets of these workers give. -/
theorem admitted_le (rules : List (ProtoCommonRateLimit H)) (useThreadLocalTokenBucket : Bool) (now : MonotonicTime)
    (later : Worker → MonotonicTime) {rule : ProtoCommonRateLimit H} (hrule : rule ∈ rules) {as : List (Arrival H)}
    (hsorted : as.Pairwise fun a a' => a.now ≤ a'.now) {s e : MonotonicTime} (hse : s ≤ e) (ws : Finset Worker) :
    (((as.zip (serve (LocalLimitRouteConfig.create rules useThreadLocalTokenBucket now later : LocalLimitRouteConfig B H) as).1).countP
      fun x => decide (x.2 = .Continue) &&
        (matchHeaders x.1.headers rule.matcher && decide (s ≤ x.1.now ∧ x.1.now ≤ e) && decide (x.1.worker ∈ ws)) : Nat) : ℚ) ≤
      (if useThreadLocalTokenBucket then (ws.card : ℚ) else 1) * (LawfulTokenBucketImpl.burst B rule.rate + rule.fillRate * (e - s)) := by
  have hpassed := passed_le (LocalLimitRouteConfig.mem_create (B := B) hrule useThreadLocalTokenBucket now later)
    (fun a => matchHeaders a.headers rule.matcher && decide (s ≤ a.now ∧ a.now ≤ e) && decide (a.worker ∈ ws)) as
  apply (Nat.cast_le.2 hpassed).trans
  cases useThreadLocalTokenBucket with
  | false =>
    -- all workers take from one bucket
    have hone := unlimited_create_le (B := B) rule false now later 0 hse hsorted
    rw [if_neg Bool.false_ne_true, one_mul]
    apply le_trans _ hone
    apply Nat.cast_le.2
    apply List.countP_mono_left
    intro x _ hx
    simp only [Bool.and_eq_true, decide_eq_true_eq] at hx
    simp [asksFor, Shares, hx.1, hx.2.1.1, hx.2.1.2]
  | true =>
    have hworkers := countP_workers_le
      (fun x : Arrival H × Bool => !x.2 && (matchHeaders x.1.headers rule.matcher && decide (s ≤ x.1.now ∧ x.1.now ≤ e)))
      (fun x => x.1.worker) ws (as.zip ((RateLimitEntry.create rule true now later : RateLimitEntry B H).limits as))
    simp only [Bool.and_assoc] at hworkers ⊢
    apply (Nat.cast_le.2 hworkers).trans
    rw [if_pos trivial, Nat.cast_sum, ← nsmul_eq_mul]
    apply Finset.sum_le_card_nsmul
    intro w _
    apply le_trans _ (unlimited_create_le (B := B) rule true now later w hse hsorted)
    apply Nat.cast_le.2
    apply List.countP_mono_left
    intro x _ hx
    simp only [Bool.and_eq_true, decide_eq_true_eq] at hx
    simp [asksFor, Shares, hx.1, hx.2.1, hx.2.2.1, hx.2.2.2]

/-- Two workers with a bucket each: of four requests in the tenth second. -/
theorem admitted_two_workers :
    ((([⟨0, 10, 0⟩, ⟨1, 10, 0⟩, ⟨0, 10, 0⟩, ⟨1, 11, 0⟩] : List (Arrival Nat)).zip
        (serve (LocalLimitRouteConfig.create [⟨[], .SS, 1⟩] true 0 (fun _ => 0) : LocalLimitRouteConfig ExactBucket Nat)
          [⟨0, 10, 0⟩, ⟨1, 10, 0⟩, ⟨0, 10, 0⟩, ⟨1, 11, 0⟩]).1).countP
      fun x => decide (x.2 = .Continue) &&
        (matchHeaders x.1.headers [] && decide ((10 : ℚ) ≤ x.1.now ∧ x.1.now ≤ 11) && decide (x.1.worker ∈ ({0, 1} : Finset Worker))) :
          ℚ) ≤
      (if true then (({0, 1} : Finset Worker).card : ℚ) else 1) *
        (LawfulTokenBucketImpl.burst ExactBucket 1 + ProtoCommonRateLimit.fillRate ⟨([] : List (HeaderData Nat)), .SS, 1⟩ * (11 - 10)) :=
  admitted_le (B := ExactBucket) [⟨[], .SS, 1⟩] true 0 (fun _ => 0) List.mem_cons_self
    (by simp; norm_num) (by norm_num) {0, 1}

/-- Requests that keep to the rate of every rule are all let through. -/
theorem conforming_pass (rules : List (ProtoCommonRateLimit H)) (useThreadLocalTokenBucket : Bool) (now : MonotonicTime)
    (later : Worker → MonotonicTime) {as : List (Arrival H)} (hsorted : as.Pairwise fun a a' => a.now ≤ a'.now)
    (hlater : ∀ a ∈ as, (if useThreadLocalTokenBucket then later a.worker else now) ≤ a.now)
    (hconf : ∀ rule ∈ rules, ∀ w, Conforms (rule.rate : ℚ) rule.fillRate (askedAt rule.matcher useThreadLocalTokenBucket w as)) :
    ∀ status ∈ (serve (LocalLimitRouteConfig.create rules useThreadLocalTokenBucket now later : LocalLimitRouteConfig B H) as).1,
      status = .Continue := by
  apply serve_all
  intro entry hentry
  obtain ⟨rule, hrule, rfl⟩ := List.mem_map.1 hentry
  apply RateLimitEntry.limits_eq_false
  intro w
  have hrate := rule.fillRate_nonneg
  rw [RateLimitEntry.create_isThreadLocal, RateLimitEntry.create_impl]
  refine (LawfulTokenBucketImpl.refilled rule.rate rule.fillRate hrate).gives_conforming
    (LawfulTokenBucketImpl.made_create rule.rate rule.fillRate _ hrate)
    (fun t ht => LawfulTokenBucketImpl.least_create rule.rate rule.fillRate _ t hrate ht)
    ?_ (askedAt_sorted hsorted rule.matcher useThreadLocalTokenBucket w) (hconf rule hrule w)
  intro t ht
  obtain ⟨a, ha, rfl⟩ := List.mem_map.1 ht
  obtain ⟨hmem, hasks⟩ := List.mem_filter.1 ha
  have hshares : Shares useThreadLocalTokenBucket w a.worker := of_decide_eq_true (Bool.and_eq_true_iff.1 hasks).2
  have hstart := hlater a hmem
  by_cases htl : useThreadLocalTokenBucket = true
  · rw [if_pos htl] at hstart ⊢
    rwa [hshares htl] at hstart
  · rw [if_neg htl] at hstart ⊢
    exact hstart

/-- One request a second, at one in a second. -/
theorem conforming_seconds :
    ((serve (LocalLimitRouteConfig.create [⟨[], .SS, 1⟩] false 0 (fun _ => 0) : LocalLimitRouteConfig ExactBucket Nat)
      [⟨0, 10, 0⟩, ⟨1, 11, 0⟩]).1.all (· = .Continue)) = true := by
  rw [List.all_eq_true]
  intro status hstatus
  refine decide_eq_true (conforming_pass (B := ExactBucket) [⟨[], .SS, 1⟩] false 0 (fun _ => 0) ?_ ?_ ?_ status hstatus)
  · simp
    norm_num
  · simp
  · intro rule hrule w l hl hin
    obtain rfl := List.mem_singleton.1 hrule
    have hasked : askedAt [] false w [(⟨0, 10, 0⟩ : Arrival Nat), ⟨1, 11, 0⟩] = [10, 11] := by
      simp [askedAt, asksFor, matchHeaders, Shares]
    rw [hasked] at hin
    have hmem : l = [] ∨ l = [11] ∨ l = [10] ∨ l = [10, 11] := by
      rcases List.sublist_cons_iff.1 hin.sublist with h | ⟨r, rfl, h⟩
      · rcases List.sublist_singleton.1 h with rfl | rfl <;> simp
      · rcases List.sublist_singleton.1 h with rfl | rfl <;> simp
    rcases hmem with rfl | rfl | rfl | rfl
    · exact absurd rfl hl
    all_goals norm_num [ProtoCommonRateLimit.fillRate, UnitType.cycle]

end Lawful

end EnvoyProxy.LocalLimit
