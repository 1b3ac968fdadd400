import EnvoyProxy.Http.Headers
import EnvoyProxy.Lib.Window
import Mathlib.Algebra.Field.Rat
/-!
# The circuit breaker

`RollingNumberImpl` (rolling_number.cc) and `CircuitBreakerImpl` (impl.cc).
A call reads the clock once; its time is an argument. What the code does with
doubles is done with any type that has their operations (`Doubles`), in the
order of the code; the exact numbers are one.
-/

namespace EnvoyProxy.CircuitBreaker
open Http

/-- Nanoseconds since the epoch. -/
abbrev SystemTime := Int

/-- A number as it is in 64 bits. -/
def int64 (x : Int) : Int := x.bmod (2 ^ 64)

theorem int64_of_lt {x : Int} (h : -2 ^ 63 ≤ x) (h' : x < 2 ^ 63) : int64 x = x := by
  apply Int.bmod_eq_of_le <;> omega

def unixTimeNowSeconds (now : SystemTime) : Int := now.tdiv 1000000000

theorem unixTimeNowSeconds_le {t now : SystemTime} (h : t ≤ now) : unixTimeNowSeconds t ≤ unixTimeNowSeconds now :=
  Int.tdiv_le_tdiv (by decide) h

/-- The operations on doubles. -/
class Doubles (D : Type) extends Zero D, Add D, Mul D, Div D, IntCast D, LE D, LT D where
  decidableLE : DecidableLE D
  decidableLT : DecidableLT D

instance Doubles.instDecidableLe {D : Type} [Doubles D] (a b : D) : Decidable (a ≤ b) := Doubles.decidableLE a b

instance Doubles.instDecidableLt {D : Type} [Doubles D] (a b : D) : Decidable (a < b) := Doubles.decidableLT a b

instance : Doubles ℚ where
  decidableLE := inferInstance
  decidableLT := inferInstance

variable {D : Type} [Doubles D]

/-! ## Rolling numbers -/

structure RollingNumberImpl (D : Type) where
  /-- Seconds. -/
  windowSize : Int
  buckets : Window.Buckets D := []

namespace RollingNumberImpl
variable {D : Type}

/-- The window is given in milliseconds. -/
def create (window : Nat) : RollingNumberImpl D := { windowSize := (window / 1000 : Nat) }

def removeOldBuckets (r : RollingNumberImpl D) (now : SystemTime) : RollingNumberImpl D :=
  { r with buckets := r.buckets.prune (unixTimeNowSeconds now - r.windowSize) }

variable [Zero D] [Add D]

def increment (r : RollingNumberImpl D) (now : SystemTime) (i : D) : RollingNumberImpl D :=
  { r with buckets := r.buckets.add (unixTimeNowSeconds now) i }.removeOldBuckets now

/-- The loop adds up the buckets of the window from zero on, the older first. -/
def sum (r : RollingNumberImpl D) (now : SystemTime) : D × RollingNumberImpl D :=
  (Window.totalAfter (unixTimeNowSeconds now - r.windowSize) r.buckets, r.removeOldBuckets now)

end RollingNumberImpl

/-! ## The breaker -/

/-- Durations are in milliseconds. -/
structure CircuitBreakerSettings (D : Type) where
  consecutiveSlowRequests : UInt32
  averageResponseTimeThreshold : Option Nat
  errorPercentThreshold : D
  minRequestAmount : UInt32
  breakDuration : Nat
  lookbackDuration : Nat := 10000
  httpStatus : Nat
  httpHeaders : List (HeaderString × HeaderString) := []
  httpBody : Bytes := []
  waitBody : Bool := false

structure CircuitBreakerImpl (D : Type) where
  consecutiveSlowRequestCount : UInt32 := 0
  errors : RollingNumberImpl D
  responseTimes : RollingNumberImpl D
  requests : RollingNumberImpl D
  validTime : Option SystemTime := none

namespace CircuitBreakerImpl

def create (settings : CircuitBreakerSettings D) : CircuitBreakerImpl D where
  errors := .create settings.lookbackDuration
  responseTimes := .create settings.lookbackDuration
  requests := .create settings.lookbackDuration

def isOpen (c : CircuitBreakerImpl D) (now : SystemTime) : Bool × CircuitBreakerImpl D :=
  match c.validTime with
  | none => (false, c)
  | some validTime =>
    if validTime < now then (false, { c with validTime := none, consecutiveSlowRequestCount := 0 })
    else (true, c)

/-- The windows and the counter of slow requests. -/
def record (settings : CircuitBreakerSettings D) (c : CircuitBreakerImpl D) (now : SystemTime) (error : Bool) (rt : Int) :
    CircuitBreakerImpl D :=
  let c := { c with
    requests := c.requests.increment now ((1 : Int) : D)
    responseTimes := c.responseTimes.increment now (rt : D) }
  let c := if error then { c with errors := c.errors.increment now ((1 : Int) : D) } else c
  match settings.averageResponseTimeThreshold with
  | none => c
  | some threshold =>
    { c with consecutiveSlowRequestCount :=
        if ((threshold : Int) : D) < (rt : D) then c.consecutiveSlowRequestCount + 1 else 0 }

/-- The comparisons of the two sums with the settings. -/
def tooManyErrors (settings : CircuitBreakerSettings D) (total errors : D) : Bool :=
  decide (((settings.minRequestAmount.toNat : Int) : D) ≤ total ∧
    settings.errorPercentThreshold ≤ errors / total * ((100 : Int) : D))

/-- Whether errors are too frequent. Reading the sums drops old buckets. -/
def errorPercent (settings : CircuitBreakerSettings D) (c : CircuitBreakerImpl D) (now : SystemTime) :
    Bool × CircuitBreakerImpl D :=
  if 0 < settings.minRequestAmount ∧ 0 < settings.errorPercentThreshold then
    let (total, requests) := c.requests.sum now
    let (errors, errors') := c.errors.sum now
    (tooManyErrors settings total errors, { c with requests, errors := errors' })
  else (false, c)

/-- `now + settings_.breakDuration()`, in nanoseconds of 64 bits. -/
def deadline (settings : CircuitBreakerSettings D) (now : SystemTime) : SystemTime :=
  int64 (now + settings.breakDuration * 1000000)

def updateMetrics (settings : CircuitBreakerSettings D) (c : CircuitBreakerImpl D) (now : SystemTime) (error : Bool) (rt : Int) :
    CircuitBreakerImpl D :=
  let c := c.record settings now error rt
  let slow := decide (0 < settings.consecutiveSlowRequests ∧ settings.consecutiveSlowRequests ≤ c.consecutiveSlowRequestCount)
  let (failing, c) := c.errorPercent settings now
  if slow || failing then { c with validTime := some (deadline settings now) } else c

end CircuitBreakerImpl

/-! ## Calls -/

inductive Call
  | updateMetrics (error : Bool) (rt : Int)
  | isOpen
  deriving DecidableEq

/-- The calls of a breaker with their times, the latest first. -/
abbrev History := List (SystemTime × Call)

/-- The breaker after its calls. -/
def after (settings : CircuitBreakerSettings D) : History → CircuitBreakerImpl D
  | [] => .create settings
  | (now, .updateMetrics error rt) :: h => (after settings h).updateMetrics settings now error rt
  | (now, .isOpen) :: h => ((after settings h).isOpen now).2

end EnvoyProxy.CircuitBreaker
