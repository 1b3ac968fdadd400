import EnvoyProxy.Lib.TokenBucket
import EnvoyProxy.Downgrade.Static
import EnvoyProxy.Http.Routing
/-!
# The local limit filter

`HttpLocalLimitFilter` (local_limit_filter.cc) asks every rule of its route
for a token and answers with 429 when one of them refuses. A rule has one
bucket for all workers or one for each (token_bucket.h). The buckets
themselves are Envoy's `TokenBucketImpl`; `LawfulTokenBucketImpl` is what the
filter relies on.
-/

namespace EnvoyProxy.LocalLimit
open Http Downgrade TokenBucket

/-- A reading of the monotonic clock, in seconds. -/
abbrev MonotonicTime := ℚ

class TokenBucketImpl (B : Type) where
  create (maxTokens : Nat) (fillRate : ℚ) (now : MonotonicTime) : B
  /-- The tokens that are given, and the bucket then. -/
  consume (b : B) (now : MonotonicTime) (tokens : Nat) (allowPartial : Bool) : Nat × B

/-- A whole token or none. -/
def TokenBucketImpl.take {B : Type} [TokenBucketImpl B] (b : B) (now : MonotonicTime) : Nat × B := consume b now 1 false

/-- A bucket is full at first, gives what it has, and fills up at its rate.
After it has been full for a while it may give a little more than
`maxTokens` at once: `burst`. -/
class LawfulTokenBucketImpl (B : Type) [TokenBucketImpl B] where
  /-- The buckets of so many tokens that fill at such a rate. -/
  made : Nat → ℚ → Set B
  burst : Nat → ℚ
  most : B → MonotonicTime → ℚ
  least : B → MonotonicTime → ℚ
  made_create : ∀ (maxTokens : Nat) (fillRate : ℚ) (now : MonotonicTime), 0 ≤ fillRate →
    (TokenBucketImpl.create maxTokens fillRate now : B) ∈ made maxTokens fillRate
  least_create : ∀ (maxTokens : Nat) (fillRate : ℚ) (now t : MonotonicTime), 0 ≤ fillRate → now ≤ t →
    (maxTokens : ℚ) ≤ least (TokenBucketImpl.create maxTokens fillRate now : B) t
  bounded : ∀ (maxTokens : Nat) (fillRate : ℚ), 0 ≤ fillRate →
    Bounded (made maxTokens fillRate : Set B) TokenBucketImpl.take most (burst maxTokens) fillRate
  refilled : ∀ (maxTokens : Nat) (fillRate : ℚ), 0 ≤ fillRate →
    Refilled (made maxTokens fillRate : Set B) TokenBucketImpl.take least maxTokens fillRate

/-! ## The rules -/

inductive UnitType
  | SS
  | MM
  | HH
  | DD
  deriving DecidableEq

/-- `CYCLE`, in seconds -/
def UnitType.cycle : UnitType → ℚ
  | .SS => 1
  | .MM => 60
  | .HH => 60 * 60
  | .DD => 24 * 60 * 60

structure ProtoCommonRateLimit (H : Type) where
  matcher : List (HeaderData H)
  unit : UnitType
  rate : Nat

def ProtoCommonRateLimit.fillRate {H : Type} (p : ProtoCommonRateLimit H) : ℚ := p.rate / p.unit.cycle

abbrev Worker := Nat

/-- `AccurateTokenBucket` behind its lock, or `TheadLocalTokenBucket`. -/
inductive TokenBucketPtr (B : Type)
  | accurate (impl : B)
  | threadLocal (impls : Worker → B)

/-- A request as the filter meets it. -/
structure Arrival (H : Type) where
  worker : Worker
  now : MonotonicTime
  headers : H

section Buckets
variable {B : Type} [TokenBucketImpl B]

def TokenBucketPtr.consume (bucket : TokenBucketPtr B) (worker : Worker) (now : MonotonicTime) (tokens : Nat) (allowPartial : Bool) :
    Nat × TokenBucketPtr B :=
  match bucket with
  | .accurate impl =>
    let (given, impl) := TokenBucketImpl.consume impl now tokens allowPartial
    (given, .accurate impl)
  | .threadLocal impls =>
    let (given, impl) := TokenBucketImpl.consume (impls worker) now tokens allowPartial
    (given, .threadLocal (Function.update impls worker impl))

/-- The bucket that the requests of a worker take from. -/
def TokenBucketPtr.impl : TokenBucketPtr B → Worker → B
  | .accurate impl, _ => impl
  | .threadLocal impls, worker => impls worker

def TokenBucketPtr.isThreadLocal : TokenBucketPtr B → Bool
  | .accurate _ => false
  | .threadLocal _ => true

structure RateLimitEntry (B H : Type) where
  enableRqx : List (HeaderData H)
  tokenBucket : TokenBucketPtr B

variable {H : Type}

/-- The buckets of the workers are made when they get to it. -/
def RateLimitEntry.create (rateLimit : ProtoCommonRateLimit H) (useThreadLocalTokenBucket : Bool) (now : MonotonicTime)
    (later : Worker → MonotonicTime) : RateLimitEntry B H where
  enableRqx := rateLimit.matcher
  tokenBucket :=
    if useThreadLocalTokenBucket then .threadLocal fun w => TokenBucketImpl.create rateLimit.rate rateLimit.fillRate (later w)
    else .accurate (TokenBucketImpl.create rateLimit.rate rateLimit.fillRate now)

def RateLimitEntry.limit (entry : RateLimitEntry B H) (a : Arrival H) : Bool × RateLimitEntry B H :=
  if matchHeaders a.headers entry.enableRqx then
    let (token, tokenBucket) := entry.tokenBucket.consume a.worker a.now 1 false
    (decide (token < 1), { entry with tokenBucket })
  else (false, entry)

abbrev LocalLimitRouteConfig (B H : Type) := List (RateLimitEntry B H)

def LocalLimitRouteConfig.create (rateLimit : List (ProtoCommonRateLimit H)) (useThreadLocalTokenBucket : Bool) (now : MonotonicTime)
    (later : Worker → MonotonicTime) : LocalLimitRouteConfig B H :=
  rateLimit.map fun p => .create p useThreadLocalTokenBucket now later

/-- Every rule is asked, also when one before it refuses. -/
def LocalLimitRouteConfig.limit (config : LocalLimitRouteConfig B H) (a : Arrival H) : Bool × LocalLimitRouteConfig B H :=
  (config.foldl (fun limit entry => limit || (entry.limit a).1) false, config.map fun entry => (entry.limit a).2)

def tooManyRequests : LocalReply where
  code := 429
  body := []
  details := ascii "local_rate_limit"

/-- What the filter answers, its local reply, and the configuration then. -/
def decodeHeaders (route : Option (FilterRoute (LocalLimitRouteConfig B H))) (a : Arrival H) :
    FilterHeadersStatus × Option LocalReply × Option (LocalLimitRouteConfig B H) :=
  match route with
  | none => (.Continue, none, none)
  | some route =>
    if route.routeEntry then
      match route.perFilterConfig with
      | none => (.Continue, none, none)
      | some config =>
        let (limited, config) := config.limit a
        if limited then (.StopIteration, some tooManyRequests, some config) else (.Continue, none, some config)
    else (.Continue, none, route.perFilterConfig)

/-- The requests on the routes of one configuration, one after the other. -/
def serve (config : LocalLimitRouteConfig B H) : List (Arrival H) → List FilterHeadersStatus × LocalLimitRouteConfig B H
  | [] => ([], config)
  | a :: as =>
    let (status, _, config') := decodeHeaders (some { perFilterConfig := some config }) a
    let (statuses, config'') := serve (config'.getD config) as
    (status :: statuses, config'')

end Buckets

end EnvoyProxy.LocalLimit
