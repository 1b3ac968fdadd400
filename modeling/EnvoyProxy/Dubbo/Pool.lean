import EnvoyProxy.Lib.Runs
import EnvoyProxy.Dubbo.Lifecycle
/-!
# Pooled connections

Upstreams take connections from a pool one after the other. A connection has
a read buffer of its own: bytes that its user does not move to the private
buffer stay there, and go in front of the bytes that arrive later. What the
peer sent and got, and which bytes were moved, is recorded with the
connection.
-/

namespace EnvoyProxy.Dubbo
open Json

/-- A `DubboUpstream` that holds a connection, with the route of its request. -/
structure User (V : Type) where
  bridge : Option (DubboBridge V)
  upstream : DubboUpstream V := {}
  /-- The id its request frame was written with. -/
  requestId : Option Int64 := none
  /-- The frame its response was made from. -/
  answeredBy : Option Header := none

structure Connection (V : Type) where
  user : Option (User V) := none
  readBuffer : Bytes := []
  closed : Bool := false
  /-- The bytes the peer sent. -/
  received : Bytes := []
  /-- The bytes users have moved to their private buffers. -/
  taken : Bytes := []
  /-- The request frames the peer got. -/
  sent : List Bytes := []

structure Pool (V : Type) where
  connections : Nat → Connection V := fun _ => {}
  globalRequestId : Int64 := 0

inductive PoolEvent (V : Type)
  /-- A connection without a user is given to a new upstream. -/
  | onPoolReady (i : Nat) (bridge : Option (DubboBridge V))
  /-- A call of the user of a connection. `upstreamData` are the bytes that
  have just arrived. -/
  | call (i : Nat) (e : Event)

section Pool
variable {V : Type} (env : Env V)

def Env.withBridge (bridge : Option (DubboBridge V)) : Env V := { env with bridge }

/-- The bytes in the read buffer come first. -/
def Connection.presented (c : Connection V) : Event → Event
  | .upstreamData data endStream resets => .upstreamData (c.readBuffer ++ data) endStream resets
  | e => e

def Event.isDestroy : Event → Bool
  | .destroy => true
  | _ => false

def Event.isClose : Event → Bool
  | .close => true
  | _ => false

/-- The frame that a call completes, if it answers one. -/
def answeredFrom (s : DubboUpstream V) : Event → Option Header
  | .upstreamData data _ _ =>
    if Live s ∧ data ≠ [] then
      match awaitWith env s data with
      | .ready _ header => some header
      | _ => none
    else none
  | _ => none

/-- The bytes a call has written to the connection. -/
def writtenFrame (s t : DubboUpstream V) : Bytes := t.written.drop s.written.length

/-- The connection after the call `e` that has turned its user into `t`. -/
def Connection.after (c : Connection V) (user : User V) (id : Int64) (e : Event) (t : DubboUpstream V) :
    Connection V where
  user :=
    if e.isDestroy then none
    else some { user with
      upstream := t
      requestId := if writtenFrame user.upstream t = [] then user.requestId else some id
      answeredBy := (answeredFrom env user.upstream (c.presented e)).or user.answeredBy }
  readBuffer := if moved user.upstream (c.presented e) = [] then c.readBuffer ++ e.arrived else []
  closed := c.closed || e.isClose || t.connectionClosed
  received := c.received ++ e.arrived
  taken := c.taken ++ moved user.upstream (c.presented e)
  sent := if writtenFrame user.upstream t = [] then c.sent else c.sent ++ [writtenFrame user.upstream t]

/-- What happens to a connection without a user. -/
def Connection.idle (c : Connection V) (e : Event) : Connection V :=
  { c with
    readBuffer := c.readBuffer ++ e.arrived
    received := c.received ++ e.arrived
    closed := c.closed || e.isClose }

/-- A call on a connection, with the next request id. -/
def Connection.call (id : Int64) (e : Event) (c : Connection V) : Except Bytes (Connection V × Int64) :=
  match c.user with
  | none => .ok (c.idle e, id)
  | some user => do
    let p ← step (env.withBridge user.bridge) ⟨user.upstream, id⟩ (c.presented e)
    return (c.after env user id e p.upstream, p.globalRequestId)

def Pool.step (p : Pool V) : PoolEvent V → Except Bytes (Pool V)
  | .onPoolReady i bridge =>
    let c := p.connections i
    if c.user.isNone && !c.closed then
      .ok { p with connections := Function.update p.connections i { c with user := some { bridge } } }
    else .ok p
  | .call i e => do
    let (c, id) ← (p.connections i).call env p.globalRequestId e
    return ⟨Function.update p.connections i c, id⟩

/-- What a step does to the connection `i`. -/
inductive Change (i : Nat) (c : Connection V) (id : Int64) : PoolEvent V → Connection V → Prop
  | same (e : PoolEvent V) : Change i c id e c
  | attaches (bridge : Option (DubboBridge V)) : c.user = none → c.closed = false →
      Change i c id (.onPoolReady i bridge) { c with user := some { bridge } }
  | idles (e : Event) : c.user = none → Change i c id (.call i e) (c.idle e)
  | calls (e : Event) (user : User V) (t : DubboUpstream V) : c.user = some user →
      Effect (env.withBridge user.bridge) user.upstream id (c.presented e) t →
      Change i c id (.call i e) (c.after env user id e t)

theorem Connection.call_change {c c' : Connection V} {id id' : Int64} {e : Event} (i : Nat)
    (h : c.call env id e = .ok (c', id')) : Change env i c id (.call i e) c' := by
  unfold Connection.call at h
  cases hu : c.user with
  | none =>
    rw [hu] at h
    cases h
    exact .idles e hu
  | some user =>
    rw [hu] at h
    simp only at h
    obtain ⟨q, hstep, h⟩ := bind_eq_ok h
    cases h
    exact .calls e user q.upstream hu (step_effect _ hstep)

theorem Pool.step_change {p q : Pool V} {e : PoolEvent V} (h : p.step env e = .ok q) (i : Nat) :
    Change env i (p.connections i) p.globalRequestId e (q.connections i) := by
  cases e with
  | onPoolReady j bridge =>
    simp only [Pool.step] at h
    split_ifs at h with hfree
    · cases h
      simp only [Bool.and_eq_true, Option.isNone_iff_eq_none, Bool.not_eq_true'] at hfree
      by_cases hij : i = j
      · subst hij
        simp only [Function.update_self]
        exact .attaches bridge hfree.1 hfree.2
      · simp only [Function.update_of_ne hij]
        exact .same _
    · cases h
      exact .same _
  | call j e =>
    obtain ⟨r, hcall, h⟩ := bind_eq_ok h
    cases h
    by_cases hij : i = j
    · subst hij
      simp only [Function.update_self]
      exact Connection.call_change env i hcall
    · simp only [Function.update_of_ne hij]
      exact .same _

end Pool

/-- A route to a method without parameters. -/
def pingBridge : DubboBridge Scalar where
  getContext _ := .ok
    { service := ascii "s", version := ascii "1", method := ascii "ping"
      staticAttachs := [], headerAttachs := [], cookieAttachs := [], params := [] }
  argumentGetterCreator _ _ := .ok ⟨fun _ => .ok none, none⟩
  responseGetterCreator := simpleResponseGetter scalarCodec

end EnvoyProxy.Dubbo
