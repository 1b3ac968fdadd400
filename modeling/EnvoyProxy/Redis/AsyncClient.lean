import EnvoyProxy.Lib.Runs
import EnvoyProxy.Lib.Bytes
/-!
# The Redis client

`AsyncClient` of common/redis, in the event loop of its worker. A context is
hiredis's side of a connection; it knows the client by its `data` and calls
back as hiredis documents: `connectCb` once, then the callback of each command
once, with a null reply when the connection is lost, and `disconnectCb` last.
A context whose `data` is null still calls back, and nothing comes of it.
-/

namespace EnvoyProxy.Redis

inductive Status
  | NOT_INIT
  | INIT_ERROR
  | CONNECTING
  | CONNECTED
  | WORKING
  | COMPLETED
  deriving DecidableEq, Repr

/-! ## hiredis -/

/-- What waits for a reply. -/
inductive Command
  | auth
  /-- With the id for `commandCb`. The call of `get` behind it is not known to
  the source. -/
  | get (id : UInt64) (call : Nat)
  /-- Without a callback. -/
  | other
  deriving DecidableEq

inductive Phase
  | connecting
  | connected
  /-- `REDIS_DISCONNECTING` -/
  | disconnecting
  | freed
  deriving DecidableEq, Repr

structure Context where
  /-- Whether `data` is the client. -/
  data : Bool := false
  phase : Phase := .freed
  errstr : Option Bytes := none
  pending : List Command := []

/-- What hiredis does to a context before it calls back. -/
def Context.disconnect (c : Context) (errstr : Bytes) : Context :=
  { c with phase := .disconnecting, errstr := some errstr, pending := [] }

/-- Without the command that gets its reply. -/
def Context.replied (c : Context) (j : Nat) : Context := { c with pending := c.pending.eraseIdx j }

/-- What the calls of a `connect` return. -/
structure Attempt where
  /-- The context of `redisAsyncConnectWithOptions`, with an error or without. -/
  context : Option Bool := some false
  /-- `REDIS_OK` for the two callbacks. -/
  setConnectCallback : Bool := true
  setDisconnectCallback : Bool := true

def Attempt.succeeds (attempt : Attempt) : Prop :=
  attempt.context = some false ∧ attempt.setConnectCallback = true ∧ attempt.setDisconnectCallback = true

/-! ## The client -/

/-- What a command callback gets. -/
structure Answer where
  reply : Option Bytes := none
  error : Option Bytes := none
  deriving DecidableEq

/-- `commands_map_.erase(id)` -/
def eraseCommand (m : List (UInt64 × Nat)) (id : UInt64) : List (UInt64 × Nat) := m.filter fun e => e.1 ≠ id

structure AsyncClient where
  clientStatus : Status := .NOT_INIT
  nextCommandId : UInt64 := 0
  /-- The calls of `get` whose callbacks are kept. -/
  commandsMap : List (UInt64 × Nat) := []
  password : Bytes
  shouldReconnect : Bool
  tryReconnecting : Bool := false
  maxReconnectCount : UInt32
  reconnectCount : UInt32 := 0
  /-- Whether there is an event. -/
  reconnectEvent : Bool := false
  redisAsyncContext : Option Nat := none

/-- The client with its contexts and its timer. -/
structure Worker where
  client : AsyncClient
  contexts : Nat → Context := fun _ => {}
  /-- How many contexts there have been. -/
  created : Nat := 0
  /-- The timer of the client's event is running. -/
  armed : Bool := false
  alive : Bool := true
  /-- An error was the reply to AUTH. -/
  authRefused : Bool := false
  /-- There were more attempts to reconnect than allowed. -/
  exceeded : Bool := false
  /-- The context of each call of `get`, in the order of the calls. -/
  issued : List Nat := []
  /-- The replies that came, with the calls that asked. -/
  delivered : List (Nat × Bytes) := []
  /-- What the callbacks got. -/
  answers : List (Nat × Answer) := []

namespace Worker

def setContext (w : Worker) (i : Nat) (c : Context) : Worker := { w with contexts := Function.update w.contexts i c }

/-- `redisAsyncFree` of a context whose `data` is null: what is pending calls
back in vain. -/
def redisAsyncFree (w : Worker) (i : Nat) : Worker := w.setContext i { w.contexts i with phase := .freed, pending := [] }

/-- `redisAsyncCommand` either queues a command or returns an error. -/
def redisAsyncCommand (w : Worker) (i : Nat) (command : Command) (accepted : Bool) : Worker :=
  if accepted then w.setContext i { w.contexts i with pending := (w.contexts i).pending ++ [command] } else w

/-- The callbacks that are kept get nothing. -/
def drain (w : Worker) : Worker :=
  { w with
    answers := w.answers ++ w.client.commandsMap.map fun e => (e.2, {})
    client := { w.client with commandsMap := [] } }

/-- The client lets go of its context, which hiredis frees by itself. -/
def dropContext (w : Worker) : Worker :=
  match w.client.redisAsyncContext with
  | none => w
  | some i =>
    { w.setContext i { w.contexts i with data := false } with client := { w.client with redisAsyncContext := none } }

def resetAsyncContext (w : Worker) (newStatus : Status) : Worker :=
  let w := { w with client := { w.client with clientStatus := newStatus } }
  match w.client.redisAsyncContext with
  | none => w.drain
  | some i =>
    -- a context that is disconnecting is not freed again
    if (w.contexts i).phase = .disconnecting then w.dropContext.drain else (w.dropContext.redisAsyncFree i).drain

def waitingToReconnect (w : Worker) : Worker :=
  if w.client.tryReconnecting then w
  else if !w.client.shouldReconnect then { w with client := { w.client with shouldReconnect := false, clientStatus := .COMPLETED } }
  else
    let reconnectCount := w.client.reconnectCount + 1
    if w.client.maxReconnectCount < w.client.reconnectCount then
      { w with client := { w.client with shouldReconnect := false, clientStatus := .COMPLETED, reconnectCount }, exceeded := true }
    else
      { w with
        client := { w.client with tryReconnecting := true, reconnectEvent := true, clientStatus := .CONNECTING, reconnectCount }
        armed := true }

/-! ## Callbacks -/

def authenticateCb (w : Worker) (i : Nat) (reply : Option Bytes) : Worker :=
  if !(w.contexts i).data then w
  else
    match reply with
    | some str =>
      if str.take 2 = ascii "OK" then { w with client := { w.client with clientStatus := .WORKING } }
      else
        { w with client := { w.client with shouldReconnect := false }, authRefused := true }.resetAsyncContext .COMPLETED
    | none => { w with client := { w.client with shouldReconnect := false } }.resetAsyncContext .COMPLETED

def authenticate (w : Worker) (accepted : Bool) : Worker :=
  match w.client.redisAsyncContext with
  | none => w
  | some i => w.redisAsyncCommand i .auth accepted

def connectCb (w : Worker) (i : Nat) (ok accepted : Bool) : Worker :=
  if !(w.contexts i).data then w
  else
    let w :=
      if w.client.tryReconnecting then
        { w with client := { w.client with
          reconnectCount := if ok then 0 else w.client.reconnectCount
          tryReconnecting := false
          reconnectEvent := false } }
      else w
    if ok then
      let w := { w with client := { w.client with clientStatus := .CONNECTED } }
      if !w.client.password.isEmpty then w.authenticate accepted
      else { w with client := { w.client with clientStatus := .WORKING } }
    else { w with client := { w.client with clientStatus := .NOT_INIT } }.dropContext.waitingToReconnect

def disconnectCb (w : Worker) (i : Nat) (ok : Bool) : Worker :=
  if ok || !(w.contexts i).data then w
  else { w with client := { w.client with clientStatus := .NOT_INIT } }.dropContext.waitingToReconnect

/-- `reply` is the text of the reply, if it has one. -/
def commandCb (w : Worker) (i : Nat) (id : UInt64) (reply : Option Bytes) : Worker :=
  if !(w.contexts i).data then w
  else
    match w.client.commandsMap.lookup id with
    | none => w
    | some call =>
      let answer : Answer := match reply with
        | some str => { reply := some str }
        | none => { error := (w.contexts i).errstr }
      { w with
        answers := w.answers ++ [(call, answer)]
        client := { w.client with commandsMap := eraseCommand w.client.commandsMap id } }

/-! ## Connecting -/

/-- A new context, and what its `data` is. -/
def newContext (w : Worker) (data : Bool) : Worker :=
  { w with created := w.created + 1, client := { w.client with redisAsyncContext := some w.created } }.setContext w.created
    { data, phase := .connecting }

def connect (w : Worker) (attempt : Attempt) : Worker :=
  match attempt.context with
  | none => { w with client := { w.client with redisAsyncContext := none } }.resetAsyncContext .INIT_ERROR
  | some err =>
    if err then (w.newContext false).resetAsyncContext .INIT_ERROR
    else
      let w := w.newContext true
      if !attempt.setConnectCallback || !attempt.setDisconnectCallback then w.resetAsyncContext .INIT_ERROR else w

/-- The constructor. -/
def construct (password : Bytes) (reconnect : Bool) (maxReconnect : UInt32) (attempt : Attempt) : Worker :=
  { client := { password, shouldReconnect := reconnect, maxReconnectCount := maxReconnect } : Worker }.connect attempt

/-- The destructor. -/
def destroy (w : Worker) : Worker :=
  let w := w.resetAsyncContext .COMPLETED
  { w with
    armed := w.armed && !w.client.reconnectEvent
    client := { w.client with tryReconnecting := false, reconnectEvent := false }
    alive := false }

/-! ## Commands -/

def set (w : Worker) (expireMs : UInt64) (accepted : Bool) : Worker :=
  match w.client.redisAsyncContext with
  | none => w
  | some i => if w.client.clientStatus ≠ .WORKING ∨ expireMs = 0 then w else w.redisAsyncCommand i .other accepted

def del (w : Worker) (accepted : Bool) : Worker :=
  match w.client.redisAsyncContext with
  | none => w
  | some i => if w.client.clientStatus ≠ .WORKING then w else w.redisAsyncCommand i .other accepted

/-- The callback of a call is kept under a new id. -/
def register (w : Worker) (i : Nat) : Worker :=
  { w with
    client := { w.client with
      nextCommandId := w.client.nextCommandId + 1
      commandsMap := eraseCommand w.client.commandsMap w.client.nextCommandId ++ [(w.client.nextCommandId, w.issued.length)] }
    issued := w.issued ++ [i] }

def get (w : Worker) (accepted : Bool) : Worker :=
  match w.client.redisAsyncContext with
  | none => w
  | some i =>
    if w.client.clientStatus ≠ .WORKING then w
    else (w.register i).redisAsyncCommand i (.get w.client.nextCommandId w.issued.length) accepted

/-- `RedisCache::lookupCache`, which answers itself when there is no
connection. -/
def lookupCache (w : Worker) (accepted : Bool) : Worker := if w.client.clientStatus ≠ .WORKING then w else w.get accepted

end Worker

/-! ## Runs -/

inductive Event
  /-- The connection is made, or not; then AUTH is accepted, or not. -/
  | connected (i : Nat) (ok accepted : Bool)
  /-- The reply to one of the commands that wait. -/
  | replied (i j : Nat) (reply : Option Bytes)
  /-- The connection is lost. -/
  | disconnected (i : Nat) (errstr : Bytes)
  | timer (attempt : Attempt)
  | lookupCache (accepted : Bool)
  | set (expireMs : UInt64) (accepted : Bool)
  | del (accepted : Bool)
  | destroy

namespace Worker

/-- The callback of a command. -/
def callback (w : Worker) (i : Nat) (reply : Option Bytes) : Command → Worker
  | .auth => w.authenticateCb i reply
  | .get id _ => w.commandCb i id reply
  | .other => w

/-- The reply to a command. -/
def deliver (w : Worker) (i : Nat) (command : Command) (reply : Option Bytes) : Worker :=
  match command, reply with
  -- the reply to AUTH has a text
  | .auth, none => w
  | .get _ call, some str => { w with delivered := w.delivered ++ [(call, str)] }.callback i reply command
  | _, _ => w.callback i reply command

/-- What waits on a connection that is lost gets a null reply. -/
def disconnect (w : Worker) (i : Nat) (errstr : Bytes) : Worker :=
  let pending := (w.contexts i).pending
  let w := w.setContext i ((w.contexts i).disconnect errstr)
  ((pending.foldl (fun w command => w.callback i none command) w).disconnectCb i false).redisAsyncFree i

def step (w : Worker) : Event → Worker
  | .connected i ok accepted =>
    if (w.contexts i).phase ≠ .connecting then w
    else if ok then (w.setContext i { w.contexts i with phase := .connected }).connectCb i true accepted
    else (w.connectCb i false accepted).redisAsyncFree i
  | .replied i j reply =>
    match (w.contexts i).phase, (w.contexts i).pending[j]? with
    | .connected, some command => (w.setContext i ((w.contexts i).replied j)).deliver i command reply
    | _, _ => w
  | .disconnected i errstr => if (w.contexts i).phase ≠ .connected then w else w.disconnect i errstr
  | .timer attempt => if w.armed then { w with armed := false }.connect attempt else w
  | .lookupCache accepted => if w.alive then w.lookupCache accepted else w
  | .set expireMs accepted => if w.alive then w.set expireMs accepted else w
  | .del accepted => if w.alive then w.del accepted else w
  | .destroy => if w.alive then w.destroy else w

def run (w : Worker) (es : List Event) : Worker := es.foldl step w

end Worker

end EnvoyProxy.Redis
