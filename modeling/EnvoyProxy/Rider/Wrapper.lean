import EnvoyProxy.Http.Underway
/-!
# Lua handlers of one direction

`StreamWrapper` (filter.cc) and `Coroutine` (vm.cc): how the handlers of a
plugin are started and resumed, for plugins of both versions. What Lua code
does between two yields is a `Script`; it is not known, so it is a function of
how often Lua code has run. Calls of the interface that neither yield nor
respond are a part of the code, also an `httpCall` that fails at once. Headers
are not changed by scripts here.
-/

namespace EnvoyProxy.Rider
open Json Http HeaderMap

/-! ## Scripts -/

/-- The second argument of `envoy.respond`. Without one, the stack has the
context there that `getContext` has pushed. -/
inductive BodyArgument
  | absent
  | nil
  | text (bytes : Bytes)
  deriving DecidableEq

/-- A run of Lua code to its end or to its next yield. -/
inductive Script
  | finish
  | error
  /-- A yield of the script's own. -/
  | yield
  /-- `envoy.httpCall` whose request is on its way. -/
  | httpCall
  /-- `envoy.respond`, and what follows when it raises an error; that is
  `error` unless the error is caught. -/
  | respond (table : List HeaderEntry) (body : BodyArgument) (raised : Script)
  /-- `envoy.req.get_body` or `envoy.resp.get_body`, and what follows when it
  does not yield. -/
  | getBody (returned : Script)
  deriving DecidableEq

inductive Version
  | v1
  | v2
  deriving DecidableEq, Repr

inductive StreamDirection
  | downstreamToUpstream
  | upstreamToDownstream
  deriving DecidableEq, Repr

structure Plugin where
  version : Version
  onRequest : Bool := false
  onResponse : Bool := false
  onRequestHeader : Bool := false
  onRequestBody : Bool := false
  onResponseHeader : Bool := false
  onResponseBody : Bool := false
  allowNoRoute : Bool := false
  script : Nat → Script

namespace Plugin

/-- The handler of a message, in version 1. -/
def onMessage (plugin : Plugin) : StreamDirection → Bool
  | .downstreamToUpstream => plugin.onRequest
  | .upstreamToDownstream => plugin.onResponse

def onHeader (plugin : Plugin) : StreamDirection → Bool
  | .downstreamToUpstream => plugin.onRequestHeader
  | .upstreamToDownstream => plugin.onResponseHeader

def onBody (plugin : Plugin) : StreamDirection → Bool
  | .downstreamToUpstream => plugin.onRequestBody
  | .upstreamToDownstream => plugin.onResponseBody

end Plugin

/-! ## State -/

/-- `StreamWrapper::State`, as far as it is used. -/
inductive State
  | Running
  | WaitForBody
  | HttpCall
  | Responded
  deriving DecidableEq, Repr

/-- `Coroutine::Status` -/
inductive Status
  | NotStarted
  | Yielded
  | Finished
  deriving DecidableEq, Repr

structure StreamWrapper where
  /-- `headers_` is not null. -/
  headers : Bool
  state : State := .Running
  status : Status := .NotStarted
  /-- The Lua thread has ended with an error and cannot be resumed. -/
  dead : Bool := false
  /-- `http_request_` is not null. -/
  httpRequest : Bool := false
  sawBody : Bool := false
  bufferedBody : Bool := false
  endStream : Bool
  headersContinued : Bool := false
  startBody_ : Bool := false
  deriving DecidableEq, Repr

/-- A `ContextBase`: of a plugin, or a filter. -/
inductive Context
  | root (plugin : Nat)
  | filter (stream : Nat)
  deriving DecidableEq, Repr

inductive Handler
  | message
  | header
  | body
  /-- Code that has yielded before. -/
  | resumed
  deriving DecidableEq, Repr

/-- What Lua code finds when it is entered. -/
structure Entry where
  direction : StreamDirection
  handler : Handler
  headers : Bool
  /-- `status_` is `Yielded`. -/
  resumable : Bool
  /-- The filter has not been destroyed. -/
  alive : Bool
  globalCtx : Option Context
  /-- `bufferedBody()` -/
  bufferedBody : Option Bytes
  deriving DecidableEq, Repr

/-- What a filter and Envoy have for one direction. -/
structure Side (H : Type) where
  /-- The pointer to the headers is not null. -/
  headers : Bool := false
  streamWrapper : Option StreamWrapper := none
  pipe : Pipe H := {}
  /-- The bytes of the body that have arrived. -/
  received : Bytes := []

/-- What `callbacks->route()` has for the plugin. -/
inductive Route
  | none
  | withoutConfig
  | withConfig
  deriving DecidableEq, Repr

/-- A filter with its stream. -/
structure Stream (H : Type) where
  self : Nat := 0
  route : Route := .none
  responded : Bool := false
  error : Bool := false
  destroyed : Bool := false
  /-- `route_config_` has a value. -/
  routeConfig : Bool := false
  /-- The thread-local `global_ctx`. -/
  globalCtx : Option Context := .none
  /-- The filter that sets it when a response passes others. -/
  elsewhere : Nat → Option Nat := fun _ => .none
  request : Side H := {}
  response : Side H := {}
  /-- Every time Lua code was entered. -/
  entered : List Entry := []

namespace Stream
variable {H : Type}

def side (s : Stream H) : StreamDirection → Side H
  | .downstreamToUpstream => s.request
  | .upstreamToDownstream => s.response

def setSide (s : Stream H) (d : StreamDirection) (side : Side H) : Stream H :=
  match d with
  | .downstreamToUpstream => { s with request := side }
  | .upstreamToDownstream => { s with response := side }

def scriptError (s : Stream H) : Stream H := { s with error := true }

/-- A response passes other filters. -/
def passBy (s : Stream H) : Stream H := { s with globalCtx := ((s.elsewhere s.entered.length).map .filter).or s.globalCtx }

/-- `global_ctx = dynamic_cast<ContextBase*>(&filter_)` -/
def setGlobalCtx (s : Stream H) : Stream H := { s with globalCtx := some (.filter s.self) }

end Stream

/-- `FilterCallbacks`: what responds for this direction, unless it raises. -/
structure FilterCallbacks (H : Type) where
  direction : StreamDirection
  respond : Stream H → H → Option Bytes → Option (Stream H)

/-! ## Coroutines -/

section Coroutine
variable {H : Type} [HeaderMap H] (plugin : Plugin) (callbacks : FilterCallbacks H)

def isSpace (b : UInt8) : Bool := b = 32 ∨ 9 ≤ b ∧ b ≤ 13

/-- `absl::SimpleAtoi` into a `uint64_t`. -/
def simpleAtoi (text : Bytes) : Option Nat :=
  let text := ((text.dropWhile isSpace).reverse.dropWhile isSpace).reverse
  let digits := if text.head? = some 43 then text.tail else text
  if digits ≠ [] ∧ ∀ b ∈ digits, 48 ≤ b ∧ b ≤ 57 then
    let n := digits.foldl (fun n b => 10 * n + (b.toNat - 48)) 0
    if n < 2 ^ 64 then some n else none
  else none

def validStatus (headers : H) : Bool :=
  match simpleAtoi (getStatusValue headers) with
  | some status => decide (200 ≤ status ∧ status < 600)
  | none => false

/-- The arguments of `luaRespond` once they are checked. -/
def respondArguments (w : StreamWrapper) (table : List HeaderEntry) (body : BodyArgument) : Option (H × Option Bytes) :=
  let headers : H := copyFrom table
  if w.headersContinued then none
  else
    match body with
    | .absent => none
    | .nil => if validStatus headers then some (headers, none) else none
    | .text bytes => if validStatus headers then some (setContentLength headers bytes.length, some bytes) else none

/-- `lua_resume`. The result says whether `Coroutine::resume` throws. -/
def luaResume (w : StreamWrapper) (s : Stream H) : Script → Bool × StreamWrapper × Stream H
  | .finish => (false, { w with status := .Finished }, s)
  | .error => (true, { w with status := .Finished, dead := true }, s)
  -- `yield_callback_`
  | .yield => (decide (w.state = .Running), { w with status := .Yielded }, s)
  | .httpCall => (false, { w with status := .Yielded, state := .HttpCall, httpRequest := true }, s)
  | .respond table body raised =>
    match respondArguments w table body with
    | none => luaResume w s raised
    | some (headers, bytes) =>
      let s := { s with responded := true }
      match callbacks.respond s headers bytes with
      | none => luaResume w s raised
      | some s => (false, { w with status := .Yielded, state := .Responded }, s)
  | .getBody returned =>
    if w.endStream || w.sawBody then luaResume w s returned
    else (false, { w with status := .Yielded, state := .WaitForBody, bufferedBody := true }, s)

namespace StreamWrapper

/-- `Coroutine::resume` -/
def resume (handler : Handler) (buffer : Option Bytes) (w : StreamWrapper) (s : Stream H) : Bool × StreamWrapper × Stream H :=
  let entry : Entry :=
    { direction := callbacks.direction, handler, headers := w.headers, resumable := w.status = .Yielded, alive := !s.destroyed
      globalCtx := s.globalCtx, bufferedBody := buffer }
  luaResume callbacks w { s with entered := s.entered ++ [entry] } (plugin.script s.entered.length)

/-- `Coroutine::start`. A thread that has yielded goes on from there, and one
that has died throws. -/
def coroutineStart (handler : Handler) (buffer : Option Bytes) (w : StreamWrapper) (s : Stream H) :
    Bool × StreamWrapper × Stream H :=
  if w.dead then (true, { w with status := .Finished }, s)
  else
    resume plugin callbacks (if w.status = .Yielded then .resumed else handler) buffer { w with status := .Yielded } s

/-- `StreamWrapper::startBody` -/
def startBody (buffer : Option Bytes) (w : StreamWrapper) (s : Stream H) : Bool × StreamWrapper × Stream H :=
  coroutineStart plugin callbacks .body buffer w s.setGlobalCtx

/-- A call inside a `try`. -/
def guarded (r : Bool × StreamWrapper × Stream H) : StreamWrapper × Stream H :=
  if r.1 then (r.2.1, r.2.2.scriptError) else r.2

/-- `StreamWrapper::start` of version 1; no status when it throws. -/
def startV1 (w : StreamWrapper) (s : Stream H) : Option FilterHeadersStatus × StreamWrapper × Stream H :=
  match coroutineStart plugin callbacks .message none w s with
  | (true, w, s) => (none, w, s)
  | (false, w, s) =>
    if w.state = .Running then (some .Continue, { w with headersContinued := true }, s) else (some .StopIteration, w, s)

/-- `StreamWrapper::start` of version 2. -/
def startV2 (w : StreamWrapper) (s : Stream H) : Option FilterHeadersStatus × StreamWrapper × Stream H :=
  let onBody := plugin.onBody callbacks.direction
  match coroutineStart plugin callbacks .header none w s.setGlobalCtx with
  | (true, w, s) => (none, w, s)
  | (false, w, s) =>
    match w.state with
    | .HttpCall =>
      (some .StopAllIterationAndBuffer, if w.endStream && onBody then { w with startBody_ := true } else w, s)
    | .Responded => (some .StopIteration, w, s)
    | _ =>
      if !w.endStream then (some .StopIteration, w, s)
      else if !onBody then (some .Continue, w, s)
      else
        let (w, s) := guarded (startBody plugin callbacks none w s)
        (some (if w.state = .HttpCall ∨ w.state = .Responded then .StopIteration else .Continue), w, s)

/-- `StreamWrapper::onData` of version 1; no status when it throws. -/
def onDataV1 (v : DataView) (endStream : Bool) (w : StreamWrapper) (s : Stream H) :
    Option FilterDataStatus × DataView × StreamWrapper × Stream H :=
  let w := { w with endStream, sawBody := true }
  let (threw, v, w, s) :=
    if w.state = .WaitForBody ∧ endStream then
      let v := v.move
      let (threw, w, s) := resume plugin callbacks .resumed v.buffer { w with state := .Running } s
      (threw, v, w, s)
    else (false, v, w, s)
  if threw then (none, v, w, s)
  else
    match w.state with
    | .HttpCall | .WaitForBody => (some .StopIterationAndBuffer, v, w, s)
    | .Responded => (some .StopIterationNoBuffer, v, w, s)
    | .Running => (some .Continue, v, { w with headersContinued := true }, s)

/-- `StreamWrapper::onData` of version 2. -/
def onDataV2 (v : DataView) (endStream : Bool) (w : StreamWrapper) (s : Stream H) :
    FilterDataStatus × DataView × StreamWrapper × Stream H :=
  let w := { w with endStream, sawBody := true }
  let (v, w, s) :=
    if endStream ∧ w.state = .Running then
      let v := v.move
      (v, guarded (startBody plugin callbacks v.buffer w s))
    else (v, w, s)
  if w.state = .HttpCall then (.StopIterationAndBuffer, v, w, s)
  else if w.state = .Responded then (.StopIterationNoBuffer, v, w, s)
  else if !endStream then (.StopIterationAndBuffer, v, w, s)
  else (.Continue, v, w, s)

/-- `StreamWrapper::onSuccess`, which `onFailure` calls too. The last
component says whether it calls `continueIteration`. -/
def onSuccess (buffer : Option Bytes) (w : StreamWrapper) (s : Stream H) : StreamWrapper × Stream H × Bool :=
  let w := { w with httpRequest := false }
  if w.state = .HttpCall then
    let (w, s) := match resume plugin callbacks .resumed buffer { w with state := .Running } s.setGlobalCtx with
      | (true, w, s) => ({ w with state := .Running }, s.scriptError)
      | (false, w, s) => (w, s)
    if w.state = .Running then
      if w.startBody_ then
        let (w, s) := guarded (startBody plugin callbacks buffer { w with startBody_ := false } s)
        (w, s, decide (w.state = .Running))
      else (w, s, true)
    else (w, s, false)
  else (w, s, false)

end StreamWrapper

end Coroutine

end EnvoyProxy.Rider
