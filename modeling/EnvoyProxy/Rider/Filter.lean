import EnvoyProxy.Rider.Wrapper
import EnvoyProxy.Lib.Runs
/-!
# The Rider filter

`Filter` (filter.cc): the callbacks of both directions, the responses a script
makes, which go through the callbacks for responses, also those of other
filters, while the one for the request still runs, and a stream as Envoy drives it. Headers, data, trailers
and the ends of http calls come in any order that Envoy allows; what comes
otherwise is left out. A stream is over when its response has ended.
-/

namespace EnvoyProxy.Rider
open Json Http StreamWrapper

variable {H : Type} [HeaderMap H]

section Callbacks
variable (plugin : Plugin) (callbacks : FilterCallbacks H)

/-- A new coroutine and a new wrapper. -/
def newWrapper (headers endStream : Bool) : StreamWrapper := { headers, endStream }

/-- Runs a call of the wrapper and keeps the wrapper. -/
def keep {α : Type} (d : StreamDirection) (r : α × StreamWrapper × Stream H) : α × Stream H :=
  (r.1, r.2.2.setSide d { r.2.2.side d with streamWrapper := some r.2.1 })

/-- A `LuaException` of `start` fails open. -/
def caught (d : StreamDirection) (r : Option FilterHeadersStatus × StreamWrapper × Stream H) : FilterHeadersStatus × Stream H :=
  match keep d r with
  | (none, s) => (.Continue, s.scriptError)
  | (some status, s) => (status, s)

/-- `doHeaders` of version 1. -/
def doHeadersV1 (endStream : Bool) (s : Stream H) : FilterHeadersStatus × Stream H :=
  let d := callbacks.direction
  if s.error || !plugin.onMessage d then (.Continue, s)
  else caught d (startV1 plugin callbacks (newWrapper true endStream) s)

/-- `doHeaders` of version 2. -/
def doHeadersV2 (endStream : Bool) (s : Stream H) : FilterHeadersStatus × Stream H :=
  let d := callbacks.direction
  if s.responded && !plugin.onHeader d then (.StopIteration, { s with responded := false })
  else if s.error || !plugin.onHeader d then (.Continue, s)
  else caught d (startV2 plugin callbacks (newWrapper true endStream) s)

def doHeaders (endStream : Bool) (s : Stream H) : FilterHeadersStatus × Stream H :=
  let d := callbacks.direction
  let s := s.setSide d { s.side d with headers := true }
  match plugin.version with
  | .v1 => doHeadersV1 plugin callbacks endStream s
  | .v2 => doHeadersV2 plugin callbacks endStream s

/-- `decodeData` and `encodeData`. -/
def doData (v : DataView) (endStream : Bool) (s : Stream H) : FilterDataStatus × DataView × Stream H :=
  let d := callbacks.direction
  match plugin.version with
  | .v1 =>
    match (s.side d).streamWrapper with
    | none => (.Continue, v, s)
    | some w =>
      if s.error then (.Continue, v, s)
      else
        let (status, v, r) := onDataV1 plugin callbacks v endStream w s
        let s := (keep d (status, r)).2
        match status with
        | none => (.Continue, v, s.scriptError)
        | some status => (status, v, s)
  | .v2 =>
    if s.error || !plugin.onBody d then (.Continue, v, s)
    else
      let w := (s.side d).streamWrapper.getD (newWrapper (s.side d).headers endStream)
      let (status, v, r) := onDataV2 plugin callbacks v endStream w s
      (status, v, (keep d (status, r)).2)

end Callbacks

section Stream
variable (plugin : Plugin)

/-- The headers of a direction are shown to the plugin. For a request this is
the place where the configuration of the route is looked up. -/
def gate (d : StreamDirection) (s : Stream H) : Bool × Stream H :=
  match d with
  | .downstreamToUpstream =>
    match s.route with
    | .none => (plugin.allowNoRoute, s)
    | .withoutConfig => (true, s)
    | .withConfig => (true, { s with routeConfig := true })
  | .upstreamToDownstream => (plugin.allowNoRoute || s.routeConfig, s)

/-- The callbacks of a direction, as Envoy calls them. -/
def streamFilter (callbacks : FilterCallbacks H) : StreamFilter (Stream H) H where
  onHeaders s headers endStream :=
    let (passes, s) := gate plugin callbacks.direction s
    if passes then
      let (status, s) := doHeaders plugin callbacks endStream s
      (s, headers, none, status)
    else (s, headers, none, .Continue)
  onData s v endStream :=
    let (status, v, s) := doData plugin callbacks v endStream s
    (s, v, status)

/-- What has come from a callback of `StreamFilter`, on the side it is for. -/
def Stream.store (d : StreamDirection) (bytes : Bytes) (r : Stream H × Pipe H) : Stream H :=
  r.1.setSide d { r.1.side d with pipe := r.2, received := (r.1.side d).received ++ bytes }

def arrivalBytes : Arrival H → Bytes
  | .data bytes _ => bytes
  | _ => []

def EncoderCallbacks : FilterCallbacks H where
  direction := .upstreamToDownstream
  -- not supported in the response path
  respond _ _ _ := none

/-- Headers, data or trailers of a response, from whoever makes it. -/
def Stream.receiveResponse (s : Stream H) (a : Arrival H) : Stream H :=
  Stream.store .upstreamToDownstream (arrivalBytes a) ((streamFilter plugin EncoderCallbacks).receive s s.response.pipe a)

def DecoderCallbacks : FilterCallbacks H where
  direction := .downstreamToUpstream
  respond s headers body :=
    let s := (s.passBy.receiveResponse plugin (.headers headers body.isNone)).passBy
    match body with
    | some bytes => if s.destroyed then some s else some (s.receiveResponse plugin (.data bytes true)).passBy
    | none => some s

def filterCallbacks : StreamDirection → FilterCallbacks H
  | .downstreamToUpstream => DecoderCallbacks plugin
  | .upstreamToDownstream => EncoderCallbacks

/-- The next part of a message. -/
def Stream.receive (d : StreamDirection) (s : Stream H) (a : Arrival H) : Stream H :=
  Stream.store d (arrivalBytes a) ((streamFilter plugin (filterCallbacks plugin d)).receive s (s.side d).pipe a)

/-- `continueDecoding` and `continueEncoding`. -/
def Stream.continueIteration (d : StreamDirection) (s : Stream H) : Stream H :=
  Stream.store d [] ((streamFilter plugin (filterCallbacks plugin d)).resume s (s.side d).pipe)

/-- The http call of a wrapper ends. -/
def Stream.complete (d : StreamDirection) (w : StreamWrapper) (s : Stream H) : Stream H :=
  let (w, s, continues) := onSuccess plugin (filterCallbacks plugin d) (s.side d).pipe.buffer w s
  let s := s.setSide d { s.side d with streamWrapper := some w }
  if continues then s.continueIteration plugin d else s

/-- `onDestroy`, which cancels http calls. -/
def Side.onReset (side : Side H) : Side H :=
  { side with streamWrapper := side.streamWrapper.map fun w => { w with httpRequest := false } }

def Stream.onDestroy (s : Stream H) : Stream H :=
  { s with destroyed := true, request := s.request.onReset, response := s.response.onReset }

/-! ## Runs -/

inductive Event (H : Type)
  | arrival (d : StreamDirection) (a : Arrival H)
  | httpDone (d : StreamDirection)
  | onDestroy

/-- The response has ended, or the stream is gone. -/
def Stream.over (s : Stream H) : Bool := s.destroyed || s.response.pipe.passed.any Passed.ends

/-- A message has its headers first and nothing behind its end. -/
def fits (pipe : Pipe H) : Arrival H → Bool
  | .headers .. => pipe.headers.isNone
  | _ => pipe.headers.isSome && !pipe.complete

def Stream.step (s : Stream H) : Event H → Stream H
  | .arrival d a => if !s.over && fits (s.side d).pipe a then s.receive plugin d a else s
  | .httpDone d =>
    match (s.side d).streamWrapper with
    | some w => if !s.over && w.httpRequest then s.complete plugin d w else s
    | none => s
  | .onDestroy => s.onDestroy

def Stream.run (s : Stream H) (es : List (Event H)) : Stream H := es.foldl (Stream.step plugin) s

end Stream

end EnvoyProxy.Rider
