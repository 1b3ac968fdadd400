import EnvoyProxy.Dubbo.Protocol
import EnvoyProxy.Dubbo.Request
/-!
# The Dubbo upstream

`DubboUpstream` (upstream_request.cc): one HTTP request sent over a pooled
connection as a Dubbo frame, and the frame that answers it. The members of
the class are fields of the state, a pointer that is only compared with null
is a `Bool`, and the effects on the rest of the process (what the downstream
got, what went to the connection, what was posted to the dispatcher) are
recorded in the state as well.

A call is a function from states to states. `Except.error` is an exception
that leaves the call, or a null pointer followed: the process ends there.
-/

namespace EnvoyProxy.Dubbo
open Json

/-! ## Replies -/

/-- The two overloads of `handleResponse`: a text, or a decoded object. -/
inductive Content (V : Type)
  | text (raw : Bytes)
  | object (value : Option V)
  deriving DecidableEq, Repr

/-- The arguments of `handleResponse`. -/
structure Reply (V : Type) where
  code : Nat
  type : ResponseType
  content : Content V
  close : Bool
  deriving DecidableEq, Repr

/-- What the downstream request is told. -/
inductive Delivery
  | headers (status : Nat) (contentLength : Nat) (close : Bool) (endStream : Bool)
  | data (body : Bytes)
  | resetStream
  deriving DecidableEq, Repr

/-- `DubboBridge`, the configuration of a route. -/
structure DubboBridge (V : Type) where
  getContext : SrcsRequestContext → Except Bytes DubboBridgeContext
  argumentGetterCreator : DubboBridgeContext → SrcsRequestContext → Except Bytes ArgumentGetter
  responseGetterCreator : ResponseGetter V
  protocolErrorCode : Nat := 501
  respExceptionCode : Nat := 503

/-- What a `DubboUpstream` runs in: the codecs, the route of its request, and
whether the router resets the stream while it is handed response headers. -/
structure Env (V : Type) where
  codec : Codec V
  encoder : Encoder
  bridge : Option (DubboBridge V)
  resets : Delivery → Bool

structure DubboUpstream (V : Type) where
  requestHeaders : Option RequestHeaders := none
  bufferdBody : Bytes := []
  dubboResponseBuffer : Bytes := []
  requestComplete : Bool := false
  responded : Bool := false
  /-- `response_context_` with `response_metadata_` -/
  responseContext : Option Header := none
  protocolErrorCode : Nat := 501
  respExceptionCode : Nat := 503
  responseGetter : Option (ResponseGetter V) := none
  upstreamRequest : Bool := true
  upstreamConnData : Bool := true
  toCloseUpstreamConnection : Bool := false
  upstreamResetGuard : Bool := true
  /-- The messages of the local replies posted to the dispatcher. -/
  posted : List Bytes := []
  /-- The bytes written to the connection. -/
  written : Bytes := []
  connectionClosed : Bool := false
  delivered : List Delivery := []
  /-- No `ASSERT` of `handleRawResponse` has failed. -/
  asserted : Bool := true

section Upstream
variable {V : Type} (env : Env V)

def cleanup (closeConnection : Bool) (s : DubboUpstream V) : DubboUpstream V :=
  { s with
    upstreamResetGuard := false
    upstreamRequest := false
    connectionClosed := s.connectionClosed || (closeConnection && s.upstreamConnData)
    upstreamConnData := false }

def resetStream (s : DubboUpstream V) : DubboUpstream V := cleanup true s

/-- The router takes the headers, and may reset the stream on the way. -/
def decodeHeaders (headers : Delivery) (s : DubboUpstream V) : DubboUpstream V :=
  let s := { s with delivered := s.delivered ++ [headers] }
  if env.resets headers then resetStream s else s

def handleRawResponse (code : Nat) (body : Bytes) (close : Bool) (s : DubboUpstream V) : DubboUpstream V :=
  let endStream := body.isEmpty
  let s := { s with
    asserted := s.asserted && s.upstreamRequest && !s.responded
    responded := true
    toCloseUpstreamConnection := s.toCloseUpstreamConnection || close }
  let s := decodeHeaders env (.headers code body.length close endStream) s
  -- the upstream request may be gone by now
  if endStream || !s.upstreamRequest then s
  else { s with delivered := s.delivered ++ [.data body] }

/-- The body and the status of a reply, or the exception of the getter. -/
def renderReply (codec : Codec V) (getter : Option (ResponseGetter V)) (reply : Reply V) : Except Bytes (Nat × Bytes) :=
  let response := match reply.content with
    | .text raw => some (codec.stringObject raw)
    | .object value => value
  match getter with
  | some getStringFromResponse => do
    let (value, code) ← getStringFromResponse response reply.type
    return (code.getD reply.code, value)
  | none => do return (reply.code, ← codec.hessianValueToJsonString response)

def handleResponse (reply : Reply V) (s : DubboUpstream V) : Except Bytes (DubboUpstream V) := do
  let (code, body) ← renderReply env.codec s.responseGetter reply
  return handleRawResponse env code body reply.close s

/-! ## Reading the response -/

/-- Where the decoder stands once it has looked at the buffer. -/
inductive Await
  | waiting (buffer : Bytes) (context : Option Header)
  | thrown (what : Bytes) (buffer : Bytes)
  | ready (buffer : Bytes) (header : Header)
  deriving DecidableEq, Repr

/-- The context kept from an earlier call, or the header at the front. -/
def headerOf (codec : Codec V) (buffer : Bytes) (context : Option Header) : Except Bytes (Option Header) :=
  match context with
  | some header => .ok (some header)
  | none => codec.decodeHeader buffer

/-- The header, when it is not known yet; waiting for the whole frame; the
loop that drains heartbeats. A round of the loop drains at least a header, so
`fuel` above the length of the buffer is enough. -/
def awaitFrame (codec : Codec V) : Nat → Bytes → Option Header → Await
  | 0, buffer, context => .waiting buffer context
  | fuel + 1, buffer, context =>
    match headerOf codec buffer context with
    | .error what => .thrown what buffer
    | .ok none => .waiting buffer none
    | .ok (some header) =>
      if buffer.length < header.bodySize + 16 then .waiting buffer (some header)
      else if header.messageType.isHeartbeat then awaitFrame codec fuel (buffer.drop (header.bodySize + 16)) none
      else .ready buffer header

/-- `RpcResult size({}) large than body size({})` -/
def sizeText (offset bodySize : Nat) : Bytes :=
  ascii "RpcResult size(" ++ natText offset ++ ascii ") large than body size(" ++ natText bodySize ++ ascii ")"

/-- The reply to a whole frame. `visible` are the bytes behind its header, the
body and whatever else has arrived. -/
def frameReply (codec : Codec V) (protocolErrorCode respExceptionCode : Nat) (header : Header) (visible : Bytes) :
    Except Bytes (Reply V) :=
  if header.messageType ≠ .response then
    .ok ⟨protocolErrorCode, .exception,
      .text (ascii "Expected response message but get " ++ natText header.messageType.toNat), true⟩
  else if header.responseStatus ≠ statusOk then
    let (value, offset) := codec.decodeObject visible 0
    if header.bodySize < offset then
      .ok ⟨protocolErrorCode, .exception, .text (sizeText offset header.bodySize), true⟩
    else .ok ⟨protocolErrorCode, .exception, .object value, true⟩
  else
    match codec.decodeInt visible 0 with
    | (none, _) =>
      .ok ⟨protocolErrorCode, .exception, .text (ascii "No response type get from dubbo response and do nothing"), true⟩
    | (some typeData, offset) =>
      match rpcResponseKind (rpcResponseType typeData) with
      | none => .error (ascii "not supported return type " ++ natText (rpcResponseType typeData).toNat)
      | some .nullValue => .ok ⟨200, .value, .object none, false⟩
      | some kind =>
        let (value, offset) := codec.decodeObject visible offset
        if header.bodySize < offset then
          .ok ⟨protocolErrorCode, .exception, .text (sizeText offset header.bodySize), true⟩
        else if kind = .withException then .ok ⟨respExceptionCode, .exception, .object value, false⟩
        else .ok ⟨200, .value, .object value, false⟩

inductive ResponseStatus
  | ok
  | waiting
  deriving DecidableEq, Repr

/-- The status, or an exception, and the state either way. -/
def readRespnoseFromUpstream (s : DubboUpstream V) : Except Bytes ResponseStatus × DubboUpstream V :=
  match awaitFrame env.codec (s.dubboResponseBuffer.length + 1) s.dubboResponseBuffer s.responseContext with
  | .waiting buffer context => (.ok .waiting, { s with dubboResponseBuffer := buffer, responseContext := context })
  | .thrown what buffer => (.error what, { s with dubboResponseBuffer := buffer, responseContext := none })
  | .ready buffer header =>
    let s := { s with
      dubboResponseBuffer := if header.messageType = .response then buffer.drop 16 else buffer
      responseContext := some header }
    match frameReply env.codec s.protocolErrorCode s.respExceptionCode header (buffer.drop 16) >>=
      fun reply => handleResponse env reply s with
    | .error what => (.error what, s)
    | .ok s => (.ok .ok, s)

/-- A reply that closes the connection. -/
def errorReply (s : DubboUpstream V) (what : Bytes) : Reply V := ⟨s.protocolErrorCode, .exception, .text what, true⟩

def moreDataText : Bytes := ascii "More data is necessary for upstream but end stream"

/-- What happens inside the `try` of `onUpstreamData`. -/
def readOrEnd (endStream : Bool) (s : DubboUpstream V) : Except Bytes Unit × DubboUpstream V :=
  match readRespnoseFromUpstream env s with
  | (.error what, s) => (.error what, s)
  | (.ok .ok, s) => (.ok (), s)
  | (.ok .waiting, s) =>
    if endStream then
      match handleResponse env (errorReply s moreDataText) s with
      | .error what => (.error what, s)
      | .ok s => (.ok (), s)
    else (.ok (), s)

def onUpstreamData (data : Bytes) (endStream : Bool) (s : DubboUpstream V) : Except Bytes (DubboUpstream V) :=
  if !s.upstreamRequest || s.responded || data.isEmpty then .ok s
  else
    match readOrEnd env endStream { s with dubboResponseBuffer := s.dubboResponseBuffer ++ data } with
    | (.ok _, s) => .ok s
    | (.error what, s) => handleResponse env (errorReply s what) s

/-- `onEvent` for an event other than `Connected`. -/
def onClose (s : DubboUpstream V) : DubboUpstream V :=
  if !s.upstreamRequest then s
  else if s.responded then cleanup false s
  else
    let s := cleanup false s
    { s with delivered := s.delivered ++ [.resetStream] }

/-! ## Writing the request -/

/-- The frame for the buffered request, or the exception text. `dubboRequestId`
is taken once the context and the getter are there. -/
def convertHttpToDubbo (bridge : DubboBridge V) (headers : RequestHeaders) (body : Bytes) (globalRequestId : Int64) :
    Except Bytes Bytes × Int64 :=
  let source : SrcsRequestContext := ⟨headers, body⟩
  match (do let context ← bridge.getContext source
            let getter ← bridge.argumentGetterCreator context source
            return (context, getter)) with
  | .error what => (.error what, globalRequestId)
  | .ok (context, getter) =>
    (writeDubboRequest env.encoder globalRequestId context source getter, globalRequestId + 1)

def noContextText : Bytes := ascii "No valid dubbo conversion context for current route or request"

/-- The state after the call and the next request id. -/
def writeRequestToUpstream (globalRequestId : Int64) (s : DubboUpstream V) : Except Bytes (DubboUpstream V × Int64) :=
  if s.requestComplete then .ok (s, globalRequestId)
  else if !s.upstreamRequest || !s.upstreamConnData then .error (ascii "null upstream")
  else
    let s := { s with requestComplete := true }
    match env.bridge with
    | none => .ok ({ s with posted := s.posted ++ [noContextText] }, globalRequestId)
    | some bridge =>
      let s := { s with
        protocolErrorCode := bridge.protocolErrorCode
        respExceptionCode := bridge.respExceptionCode
        responseGetter := some bridge.responseGetterCreator }
      match s.requestHeaders with
      | none => .error (ascii "null request headers")
      | some headers =>
        match convertHttpToDubbo env bridge headers s.bufferdBody globalRequestId with
        | (.error what, nextId) => .ok ({ s with posted := s.posted ++ [what] }, nextId)
        | (.ok frame, nextId) => .ok ({ s with written := s.written ++ frame }, nextId)

def encodeHeaders (headers : RequestHeaders) (endStream : Bool) (globalRequestId : Int64) (s : DubboUpstream V) :
    Except Bytes (DubboUpstream V × Int64) :=
  let s := { s with requestHeaders := some headers }
  if endStream then writeRequestToUpstream env globalRequestId s else .ok (s, globalRequestId)

def encodeData (data : Bytes) (endStream : Bool) (globalRequestId : Int64) (s : DubboUpstream V) :
    Except Bytes (DubboUpstream V × Int64) :=
  let s := { s with bufferdBody := s.bufferdBody ++ data }
  if endStream then writeRequestToUpstream env globalRequestId s else .ok (s, globalRequestId)

def encodeTrailers (globalRequestId : Int64) (s : DubboUpstream V) : Except Bytes (DubboUpstream V × Int64) :=
  writeRequestToUpstream env globalRequestId s

/-- The dispatcher runs the first posted closure, which checks the guard only. -/
def runPosted (s : DubboUpstream V) : Except Bytes (DubboUpstream V) :=
  match s.posted with
  | [] => .ok s
  | message :: posted =>
    let s := { s with posted }
    if s.upstreamResetGuard then handleResponse env ⟨400, .local, .text message, false⟩ s else .ok s

/-- `DubboUpstream::~DubboUpstream` -/
def destroy (s : DubboUpstream V) : DubboUpstream V := cleanup (s.toCloseUpstreamConnection || !s.responded) s

end Upstream

/-- A process that speaks scalar values, whose router never resets a stream. -/
def scalarEnv : Env Scalar where
  codec := scalarCodec
  encoder := scalarEncoder
  bridge := none
  resets _ := false

/-- The frame of a response. -/
def responseFrame (status : UInt8) (requestId : Nat) (body : Bytes) : Bytes :=
  [0xda, 0xbb, 0x02, status] ++ beBytes 8 requestId ++ beBytes 4 body.length ++ body

/-- The frame of a heartbeat. -/
def heartbeatFrame : Bytes := [0xda, 0xbb, 0xe2, 0x00] ++ beBytes 8 0 ++ beBytes 4 1 ++ [0x4e]

end EnvoyProxy.Dubbo
