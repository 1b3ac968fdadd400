import EnvoyProxy.Dubbo.Hessian
/-!
# Writing a Dubbo request

`DubboBridgeContext` (utility.cc): how it is built from its configuration,
and how a request becomes a Dubbo frame. The calls of `Hessian2::Encoder` are
the functions of an `Encoder`; list and map delimiters are written by hand
between them, as in the source. An exception is its message.
-/

namespace EnvoyProxy.Dubbo
open Json

/-! ## The context -/

/-- `absl::flat_hash_map<std::string, std::string>`, its entries in the order
they are iterated. -/
abbrev FlatStringMap := List (Bytes × Bytes)

/-- `insert` keeps the entry that is there. -/
def FlatStringMap.insert (m : FlatStringMap) (entry : Bytes × Bytes) : FlatStringMap :=
  if entry.1 ∈ m.map Prod.fst then m else m ++ [entry]

structure GenericType where
  path : Bytes
  splitedPath : List Bytes
  type : Bytes
  deriving DecidableEq, Repr

structure Parameter where
  index : Nat
  type : Bytes
  name : Bytes
  required : Bool
  default_ : HessianValue
  generic : List GenericType

/-- `ProtoDubboBridgeContext::Parameter` -/
structure ProtoParameter where
  type : Bytes
  name : Bytes
  required : Bool
  default_ : Bytes
  /-- path and type -/
  generic : List (Bytes × Bytes)

inductive AttachmentSource
  | static (value : Bytes)
  | header (name : Bytes)
  | cookie (name : Bytes)
  | notSet
  deriving DecidableEq, Repr

/-- `ProtoDubboBridgeContext::Attachment` -/
structure ProtoAttachment where
  name : Bytes
  source : AttachmentSource
  deriving DecidableEq, Repr

structure ProtoDubboBridgeContext where
  service : Bytes
  version : Bytes
  method : Bytes
  group : Bytes
  attachments : List ProtoAttachment
  parameters : List ProtoParameter
  ignoreNullMapPair : Bool

structure DubboBridgeContext where
  service : Bytes
  version : Bytes
  method : Bytes
  staticAttachs : FlatStringMap
  headerAttachs : FlatStringMap
  cookieAttachs : FlatStringMap
  params : List Parameter

/-- `Http::LowerCaseString` -/
def lowerCase (s : Bytes) : Bytes := s.map fun b => if 65 ≤ b ∧ b ≤ 90 then b + 32 else b

/-- `absl::StrSplit(path, '.', absl::SkipEmpty())` -/
def splitPath (path : Bytes) : List Bytes := (path.splitOn 46).filter (· ≠ [])

section Build
-- A default value parsed as JSON and converted for its type; `none` when the
-- text is not JSON.
variable (jsonDefault : Bytes → Bytes → Bool → Option HessianValue)

/-- The constructor of `Parameter`. -/
def Parameter.ofProto (index : Nat) (config : ProtoParameter) (ignoreNullMapPair : Bool) : Except Bytes Parameter := do
  let default_ ←
    if config.default_ ≠ [] then
      match jsonDefault config.default_ config.type ignoreNullMapPair with
      | some v => .ok v
      | none => .error (ascii "Dubbo bridge: default value: " ++ config.name ++ ascii "/" ++ config.type ++
          ascii " of " ++ config.default_ ++ ascii " is invalid Json")
    else .ok .null
  return { index, type := config.type, name := config.name, required := config.required, default_
           generic := config.generic.map fun g => ⟨g.1, splitPath g.1, g.2⟩ }

/-- One round of the loop over the configured attachments. -/
def DubboBridgeContext.attach (context : DubboBridgeContext) (attach : ProtoAttachment) : DubboBridgeContext :=
  match attach.source with
  | .static value => { context with staticAttachs := context.staticAttachs.insert (attach.name, value) }
  | .header name => { context with headerAttachs := context.headerAttachs.insert (attach.name, lowerCase name) }
  | .cookie name => { context with cookieAttachs := context.cookieAttachs.insert (attach.name, name) }
  | .notSet => context

/-- The constructor of `DubboBridgeContext`. -/
def DubboBridgeContext.ofProto (config : ProtoDubboBridgeContext) : Except Bytes DubboBridgeContext := do
  let context : DubboBridgeContext :=
    { service := config.service, version := config.version, method := config.method
      staticAttachs := if config.group ≠ [] then FlatStringMap.insert [] (ascii "group", config.group) else []
      headerAttachs := [], cookieAttachs := [], params := [] }
  let params ← config.parameters.zipIdx.mapM fun p =>
    Parameter.ofProto jsonDefault p.2 p.1 config.ignoreNullMapPair
  return { config.attachments.foldl DubboBridgeContext.attach context with params }

end Build

/-! ## Generic types -/

/-- A map key that is the string `s`. -/
def isKey (s : Bytes) (key : HessianValue) : Bool :=
  match key with
  | .string t => t = s
  | _ => false

/-- Changes the value under the key `s`, if there is one. -/
def updateKey (s : Bytes) (f : HessianValue → HessianValue) :
    List (HessianValue × HessianValue) → List (HessianValue × HessianValue)
  | [] => []
  | e :: es => if isKey s e.1 then (e.1, f e.2) :: es else e :: updateKey s f es

def populateSingleGenericType : List Bytes → Bytes → HessianValue → HessianValue
  | [], type, .untypedMap es =>
    if es.any fun e => isKey (ascii "class") e.1 then .untypedMap es
    else .untypedMap (es ++ [(.string (ascii "class"), .string type)])
  | [], _, object => object
  | firstSubPath :: path, type, object =>
    if firstSubPath = ascii "*" then
      match object with
      | .untypedList vs => .untypedList (vs.map (populateSingleGenericType path type))
      | .untypedMap es => .untypedMap (es.map fun e => (e.1, populateSingleGenericType path type e.2))
      | _ => object
    else
      match object with
      | .untypedMap es => .untypedMap (updateKey firstSubPath (populateSingleGenericType path type) es)
      | _ => object

def populateGenericTypes (genericTypes : List GenericType) (object : HessianValue) : HessianValue :=
  genericTypes.foldl (fun o g => populateSingleGenericType g.splitedPath g.type o) object

/-! ## The frame -/

/-- The request headers, as the code asks for them. -/
structure RequestHeaders where
  getByKey : Bytes → Option Bytes
  parseCookies : FlatStringMap

/-- The headers and the linearized body. -/
structure SrcsRequestContext where
  headers : RequestHeaders
  body : Bytes

def SrcsRequestContext.getHeader (context : SrcsRequestContext) (key : Bytes) : Option Bytes :=
  context.headers.getByKey key

def SrcsRequestContext.getCookie (context : SrcsRequestContext) (key : Bytes) : Option Bytes :=
  context.headers.parseCookies.lookup key

structure ArgumentGetter where
  /-- The object for a parameter, or no object. -/
  getArgumentByParameter : Parameter → Except Bytes (Option HessianValue)
  attachmentsFromGetter : Option FlatStringMap

/-- The overloads of `Hessian2::Encoder::encode` the request uses. -/
structure Encoder where
  encodeString : Bytes → Bytes
  encodeInt : Int32 → Bytes
  encodeObject : HessianValue → Bytes

section Write
variable (encoder : Encoder)

def writeListBegin (length : Int32) : Bytes :=
  if length ≤ 7 then [UInt8.ofBitVec (BitVec.ofInt 8 (0x78 + length.toInt))]
  else 0x58 :: encoder.encodeInt length

/-- Key and value of each entry, one after the other. -/
def writeEntries (entries : FlatStringMap) : Bytes :=
  entries.flatMap fun e => encoder.encodeString e.1 ++ encoder.encodeString e.2

/-- The attachments whose source has a value, with that value. -/
def presentAttachments (attachs : FlatStringMap) (get : Bytes → Option Bytes) : FlatStringMap :=
  attachs.filterMap fun a => (get a.2).map fun v => (a.1, v)

def writeStaticAttachments (context : DubboBridgeContext) : Bytes := writeEntries encoder context.staticAttachs

def writeHeaderAttachments (context : DubboBridgeContext) (source : SrcsRequestContext) : Bytes :=
  writeEntries encoder (presentAttachments context.headerAttachs source.getHeader)

def writeCookieAttachments (context : DubboBridgeContext) (source : SrcsRequestContext) : Bytes :=
  writeEntries encoder (presentAttachments context.cookieAttachs source.getCookie)

/-- The object sent for a parameter: what the getter returns, or the default. -/
def argumentObject (getter : ArgumentGetter) (parameter : Parameter) : Except Bytes HessianValue := do
  match ← getter.getArgumentByParameter parameter with
  | some object => return populateGenericTypes parameter.generic object
  | none =>
    if parameter.required then
      .error (ascii "Dubbo bridge: " ++ natText parameter.index ++ ascii "/" ++ parameter.name ++ ascii "/" ++
        parameter.type ++ ascii " is required but not provided")
    else return parameter.default_

def dubboVersionEncode : Bytes := ascii "2.0.2"
def dubboGenericMethod : Bytes := ascii "$invoke"
def dubboGenericParamTypes : Bytes := ascii "Ljava/lang/String;[Ljava/lang/String;[Ljava/lang/Object;"

def writeRequestBody (context : DubboBridgeContext) (source : SrcsRequestContext) (getter : ArgumentGetter) :
    Except Bytes Bytes := do
  let paramsLength := Int32.ofNat context.params.length
  let arguments ← context.params.mapM (argumentObject getter)
  return encoder.encodeString dubboVersionEncode
    ++ encoder.encodeString context.service
    ++ encoder.encodeString context.version
    ++ encoder.encodeString dubboGenericMethod
    ++ encoder.encodeString dubboGenericParamTypes
    ++ encoder.encodeString context.method
    ++ writeListBegin encoder paramsLength
    ++ context.params.flatMap (fun parameter => encoder.encodeString parameter.type)
    ++ writeListBegin encoder paramsLength
    ++ arguments.flatMap encoder.encodeObject
    ++ 0x48 :: writeStaticAttachments encoder context
    ++ writeHeaderAttachments encoder context source
    ++ writeCookieAttachments encoder context source
    ++ writeEntries encoder (getter.attachmentsFromGetter.getD [])
    ++ [0x5a]

/-- The bytes appended for the request with that id. -/
def writeDubboRequest (requestId : Int64) (context : DubboBridgeContext) (source : SrcsRequestContext)
    (getter : ArgumentGetter) : Except Bytes Bytes := do
  let body ← writeRequestBody encoder context source getter
  return [0xda, 0xbb, 0xc2, 0x00] ++ beBytes 8 requestId.toUInt64.toNat ++ beBytes 4 body.length ++ body

end Write

/-! ## An encoder for scalar arguments

The Hessian forms of strings and integers, and of the objects that are one of
these, a boolean or null. -/

/-- Up to 31 bytes, up to 1023, up to 65535, or a chunk with more to come. -/
def hessianString : Nat → Bytes → Bytes
  | 0, _ => [0]
  | fuel + 1, s =>
    if s.length < 32 then UInt8.ofNat s.length :: s
    else if s.length < 1024 then UInt8.ofNat (0x30 + s.length / 256) :: UInt8.ofNat (s.length % 256) :: s
    else if s.length < 65536 then 0x53 :: UInt8.ofNat (s.length / 256) :: UInt8.ofNat (s.length % 256) :: s
    else 0x52 :: 0xff :: 0xff :: s.take 65535 ++ hessianString fuel (s.drop 65535)

/-- One byte from -16 to 47, else four bytes behind `I`. -/
def hessianInt (i : Int32) : Bytes :=
  if -16 ≤ i.toInt ∧ i.toInt ≤ 47 then [UInt8.ofNat (0x90 + i.toInt).toNat]
  else 0x49 :: beBytes 4 i.toUInt32.toNat

def scalarEncoder : Encoder where
  encodeString s := hessianString (s.length + 1) s
  encodeInt := hessianInt
  encodeObject
    | .string s => hessianString (s.length + 1) s
    | .integer i => hessianInt i
    | .boolean b => if b then [0x54] else [0x46]
    | _ => [0x4e]

end EnvoyProxy.Dubbo
