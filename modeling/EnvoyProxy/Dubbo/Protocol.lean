import EnvoyProxy.Lib.Json
/-!
# The Dubbo wire format

What the upstream code uses of Envoy's Dubbo protocol and of the Hessian2
decoder, neither of which is part of the repository: a header decoder that
looks at the first 16 bytes, and decoders that are functions of the bytes
they can see. `Codec` carries them as data with the laws the code relies on.
-/

namespace EnvoyProxy.Dubbo
open Json

/-- `DubboProxy::MessageType`, in the order of the enumeration. -/
inductive MessageType
  | response
  | request
  | oneway
  | exception
  | heartbeatRequest
  | heartbeatResponse
  deriving DecidableEq, Repr

/-- `size_t(message_type)` -/
def MessageType.toNat : MessageType → Nat
  | .response => 0
  | .request => 1
  | .oneway => 2
  | .exception => 3
  | .heartbeatRequest => 4
  | .heartbeatResponse => 5

def MessageType.isHeartbeat (t : MessageType) : Bool := t = .heartbeatRequest || t = .heartbeatResponse

/-- The `Context` and the `MessageMetadata` that `decodeHeader` fills in. -/
structure Header where
  messageType : MessageType
  responseStatus : UInt8
  requestId : UInt64
  bodySize : Nat
  deriving DecidableEq, Repr

/-- `DubboProxy::ResponseStatus::Ok` -/
def statusOk : UInt8 := 20

/-- What a value of `RpcResponseType` announces. -/
inductive RpcResponseKind
  | withException
  | withValue
  | nullValue
  deriving DecidableEq, Repr

/-- `static_cast<RpcResponseType>` to the `uint8_t` behind the enumeration. -/
def rpcResponseType (typeData : Int32) : UInt8 := typeData.toUInt32.toUInt8

/-- The switch on the response type: plain, and with attachments. -/
def rpcResponseKind (type : UInt8) : Option RpcResponseKind :=
  if type = 0 ∨ type = 3 then some .withException
  else if type = 1 ∨ type = 4 then some .withValue
  else if type = 2 ∨ type = 5 then some .nullValue
  else none

/-- What is taken from outside. A Hessian decoder is given the bytes visible
through its `BufferReader` and its offset, and returns the value it read, if
any, with the offset it stopped at. -/
structure Codec (V : Type) where
  decodeHeader : Bytes → Except Bytes (Option Header)
  /-- Less than a header: no context yet. -/
  header_short : ∀ b : Bytes, b.length < 16 → decodeHeader b = .ok none
  /-- A whole header is accepted or refused. -/
  header_long : ∀ b : Bytes, 16 ≤ b.length → decodeHeader b ≠ .ok none
  /-- Nothing behind the header is looked at. -/
  header_local : ∀ b c : Bytes, 16 ≤ b.length → decodeHeader (b ++ c) = decodeHeader b
  decodeInt : Bytes → Nat → Option Int32 × Nat
  decodeObject : Bytes → Nat → Option V × Nat
  /-- `Hessian2::StringObject` -/
  stringObject : Bytes → V
  /-- `Utility::hessianValueToJsonString`: the text, or the exception. -/
  hessianValueToJsonString : Option V → Except Bytes Bytes

/-- `ResponseGetter::Type` -/
inductive ResponseType
  | value
  | exception
  | local
  deriving DecidableEq, Repr

/-- `ResponseGetter::getStringFromResponse`: the body and a status that
overrides the configured one. -/
abbrev ResponseGetter (V : Type) := Option V → ResponseType → Except Bytes (Bytes × Option Nat)

/-- `SimpleResponseGetter` -/
def simpleResponseGetter {V : Type} (codec : Codec V) : ResponseGetter V := fun response _ => do
  return (← codec.hessianValueToJsonString response, none)

/-! ## A codec for scalar values

The header of the protocol and some forms of Hessian: null, booleans,
integers, small longs and short strings. Enough of the real codecs to give frames
their meaning on concrete bytes. -/

def maxBodySize : Nat := 16 * 1024 * 1024

/-- The 16 bytes of a header: magic number, flag, status, id, body size. -/
def parseHeader (b : Bytes) : Except Bytes Header :=
  let magic := beNat (b.take 2)
  let flag := b.getD 2 0
  let bodySize := beNat ((b.drop 12).take 4)
  if magic ≠ 0xdabb then .error (ascii "invalid dubbo message magic number " ++ natText magic)
  else if maxBodySize < bodySize then .error (ascii "invalid dubbo message size " ++ natText bodySize)
  else
    let isEvent := flag &&& 0x20 ≠ 0
    let messageType : MessageType :=
      if flag &&& 0x80 ≠ 0 then
        if isEvent then .heartbeatRequest else if flag &&& 0x40 ≠ 0 then .request else .oneway
      else if isEvent then .heartbeatResponse else .response
    .ok ⟨messageType, b.getD 3 0, UInt64.ofNat (beNat ((b.drop 4).take 8)), bodySize⟩

inductive Scalar
  | null
  | boolean (value : Bool)
  | integer (value : Int32)
  | long (value : Int64)
  | string (value : Bytes)
  deriving DecidableEq, Repr

def Scalar.json : Scalar → Bytes
  | .null => ascii "null"
  | .boolean b => if b then ascii "true" else ascii "false"
  | .integer i => intText i.toInt
  | .long i => intText i.toInt
  | .string s => quote s

/-- One byte for the integers from -16 to 47, or four bytes behind `I`. -/
def decodeScalarInt (visible : Bytes) (offset : Nat) : Option Int32 × Nat :=
  match visible[offset]? with
  | none => (none, offset)
  | some b =>
    if 0x80 ≤ b ∧ b ≤ 0xbf then (some (Int32.ofInt (b.toNat - 0x90)), offset + 1)
    else if b = 0x49 ∧ offset + 5 ≤ visible.length then
      (some (Int32.ofNat (beNat ((visible.drop (offset + 1)).take 4))), offset + 5)
    else (none, offset)

def decodeScalar (visible : Bytes) (offset : Nat) : Option Scalar × Nat :=
  match visible[offset]? with
  | none => (none, offset)
  | some b =>
    if b = 0x4e then (some .null, offset + 1)
    else if b = 0x54 then (some (.boolean true), offset + 1)
    else if b = 0x46 then (some (.boolean false), offset + 1)
    else if 0xd8 ≤ b ∧ b ≤ 0xef then (some (.long (Int64.ofInt (b.toNat - 0xe0))), offset + 1)
    else if b < 0x20 ∧ offset + 1 + b.toNat ≤ visible.length then
      (some (.string ((visible.drop (offset + 1)).take b.toNat)), offset + 1 + b.toNat)
    else
      match decodeScalarInt visible offset with
      | (some i, offset) => (some (.integer i), offset)
      | (none, offset) => (none, offset)

def scalarCodec : Codec Scalar where
  decodeHeader b := if b.length < 16 then .ok none else (parseHeader (b.take 16)).map some
  header_short b hb := by simp [hb]
  header_long b hb := by
    rw [if_neg (not_lt.2 hb)]
    cases parseHeader (b.take 16) <;> simp [Except.map]
  header_local b c hb := by
    have hbc : ¬ (b ++ c).length < 16 := by simp only [List.length_append]; omega
    rw [if_neg (not_lt.2 hb), if_neg hbc, List.take_append_of_le_length hb]
  decodeInt := decodeScalarInt
  decodeObject := decodeScalar
  stringObject := .string
  hessianValueToJsonString v := .ok (v.elim (ascii "null") Scalar.json)

end EnvoyProxy.Dubbo
