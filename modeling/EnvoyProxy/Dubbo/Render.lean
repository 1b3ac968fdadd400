import EnvoyProxy.Lib.Fuel
import EnvoyProxy.Dubbo.Hessian
/-!
# Rendering a Hessian object as JSON

`Utility::hessianValueToJsonString` (utility.cc), statement by statement. The
recursion of the source may not return, so the model takes the depth of calls
it may use as `fuel`; running out of it is its own way to stop, apart from an
exception. Iteration order of a map is the order of its entries.
-/

namespace EnvoyProxy.Dubbo
open Json

/-- A rendering that did not return: an `EnvoyException` with its message, or
calls deeper than the fuel. -/
abbrev RenderStop := Stop Bytes

abbrev HessianHistory (P : Type) := Finset P

/-! ## Registered class converters -/

/-- A converter: the class definition, the fields, the writer. -/
abbrev ClassConverter (P : Type) := RawDefinition → List P → Writer → Except RenderStop Writer

section Converters
variable {P : Type} (heap : Heap P)

/-- Returns `data_[0]`, which every caller reads next. -/
def checkClassOnlyHasOneValue (d : RawDefinition) (data : List P) : Except RenderStop P :=
  if d.fieldNames ≠ [ascii "value"] then
    .error (.thrown (ascii "Unknown type definition for: " ++ d.type))
  else
    match data with
    | [value] => .ok value
    | _ => .error (.thrown (ascii "Expected fields size: 1 but actual fields size: " ++
        natText data.length ++ ascii " for " ++ d.type))

/-- The template argument of `handleValueNumber`. -/
inductive NumberKind | integer | long | double | date
  deriving DecidableEq, Repr

def handleValueNumber (dtoa : UInt64 → Bytes) (kind : NumberKind) : ClassConverter P := fun d data writer => do
  let value ← checkClassOnlyHasOneValue d data
  match kind with
  | .integer => return ((heap value).toInteger.map fun i => writer.int i.toInt).getD writer.null
  | .long => return ((heap value).toLong.map fun i => writer.int i.toInt).getD writer.null
  | .double => return ((heap value).toDouble.map fun x => writer.double dtoa x).getD writer.null
  | .date => return ((heap value).toDate.map fun i => writer.int i.toInt).getD writer.null

/-- The text of the field goes out unchecked. -/
def bigDecimalConverter : ClassConverter P := fun d data writer => do
  let value ← checkClassOnlyHasOneValue d data
  match (heap value).toString with
  | some s => return writer.rawValue s
  | none => return writer.null

/-- The state of the loop of `divideByWord`. -/
structure Division where
  values : List Nat
  start : Nat
  previousNonZero : Bool
  remainder : Nat
  deriving DecidableEq, Repr

def divisor : Nat := 1000000000

def divideStep (s : Division) (i : Nat) : Division :=
  let dividend := (s.remainder <<< 32) ||| s.values.getD i 0
  let result := dividend / divisor
  { values := s.values.set i result
    start := if result = 0 ∧ s.previousNonZero = false then i + 1 else s.start
    previousNonZero := s.previousNonZero || result != 0
    remainder := dividend - result * divisor }

/-- Divides the words from index `start` on, most significant first. The
`remainder` of the result is the value returned by the source, `values` and
`start` are its reference parameters. -/
def divideByWord (values : List Nat) (start : Nat) : Division :=
  (List.range' start (values.length - start)).foldl divideStep ⟨values, start, false, 0⟩

/-- `while (from < values.size())`: the groups of nine digits, least
significant first. Each round divides by more than 2^29. -/
def decimalGroups : Nat → List Nat → Nat → List Nat
  | 0, _, _ => []
  | fuel + 1, values, start =>
    if start < values.length then
      let s := divideByWord values start
      s.remainder :: decimalGroups fuel s.values s.start
    else []

/-- `{:0>9}` -/
def padGroup (t : Bytes) : Bytes := List.replicate (9 - t.length) 48 ++ t

/-- The groups from the most significant on, all but the first padded. -/
def groupsText (groups : List Nat) : Bytes :=
  match groups.reverse with
  | [] => []
  | g :: gs => natText g ++ gs.flatMap fun x => padGroup (natText x)

/-- The value of a string of decimal digits. -/
def digitsValue (t : Bytes) : Option Nat :=
  if t ≠ [] ∧ t.all (fun b => 48 ≤ b && b ≤ 57) then
    some (t.foldl (fun n b => 10 * n + (b.toNat - 48)) 0)
  else none

/-- `absl::SimpleAtoi` into an `int64_t`, for a text without spaces. -/
def simpleAtoi (t : Bytes) : Option Int := do
  let i ← match t with
    | 45 :: u => (digitsValue u).map fun n => -(n : Int)
    | _ => (digitsValue t).map fun n => (n : Int)
  if -2 ^ 63 ≤ i ∧ i < 2 ^ 63 then some i else none

/-- The index of the last field of that name. -/
def fieldIndex (names : List Bytes) (name : Bytes) : Option Nat :=
  names.zipIdx.foldl (fun found p => if p.1 = name then some p.2 else found) none

/-- The words of `mag`, when all of them are integers. -/
def magWords (values : List P) : Option (List Nat) :=
  values.mapM fun v => (heap v).toInteger.map fun i => i.toUInt32.toNat

def bigIntegerText (signum : Int32) (words : List Nat) : Bytes :=
  (if signum < 0 then [45] else []) ++ groupsText (decimalGroups (2 * words.length + 1) words 0)

/-- The value a `BigInteger` instance is rendered from: its `signum` and, when
that is not zero, the words of `mag`. -/
def bigIntegerFields (d : RawDefinition) (data : List P) : Option (Int32 × Option (List Nat)) := do
  let mag ← fieldIndex d.fieldNames (ascii "mag")
  let sig ← fieldIndex d.fieldNames (ascii "signum")
  let magObject ← data[mag]?
  let sigObject ← data[sig]?
  let signum ← (heap sigObject).toInteger
  if signum = 0 then some (0, none)
  else do
    let values ← (heap magObject).toTypedList
    let words ← magWords heap values
    some (signum, some words)

def bigIntegerConverter : ClassConverter P := fun d data writer =>
  match bigIntegerFields heap d data with
  | none => .ok writer.null
  | some (_, none) => .ok (writer.int 0)
  | some (signum, some words) =>
    let text := bigIntegerText signum words
    match simpleAtoi text with
    | some i => .ok (writer.int i)
    | none => .ok (writer.string text)

/-- The kinds of registered converters. -/
inductive Registered
  | bigDecimal
  | bigInteger
  | valueNumber (kind : NumberKind)
  deriving DecidableEq, Repr

/-- The names in `TypedClassConverters`. -/
def registeredAs (type : Bytes) : Option Registered :=
  if type = ascii "java.math.BigDecimal" then some .bigDecimal
  else if type = ascii "java.math.BigInteger" then some .bigInteger
  else if type = ascii "java.sql.Date" then some (.valueNumber .date)
  else if type = ascii "java.sql.Time" then some (.valueNumber .date)
  else if type = ascii "java.sql.Timestamp" then some (.valueNumber .date)
  else if type = ascii "java.util.concurrent.atomic.AtomicInteger" then some (.valueNumber .integer)
  else if type = ascii "java.util.concurrent.atomic.AtomicLong" then some (.valueNumber .long)
  else none

def Registered.converter (dtoa : UInt64 → Bytes) : Registered → ClassConverter P
  | .bigDecimal => bigDecimalConverter heap
  | .bigInteger => bigIntegerConverter heap
  | .valueNumber kind => handleValueNumber heap dtoa kind

end Converters

/-! ## The recursion -/

section Recursion
variable {P : Type} [DecidableEq P] (dtoa : UInt64 → Bytes) (heap : Heap P)

/-- The writer and the history, as the calls pass them on. -/
abbrev RenderState (P : Type) := Writer × HessianHistory P

/-- A call of `hessianValueToJsonStringInternal`. -/
abbrev RenderCall (P : Type) := Option P → RenderState P → Except RenderStop (RenderState P)

def defaultClassConverter (call : RenderCall P) (d : RawDefinition) (data : List P)
    (s : RenderState P) : Except RenderStop (RenderState P) := do
  let (writer, history) ← (d.fieldNames.zip data).foldlM
    (fun s field => call (some field.2) (s.1.string field.1, s.2)) (s.1.startObject, s.2)
  return (writer.endObject, history)

def covertClassToJsonString (call : RenderCall P) (c : ClassInstance P) (s : RenderState P) :
    Except RenderStop (RenderState P) :=
  match c.def_ with
  | none => .ok (s.1.null, s.2)
  | some d =>
    match registeredAs d.type with
    | none => defaultClassConverter call d c.data s
    | some r => do return (← r.converter heap dtoa d c.data s.1, s.2)

/-- The text of a map key. A key that is not a string is rendered by itself:
a fresh writer and an empty history. -/
def keyText (call : RenderCall P) (key : P) : Except RenderStop Bytes :=
  match (heap key).toString with
  | some s => .ok s
  | none => do return (← call (some key) (Writer.new, ∅)).1.out

def convertUntypedMapToJsonString (call : RenderCall P) (entries : List (P × P)) (s : RenderState P) :
    Except RenderStop (RenderState P) := do
  let (writer, history) ← entries.foldlM
    (fun s entry => do call (some entry.2) (s.1.string (← keyText heap call entry.1), s.2))
    (s.1.startObject, s.2)
  return (writer.endObject, history)

/-- The array branch, for typed and untyped lists. -/
def convertListToJsonString (call : RenderCall P) (values : List P) (s : RenderState P) :
    Except RenderStop (RenderState P) := do
  let (writer, history) ← values.foldlM (fun s v => call (some v) s) (s.1.startArray, s.2)
  return (writer.endArray, history)

/-- `history.insert(object)`, the body, `history.erase(object)`. -/
def withHistory (object : P) (body : RenderState P → Except RenderStop (RenderState P)) (s : RenderState P) :
    Except RenderStop (RenderState P) := do
  let (writer, history) ← body (s.1, insert object s.2)
  return (writer, history.erase object)

/-- The switch on the type of an object. -/
def renderObject (call : RenderCall P) (object : P) (s : RenderState P) : Except RenderStop (RenderState P) :=
  match heap object with
  | .string v => .ok (s.1.string v, s.2)
  | .long v => .ok (s.1.int v.toInt, s.2)
  | .integer v => .ok (s.1.int v.toInt, s.2)
  | .boolean v => .ok (s.1.bool v, s.2)
  | .double v => .ok (s.1.double dtoa v, s.2)
  | .date v => .ok (s.1.int v.toInt, s.2)
  | .binary v => .ok (s.1.string v, s.2)
  | .null => .ok (s.1.null, s.2)
  | .typedList _ values | .untypedList values =>
    withHistory object (convertListToJsonString call values) s
  | .typedMap _ entries | .untypedMap entries =>
    withHistory object (convertUntypedMapToJsonString heap call entries) s
  | .classInstance c => withHistory object (covertClassToJsonString dtoa heap call c) s
  | .ref dest =>
    if dest ∈ s.2 then .ok (s.1.null, s.2)
    else withHistory object (call (some dest)) s

def hessianValueToJsonStringInternal : Nat → RenderCall P
  | 0, _, _ => .error .outOfFuel
  | _ + 1, none, s => .ok (s.1.null, s.2)
  | fuel + 1, some object, s => renderObject dtoa heap (hessianValueToJsonStringInternal fuel) object s

/-- `Utility::hessianValueToJsonString` with `fuel` calls to go down. -/
def hessianValueToJsonString (fuel : Nat) (value : Option P) : Except RenderStop Bytes := do
  return (← hessianValueToJsonStringInternal dtoa heap fuel value (Writer.new, ∅)).1.out

end Recursion

end EnvoyProxy.Dubbo
