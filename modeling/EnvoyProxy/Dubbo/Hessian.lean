import EnvoyProxy.Lib.JsonWriter
/-!
# Hessian objects

`Hessian2::Object` over pointers of type `P`. A heap gives the object behind
each pointer: lists, maps and class instances own the objects they hold, and
a `Ref` points at an object owned elsewhere. The owned slots are never null
in what the decoder builds, so a slot is a `P`; only the entry point of the
renderer takes a pointer that may be null. Pointers compare by identity.

`HessianValue` is the same data as a tree, with no pointers and no `Ref`.
-/

namespace EnvoyProxy.Dubbo

/-- `Object::RawDefinition` -/
structure RawDefinition where
  type : Bytes
  fieldNames : List Bytes
  deriving DecidableEq, Repr

/-- `Object::ClassInstance` -/
structure ClassInstance (P : Type) where
  def_ : Option RawDefinition
  data : List P
  deriving DecidableEq, Repr

/-- `Hessian2::Object`. A double is given by its bits. -/
inductive Node (P : Type)
  | null
  | boolean (value : Bool)
  | integer (value : Int32)
  | long (value : Int64)
  | double (value : UInt64)
  | date (value : Int64)
  | string (value : Bytes)
  | binary (value : Bytes)
  | typedList (type : Bytes) (values : List P)
  | untypedList (values : List P)
  | typedMap (type : Bytes) (entries : List (P × P))
  | untypedMap (entries : List (P × P))
  | classInstance (value : ClassInstance P)
  | ref (dest : P)
  deriving DecidableEq

abbrev Heap (P : Type) := P → Node P

namespace Node
variable {P : Type}

def toInteger : Node P → Option Int32
  | .integer i => some i
  | _ => none

def toLong : Node P → Option Int64
  | .long i => some i
  | _ => none

def toDouble : Node P → Option UInt64
  | .double d => some d
  | _ => none

def toDate : Node P → Option Int64
  | .date i => some i
  | _ => none

def toString : Node P → Option Bytes
  | .string s => some s
  | _ => none

/-- The `values_` of a typed list. -/
def toTypedList : Node P → Option (List P)
  | .typedList _ vs => some vs
  | _ => none

def isString (n : Node P) : Bool := n.toString.isSome

/-- The objects a node owns: elements, keys, values and fields. -/
def owned : Node P → List P
  | .typedList _ vs | .untypedList vs => vs
  | .typedMap _ es | .untypedMap es => es.flatMap fun e => [e.1, e.2]
  | .classInstance c => c.data
  | _ => []

/-- The objects a node holds: the ones it owns, or the one it refers to. -/
def holds : Node P → List P
  | .ref d => [d]
  | n => n.owned

def isContainer : Node P → Bool
  | .typedList _ _ | .untypedList _ | .typedMap _ _ | .untypedMap _ | .classInstance _ => true
  | _ => false

end Node

/-- What the decoder builds: every object has at most one owner, no object
owns itself through others, and a `Ref` points at a list, map or class. -/
structure Decoded {P : Type} (heap : Heap P) : Prop where
  owner_unique : ∀ p p' q, q ∈ (heap p).owned → q ∈ (heap p').owned → p = p'
  owned_once : ∀ p, (heap p).owned.Nodup
  grounded : WellFounded fun q p => q ∈ (heap p).owned
  ref_container : ∀ p d, heap p = .ref d → (heap d).isContainer

/-- A heap numbered in the order of decoding, owners first, has no ownership
cycle. -/
theorem grounded_of_lt {n : Nat} {heap : Heap (Fin n)} (h : ∀ p, ∀ q ∈ (heap p).owned, p < q) :
    WellFounded fun q p => q ∈ (heap p).owned :=
  Subrelation.wf (r := fun q p : Fin n => p < q) (fun {q p} hq => h p q hq) (wellFounded_gt (α := Fin n))

/-- An object graph without pointers. -/
inductive HessianValue
  | null
  | boolean (value : Bool)
  | integer (value : Int32)
  | long (value : Int64)
  | double (value : UInt64)
  | date (value : Int64)
  | string (value : Bytes)
  | binary (value : Bytes)
  | typedList (type : Bytes) (values : List HessianValue)
  | untypedList (values : List HessianValue)
  | typedMap (type : Bytes) (entries : List (HessianValue × HessianValue))
  | untypedMap (entries : List (HessianValue × HessianValue))
  | classInstance (def_ : Option RawDefinition) (data : List HessianValue)

/-- A tree as a heap in which every object is its own pointer. -/
def HessianValue.node : Heap HessianValue
  | .null => .null
  | .boolean b => .boolean b
  | .integer i => .integer i
  | .long i => .long i
  | .double d => .double d
  | .date i => .date i
  | .string s => .string s
  | .binary s => .binary s
  | .typedList t vs => .typedList t vs
  | .untypedList vs => .untypedList vs
  | .typedMap t es => .typedMap t es
  | .untypedMap es => .untypedMap es
  | .classInstance d data => .classInstance ⟨d, data⟩

end EnvoyProxy.Dubbo
