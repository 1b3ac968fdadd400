import EnvoyProxy.Lib.JsonReader
import EnvoyProxy.Dubbo.Hessian
/-!
# From JSON to Hessian

`Utility::jsonValueToHessianValue` (utility.cc) with its table of converters
by parameter type. An untyped map is a hash map: in which order it will be
iterated is not known, so the order of each map is a parameter, asked with
the place of the map in the value.
-/

namespace EnvoyProxy.Dubbo
open Json

/-- The entries of the map at some place, in the order of iteration. The
place gives the position in every list and object on the way, innermost
first. -/
abbrev HashOrder := List Nat → List (HessianValue × HessianValue) → List (HessianValue × HessianValue)

/-- `dict_data->emplace(key, val)`: an entry that is there already stays. -/
def emplace (entries : List (HessianValue × HessianValue)) (pair : Bytes × HessianValue) :
    List (HessianValue × HessianValue) :=
  if entries.any fun e => e.1.node.toString = some pair.1 then entries
  else entries ++ [(.string pair.1, pair.2)]

def isNull : Value → Bool
  | .null => true
  | _ => false

/-- `IsInt`: an integer of 32 bits. -/
def isInt : Value → Bool
  | .int i => Int32.minValue.toInt ≤ i.toInt && i.toInt ≤ Int32.maxValue.toInt
  | _ => false

mutual
def jsonValueToHessianValueInternal (order : HashOrder) (ignoreNullMapPair : Bool) :
    Value → Nat → List Nat → HessianValue
  | value, depth, place =>
    if 50 ≤ depth then .null
    else
      match value with
      | .null => .null
      | .bool b => .boolean b
      | .int i => if isInt (.int i) then .integer i.toInt32 else .long i
      | .unsigned n large => .double (Double.ofUnsigned n large).bits
      | .double d => .double d.bits
      | .string s => .string s
      | .array values => .untypedList (listData order ignoreNullMapPair values (depth + 1) place 0)
      | .object members =>
        .untypedMap (order place ((dictData order ignoreNullMapPair members (depth + 1) place 0).foldl emplace []))
/-- The elements of a list, the first of them at position `i`. -/
def listData (order : HashOrder) (ignoreNullMapPair : Bool) : List Value → Nat → List Nat → Nat → List HessianValue
  | [], _, _, _ => []
  | item :: items, depth, place, i =>
    jsonValueToHessianValueInternal order ignoreNullMapPair item depth (i :: place) ::
      listData order ignoreNullMapPair items depth place (i + 1)
/-- The pairs of a map, as they are emplaced. -/
def dictData (order : HashOrder) (ignoreNullMapPair : Bool) :
    List (Bytes × Value) → Nat → List Nat → Nat → List (Bytes × HessianValue)
  | [], _, _, _ => []
  | (name, value) :: members, depth, place, i =>
    if ignoreNullMapPair && isNull value then dictData order ignoreNullMapPair members depth place (i + 1)
    else
      (name, jsonValueToHessianValueInternal order ignoreNullMapPair value depth (i :: place)) ::
        dictData order ignoreNullMapPair members depth place (i + 1)
end

/-! ## Converters by type -/

abbrev JsonTypeChecker := Value → Bool

section Checkers

def isBool : JsonTypeChecker
  | .bool _ => true
  | _ => false

def isNumber : JsonTypeChecker
  | .int _ | .unsigned .. | .double _ => true
  | _ => false

def isInt64 : JsonTypeChecker
  | .int _ => true
  | _ => false

def isArray : JsonTypeChecker
  | .array _ => true
  | _ => false

def isObject : JsonTypeChecker
  | .object _ => true
  | _ => false

/-- `NOT_EMPTY_STRING` -/
def notEmptyString : JsonTypeChecker
  | .string s => s ≠ []
  | _ => false

/-- `NULL_OR_CHECKER` -/
def nullOr (checker : JsonTypeChecker) : JsonTypeChecker := fun v => isNull v || checker v

/-- `NOT_EMPTY_STRING_OR_CHECKER` -/
def notEmptyStringOr (checker : JsonTypeChecker) : JsonTypeChecker := fun v => notEmptyString v || checker v

end Checkers

/-- A converter: the value, `ignore_null_map_pair`. It may throw. -/
abbrev JsonConverter := Value → Bool → Except Bytes HessianValue

section Converters
variable (json : Rapidjson) (order : HashOrder)

def debugStringOfJsonValue (value : Value) : Bytes := value.text json.dtoa

def invalidValue (value : Value) : Bytes :=
  ascii "Dubbo bridge: value '" ++ debugStringOfJsonValue json value ++ ascii "' is invalid for current type"

/-- A value of the type, or a string with the text of one. -/
def loadableJsonConverter (typeChecker : JsonTypeChecker) : JsonConverter := fun value ignoreNullMapPair =>
  if typeChecker value then .ok (jsonValueToHessianValueInternal order ignoreNullMapPair value 0 [])
  else
    match value with
    | .string s =>
      match json.parse s with
      | none => .error (invalidValue json value)
      | some innerValue =>
        if typeChecker innerValue then .ok (jsonValueToHessianValueInternal order ignoreNullMapPair innerValue 0 [])
        else .error (invalidValue json value)
    | _ => .error (invalidValue json value)

def strictJsonConverter (typeChecker : JsonTypeChecker) : JsonConverter := fun value ignoreNullMapPair =>
  if typeChecker value then .ok (jsonValueToHessianValueInternal order ignoreNullMapPair value 0 [])
  else .error (invalidValue json value)

def stringJsonConverter : JsonConverter := fun value ignoreNullMapPair =>
  match value with
  | .null | .string _ => .ok (jsonValueToHessianValueInternal order ignoreNullMapPair value 0 [])
  | _ => .ok (.string (debugStringOfJsonValue json value))

/-- `TypedJsonConverters` -/
def typedJsonConverters : List (Bytes × JsonConverter) :=
  [(ascii "java.lang.Boolean", loadableJsonConverter json order (nullOr isBool)),
   (ascii "boolean", loadableJsonConverter json order isBool),
   (ascii "java.lang.Float", loadableJsonConverter json order (nullOr isNumber)),
   (ascii "float", loadableJsonConverter json order isNumber),
   (ascii "java.lang.Double", loadableJsonConverter json order (nullOr isNumber)),
   (ascii "double", loadableJsonConverter json order isNumber),
   (ascii "java.lang.Byte", loadableJsonConverter json order (nullOr isInt)),
   (ascii "byte", loadableJsonConverter json order isInt),
   (ascii "java.lang.Short", loadableJsonConverter json order (nullOr isInt)),
   (ascii "short", loadableJsonConverter json order isInt),
   (ascii "java.lang.Integer", loadableJsonConverter json order (nullOr isInt64)),
   (ascii "int", loadableJsonConverter json order isInt64),
   (ascii "java.lang.Long", loadableJsonConverter json order (nullOr isInt64)),
   (ascii "long", loadableJsonConverter json order isInt64),
   (ascii "java.lang.String", stringJsonConverter json order),
   (ascii "java.lang.Character", strictJsonConverter json order (notEmptyStringOr isNull)),
   (ascii "char", strictJsonConverter json order notEmptyString),
   (ascii "java.lang.Enum", strictJsonConverter json order (notEmptyStringOr isNull)),
   (ascii "java.time.DayOfWeek", strictJsonConverter json order (notEmptyStringOr isNull)),
   (ascii "java.util.Date", strictJsonConverter json order (notEmptyStringOr (nullOr isNumber))),
   (ascii "java.math.BigDecimal", strictJsonConverter json order (notEmptyStringOr (nullOr isNumber))),
   (ascii "java.math.BigInteger", strictJsonConverter json order (notEmptyStringOr (nullOr isNumber))),
   (ascii "java.lang.Void", strictJsonConverter json order isNull),
   (ascii "java.util.List", loadableJsonConverter json order (nullOr isArray)),
   (ascii "java.util.ArrayList", loadableJsonConverter json order (nullOr isArray)),
   (ascii "java.util.LinkedList", loadableJsonConverter json order (nullOr isArray)),
   (ascii "com.alibaba.fastjson.JSONArray", loadableJsonConverter json order (nullOr isArray)),
   (ascii "java.util.Set", loadableJsonConverter json order (nullOr isArray)),
   (ascii "java.util.HashSet", loadableJsonConverter json order (nullOr isArray)),
   (ascii "java.util.TreeSet", loadableJsonConverter json order (nullOr isArray)),
   (ascii "java.util.LinkedHashSet", loadableJsonConverter json order (nullOr isArray)),
   (ascii "java.util.Map", loadableJsonConverter json order (nullOr isObject)),
   (ascii "java.util.HashMap", loadableJsonConverter json order (nullOr isObject)),
   (ascii "java.util.TreeMap", loadableJsonConverter json order (nullOr isObject)),
   (ascii "java.util.LinkedHashMap", loadableJsonConverter json order (nullOr isObject))]

def jsonValueToHessianValue (value : Value) (type : Bytes) (ignoreNullMapPair : Bool) : Except Bytes HessianValue :=
  match (typedJsonConverters json order).lookup type with
  | some converter => converter value ignoreNullMapPair
  | none => .ok (jsonValueToHessianValueInternal order ignoreNullMapPair value 0 [])

end Converters

end EnvoyProxy.Dubbo
