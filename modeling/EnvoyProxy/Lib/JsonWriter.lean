import EnvoyProxy.Lib.Json
/-!
# A streaming JSON writer

rapidjson's `Writer<StringBuffer>`: each call appends one token, and a stack
of levels (array or object, with the number of values written) decides
whether a comma, a colon or nothing goes before it. The number format of
`Double` (`dtoa`) is a parameter. `emit_array` and `emit_object` say that the
calls between a start and its end write one value: the compact text of the
container.
-/

namespace EnvoyProxy.Json

structure Level where
  inArray : Bool
  valueCount : Nat
  deriving DecidableEq, Repr

structure Writer where
  out : Bytes
  levels : List Level
  deriving DecidableEq, Repr

/-- What `Prefix` writes before the next value of a level. -/
def Level.separator (l : Level) : Bytes :=
  if l.valueCount = 0 then []
  else if l.inArray then [44]
  else if l.valueCount % 2 = 0 then [44] else [58]

/-- An IEEE double given by its bits is neither a NaN nor infinite. -/
def isFinite (d : UInt64) : Bool := (d >>> 52) &&& 0x7ff != 0x7ff

namespace Writer

def new : Writer := ⟨[], []⟩

/-- `Prefix`, then the text of a token or of a whole value. -/
def emit (w : Writer) (t : Bytes) : Writer :=
  match w.levels with
  | [] => ⟨w.out ++ t, []⟩
  | l :: ls => ⟨w.out ++ l.separator ++ t, ⟨l.inArray, l.valueCount + 1⟩ :: ls⟩

def null (w : Writer) : Writer := w.emit (ascii "null")

def bool (w : Writer) (b : Bool) : Writer := w.emit (if b then ascii "true" else ascii "false")

/-- `Int` and `Int64`. -/
def int (w : Writer) (i : Int) : Writer := w.emit (intText i)

/-- `Double`: nothing but the separator is written for a NaN or an infinity. -/
def double (dtoa : UInt64 → Bytes) (w : Writer) (d : UInt64) : Writer :=
  w.emit (if isFinite d then dtoa d else [])

/-- `String`, as a value and as a key. -/
def string (w : Writer) (s : Bytes) : Writer := w.emit (quote s)

/-- `RawValue`: the text as it is. -/
def rawValue (w : Writer) (t : Bytes) : Writer := w.emit t

def startArray (w : Writer) : Writer :=
  ⟨(w.emit [91]).out, ⟨true, 0⟩ :: (w.emit [91]).levels⟩

def endArray (w : Writer) : Writer := ⟨w.out ++ [93], w.levels.tail⟩

def startObject (w : Writer) : Writer :=
  ⟨(w.emit [123]).out, ⟨false, 0⟩ :: (w.emit [123]).levels⟩

def endObject (w : Writer) : Writer := ⟨w.out ++ [125], w.levels.tail⟩

/-- A key and the text of its value. -/
def member (w : Writer) (m : Bytes × Bytes) : Writer := (w.string m.1).emit m.2

/-! ## A container is one value -/

theorem new_emit (t : Bytes) : new.emit t = ⟨t, []⟩ := rfl

theorem fold_emit (ts : List Bytes) (out : Bytes) (n : Nat) (ls : List Level) :
    ts.foldl emit ⟨out, ⟨true, n⟩ :: ls⟩ =
      ⟨out ++ (if n = 0 ∨ ts = [] then [] else [44]) ++ commaSep ts, ⟨true, n + ts.length⟩ :: ls⟩ := by
  induction ts generalizing out n with
  | nil => simp [commaSep]
  | cons t ts ih =>
    simp only [List.foldl_cons, emit, Level.separator]
    rw [ih]
    rcases ts with _ | ⟨u, ts⟩ <;> by_cases hn : n = 0 <;> simp [commaSep, hn] <;> omega

theorem fold_member (ms : List (Bytes × Bytes)) (out : Bytes) (n : Nat) (ls : List Level) :
    ms.foldl member ⟨out, ⟨false, 2 * n⟩ :: ls⟩ =
      ⟨out ++ (if n = 0 ∨ ms = [] then [] else [44]) ++ commaSep (ms.map memberText),
        ⟨false, 2 * (n + ms.length)⟩ :: ls⟩ := by
  induction ms generalizing out n with
  | nil => simp [commaSep]
  | cons m ms ih =>
    have hodd : (2 * n + 1) % 2 = 1 := by omega
    simp only [List.foldl_cons, member, string, emit, Level.separator]
    rw [show 2 * n + 1 + 1 = 2 * (n + 1) by ring, ih]
    rcases ms with _ | ⟨u, ms⟩ <;> by_cases hn : n = 0 <;>
      simp [commaSep, memberText, hn, hodd] <;> omega

theorem emit_array (w : Writer) (ts : List Bytes) :
    (ts.foldl emit w.startArray).endArray = w.emit (arrayText ts) := by
  rw [startArray, fold_emit]
  rcases w with ⟨out, _ | ⟨l, ls⟩⟩ <;> simp [endArray, emit, arrayText]

theorem emit_object (w : Writer) (ms : List (Bytes × Bytes)) :
    (ms.foldl member w.startObject).endObject = w.emit (objectText ms) := by
  have h := fold_member ms (w.emit [123]).out 0 (w.emit [123]).levels
  rw [startObject]
  simp only [Nat.mul_zero] at h
  rw [h]
  rcases w with ⟨out, _ | ⟨l, ls⟩⟩ <;> simp [endObject, emit, objectText]

end Writer

end EnvoyProxy.Json
