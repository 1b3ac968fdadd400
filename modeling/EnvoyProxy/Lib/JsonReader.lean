import EnvoyProxy.Lib.JsonWriter
/-!
# Reading JSON text

Values, their compact text, and a reader for the grammar of `Json`. An
integer that fits in 64 bits, with a sign or without one, is read as such, any
other number as a double. How doubles are printed (`dtoa`) and read (`strtod`)
are parameters; `Printable` is what a pair of them has to satisfy, and a
`NumberText` is such a pair. `read_text`: what is written compactly is read
back. The reader says what a text means; a program reads with a parser of its
own (`Rapidjson`), of which `ofText` is one.
-/

namespace EnvoyProxy.Json

/-- A double that JSON has a text for. -/
structure Double where
  bits : UInt64
  finite : isFinite bits = true
  deriving DecidableEq

theorem isFinite_ofNat {bits : Nat} (h : 1086 * 2 ^ 52 ≤ bits) (h' : bits ≤ 1087 * 2 ^ 52) :
    isFinite (UInt64.ofNat bits) = true := by
  have hshift : (UInt64.ofNat bits >>> 52).toNat = bits / 2 ^ 52 := by
    rw [UInt64.toNat_shiftRight, UInt64.toNat_ofNat', Nat.mod_eq_of_lt (by omega)]
    exact Nat.shiftRight_eq_div_pow _ _
  have hcases : bits / 2 ^ 52 = 1086 ∨ bits / 2 ^ 52 = 1087 := by omega
  have hexponent : UInt64.ofNat bits >>> 52 = 1086 ∨ UInt64.ofNat bits >>> 52 = 1087 :=
    hcases.imp (fun h => UInt64.toNat_inj.1 (hshift.trans h)) fun h => UInt64.toNat_inj.1 (hshift.trans h)
  unfold isFinite
  rcases hexponent with h | h <;> rw [h] <;> decide

/-- The double nearest to an integer from 2^63 on; of two, the one whose last
bit is zero. -/
def Double.ofUnsigned (n : UInt64) (large : 2 ^ 63 ≤ n.toNat) : Double :=
  let rest := n.toNat % 2 ^ 11
  let up := if 2 ^ 10 < rest ∨ rest = 2 ^ 10 ∧ n.toNat / 2 ^ 11 % 2 = 1 then 1 else 0
  { bits := UInt64.ofNat (1085 * 2 ^ 52 + (n.toNat / 2 ^ 11 + up))
    finite := by
      have hn := n.toNat_lt
      have hup : up ≤ 1 := by
        unfold up
        split_ifs <;> omega
      apply isFinite_ofNat <;> omega }

inductive Value
  | null
  | bool (b : Bool)
  | int (i : Int64)
  /-- An integer that needs all 64 bits. -/
  | unsigned (n : UInt64) (large : 2 ^ 63 ≤ n.toNat)
  | double (d : Double)
  | string (s : Bytes)
  | array (values : List Value)
  | object (members : List (Bytes × Value))

namespace Value

mutual
/-- The compact text. -/
def text (dtoa : UInt64 → Bytes) : Value → Bytes
  | .null => ascii "null"
  | .bool b => if b then ascii "true" else ascii "false"
  | .int i => intText i.toInt
  | .unsigned n _ => intText n.toNat
  | .double d => dtoa d.bits
  | .string s => quote s
  | .array vs => arrayText (texts dtoa vs)
  | .object ms => objectText (memberTexts dtoa ms)
def texts (dtoa : UInt64 → Bytes) : List Value → List Bytes
  | [] => []
  | v :: vs => text dtoa v :: texts dtoa vs
def memberTexts (dtoa : UInt64 → Bytes) : List (Bytes × Value) → List (Bytes × Bytes)
  | [] => []
  | (k, v) :: ms => (k, text dtoa v) :: memberTexts dtoa ms
end

end Value

/-! ## The reader -/

def isWsByte (b : UInt8) : Bool := b = 0x20 || b = 0x09 || b = 0x0a || b = 0x0d

def skipWs (t : Bytes) : Bytes := t.dropWhile isWsByte

def hexValue (b : UInt8) : Option Nat :=
  if 48 ≤ b && b ≤ 57 then some (b.toNat - 48)
  else if 65 ≤ b && b ≤ 70 then some (b.toNat - 55)
  else if 97 ≤ b && b ≤ 102 then some (b.toNat - 87)
  else none

/-- Four hexadecimal digits. -/
def hex4 (a b c d : UInt8) : Option Nat := do
  return (((← hexValue a) * 16 + (← hexValue b)) * 16 + (← hexValue c)) * 16 + (← hexValue d)

/-- The byte behind a backslash, `u` apart. -/
def unescape (c : UInt8) : Option UInt8 :=
  if c = 34 || c = 92 || c = 47 then some c
  else if c = 98 then some 8
  else if c = 102 then some 12
  else if c = 110 then some 10
  else if c = 114 then some 13
  else if c = 116 then some 9
  else none

/-- The bytes of a string, from behind the opening quote to the closing one. -/
def readChars : Bytes → Option (Bytes × Bytes)
  | [] => none
  | b :: rest =>
    if b = 34 then some ([], rest)
    else if b = 92 then
      match rest with
      | [] => none
      | c :: rest =>
        if c = 117 then
          match rest with
          | x :: y :: z :: w :: rest => do
            let n ← hex4 x y z w
            if 0xd800 ≤ n ∧ n < 0xdc00 then
              -- a surrogate pair
              match rest with
              | b' :: c' :: x' :: y' :: z' :: w' :: rest => do
                let m ← hex4 x' y' z' w'
                if b' = 92 ∧ c' = 117 ∧ 0xdc00 ≤ m ∧ m < 0xe000 then do
                  let (s, r) ← readChars rest
                  some (String.utf8EncodeChar (Char.ofNat (0x10000 + (n - 0xd800) * 0x400 + (m - 0xdc00))) ++ s, r)
                else none
              | _ => none
            else if 0xdc00 ≤ n ∧ n < 0xe000 then none
            else do
              let (s, r) ← readChars rest
              some (String.utf8EncodeChar (Char.ofNat n) ++ s, r)
          | _ => none
        else do
          let e ← unescape c
          let (s, r) ← readChars rest
          some (e :: s, r)
    else if b < 0x20 then none
    else do
      let (s, r) ← readChars rest
      some (b :: s, r)

def isDigitByte (b : UInt8) : Bool := 48 ≤ b && b ≤ 57

def natOf (t : Bytes) : Nat := t.foldl (fun n b => 10 * n + (b.toNat - 48)) 0

/-- `int`, without a sign. -/
def readNat (t : Bytes) : Option Nat :=
  if t = [48] || (t ≠ [] && t.all isDigitByte && t.head? ≠ some 48) then some (natOf t) else none

def readInt : Bytes → Option Int
  | [] => none
  | b :: t => if b = 45 then (readNat t).map fun n : Nat => -(n : Int) else (readNat (b :: t)).map fun n : Nat => (n : Int)

/-- The bytes numbers are made of. -/
def isNumberByte (b : UInt8) : Bool := isDigitByte b || b = 45 || b = 43 || b = 46 || b = 101 || b = 69

theorem le_toNat_ofNat {i : Int} (h : 2 ^ 63 ≤ i ∧ i < 2 ^ 64) : 2 ^ 63 ≤ (UInt64.ofNat i.toNat).toNat := by
  rw [UInt64.toNat_ofNat', Nat.mod_eq_of_lt] <;> omega

def numberOf (strtod : Bytes → Option Double) (t : Bytes) : Option Value :=
  match readInt t with
  | some i =>
    if -2 ^ 63 ≤ i ∧ i < 2 ^ 63 then some (.int (Int64.ofInt i))
    else if h : 2 ^ 63 ≤ i ∧ i < 2 ^ 64 then
      some (.unsigned (UInt64.ofNat i.toNat) (le_toNat_ofNat h))
    else (strtod t).map .double
  | none => (strtod t).map .double

def readNumber (strtod : Bytes → Option Double) (t : Bytes) : Option (Value × Bytes) := do
  let v ← numberOf strtod (t.takeWhile isNumberByte)
  return (v, t.dropWhile isNumberByte)

def readLiteral (word : Bytes) (v : Value) (t : Bytes) : Option (Value × Bytes) :=
  if word.isPrefixOf t then some (v, t.drop word.length) else none

mutual
def readValue (strtod : Bytes → Option Double) : Nat → Bytes → Option (Value × Bytes)
  | 0, _ => none
  | fuel + 1, t =>
    match skipWs t with
    | [] => none
    | b :: rest =>
      if b = 34 then (readChars rest).map fun p => (.string p.1, p.2)
      else if b = 91 then
        if (skipWs rest).head? = some 93 then some (.array [], (skipWs rest).tail)
        else (readElements strtod fuel rest).map fun p => (.array p.1, p.2)
      else if b = 123 then
        if (skipWs rest).head? = some 125 then some (.object [], (skipWs rest).tail)
        else (readMembers strtod fuel rest).map fun p => (.object p.1, p.2)
      else if b = 110 then readLiteral (ascii "null") .null (b :: rest)
      else if b = 116 then readLiteral (ascii "true") (.bool true) (b :: rest)
      else if b = 102 then readLiteral (ascii "false") (.bool false) (b :: rest)
      else readNumber strtod (b :: rest)
/-- The elements of an array, to the closing bracket. -/
def readElements (strtod : Bytes → Option Double) : Nat → Bytes → Option (List Value × Bytes)
  | 0, _ => none
  | fuel + 1, t => do
    let (v, r) ← readValue strtod fuel t
    match skipWs r with
    | [] => none
    | b :: r =>
      if b = 93 then some ([v], r)
      else if b = 44 then do
        let (vs, r) ← readElements strtod fuel r
        some (v :: vs, r)
      else none
/-- The members of an object, to the closing brace. -/
def readMembers (strtod : Bytes → Option Double) : Nat → Bytes → Option (List (Bytes × Value) × Bytes)
  | 0, _ => none
  | fuel + 1, t =>
    if (skipWs t).head? ≠ some 34 then none
    else do
      let (k, r) ← readChars (skipWs t).tail
      if (skipWs r).head? ≠ some 58 then none
      else do
        let (v, r) ← readValue strtod fuel (skipWs r).tail
        match skipWs r with
        | [] => none
        | b :: r =>
          if b = 125 then some ([(k, v)], r)
          else if b = 44 then do
            let (ms, r) ← readMembers strtod fuel r
            some ((k, v) :: ms, r)
          else none
end

/-- A whole text. -/
def read (strtod : Bytes → Option Double) (t : Bytes) : Option Value := do
  let (v, r) ← readValue strtod (2 * t.length + 1) t
  if skipWs r = [] then some v else none

/-! ## Reading back strings -/

theorem hex4_control : ∀ b : UInt8, b < 0x20 → hex4 48 48 (hexDigit (b / 16)) (hexDigit (b % 16)) = some b.toNat :=
  control_cases (by decide)

theorem utf8_control : ∀ b : UInt8, b < 0x20 → String.utf8EncodeChar (Char.ofNat b.toNat) = [b] :=
  control_cases (by decide)

theorem map_readChars (e : UInt8) (t : Bytes) : (do let (s, r) ← readChars t; some (e :: s, r)) =
    (readChars t).map fun p => (e :: p.1, p.2) := by
  cases readChars t <;> rfl

/-- An escape of two bytes. -/
theorem readChars_short {c e : UInt8} (hc : c ≠ 117) (he : unescape c = some e) (t : Bytes) :
    readChars ([92, c] ++ t) = (readChars t).map fun p => (e :: p.1, p.2) := by
  rw [← map_readChars, readChars.eq_def]
  simp [hc, he]

/-- A control character, as four hexadecimal digits. -/
theorem readChars_control {b x y : UInt8} (hb : b < 0x20) (hxy : hex4 48 48 x y = some b.toNat) (t : Bytes) :
    readChars ([92, 117, 48, 48, x, y] ++ t) = (readChars t).map fun p => (b :: p.1, p.2) := by
  have hlt : b.toNat < 0x20 := hb
  have hlow : ¬ (0xd800 ≤ b.toNat ∧ b.toNat < 0xdc00) := by omega
  have hlow' : ¬ (0xdc00 ≤ b.toNat ∧ b.toNat < 0xe000) := by omega
  rw [← map_readChars]
  simp only [List.cons_append, List.nil_append, readChars, hxy, Option.bind_eq_bind,
    Option.bind_some, if_neg hlow, if_neg hlow',
    utf8_control b hb]
  rfl

/-- A byte that stands for itself. -/
theorem readChars_plain {b : UInt8} (h34 : b ≠ 34) (h92 : b ≠ 92) (h32 : ¬ b < 0x20) (t : Bytes) :
    readChars ([b] ++ t) = (readChars t).map fun p => (b :: p.1, p.2) := by
  rw [← map_readChars, readChars.eq_def]
  simp [h34, h92, h32]

/-- One byte of a string, whatever follows. -/
theorem readChars_escapeByte (b : UInt8) (t : Bytes) :
    readChars (escapeByte b ++ t) = (readChars t).map fun p => (b :: p.1, p.2) := by
  unfold escapeByte
  split_ifs with h34 h92 h8 h12 h10 h13 h9 h32
  iterate 7 (subst b; exact readChars_short (by decide) (by decide) t)
  · exact readChars_control h32 (hex4_control b h32) t
  · exact readChars_plain h34 h92 h32 t

theorem readChars_quote (s rest : Bytes) : readChars (s.flatMap escapeByte ++ 34 :: rest) = some (s, rest) := by
  induction s with
  | nil =>
    rw [readChars.eq_def]
    simp
  | cons b s ih =>
    rw [List.flatMap_cons, List.append_assoc, readChars_escapeByte, ih]
    rfl

/-! ## Reading back numbers -/

theorem natOf_natText (n : Nat) : natOf (natText n) = n := by
  unfold natText
  split_ifs with hn
  · subst hn
    rfl
  · have hdigit : ∀ d ∈ Nat.digits 10 n, (UInt8.ofNat (48 + d)).toNat - 48 = d := by
      intro d hd
      have hlt := Nat.digits_lt_base (by norm_num) hd
      rw [UInt8.toNat_ofNat', Nat.mod_eq_of_lt (by omega)]
      omega
    have hfold : ∀ ds : List Nat, (∀ d ∈ ds, (UInt8.ofNat (48 + d)).toNat - 48 = d) →
        ds.foldr (fun d m => 10 * m + ((UInt8.ofNat (48 + d)).toNat - 48)) 0 = Nat.ofDigits 10 ds := by
      intro ds hds
      induction ds with
      | nil => rfl
      | cons d ds ih =>
        rw [List.foldr_cons, ih fun e he => hds e (List.mem_cons_of_mem _ he), hds d List.mem_cons_self,
          Nat.ofDigits_cons, Nat.add_comm]
    rw [natOf, List.foldl_map, List.foldl_reverse, hfold _ hdigit, Nat.ofDigits_digits]

theorem readNat_natText (n : Nat) : readNat (natText n) = some n := by
  have hcond : (decide (natText n = [48]) || (decide (natText n ≠ []) && (natText n).all isDigitByte &&
      decide ((natText n).head? ≠ some 48))) = true := by
    rcases isInt_natText n with h | ⟨⟨hne, hdigits⟩, hhead⟩
    · simp [h]
    · have hall : (natText n).all isDigitByte = true := by
        rw [List.all_eq_true]
        intro b hb
        simpa [isDigitByte, IsDigit] using hdigits b hb
      simp [hne, hall, hhead]
  rw [readNat, if_pos hcond, natOf_natText]

theorem readInt_intText (i : Int) : readInt (intText i) = some i := by
  unfold intText
  split_ifs with hneg
  · rw [readInt, if_pos rfl, readNat_natText, Option.map_some, Option.some.injEq]
    omega
  · obtain ⟨b, u, hu, hb⟩ := (isInt_natText i.natAbs).head
    have hne : b ≠ 45 := by
      rintro rfl
      exact absurd hb.1 (by decide)
    have hread := readNat_natText i.natAbs
    rw [hu] at hread ⊢
    rw [readInt, if_neg hne, hread, Option.map_some, Option.some.injEq]
    omega

/-- Every byte of a number is one that numbers are made of. -/
theorem isNumberByte_of_isNumber {t : Bytes} (h : IsNumber t) : ∀ b ∈ t, isNumberByte b = true := by
  have hdigits : ∀ u : Bytes, (∀ b ∈ u, IsDigit b) → ∀ b ∈ u, isNumberByte b = true := by
    intro u hu b hb
    have hd : isDigitByte b = true := by simpa [isDigitByte, IsDigit] using hu b hb
    simp [isNumberByte, hd]
  have hint : ∀ u : Bytes, IsInt u → ∀ b ∈ u, isNumberByte b = true := by
    rintro u (rfl | ⟨⟨-, hu⟩, -⟩)
    · simp [isNumberByte, isDigitByte]
    · exact hdigits u hu
  obtain ⟨m, i, f, e, hm, hi, hf, he, rfl⟩ := h
  simp only [List.mem_append]
  rintro b (((hb | hb) | hb) | hb)
  · rcases hm with rfl | rfl
    · cases hb
    · rw [List.mem_singleton.1 hb]
      rfl
  · exact hint i hi b hb
  · rcases hf with rfl | ⟨d, ⟨-, hd⟩, rfl⟩
    · cases hb
    · rcases List.mem_cons.1 hb with rfl | hb
      · rfl
      · exact hdigits d hd b hb
  · rcases he with rfl | ⟨x, s, d, hx, hs, ⟨-, hd⟩, rfl⟩
    · cases hb
    · simp only [List.cons_append, List.mem_cons, List.mem_append] at hb
      rcases hb with rfl | hb | hb
      · rcases hx with rfl | rfl <;> rfl
      · rcases hs with rfl | rfl | rfl
        · cases hb
        · rw [List.mem_singleton.1 hb]
          rfl
        · rw [List.mem_singleton.1 hb]
          rfl
      · exact hdigits d hd b hb

/-- Nothing that could go on a number. -/
def Ends (rest : Bytes) : Prop := ∀ b ∈ rest.head?, isNumberByte b = false

theorem readNumber_append {strtod : Bytes → Option Double} {t rest : Bytes} {v : Value} (ht : IsNumber t)
    (hrest : Ends rest) (hv : numberOf strtod t = some v) : readNumber strtod (t ++ rest) = some (v, rest) := by
  have hall := isNumberByte_of_isNumber ht
  have htake : rest.takeWhile isNumberByte = [] := by
    rcases rest with _ | ⟨b, rest⟩
    · rfl
    · rw [List.takeWhile_cons_of_neg (by simp [hrest b rfl])]
  have hdrop : rest.dropWhile isNumberByte = rest := by
    rcases rest with _ | ⟨b, rest⟩
    · rfl
    · rw [List.dropWhile_cons_of_neg (by simp [hrest b rfl])]
  rw [readNumber, List.takeWhile_append_of_pos hall, htake, List.append_nil, hv, List.dropWhile_append_of_pos hall,
    hdrop]
  rfl

theorem numberOf_intText {strtod : Bytes → Option Double} (i : Int64) :
    numberOf strtod (intText i.toInt) = some (.int i) := by
  have hrange : -2 ^ 63 ≤ i.toInt ∧ i.toInt < 2 ^ 63 := ⟨i.le_toInt, i.toInt_lt⟩
  rw [numberOf, readInt_intText]
  dsimp only
  rw [if_pos hrange, Int64.ofInt_toInt]

theorem numberOf_unsigned {strtod : Bytes → Option Double} (n : UInt64) (large : 2 ^ 63 ≤ n.toNat) :
    numberOf strtod (intText n.toNat) = some (.unsigned n large) := by
  have hlt := n.toNat_lt
  rw [numberOf, readInt_intText]
  dsimp only
  rw [if_neg (by omega), dif_pos (by omega)]
  congr
  rw [Int.toNat_natCast, UInt64.ofNat_toNat]

/-! ## Reading back values -/

/-- `strtod` reads what `dtoa` prints, and a printed double does not look
like an integer. -/
structure Printable (dtoa : UInt64 → Bytes) (strtod : Bytes → Option Double) : Prop where
  number : ∀ d, isFinite d = true → IsNumber (dtoa d)
  notInt : ∀ d, isFinite d = true → readInt (dtoa d) = none
  read : ∀ d : Double, strtod (dtoa d.bits) = some d

namespace Value

mutual
/-- The fuel a value needs to be read. -/
def cost : Value → Nat
  | .array vs => costs vs + 1
  | .object ms => memberCosts ms + 1
  | _ => 1
def costs : List Value → Nat
  | [] => 0
  | v :: vs => cost v + costs vs + 1
def memberCosts : List (Bytes × Value) → Nat
  | [] => 0
  | (_, v) :: ms => cost v + memberCosts ms + 1
end

end Value

open Value

theorem skipWs_cons {b : UInt8} (h : isWsByte b = false) (t : Bytes) : skipWs (b :: t) = b :: t :=
  List.dropWhile_cons_of_neg (by simp [h])

/-- The first byte decides how a value is read. -/
theorem readValue_number {strtod : Bytes → Option Double} {fuel : Nat} {t rest : Bytes} {v : Value} (ht : IsNumber t)
    (hrest : Ends rest) (hv : numberOf strtod t = some v) :
    readValue strtod (fuel + 1) (t ++ rest) = some (v, rest) := by
  have hread := readNumber_append ht hrest hv
  obtain ⟨m, i, f, e, hm, hi, -, -, rfl⟩ := ht
  obtain ⟨c, u, rfl, hc⟩ := hi.head
  obtain ⟨b, w, hw, hb⟩ : ∃ b w, m ++ c :: u ++ f ++ e ++ rest = b :: w ∧ (b = 45 ∨ IsDigit b) := by
    rcases hm with rfl | rfl
    · exact ⟨c, _, rfl, .inr hc⟩
    · exact ⟨45, _, rfl, .inl rfl⟩
  have hother : ∀ x : UInt8, x ≠ 45 → ¬ (48 ≤ x ∧ x ≤ 57) → b ≠ x := by
    rintro x h45 hdigit rfl
    rcases hb with rfl | hb
    · exact h45 rfl
    · exact hdigit hb
  have hws : isWsByte b = false := by
    simp [isWsByte, hother 0x20 (by decide) (by decide), hother 0x09 (by decide) (by decide),
      hother 0x0a (by decide) (by decide), hother 0x0d (by decide) (by decide)]
  rw [hw] at hread ⊢
  rw [readValue, skipWs_cons hws]
  simp only [hother 34 (by decide) (by decide), hother 91 (by decide) (by decide),
    hother 123 (by decide) (by decide),
    hother 110 (by decide) (by decide), hother 116 (by decide) (by decide), hother 102 (by decide)
    (by decide), if_false]
  exact hread

/-- A text starts with something else than white space and than what closes
an array or an object. -/
theorem text_head {dtoa : UInt64 → Bytes} (hnumber : ∀ d, isFinite d = true → IsNumber (dtoa d))
    (v : Value) (rest : Bytes) :
    ∃ b t, v.text dtoa ++ rest = b :: t ∧ isWsByte b = false ∧ b ≠ 93 := by
  have hstart : ∀ b, IsStart b → isWsByte b = false ∧ b ≠ 93 := by
    intro b hb
    rcases hb with hb | ⟨h48, h57⟩
    · fin_cases hb <;> decide
    · refine ⟨?_, fun h => absurd (h ▸ h57) (by decide)⟩
      have hlt : ∀ x : UInt8, x < 48 → b ≠ x := fun x hx he => absurd (he ▸ h48) (UInt8.not_le.2 hx)
      simp [isWsByte, hlt 0x20 (by decide), hlt 0x09 (by decide), hlt 0x0a (by decide), hlt 0x0d (by decide)]
  have hnum : ∀ t, IsNumber t → ∃ b u, t ++ rest = b :: u ∧ isWsByte b = false ∧ b ≠ 93 := by
    intro t ht
    obtain ⟨b, u, rfl, hb⟩ := ht.head
    exact ⟨b, _, rfl, hstart b hb⟩
  cases v with
  | int i => exact hnum _ (isNumber_intText _)
  | unsigned n => exact hnum _ (isNumber_intText _)
  | double d => exact hnum _ (hnumber _ d.finite)
  | bool b => cases b <;> exact ⟨_, _, rfl, by decide, by decide⟩
  | _ => exact ⟨_, _, rfl, by decide, by decide⟩

theorem ends_of_head {b : UInt8} (h : isNumberByte b = false) (rest : Bytes) : Ends (b :: rest) := by
  rintro c hc
  cases hc
  exact h

/-- Up to some fuel, texts are read back: of a value, of the elements of an
array and of the members of an object. -/
structure ReadsBack (dtoa : UInt64 → Bytes) (strtod : Bytes → Option Double) (fuel : Nat) : Prop where
  value : ∀ v rest, cost v ≤ fuel → Ends rest → readValue strtod fuel (v.text dtoa ++ rest) = some (v, rest)
  elements : ∀ v vs rest, costs (v :: vs) ≤ fuel →
    readElements strtod fuel (commaSep (texts dtoa (v :: vs)) ++ 93 :: rest) = some (v :: vs, rest)
  members : ∀ k v ms rest, memberCosts ((k, v) :: ms) ≤ fuel →
    readMembers strtod fuel (commaSep ((memberTexts dtoa ((k, v) :: ms)).map memberText) ++ 125 :: rest) =
      some ((k, v) :: ms, rest)

section ReadsBack
variable {dtoa : UInt64 → Bytes} {strtod : Bytes → Option Double} {fuel : Nat}

theorem readValue_succ (hp : Printable dtoa strtod) (ih : ReadsBack dtoa strtod fuel) (v : Value) (rest : Bytes)
    (hcost : cost v ≤ fuel + 1) (hrest : Ends rest) :
    readValue strtod (fuel + 1) (v.text dtoa ++ rest) = some (v, rest) := by
  cases v with
  | null => rw [readValue]; rfl
  | bool b => rw [readValue]; cases b <;> rfl
  | int i => exact readValue_number (isNumber_intText _) hrest (numberOf_intText i)
  | unsigned n large => exact readValue_number (isNumber_intText _) hrest (numberOf_unsigned n large)
  | double d =>
    refine readValue_number (hp.number _ d.finite) hrest ?_
    rw [text, numberOf, hp.notInt _ d.finite, hp.read]
    rfl
  | string s =>
    have hread := readChars_quote s rest
    rw [readValue]
    simp only [text, quote, List.cons_append, List.append_assoc, List.nil_append, skipWs_cons (b := 34) rfl, if_true,
      hread, Option.map_some]
  | array vs =>
    rw [readValue]
    simp only [text, arrayText, List.cons_append, List.append_assoc, List.nil_append, skipWs_cons (b := 91) rfl]
    rcases vs with _ | ⟨v, vs⟩
    · simp [texts, commaSep, skipWs_cons (b := 93) rfl]
    · have helements := ih.elements v vs rest (by simp only [cost] at hcost; omega)
      have hhead : (skipWs (commaSep (texts dtoa (v :: vs)) ++ 93 :: rest)).head? ≠ some 93 := by
        rw [texts, commaSep_cons, List.append_assoc]
        obtain ⟨b, t, ht, hws, h93⟩ := text_head hp.number v
          ((if texts dtoa vs = [] then [] else 44 :: commaSep (texts dtoa vs)) ++ 93 :: rest)
        rw [ht, skipWs_cons hws]
        simpa using h93
      simp only [if_neg hhead, helements, Option.map_some]
      rfl
  | object ms =>
    rw [readValue]
    simp only [text, objectText, List.cons_append, List.append_assoc, List.nil_append, skipWs_cons (b := 123) rfl]
    rcases ms with _ | ⟨⟨k, v⟩, ms⟩
    · simp [memberTexts, commaSep, skipWs_cons (b := 125) rfl]
    · have hmembers := ih.members k v ms rest (by simp only [cost] at hcost; omega)
      have hhead : (skipWs (commaSep ((memberTexts dtoa ((k, v) :: ms)).map memberText) ++ 125 ::
          rest)).head? ≠ some 125 := by
        rw [memberTexts, List.map_cons, commaSep_cons]
        simp [memberText, quote, skipWs_cons (b := 34) rfl]
      simp only [if_neg hhead, hmembers, Option.map_some]
      rfl

theorem readElements_succ (ih : ReadsBack dtoa strtod fuel) (v : Value) (vs : List Value) (rest : Bytes)
    (hcost : costs (v :: vs) ≤ fuel + 1) :
    readElements strtod (fuel + 1) (commaSep (texts dtoa (v :: vs)) ++ 93 :: rest) = some (v :: vs, rest) := by
  simp only [costs] at hcost
  rw [readElements]
  rcases vs with _ | ⟨w, vs⟩
  · have hv := ih.value v (93 :: rest) (by omega) (ends_of_head rfl rest)
    simp only [texts, commaSep, hv, Option.bind_eq_bind, Option.bind_some, skipWs_cons (b := 93) rfl, if_true]
  · have hv := ih.value v (44 :: (commaSep (texts dtoa (w :: vs)) ++ 93 :: rest)) (by omega) (ends_of_head rfl _)
    have hmore := ih.elements w vs rest (by omega)
    have htext : commaSep (texts dtoa (v :: w :: vs)) ++ 93 :: rest =
        v.text dtoa ++ 44 :: (commaSep (texts dtoa (w :: vs)) ++ 93 :: rest) := by
      simp [texts, commaSep]
    rw [htext, hv]
    simp only [Option.bind_eq_bind, Option.bind_some, skipWs_cons (b := 44) rfl, hmore]
    rfl

theorem readMembers_succ (ih : ReadsBack dtoa strtod fuel) (k : Bytes) (v : Value) (ms : List (Bytes × Value))
    (rest : Bytes) (hcost : memberCosts ((k, v) :: ms) ≤ fuel + 1) :
    readMembers strtod (fuel + 1) (commaSep ((memberTexts dtoa ((k, v) :: ms)).map memberText) ++ 125 :: rest) =
      some ((k, v) :: ms, rest) := by
  simp only [memberCosts] at hcost
  rw [readMembers]
  -- the key, the colon, and then the value in front of `tail`
  have hread : ∀ tail, readChars (k.flatMap escapeByte ++ 34 :: 58 :: (v.text dtoa ++ tail)) =
      some (k, 58 :: (v.text dtoa ++ tail)) := fun tail => readChars_quote k _
  rcases ms with _ | ⟨⟨l, w⟩, ms⟩
  · have hv := ih.value v (125 :: rest) (by omega) (ends_of_head rfl rest)
    have htext : commaSep ((memberTexts dtoa [(k, v)]).map memberText) ++ 125 :: rest =
        34 :: (k.flatMap escapeByte ++ 34 :: 58 :: (v.text dtoa ++ 125 :: rest)) := by
      simp [memberTexts, commaSep, memberText, quote]
    rw [htext]
    simp only [skipWs_cons (b := 34) rfl, skipWs_cons (b := 58) rfl, skipWs_cons (b := 125) rfl, List.head?_cons,
      List.tail_cons, hread, hv, Option.bind_eq_bind, Option.bind_some, ne_eq, not_true_eq_false, if_false, if_true]
  · have hv := ih.value v
      (44 :: (commaSep ((memberTexts dtoa ((l, w) :: ms)).map memberText) ++ 125 :: rest)) (by omega)
      (ends_of_head rfl _)
    have hmore := ih.members l w ms rest (by omega)
    have htext : commaSep ((memberTexts dtoa ((k, v) :: (l, w) :: ms)).map memberText) ++ 125 :: rest =
        34 :: (k.flatMap escapeByte ++ 34 :: 58 :: (v.text dtoa ++
          44 :: (commaSep ((memberTexts dtoa ((l, w) :: ms)).map memberText) ++ 125 :: rest))) := by
      simp [memberTexts, commaSep, memberText, quote]
    rw [htext]
    simp only [skipWs_cons (b := 34) rfl, skipWs_cons (b := 58) rfl, skipWs_cons (b := 44) rfl, List.head?_cons,
      List.tail_cons, hread, hv, hmore, Option.bind_eq_bind, Option.bind_some, ne_eq, not_true_eq_false, if_false]
    rfl

theorem readsBack (hp : Printable dtoa strtod) (fuel : Nat) : ReadsBack dtoa strtod fuel := by
  induction fuel with
  | zero =>
    refine ⟨fun v _ hcost => ?_, fun v vs _ hcost => ?_, fun k v ms _ hcost => ?_⟩
    · cases v <;> simp [cost] at hcost
    · simp [costs] at hcost
    · simp [memberCosts] at hcost
  | succ fuel ih => exact ⟨readValue_succ hp ih, readElements_succ ih, readMembers_succ ih⟩

end ReadsBack

theorem commaSep_length (t : Bytes) (ts : List Bytes) :
    (commaSep (t :: ts)).length = t.length + if ts = [] then 0 else (commaSep ts).length + 1 := by
  rw [commaSep_cons, List.length_append]
  split_ifs <;> simp

theorem IsNumber.length_pos {t : Bytes} (h : IsNumber t) : 0 < t.length := by
  obtain ⟨b, u, rfl, -⟩ := h.head
  simp

mutual
/-- A text is long enough to be the fuel of its reading. -/
theorem cost_le {dtoa : UInt64 → Bytes} (hnumber : ∀ d, isFinite d = true → IsNumber (dtoa d)) :
    (v : Value) → cost v ≤ 2 * (v.text dtoa).length
  | .null => by simp [cost, text, ascii]
  | .bool b => by cases b <;> simp [cost, text, ascii]
  | .int i => by
    have hpos := (isNumber_intText i.toInt).length_pos
    simp only [cost, text]
    omega
  | .unsigned n _ => by
    have hpos := (isNumber_intText n.toNat).length_pos
    simp only [cost, text]
    omega
  | .double d => by
    have hpos := (hnumber _ d.finite).length_pos
    simp only [cost, text]
    omega
  | .string s => by simp only [cost, text, quote, List.length_append, List.length_cons]; omega
  | .array vs => by
    have hvs := costs_le hnumber vs
    simp only [cost, text, arrayText, List.length_append, List.length_cons, List.length_nil]
    omega
  | .object ms => by
    have hms := memberCosts_le hnumber ms
    simp only [cost, text, objectText, List.length_append, List.length_cons, List.length_nil]
    omega
theorem costs_le {dtoa : UInt64 → Bytes} (hnumber : ∀ d, isFinite d = true → IsNumber (dtoa d)) :
    (vs : List Value) → costs vs ≤ 2 * (commaSep (texts dtoa vs)).length + 1
  | [] => by simp [costs]
  | v :: vs => by
    have hv := cost_le hnumber v
    have hvs := costs_le hnumber vs
    rw [costs, texts, commaSep_length]
    split_ifs with hnil
    · rw [hnil] at hvs
      rcases vs with _ | ⟨w, vs⟩
      · simp only [costs]
        omega
      · cases hnil
    · omega
theorem memberCosts_le {dtoa : UInt64 → Bytes} (hnumber : ∀ d, isFinite d = true → IsNumber (dtoa d)) :
    (ms : List (Bytes × Value)) → memberCosts ms ≤ 2 * (commaSep ((memberTexts dtoa ms).map memberText)).length + 1
  | [] => by simp [memberCosts]
  | (k, v) :: ms => by
    have hv := cost_le hnumber v
    have hms := memberCosts_le hnumber ms
    have hmember : (v.text dtoa).length ≤ (memberText (k, v.text dtoa)).length := by
      simp only [memberText, List.length_append, List.length_cons]
      omega
    rw [memberCosts, memberTexts, List.map_cons, commaSep_length]
    split_ifs with hnil
    · rcases ms with _ | ⟨m, ms⟩
      · simp only [memberCosts]
        omega
      · cases hnil
    · omega
end

/-- The compact text of a value is read as that value. -/
theorem read_text {dtoa : UInt64 → Bytes} {strtod : Bytes → Option Double} (hp : Printable dtoa strtod) (v : Value) :
    read strtod (v.text dtoa) = some v := by
  have hcost := cost_le hp.number v
  have hread := (readsBack hp (2 * (v.text dtoa).length + 1)).value v [] (by omega) (by rintro b ⟨⟩)
  rw [List.append_nil] at hread
  rw [read, hread]
  rfl

/-! ## Number texts -/

/-- A printer and a reader of doubles that fit together. -/
structure NumberText where
  dtoa : UInt64 → Bytes
  strtod : Bytes → Option Double
  printable : Printable dtoa strtod

/-- `1.5` in its usual text, any other double as its bits. -/
def bitsDtoa (d : UInt64) : Bytes :=
  if d = 0x3ff8000000000000 then ascii "1.5" else natText d.toNat ++ [101, 48]

def bitsStrtod (t : Bytes) : Option Double :=
  if t = ascii "1.5" then some ⟨0x3ff8000000000000, rfl⟩
  else
    let bits := UInt64.ofNat (natOf (t.take (t.length - 2)))
    if h : isFinite bits = true then some ⟨bits, h⟩ else none

theorem readInt_exponent (n : Nat) : readInt (natText n ++ [101, 48]) = none := by
  obtain ⟨b, u, hu, hb⟩ := (isInt_natText n).head
  have hne : b ≠ 45 := by
    rintro rfl
    exact absurd hb.1 (by decide)
  have hdigits : (b :: (u ++ [101, 48])).all isDigitByte = false := by
    simp [isDigitByte]
  rw [hu, List.cons_append, readInt, if_neg hne, readNat, hdigits]
  simp

theorem bits_printable : Printable bitsDtoa bitsStrtod := by
  have hexp : IsExp [101, 48] := ⟨101, [], [48], .inl rfl, .inl rfl, by simp [IsDigits, IsDigit], rfl⟩
  refine ⟨fun d _ => ?_, fun d _ => ?_, fun d => ?_⟩
  · simp only [bitsDtoa]
    split_ifs
    · exact ⟨[], [49], [46, 53], [], .inl rfl, .inr ⟨by simp [IsDigits, IsDigit], by decide⟩,
        .inr ⟨[53], by simp [IsDigits, IsDigit], rfl⟩, .inl rfl, rfl⟩
    · exact ⟨[], natText d.toNat, [], [101, 48], .inl rfl, isInt_natText _, .inl rfl, .inr hexp, by simp⟩
  · simp only [bitsDtoa]
    split_ifs
    · decide
    · exact readInt_exponent _
  · obtain ⟨bits, hfinite⟩ := d
    simp only [bitsDtoa, bitsStrtod]
    by_cases hbits : bits = 0x3ff8000000000000
    · subst hbits
      rfl
    · have hother : natText bits.toNat ++ [101, 48] ≠ ascii "1.5" := by
        intro htext
        have hlast := congrArg List.getLast? htext
        simp [ascii] at hlast
      have htake : (natText bits.toNat ++ [101, 48]).take ((natText bits.toNat ++ [101, 48]).length - 2) =
          natText bits.toNat := by simp
      simp only [if_neg hbits, if_neg hother, htake, natOf_natText, UInt64.ofNat_toNat, dif_pos hfinite]

def bitsText : NumberText := ⟨bitsDtoa, bitsStrtod, bits_printable⟩

/-! ## Parsers -/

namespace Value

mutual
/-- No number is a double, so nothing is rounded in its text. -/
def NoDoubles : Value → Prop
  | .double _ => False
  | .array vs => NoDoublesAll vs
  | .object ms => NoDoublesMembers ms
  | _ => True
def NoDoublesAll : List Value → Prop
  | [] => True
  | v :: vs => NoDoubles v ∧ NoDoublesAll vs
def NoDoublesMembers : List (Bytes × Value) → Prop
  | [] => True
  | (_, v) :: ms => NoDoubles v ∧ NoDoublesMembers ms
end

end Value

/-- rapidjson, as a program uses it. `parse` is `Document::Parse`, without a
value when there is a parse error; which other texts it takes, and how it
rounds, is left open. -/
structure Rapidjson extends NumberText where
  parse : Bytes → Option Value
  /-- What is written is read back, integers up to 2^64 as integers. -/
  parse_text : ∀ v : Value, v.NoDoubles → parse (v.text dtoa) = some v

/-- The reader is such a parser. -/
def Rapidjson.ofText (t : NumberText) : Rapidjson :=
  { t with
    parse := read t.strtod
    parse_text := fun v _ => read_text t.printable v }

def bitsJson : Rapidjson := .ofText bitsText

end EnvoyProxy.Json
