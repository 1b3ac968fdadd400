import EnvoyProxy.Lib.JsonReader
/-!
# Escaping header values for access logs

`StringUtil::escapeForJson` (proxy_utility.cc) writes to a string stream whose
formatting state it changes on the way: base and fill stay as they were set,
the width is used up by the next output. Between two characters the width is
always zero, and a character sets whatever else its output depends on, so each
is written as it would be on a fresh stream.
-/

namespace EnvoyProxy.AccessLog
open Json

/-! ## String streams -/

/-- A digit, as `std::hex` writes it. -/
def hexLetter (d : Nat) : UInt8 := UInt8.ofNat (if d < 10 then 48 + d else 87 + d)

def hexText (n : Nat) : Bytes := if n = 0 then [48] else (Nat.digits 16 n).reverse.map hexLetter

structure OStringStream where
  str : Bytes := []
  hex : Bool := false
  width : Nat := 0
  fill : UInt8 := 32

namespace OStringStream

/-- Formatted output: up to the width, fill goes in front. -/
def put (o : OStringStream) (text : Bytes) : OStringStream :=
  { o with str := o.str ++ List.replicate (o.width - text.length) o.fill ++ text, width := 0 }

/-- Output of an `int`; in base 16 it is taken as unsigned. -/
def putInt (o : OStringStream) (n : Int32) : OStringStream :=
  o.put (if o.hex then hexText n.toUInt32.toNat else intText n.toInt)

end OStringStream

/-- One character of the loop. A `char` has a sign. -/
def escapeChar (o : OStringStream) (c : UInt8) : OStringStream :=
  if c = 34 then o.put [92, 34]
  else if c = 92 then o.put [92, 92]
  else if c = 8 then o.put [92, 98]
  else if c = 12 then o.put [92, 102]
  else if c = 10 then o.put [92, 110]
  else if c = 13 then o.put [92, 114]
  else if c = 9 then o.put [92, 116]
  else if 0 ≤ c.toInt8 ∧ c.toInt8 ≤ 0x1f then
    { o.put [92, 117] with hex := true, width := 4, fill := 48 }.putInt c.toInt8.toInt32
  else o.put [c]

/-- `StringUtil::escapeForJson` -/
def escapeForJson (source : Bytes) : Bytes := (source.foldl escapeChar {}).str

/-! ## One character -/

/-- What is written for a character. -/
def escaped (c : UInt8) : Bytes := (escapeChar {} c).str

theorem put_str {o : OStringStream} (h : o.width = 0) (text : Bytes) : (o.put text).str = o.str ++ text := by
  simp [OStringStream.put, h]

/-- A character does not depend on the state of the stream, and leaves no width. -/
theorem escapeChar_str {o : OStringStream} (h : o.width = 0) (c : UInt8) :
    (escapeChar o c).str = o.str ++ escaped c ∧ (escapeChar o c).width = 0 := by
  have hput (text : Bytes) : (o.put text).str = o.str ++ (OStringStream.put {} text).str ∧
      (o.put text).width = 0 := by
    rw [put_str h, put_str rfl]
    exact ⟨rfl, rfl⟩
  unfold escaped escapeChar
  split_ifs
  iterate 7 exact hput _
  · refine ⟨?_, rfl⟩
    simp only [OStringStream.putInt, OStringStream.put, h, if_true]
    simp
  · exact hput _

/-- The sign does not matter. -/
theorem control_iff (c : UInt8) : (0 ≤ c.toInt8 ∧ c.toInt8 ≤ 0x1f) ↔ c < 0x20 := by
  revert c
  decide +kernel

/-- A character as JSON has it, and reads it. -/
structure IsEscaped (c : UInt8) (text : Bytes) : Prop where
  isChar : IsChar text
  read : ∀ t, readChars (text ++ t) = (readChars t).map fun p => (c :: p.1, p.2)

theorem isEscaped_short {c e : UInt8} (hc : e ∈ [34, 92, 47, 98, 102, 110, 114, 116])
    (hne : e ≠ 117) (he : unescape e = some c) :
    IsEscaped c [92, e] :=
  ⟨.short hc, readChars_short hne he⟩

theorem escaped_control : ∀ c : UInt8, c < 0x20 → c ∈ [8, 12, 10, 13, 9] ∨
    escaped c = [92, 117, 48, 48, hexLetter (c / 16).toNat, hexLetter (c % 16).toNat] :=
  control_cases (by decide)

theorem hexLetter_control : ∀ c : UInt8, c < 0x20 →
    hex4 48 48 (hexLetter (c / 16).toNat) (hexLetter (c % 16).toNat) = some c.toNat ∧
      IsHexDigit (hexLetter (c / 16).toNat) ∧ IsHexDigit (hexLetter (c % 16).toNat) :=
  control_cases (by unfold IsHexDigit IsDigit; decide)

theorem isEscaped_control {c : UInt8} (hc : c < 0x20) :
    IsEscaped c [92, 117, 48, 48, hexLetter (c / 16).toNat, hexLetter (c % 16).toNat] := by
  obtain ⟨hread, hhigh, hlow⟩ := hexLetter_control c hc
  have hzero : IsHexDigit 48 := .inl ⟨by decide, by decide⟩
  exact ⟨.unicode hzero hzero hhigh hlow, readChars_control hc hread⟩

theorem escaped_plain {c : UInt8} (h34 : c ≠ 34) (h92 : c ≠ 92) (hc : ¬ c < 0x20) : escaped c = [c] := by
  have hne : c ≠ 8 ∧ c ≠ 12 ∧ c ≠ 10 ∧ c ≠ 13 ∧ c ≠ 9 := by
    refine ⟨?_, ?_, ?_, ?_, ?_⟩ <;> (rintro rfl; exact hc (by decide))
  obtain ⟨h8, h12, h10, h13, h9⟩ := hne
  unfold escaped escapeChar
  rw [if_neg h34, if_neg h92, if_neg h8, if_neg h12, if_neg h10, if_neg h13, if_neg h9,
    if_neg (mt (control_iff c).1 hc)]
  rfl

theorem isEscaped_escaped (c : UInt8) : IsEscaped c (escaped c) := by
  by_cases h34 : c = 34
  · subst h34
    exact isEscaped_short (by decide) (by decide) rfl
  by_cases h92 : c = 92
  · subst h92
    exact isEscaped_short (by decide) (by decide) rfl
  by_cases hc : c < 0x20
  · rcases escaped_control c hc with h | h
    · fin_cases h <;> exact isEscaped_short (by decide) (by decide) rfl
    · rw [h]
      exact isEscaped_control hc
  · rw [escaped_plain h34 h92 hc]
    exact ⟨.plain (UInt8.not_lt.1 hc) h34 h92, readChars_plain h34 h92 hc⟩

/-! ## The whole string -/

/-- The loop, from any stream with no width pending. -/
theorem foldl_escapeChar {o : OStringStream} (h : o.width = 0) (s : Bytes) :
    (s.foldl escapeChar o).str = o.str ++ s.flatMap escaped := by
  induction s generalizing o with
  | nil => simp
  | cons c s ih =>
    obtain ⟨hstr, hwidth⟩ := escapeChar_str h c
    rw [List.foldl_cons, ih hwidth, hstr, List.flatMap_cons, List.append_assoc]

theorem escapeForJson_eq (s : Bytes) : escapeForJson s = s.flatMap escaped :=
  foldl_escapeChar rfl s

theorem escapeForJson_append (a b : Bytes) : escapeForJson (a ++ b) = escapeForJson a ++ escapeForJson b := by
  simp only [escapeForJson_eq, List.flatMap_append]

theorem isChar_escapeForJson (s : Bytes) : ∃ cs : List Bytes, (∀ c ∈ cs, IsChar c) ∧
    escapeForJson s = cs.flatten := by
  refine ⟨s.map escaped, ?_, by rw [escapeForJson_eq, List.flatMap_def]⟩
  intro t ht
  obtain ⟨c, -, rfl⟩ := List.mem_map.1 ht
  exact (isEscaped_escaped c).isChar

/-- Unescaping, to a quote put behind. -/
theorem readChars_escapeForJson (s t : Bytes) : readChars (escapeForJson s ++ 34 :: t) = some (s, t) := by
  rw [escapeForJson_eq]
  induction s with
  | nil =>
    rw [readChars.eq_def]
    simp
  | cons c s ih =>
    rw [List.flatMap_cons, List.append_assoc, (isEscaped_escaped c).read, ih]
    rfl

/-- The output is made of JSON characters, none of its bytes is a control
character, unescaping it gives the string back, and it does not matter where
the string is cut. -/
theorem escapeForJson_spec :
    (∀ s, (∃ cs : List Bytes, (∀ c ∈ cs, IsChar c) ∧ escapeForJson s = cs.flatten) ∧
      (∀ b ∈ escapeForJson s, 0x20 ≤ b) ∧
      readChars (escapeForJson s ++ [34]) = some (s, [])) ∧
    Function.Injective escapeForJson ∧
    ∀ a b, escapeForJson (a ++ b) = escapeForJson a ++ escapeForJson b := by
  refine ⟨fun s => ⟨isChar_escapeForJson s, ?_, readChars_escapeForJson s []⟩, ?_, escapeForJson_append⟩
  · intro b hb
    obtain ⟨cs, hcs, heq⟩ := isChar_escapeForJson s
    rw [heq] at hb
    obtain ⟨t, ht, hbt⟩ := List.mem_flatten.1 hb
    exact (hcs t ht).printable b hbt
  · intro s s' h
    have hread := readChars_escapeForJson s []
    rw [h, readChars_escapeForJson s' []] at hread
    exact (congrArg Prod.fst (Option.some.inj hread)).symm

end EnvoyProxy.AccessLog
