import EnvoyProxy.Lib.Bytes
/-!
# JSON text

The grammar of RFC 8259 over bytes, and the compact text of values: escaped
strings, decimal numbers, comma-separated lists. A string may hold any byte
from 0x20 up except the quote and the backslash; whether the bytes from 0x80
up are UTF-8 is left open, as the writer leaves it.
-/

namespace EnvoyProxy.Json

/-! ## The grammar -/

def IsWsByte (b : UInt8) : Prop := b = 0x20 ∨ b = 0x09 ∨ b = 0x0a ∨ b = 0x0d

/-- `ws` -/
def IsWs (t : Bytes) : Prop := ∀ b ∈ t, IsWsByte b

def IsDigit (b : UInt8) : Prop := 48 ≤ b ∧ b ≤ 57

def IsHexDigit (b : UInt8) : Prop := IsDigit b ∨ (65 ≤ b ∧ b ≤ 70) ∨ (97 ≤ b ∧ b ≤ 102)

/-- `1*DIGIT` -/
def IsDigits (t : Bytes) : Prop := t ≠ [] ∧ ∀ b ∈ t, IsDigit b

/-- `int = zero / ( digit1-9 *DIGIT )` -/
def IsInt (t : Bytes) : Prop := t = [48] ∨ (IsDigits t ∧ t.head? ≠ some 48)

/-- `frac = decimal-point 1*DIGIT` -/
def IsFrac (t : Bytes) : Prop := ∃ d, IsDigits d ∧ t = 46 :: d

/-- `exp = e [ minus / plus ] 1*DIGIT` -/
def IsExp (t : Bytes) : Prop :=
  ∃ e s d, (e = 101 ∨ e = 69) ∧ (s = [] ∨ s = [45] ∨ s = [43]) ∧ IsDigits d ∧ t = e :: s ++ d

/-- `number = [ minus ] int [ frac ] [ exp ]` -/
def IsNumber (t : Bytes) : Prop :=
  ∃ m i f e, (m = [] ∨ m = [45]) ∧ IsInt i ∧ (f = [] ∨ IsFrac f) ∧ (e = [] ∨ IsExp e) ∧
    t = m ++ i ++ f ++ e

/-- `char`: an unescaped byte, or an escape sequence. -/
inductive IsChar : Bytes → Prop
  | plain {b : UInt8} : 0x20 ≤ b → b ≠ 34 → b ≠ 92 → IsChar [b]
  | short {b : UInt8} : b ∈ [34, 92, 47, 98, 102, 110, 114, 116] → IsChar [92, b]
  | unicode {a b c d : UInt8} : IsHexDigit a → IsHexDigit b → IsHexDigit c → IsHexDigit d →
      IsChar [92, 117, a, b, c, d]

/-- `string = quotation-mark *char quotation-mark` -/
def IsString (t : Bytes) : Prop := ∃ cs : List Bytes, (∀ c ∈ cs, IsChar c) ∧ t = 34 :: cs.flatten ++ [34]

mutual
/-- `value` -/
inductive IsValue : Bytes → Prop
  | null : IsValue (ascii "null")
  | true : IsValue (ascii "true")
  | false : IsValue (ascii "false")
  | number {t : Bytes} : IsNumber t → IsValue t
  | string {t : Bytes} : IsString t → IsValue t
  | emptyArray {w : Bytes} : IsWs w → IsValue (91 :: w ++ [93])
  | array {t : Bytes} : IsElements t → IsValue (91 :: t ++ [93])
  | emptyObject {w : Bytes} : IsWs w → IsValue (123 :: w ++ [125])
  | object {t : Bytes} : IsMembers t → IsValue (123 :: t ++ [125])
/-- `JSON-text = ws value ws`, also what stands between two commas. -/
inductive IsText : Bytes → Prop
  | mk {a v b : Bytes} : IsWs a → IsValue v → IsWs b → IsText (a ++ v ++ b)
/-- `value *( value-separator value )` -/
inductive IsElements : Bytes → Prop
  | one {t : Bytes} : IsText t → IsElements t
  | cons {t r : Bytes} : IsText t → IsElements r → IsElements (t ++ 44 :: r)
/-- `member *( value-separator member )` -/
inductive IsMembers : Bytes → Prop
  | one {a k b v : Bytes} : IsWs a → IsString k → IsWs b → IsText v → IsMembers (a ++ k ++ b ++ 58 :: v)
  | cons {a k b v r : Bytes} : IsWs a → IsString k → IsWs b → IsText v → IsMembers r →
      IsMembers (a ++ k ++ b ++ 58 :: v ++ 44 :: r)
end

theorem IsWs.nil : IsWs [] := by intro b hb; cases hb

theorem IsValue.text {t : Bytes} (h : IsValue t) : IsText t := by
  simpa using IsText.mk IsWs.nil h IsWs.nil

/-! ## Compact text -/

def hexDigit (n : UInt8) : UInt8 := if n < 10 then 48 + n else 55 + n

/-- A byte of a string as it stands between the quotes. -/
def escapeByte (b : UInt8) : Bytes :=
  if b = 34 then [92, 34]
  else if b = 92 then [92, 92]
  else if b = 8 then [92, 98]
  else if b = 12 then [92, 102]
  else if b = 10 then [92, 110]
  else if b = 13 then [92, 114]
  else if b = 9 then [92, 116]
  else if b < 0x20 then [92, 117, 48, 48, hexDigit (b / 16), hexDigit (b % 16)]
  else [b]

/-- A string literal. -/
def quote (s : Bytes) : Bytes := 34 :: s.flatMap escapeByte ++ [34]

/-- A natural number in decimal. -/
def natText (n : Nat) : Bytes :=
  if n = 0 then [48] else ((Nat.digits 10 n).reverse.map fun d => UInt8.ofNat (48 + d))

/-- An integer in decimal. -/
def intText (i : Int) : Bytes := if i < 0 then 45 :: natText i.natAbs else natText i.natAbs

/-- Texts with commas between them. -/
def commaSep : List Bytes → Bytes
  | [] => []
  | [t] => t
  | t :: u :: ts => t ++ 44 :: commaSep (u :: ts)

def arrayText (ts : List Bytes) : Bytes := 91 :: commaSep ts ++ [93]

/-- The text of one member: a key and a value text. -/
def memberText (m : Bytes × Bytes) : Bytes := quote m.1 ++ 58 :: m.2

def objectText (ms : List (Bytes × Bytes)) : Bytes := 123 :: commaSep (ms.map memberText) ++ [125]

/-! ## The compact text is well formed -/

/-- The control characters are the bytes `UInt8.ofNat n` with `n < 32`. -/
theorem control_cases {C : UInt8 → Prop} (h : ∀ n < 32, C (UInt8.ofNat n)) (b : UInt8) (hb : b < 0x20) : C b := by
  rw [← UInt8.ofNat_toNat (x := b)]
  exact h _ hb

theorem isHexDigit_hexDigit : ∀ b : UInt8, b < 0x20 →
    IsHexDigit (hexDigit (b / 16)) ∧ IsHexDigit (hexDigit (b % 16)) :=
  control_cases (by unfold IsHexDigit IsDigit; decide)

theorem isChar_escapeByte (b : UInt8) : IsChar (escapeByte b) := by
  unfold escapeByte
  split_ifs with h34 h92 h8 h12 h10 h13 h9 h32
  iterate 7 exact .short (by decide)
  · have h := isHexDigit_hexDigit b h32
    exact .unicode (.inl ⟨by decide, by decide⟩) (.inl ⟨by decide, by decide⟩) h.1 h.2
  · exact .plain (UInt8.not_lt.1 h32) h34 h92

theorem IsHexDigit.printable {b : UInt8} (h : IsHexDigit b) : 0x20 ≤ b := by
  rcases h with ⟨h, -⟩ | ⟨h, -⟩ | ⟨h, -⟩ <;> exact UInt8.le_trans (by decide) h

/-- No control character stands in a string. -/
theorem IsChar.printable {t : Bytes} (h : IsChar t) : ∀ b ∈ t, 0x20 ≤ b := by
  cases h with
  | plain hb => simpa using hb
  | @short b hb =>
    have hb : 0x20 ≤ b := by fin_cases hb <;> decide
    simp [hb]
  | unicode h₁ h₂ h₃ h₄ => simp [h₁.printable, h₂.printable, h₃.printable, h₄.printable]

theorem isString_quote (s : Bytes) : IsString (quote s) := by
  refine ⟨s.map escapeByte, ?_, by simp [quote, List.flatMap_def]⟩
  simp only [List.mem_map, forall_exists_index, and_imp, forall_apply_eq_imp_iff₂]
  exact fun b _ => isChar_escapeByte b

theorem isDigit_ofNat {d : Nat} (h : d < 10) : IsDigit (UInt8.ofNat (48 + d)) := by
  unfold IsDigit
  interval_cases d <;> decide

theorem isDigits_natText (n : Nat) : IsDigits (natText n) := by
  unfold natText
  split_ifs with hn
  · exact ⟨by simp, by simp [IsDigit]⟩
  · refine ⟨by simpa [Nat.digits_eq_nil_iff_eq_zero] using hn, ?_⟩
    simp only [List.mem_map, List.mem_reverse, forall_exists_index, and_imp, forall_apply_eq_imp_iff₂]
    exact fun d hd => isDigit_ofNat (Nat.digits_lt_base (by norm_num) hd)

theorem isInt_natText (n : Nat) : IsInt (natText n) := by
  by_cases hn : n = 0
  · subst hn
    exact .inl rfl
  · refine .inr ⟨isDigits_natText n, ?_⟩
    have hne : Nat.digits 10 n ≠ [] := by simpa [Nat.digits_eq_nil_iff_eq_zero] using hn
    have hlast : (Nat.digits 10 n).getLast hne ≠ 0 := Nat.getLast_digit_ne_zero 10 hn
    have hlt : (Nat.digits 10 n).getLast hne < 10 := Nat.digits_lt_base (by norm_num) (List.getLast_mem hne)
    simp only [natText, hn, if_false, List.head?_map, List.head?_reverse, List.getLast?_eq_getLast_of_ne_nil hne,
      Option.map_some, ne_eq, Option.some.injEq]
    generalize (Nat.digits 10 n).getLast hne = d at hlast hlt
    interval_cases d <;> first | exact absurd rfl hlast | decide

theorem isNumber_intText (i : Int) : IsNumber (intText i) := by
  unfold intText
  split_ifs
  · exact ⟨[45], _, [], [], .inr rfl, isInt_natText i.natAbs, .inl rfl, .inl rfl, by simp⟩
  · exact ⟨[], _, [], [], .inl rfl, isInt_natText i.natAbs, .inl rfl, .inl rfl, by simp⟩

theorem isElements_commaSep {ts : List Bytes} (hne : ts ≠ []) (h : ∀ t ∈ ts, IsText t) :
    IsElements (commaSep ts) := by
  induction ts with
  | nil => exact absurd rfl hne
  | cons t ts ih =>
    have ht := h t List.mem_cons_self
    rcases ts with _ | ⟨u, ts⟩
    · exact .one ht
    · exact .cons ht (ih (by simp) fun v hv => h v (List.mem_cons_of_mem _ hv))

theorem isValue_arrayText {ts : List Bytes} (h : ∀ t ∈ ts, IsText t) : IsValue (arrayText ts) := by
  by_cases hne : ts = []
  · subst hne
    exact .emptyArray IsWs.nil
  · exact .array (isElements_commaSep hne h)

theorem isMembers_commaSep {ms : List (Bytes × Bytes)} (hne : ms ≠ []) (h : ∀ m ∈ ms, IsText m.2) :
    IsMembers (commaSep (ms.map memberText)) := by
  induction ms with
  | nil => exact absurd rfl hne
  | cons m ms ih =>
    have hm := h m List.mem_cons_self
    rcases ms with _ | ⟨n, ms⟩
    · simpa [commaSep, memberText] using IsMembers.one IsWs.nil (isString_quote m.1) IsWs.nil hm
    · have hrest := ih (by simp) fun v hv => h v (List.mem_cons_of_mem _ hv)
      simpa [commaSep, memberText] using IsMembers.cons IsWs.nil (isString_quote m.1) IsWs.nil hm hrest

theorem isValue_objectText {ms : List (Bytes × Bytes)} (h : ∀ m ∈ ms, IsText m.2) : IsValue (objectText ms) := by
  by_cases hne : ms = []
  · subst hne
    exact .emptyObject IsWs.nil
  · exact .object (isMembers_commaSep hne h)

/-! ## The first byte of a text -/

/-- The bytes a value can begin with. -/
def IsStart (b : UInt8) : Prop := b ∈ [110, 116, 102, 45, 34, 91, 123] ∨ IsDigit b

theorem IsInt.head {t : Bytes} (h : IsInt t) : ∃ b u, t = b :: u ∧ IsDigit b := by
  rcases h with rfl | ⟨⟨hne, hd⟩, -⟩
  · exact ⟨48, [], rfl, by decide, by decide⟩
  · obtain ⟨b, u, rfl⟩ := List.exists_cons_of_ne_nil hne
    exact ⟨b, u, rfl, hd b List.mem_cons_self⟩

theorem IsNumber.head {t : Bytes} (h : IsNumber t) : ∃ b u, t = b :: u ∧ IsStart b := by
  obtain ⟨m, i, f, e, hm, hi, -, -, rfl⟩ := h
  obtain ⟨b, u, rfl, hb⟩ := hi.head
  rcases hm with rfl | rfl
  · exact ⟨b, _, rfl, .inr hb⟩
  · exact ⟨45, _, rfl, .inl (by decide)⟩

theorem IsValue.head {t : Bytes} (h : IsValue t) : ∃ b u, t = b :: u ∧ IsStart b := by
  cases h with
  | number hn => exact hn.head
  | string hs =>
    obtain ⟨cs, -, rfl⟩ := hs
    exact ⟨34, _, rfl, .inl (by decide)⟩
  | _ => exact ⟨_, _, rfl, .inl (by decide)⟩

theorem IsText.head {b : UInt8} {t : Bytes} (h : IsText (b :: t)) : IsWsByte b ∨ IsStart b := by
  generalize hx : b :: t = x at h
  obtain ⟨ha, hv, -⟩ := h
  rename_i a v c
  rcases a with _ | ⟨w, a⟩
  · obtain ⟨b', u, rfl, hb⟩ := hv.head
    cases hx
    exact .inr hb
  · obtain rfl : b = w := (List.cons.inj hx).1
    exact .inl (ha b List.mem_cons_self)

/-! ## Texts that diverge

A difference between two strings, or between two elements, is still there in
the text around them. -/

/-- The byte at the start of an escaped text. -/
def unescapeFirst : Bytes → Option UInt8
  | 92 :: 117 :: _ :: _ :: h :: l :: _ =>
    some ((if h < 58 then h - 48 else h - 55) * 16 + if l < 58 then l - 48 else l - 55)
  | 92 :: c :: _ =>
    some (if c = 98 then 8 else if c = 102 then 12 else if c = 110 then 10 else if c = 114 then 13
      else if c = 116 then 9 else c)
  | b :: _ => some b
  | [] => none

theorem hexDigit_pair : ∀ b : UInt8, b < 0x20 →
    (if hexDigit (b / 16) < 58 then hexDigit (b / 16) - 48 else hexDigit (b / 16) - 55) * 16 +
      (if hexDigit (b % 16) < 58 then hexDigit (b % 16) - 48 else hexDigit (b % 16) - 55) = b :=
  control_cases (by decide)

theorem unescapeFirst_escapeByte (b : UInt8) (x : Bytes) : unescapeFirst (escapeByte b ++ x) = some b := by
  unfold escapeByte
  split_ifs <;> try (subst b; rfl)
  · rename_i h
    exact congrArg some (hexDigit_pair b h)
  · rename_i h92 _ _ _ _ _ _
    simp [unescapeFirst, h92]

theorem escapeByte_diverge {a b : UInt8} (h : a ≠ b) : Diverge (escapeByte a) (escapeByte b) := by
  have key : ∀ a b : UInt8, escapeByte a <+: escapeByte b → a = b := by
    rintro a b ⟨x, hx⟩
    have ha := unescapeFirst_escapeByte a x
    have hb := unescapeFirst_escapeByte b []
    rw [List.append_nil, ← hx, ha] at hb
    exact Option.some.inj hb
  exact diverge_of_not_isPrefix (fun hp => h (key a b hp)) fun hp => h (key b a hp).symm

theorem quote_diverge {u v : Bytes} (h : Diverge u v) : Diverge (quote u) (quote v) := by
  obtain ⟨p, a, b, s, t, hab, rfl, rfl⟩ := h
  simp only [quote, List.flatMap_append, List.flatMap_cons, List.cons_append, List.append_assoc]
  exact (((escapeByte_diverge hab).append _ _).prepend _).cons 34

theorem quote_injective : Function.Injective quote := by
  intro u v h
  have hescaped : u.flatMap escapeByte = v.flatMap escapeByte := List.append_cancel_right (List.cons.inj h).2
  clear h
  -- the first byte of a text can be read back, so the texts agree byte by byte
  induction u generalizing v with
  | nil =>
    cases v with
    | nil => rfl
    | cons b v =>
      have hb := unescapeFirst_escapeByte b (v.flatMap escapeByte)
      rw [← List.flatMap_cons, ← hescaped] at hb
      cases hb
  | cons a u ih =>
    have ha := unescapeFirst_escapeByte a (u.flatMap escapeByte)
    rw [← List.flatMap_cons, hescaped] at ha
    cases v with
    | nil => cases ha
    | cons b v =>
      rw [List.flatMap_cons, unescapeFirst_escapeByte] at ha
      cases ha
      rw [List.flatMap_cons, List.flatMap_cons] at hescaped
      rw [ih (List.append_cancel_left hescaped)]

theorem eqUnless_quote {p : Prop} {u v : Bytes} (h : EqUnless p u v) : EqUnless p (quote u) (quote v) := by
  rcases h with ⟨hp, rfl⟩ | ⟨hp, hd⟩
  · exact .inl ⟨hp, rfl⟩
  · exact .inr ⟨hp, quote_diverge hd⟩

theorem eqUnless_memberText {p q : Prop} {m n : Bytes × Bytes} (hk : EqUnless p m.1 n.1)
    (hv : EqUnless q m.2 n.2) : EqUnless (p ∨ q) (memberText m) (memberText n) :=
  (eqUnless_quote hk).append (hv.cons 58)

theorem null_diverge_intText (i : Int) : Diverge (ascii "null") (intText i) := by
  unfold intText
  split_ifs
  · exact Diverge.head (by decide) _ _
  · obtain ⟨b, u, hu, hb⟩ := (isInt_natText i.natAbs).head
    rw [hu]
    refine Diverge.head ?_ _ _
    rintro rfl
    exact absurd hb.2 (by decide)

theorem commaSep_cons (t : Bytes) (ts : List Bytes) :
    commaSep (t :: ts) = t ++ if ts = [] then [] else 44 :: commaSep ts := by
  cases ts with
  | nil => simp [commaSep]
  | cons u ts => simp [commaSep]

theorem eqUnless_commaSep_cons {p q : Prop} {t u : Bytes} {ts us : List Bytes} (h : EqUnless p t u)
    (hl : ts.length = us.length) (hs : EqUnless q (commaSep ts) (commaSep us)) :
    EqUnless (p ∨ q) (commaSep (t :: ts)) (commaSep (u :: us)) := by
  rw [commaSep_cons, commaSep_cons]
  rcases ts with _ | ⟨t', ts⟩
  · obtain rfl : us = [] := List.length_eq_zero_iff.1 hl.symm
    exact h.append hs
  · rcases us with _ | ⟨u', us⟩
    · cases hl
    · exact h.append (hs.cons 44)

end EnvoyProxy.Json
