import EnvoyProxy.Lib.JsonReader
import EnvoyProxy.Lib.Numerals
import EnvoyProxy.Dubbo.Render
/-!
# Rendering a BigInteger

`divideByWord` is long division of a number in words of 32 bits, in place, and
`from` stands at the first word of the quotient that is not zero. So the
groups the loop collects are the digits of the number to the base 10^9, and
their text is its numeral.
-/

namespace EnvoyProxy.Dubbo
open Json

/-- The value of `mag`: its words, read as unsigned, most significant first. -/
def magnitude (mag : List Int32) : Nat := wordsValue 32 (mag.map fun i => i.toUInt32.toNat)

/-! ## One division -/

theorem divisor_pos : 0 < divisor := by decide

/-- The words before `i` have been divided. -/
structure Divided (values : List Nat) (i : Nat) (s : Division) : Prop where
  length : s.values.length = values.length
  rest : s.values.drop i = values.drop i
  small : ∀ x ∈ s.values, x < 2 ^ 32
  remainder : s.remainder < divisor
  value : wordsValue 32 (values.take i) = wordsValue 32 (s.values.take i) * divisor + s.remainder
  zeros : ∀ x ∈ s.values.take s.start, x = 0
  start : if s.previousNonZero then ∃ x, s.values[s.start]? = some x ∧ x ≠ 0 ∧ s.start < i else s.start = i

theorem dividend_eq (r : Nat) {x : Nat} (hx : x < 2 ^ 32) : r <<< 32 ||| x = r * 2 ^ 32 + x := by
  rw [← Nat.shiftLeft_add_eq_or_of_lt hx, Nat.shiftLeft_eq]

theorem dividend_lt {r x : Nat} (hr : r < divisor) (hx : x < 2 ^ 32) : r <<< 32 ||| x < divisor * 2 ^ 32 := by
  rw [dividend_eq r hx]
  calc r * 2 ^ 32 + x < (r + 1) * 2 ^ 32 := by rw [Nat.add_mul]; omega
    _ ≤ divisor * 2 ^ 32 := Nat.mul_le_mul_right _ hr

variable {values : List Nat} {i : Nat} {s : Division}

theorem Divided.word (h : Divided values i s) (hi : i < values.length) :
    s.values.getD i 0 = values[i] ∧ values[i] < 2 ^ 32 := by
  have hget : s.values[i]? = some values[i] := by
    have hdrop := congrArg (·[0]?) h.rest
    simpa [List.getElem?_drop, List.getElem?_eq_getElem hi] using hdrop
  refine ⟨by rw [List.getD_eq_getElem?_getD, hget, Option.getD_some], h.small _ (List.mem_of_getElem? hget)⟩

theorem Divided.step (h : Divided values i s) (hi : i < values.length) :
    Divided values (i + 1) (divideStep s i) := by
  obtain ⟨hword, hsmall⟩ := h.word hi
  have hlength : i < s.values.length := by rw [h.length]; exact hi
  have hlt := dividend_lt h.remainder hsmall
  unfold divideStep
  simp only [hword]
  have hdividend := dividend_eq s.remainder hsmall
  generalize s.remainder <<< 32 ||| values[i] = dividend at hlt hdividend
  have hresult : dividend / divisor < 2 ^ 32 := Nat.div_lt_of_lt_mul hlt
  have hrest : dividend - dividend / divisor * divisor = dividend % divisor := by
    rw [Nat.mul_comm]
    exact (Nat.mod_eq_sub_mul_div).symm
  have hset : (s.values.set i (dividend / divisor)).take (i + 1) = s.values.take i ++ [dividend / divisor] := by
    rw [List.take_add_one, List.take_set_of_le le_rfl, List.getElem?_set_self hlength]
    rfl
  rw [hrest]
  refine ⟨by rw [List.length_set, h.length], ?_, ?_, Nat.mod_lt _ divisor_pos, ?_, ?_, ?_⟩
  · have hdrop := congrArg (List.drop 1) h.rest
    rw [List.drop_drop, List.drop_drop] at hdrop
    rw [List.drop_set_of_lt (Nat.lt_succ_self i)]
    exact hdrop
  · intro x hx
    rcases List.mem_or_eq_of_mem_set hx with hx | rfl
    · exact h.small x hx
    · exact hresult
  · -- the quotient gets its next word
    have htake : values.take (i + 1) = values.take i ++ [values[i]] := by
      rw [List.take_add_one, List.getElem?_eq_getElem hi]
      rfl
    rw [htake, hset, wordsValue_snoc, wordsValue_snoc, h.value]
    have hdiv := Nat.div_add_mod dividend divisor
    rw [hdividend] at hdiv ⊢
    rw [Nat.add_mul, Nat.add_mul]
    nlinarith [hdiv]
  · split_ifs with hskip
    · rw [hset, hskip.1]
      intro x hx
      rcases List.mem_append.1 hx with hx | hx
      · have hstart : s.start = i := by simpa [hskip.2] using h.start
        exact h.zeros x (hstart ▸ hx)
      · exact List.mem_singleton.1 hx
    · have hle : s.start ≤ i := by
        have hstart := h.start
        split_ifs at hstart
        · obtain ⟨x, -, -, hlt⟩ := hstart
          exact hlt.le
        · exact hstart.le
      rw [List.take_set_of_le hle]
      exact h.zeros
  · have hstart := h.start
    by_cases hprevious : s.previousNonZero = true
    · -- the first word of the quotient has been found
      obtain ⟨x, hx, hne, hbefore⟩ : ∃ x, s.values[s.start]? = some x ∧ x ≠ 0 ∧ s.start < i :=
        by simpa [hprevious] using hstart
      simp only [hprevious, Bool.true_or, if_true, Bool.true_eq_false, and_false, if_false]
      exact ⟨x, by rw [List.getElem?_set_ne hbefore.ne', hx], hne, by omega⟩
    · obtain rfl : s.start = i := by simpa [hprevious] using hstart
      rw [Bool.not_eq_true] at hprevious
      by_cases hzero : dividend / divisor = 0
      · simp [hzero, hprevious]
      · simp only [hzero, hprevious, Bool.false_or, bne_iff_ne, ne_eq, not_false_eq_true, if_true,
          false_and, if_false]
        exact ⟨_, List.getElem?_set_self hlength, hzero, Nat.lt_succ_self _⟩

/-- The division before the word at `i`. -/
def dividing (values : List Nat) (start i : Nat) : Division :=
  (List.range' start (i - start)).foldl divideStep ⟨values, start, false, 0⟩

/-- The words before `from` are zero and stay so. -/
theorem divided_dividing {start : Nat} (hsmall : ∀ x ∈ values, x < 2 ^ 32) (hzeros : ∀ x ∈ values.take start, x = 0)
    (hstart : start ≤ i) (hi : i ≤ values.length) : Divided values i (dividing values start i) := by
  obtain ⟨k, rfl⟩ := Nat.exists_eq_add_of_le hstart
  unfold dividing
  rw [Nat.add_sub_cancel_left]
  induction k with
  | zero => exact ⟨rfl, rfl, hsmall, divisor_pos, by simp [wordsValue_eq_zero hzeros], hzeros, rfl⟩
  | succ k ih =>
    rw [List.range'_1_concat, List.foldl_append]
    exact (ih (by omega) (by omega)).step (by omega)

/-- The quotient and the remainder; `from` stands at the first word of the
quotient that is not zero. -/
theorem divideByWord_spec {start : Nat} (hsmall : ∀ x ∈ values, x < 2 ^ 32) (hzeros : ∀ x ∈ values.take start, x = 0)
    (hstart : start ≤ values.length) :
    let s := divideByWord values start
    s.values.length = values.length ∧ (∀ x ∈ s.values, x < 2 ^ 32) ∧ s.remainder = wordsValue 32 values % divisor ∧
      wordsValue 32 s.values = wordsValue 32 values / divisor ∧ (∀ x ∈ s.values.take s.start, x = 0) ∧
      (s.start = values.length ∨ ∃ x, s.values[s.start]? = some x ∧ x ≠ 0) := by
  have h : Divided values values.length (divideByWord values start) := divided_dividing hsmall hzeros hstart le_rfl
  have hvalue := h.value
  rw [List.take_length, ← h.length, List.take_length] at hvalue
  have hdiv := (Nat.div_mod_unique divisor_pos).2
    ⟨(Nat.add_comm _ _).trans ((Nat.mul_comm _ _ ▸ hvalue).symm), h.remainder⟩
  refine ⟨h.length, h.small, hdiv.2.symm, hdiv.1.symm, h.zeros, ?_⟩
  have hfirst := h.start
  split_ifs at hfirst
  · obtain ⟨x, hx, hne, -⟩ := hfirst
    exact .inr ⟨x, hx, hne⟩
  · exact .inl hfirst

/-! ## All of them -/

/-- `from` stands at the first word that is not zero. -/
structure Scanned (values : List Nat) (start : Nat) : Prop where
  small : ∀ x ∈ values, x < 2 ^ 32
  zeros : ∀ x ∈ values.take start, x = 0
  start : start = values.length ∨ ∃ x, values[start]? = some x ∧ x ≠ 0

theorem Scanned.le (h : Scanned values i) : i ≤ values.length := by
  rcases h.start with hend | ⟨x, hx, -⟩
  · exact hend.le
  · obtain ⟨hlt, -⟩ := List.getElem?_eq_some_iff.1 hx
    exact hlt.le

theorem scanned_divideByWord {start : Nat} (hsmall : ∀ x ∈ values, x < 2 ^ 32)
    (hzeros : ∀ x ∈ values.take start, x = 0) (hstart : start ≤ values.length) :
    Scanned (divideByWord values start).values (divideByWord values start).start := by
  obtain ⟨hlength, hsmall', -, -, hzeros', hfirst⟩ := divideByWord_spec hsmall hzeros hstart
  exact ⟨hsmall', hzeros', by rw [hlength]; exact hfirst⟩

theorem decimalGroups_succ (fuel : Nat) (values : List Nat) (start : Nat) :
    decimalGroups (fuel + 1) values start =
      if start < values.length then
        (divideByWord values start).remainder ::
          decimalGroups fuel (divideByWord values start).values (divideByWord values start).start
      else [] := rfl

/-- Enough rounds give the digits to the base 10^9. -/
theorem decimalGroups_scanned (fuel : Nat) (h : Scanned values i) (hfuel : wordsValue 32 values < 2 ^ (29 * fuel)) :
    decimalGroups fuel values i = Nat.digits divisor (wordsValue 32 values) := by
  induction fuel generalizing values i with
  | zero =>
    have hzero : wordsValue 32 values = 0 := by omega
    rw [hzero, Nat.digits_zero]
    rfl
  | succ fuel ih =>
    rw [decimalGroups_succ]
    split_ifs with hi
    · obtain ⟨-, -, hremainder, hquotient, -, -⟩ := divideByWord_spec h.small h.zeros hi.le
      have hpos : 0 < wordsValue 32 values := by
        rcases h.start with hend | ⟨x, hx, hne⟩
        · omega
        · exact wordsValue_pos ⟨x, List.mem_of_getElem? hx, hne⟩
      have hless : wordsValue 32 (divideByWord values i).values < 2 ^ (29 * fuel) := by
        rw [hquotient]
        apply Nat.div_lt_of_lt_mul
        calc wordsValue 32 values < 2 ^ (29 * (fuel + 1)) := hfuel
          _ = 2 ^ 29 * 2 ^ (29 * fuel) := by rw [Nat.mul_add, Nat.pow_add]; ring
          _ ≤ divisor * 2 ^ (29 * fuel) := Nat.mul_le_mul_right _ (by decide)
      rw [ih (scanned_divideByWord h.small h.zeros hi.le) hless, hremainder, hquotient,
        ← Nat.digits_def' (by decide) hpos]
    · obtain rfl : i = values.length := le_antisymm h.le (not_lt.1 hi)
      rw [wordsValue_eq_zero (List.take_length (l := values) ▸ h.zeros), Nat.digits_zero]

/-- The groups of a number: its digits, or the one digit of zero. -/
def groupsOf (n : Nat) : List Nat := if n = 0 then [0] else Nat.digits divisor n

/-- The first round may start at words that are zero. -/
theorem decimalGroups_eq {words : List Nat} (hne : words ≠ []) (hsmall : ∀ x ∈ words, x < 2 ^ 32) {fuel : Nat}
    (hfuel : 2 * words.length ≤ fuel) : decimalGroups fuel words 0 = groupsOf (wordsValue 32 words) := by
  have hlength := List.length_pos_of_ne_nil hne
  obtain ⟨fuel, rfl⟩ : ∃ n, fuel = n + 1 := ⟨fuel - 1, by omega⟩
  have hzeros : ∀ x ∈ words.take 0, x = 0 := by simp
  obtain ⟨-, -, hremainder, hquotient, -, -⟩ := divideByWord_spec hsmall hzeros (Nat.zero_le _)
  have hless : wordsValue 32 (divideByWord words 0).values < 2 ^ (29 * fuel) := by
    rw [hquotient]
    apply Nat.div_lt_of_lt_mul
    calc wordsValue 32 words < 2 ^ (32 * words.length) := wordsValue_lt hsmall
      _ ≤ 2 ^ (29 + 29 * fuel) := Nat.pow_le_pow_right (by norm_num) (by omega)
      _ = 2 ^ 29 * 2 ^ (29 * fuel) := Nat.pow_add ..
      _ ≤ divisor * 2 ^ (29 * fuel) := Nat.mul_le_mul_right _ (by decide)
  rw [decimalGroups_succ, if_pos hlength, decimalGroups_scanned fuel
    (scanned_divideByWord hsmall (by simp) (Nat.zero_le _)) hless,
    hremainder, hquotient]
  unfold groupsOf
  split_ifs with hzero
  · rw [hzero, Nat.zero_div, Nat.digits_zero, Nat.zero_mod]
  · rw [← Nat.digits_def' (by decide) (Nat.pos_of_ne_zero hzero)]

theorem groupsText_snoc (g : Nat) {gs : List Nat} (hne : gs ≠ []) :
    groupsText (g :: gs) = groupsText gs ++ padGroup (natText g) := by
  unfold groupsText
  rw [List.reverse_cons]
  rcases hreverse : gs.reverse with _ | ⟨first, rest⟩
  · exact absurd (List.reverse_eq_nil_iff.1 hreverse) hne
  · simp

/-- The text of the groups is the numeral. -/
theorem groupsText_groupsOf (n : Nat) : groupsText (groupsOf n) = natText n := by
  induction n using Nat.strong_induction_on with
  | _ n ih =>
    unfold groupsOf
    split_ifs with hzero
    · subst hzero
      rfl
    · rw [Nat.digits_def' (by decide) (Nat.pos_of_ne_zero hzero)]
      by_cases hquotient : n / divisor = 0
      · -- one group
        rw [hquotient, Nat.digits_zero, Nat.mod_eq_of_lt ((Nat.div_eq_zero_iff_lt divisor_pos).1 hquotient)]
        simp [groupsText]
      · have hgroups : groupsOf (n / divisor) = Nat.digits divisor (n / divisor) := if_neg hquotient
        have hne : Nat.digits divisor (n / divisor) ≠ [] := by simpa [Nat.digits_eq_nil_iff_eq_zero] using hquotient
        have hlt : n / divisor < n := Nat.div_lt_self (Nat.pos_of_ne_zero hzero) (by decide)
        rw [groupsText_snoc _ hne, ← hgroups, ih _ hlt]
        have hremainder : n % divisor < 10 ^ 9 := Nat.mod_lt n divisor_pos
        have hnumeral := natText_group (Nat.pos_of_ne_zero hquotient) hremainder (by norm_num)
        have hsplit : n / divisor * 10 ^ 9 + n % divisor = n := Nat.div_add_mod' n divisor
        rw [hsplit] at hnumeral
        exact hnumeral.symm

/-! ## The text as a number -/

theorem digitsValue_natText (n : Nat) : digitsValue (natText n) = some n := by
  have hdigits : natText n ≠ [] ∧ (natText n).all (fun b => 48 ≤ b && b ≤ 57) = true := by
    obtain ⟨hne, hall⟩ := isDigits_natText n
    refine ⟨hne, ?_⟩
    rw [List.all_eq_true]
    intro b hb
    obtain ⟨hlow, hhigh⟩ := hall b hb
    simp [hlow, hhigh]
  rw [digitsValue, if_pos hdigits]
  exact congrArg some (natOf_natText n)

theorem natText_head_ne_minus (n : Nat) {t : Bytes} : natText n ≠ 45 :: t := by
  intro heq
  have hdigit := (isDigits_natText n).2 45 (heq ▸ List.mem_cons_self)
  exact absurd hdigit.1 (by decide)

/-- What fits into an `int64_t`. -/
def FitsInt64 (i : Int) : Prop := -2 ^ 63 ≤ i ∧ i < 2 ^ 63

instance (i : Int) : Decidable (FitsInt64 i) := inferInstanceAs (Decidable (_ ∧ _))

theorem bind_fitsInt64 {o : Option Int} {i : Int} (h : o = some i) :
    (o.bind fun i => if -2 ^ 63 ≤ i ∧ i < 2 ^ 63 then some i else none) = if FitsInt64 i then some i else none := by
  subst h
  exact if_congr Iff.rfl rfl rfl

theorem simpleAtoi_minus (n : Nat) : simpleAtoi (45 :: natText n) = if FitsInt64
    (-(n : Int)) then some (-(n : Int)) else none := by
  unfold simpleAtoi
  apply bind_fitsInt64
  rw [digitsValue_natText]
  rfl

theorem simpleAtoi_natText (n : Nat) : simpleAtoi (natText n) = if FitsInt64 n then some (n : Int) else none := by
  unfold simpleAtoi
  split
  · rename_i heq
    exact absurd heq (natText_head_ne_minus n)
  · apply bind_fitsInt64
    rw [digitsValue_natText]
    rfl

/-- A sign and a numeral; zero may have a sign. -/
theorem simpleAtoi_text (minus : Prop) [Decidable minus] (n : Nat) :
    simpleAtoi ((if minus then [45] else []) ++ natText n) =
      if FitsInt64 (if minus then -(n : Int) else n) then some (if minus then -(n : Int) else n) else none := by
  by_cases hminus : minus
  · simp only [if_pos hminus]
    exact simpleAtoi_minus n
  · simp only [if_neg hminus]
    exact simpleAtoi_natText n

theorem text_eq_intText {minus : Prop} [Decidable minus] {n : Nat} (hn : 0 < n) :
    (if minus then [45] else []) ++ natText n = intText (if minus then -(n : Int) else n) := by
  unfold intText
  split_ifs with hminus hneg hneg
  · simp
  · omega
  · omega
  · simp

/-! ## The converter -/

/-- The rounds of the `while` loop: the words and `from` before each. -/
inductive Round (words : List Nat) : List Nat → Nat → Prop
  | first : Round words words 0
  | next {values : List Nat} {start : Nat} : Round words values start → start < values.length →
      Round words (divideByWord values start).values (divideByWord values start).start

/-- What a round computes fits into 64 bits, and its assertions hold. -/
structure RoundFits (values : List Nat) (start : Nat) : Prop where
  word : ∀ i, start ≤ i → i < values.length → (dividing values start i).values.getD i 0 ≤ 0xffffffff
  dividend : ∀ i, start ≤ i → i < values.length →
    (dividing values start i).remainder <<< 32 ||| (dividing values start i).values.getD i 0 < 2 ^ 64
  group : (natText (divideByWord values start).remainder).length ≤ 9

theorem Round.sound {words : List Nat} {start : Nat} (hsmall : ∀ x ∈ words, x < 2 ^ 32)
    (h : Round words values start) :
    (∀ x ∈ values, x < 2 ^ 32) ∧ ∀ x ∈ values.take start, x = 0 := by
  induction h with
  | first => exact ⟨hsmall, by simp⟩
  | next _ hstart ih =>
    have hscanned := scanned_divideByWord ih.1 ih.2 hstart.le
    exact ⟨hscanned.small, hscanned.zeros⟩

theorem Round.fits {words : List Nat} {start : Nat} (hsmall : ∀ x ∈ words, x < 2 ^ 32) (h : Round words values start)
    (hstart : start < values.length) : RoundFits values start := by
  obtain ⟨hvalues, hzeros⟩ := h.sound hsmall
  have hdivided (i : Nat) (hle : start ≤ i) (hi : i < values.length) : Divided values i (dividing values start i) :=
    divided_dividing hvalues hzeros hle hi.le
  refine ⟨?_, ?_, ?_⟩
  · intro i hle hi
    obtain ⟨hword, hlt⟩ := (hdivided i hle hi).word hi
    rw [hword]
    exact Nat.le_of_lt_succ hlt
  · intro i hle hi
    obtain ⟨hword, hlt⟩ := (hdivided i hle hi).word hi
    rw [hword]
    calc _ < divisor * 2 ^ 32 := dividend_lt (hdivided i hle hi).remainder hlt
      _ ≤ 2 ^ 64 := by decide
  · obtain ⟨-, -, hremainder, -⟩ := divideByWord_spec hvalues hzeros hstart.le
    rw [hremainder]
    exact natText_length_le (by norm_num) (Nat.mod_lt _ divisor_pos)

theorem bigIntegerText_eq (signum : Int32) {words : List Nat} (hne : words ≠ []) (hsmall : ∀ x ∈ words, x < 2 ^ 32) :
    bigIntegerText signum words = (if signum < 0 then [45] else []) ++ natText (wordsValue 32 words) := by
  rw [bigIntegerText, decimalGroups_eq hne hsmall (Nat.le_succ _), groupsText_groupsOf]

variable {P : Type} {heap : Heap P}

theorem magWords_eq {objects : List P} {mag : List Int32} (h : objects.map heap = mag.map .integer) :
    magWords heap objects = some (mag.map fun i => i.toUInt32.toNat) := by
  unfold magWords
  induction mag generalizing objects with
  | nil =>
    rw [List.map_eq_nil_iff.1 h]
    rfl
  | cons i mag ih =>
    obtain ⟨object, objects, rfl⟩ := List.exists_cons_of_ne_nil (l := objects) (by rintro rfl; cases h)
    obtain ⟨hobject, hobjects⟩ := List.cons.inj h
    rw [List.mapM_cons, hobject, ih hobjects]
    rfl

theorem words_lt (mag : List Int32) : ∀ x ∈ mag.map fun i => i.toUInt32.toNat, x < 2 ^ 32 := by
  intro x hx
  obtain ⟨i, -, rfl⟩ := List.mem_map.1 hx
  exact i.toUInt32.toNat_lt

theorem sign_eq {signum : Int32} (hne : signum ≠ 0) (n : Nat) :
    signum.toInt.sign * (n : Int) = if signum < 0 then -(n : Int) else n := by
  have hzero : signum.toInt ≠ 0 := fun heq => hne (Int32.toInt_inj.1 heq)
  by_cases hneg : signum < 0
  · rw [if_pos hneg, Int.sign_eq_neg_one_of_neg (Int32.lt_iff_toInt_lt.1 hneg), Int.neg_one_mul]
  · have hpos : 0 < signum.toInt := by
      have hnot : ¬ signum.toInt < 0 := fun hlt => hneg (Int32.lt_iff_toInt_lt.2 hlt)
      omega
    rw [if_neg hneg, Int.sign_eq_one_of_pos hpos, Int.one_mul]

/-- An instance with fields `signum` and `mag` is rendered as the number they
stand for: a JSON number when it fits into 64 bits, else a string with the
same digits. The loop is over after two rounds a word at the latest. -/
theorem bigInteger_exact {d : RawDefinition} {data objects : List P} {i j : Nat} {magObject sigObject : P} {mag : List Int32}
    {signum : Int32} (hmag : fieldIndex d.fieldNames (ascii "mag") = some i)
    (hsig : fieldIndex d.fieldNames (ascii "signum") = some j) (hi : data[i]? = some magObject) (hj : data[j]? = some sigObject)
    (hsignum : heap sigObject = .integer signum) (hlist : (heap magObject).toTypedList = some objects)
    (hobjects : objects.map heap = mag.map .integer) (hne : mag ≠ []) (writer : Writer) :
    let value : Int := signum.toInt.sign * magnitude mag
    let words := mag.map fun i => i.toUInt32.toNat
    bigIntegerConverter heap d data writer =
        Except.ok (if FitsInt64 value then writer.int value else writer.string (intText value)) ∧
      (∀ fuel, 2 * words.length ≤ fuel → decimalGroups fuel words 0 = decimalGroups (2 * words.length) words 0) ∧
      ∀ values start, Round words values start → start < values.length → RoundFits values start := by
  intro value words
  have hwords : words ≠ [] := by simpa [words] using hne
  refine ⟨?_, ?_, ?_⟩
  · unfold bigIntegerConverter bigIntegerFields
    simp only [hmag, hsig, hi, hj, hsignum, Node.toInteger, Option.bind_eq_bind, Option.bind_some]
    by_cases hzero : signum = 0
    · subst hzero
      have hvalue : value = 0 := by simp [value]
      have hfits : FitsInt64 0 := by unfold FitsInt64; norm_num
      rw [hvalue, if_pos rfl, if_pos hfits]
    · have htext : bigIntegerText signum (mag.map fun i => i.toUInt32.toNat) =
          (if signum < 0 then [45] else []) ++ natText (magnitude mag) :=
            bigIntegerText_eq signum hwords (words_lt mag)
      have hvalue : value = if signum < 0 then -(magnitude mag : Int) else magnitude mag := sign_eq hzero _
      have hatoi := simpleAtoi_text (signum < 0) (magnitude mag)
      simp only [if_neg hzero, hlist, magWords_eq hobjects, Option.bind_some]
      rw [htext, hatoi, ← hvalue]
      by_cases hfits : FitsInt64 value
      · simp only [if_pos hfits]
      · -- a number that does not fit is not zero
        have hpos : 0 < magnitude mag := by
          by_contra hnot
          have hmagnitude : magnitude mag = 0 := by omega
          apply hfits
          rw [hvalue, hmagnitude]
          simp [FitsInt64]
        simp only [if_neg hfits]
        rw [text_eq_intText hpos, ← hvalue]
  · intro fuel hfuel
    rw [decimalGroups_eq hwords (words_lt mag) hfuel, decimalGroups_eq hwords (words_lt mag) le_rfl]
  · intro values start hround hstart
    exact hround.fits (words_lt mag) hstart

/-- Minus 2^32: two words. -/
theorem bigInteger_two_words :
    bigIntegerConverter HessianValue.node ⟨ascii "java.math.BigInteger", [ascii "signum", ascii "mag"]⟩
        [.integer (-1), .typedList (ascii "[int") [.integer 1, .integer 0]] Writer.new = .ok (Writer.new.int (-4294967296)) := by
  have h := (@bigInteger_exact _ HessianValue.node ⟨ascii "java.math.BigInteger", [ascii "signum", ascii "mag"]⟩
    [.integer (-1), .typedList (ascii "[int") [.integer 1, .integer 0]] _ 1 0 _ _ [1, 0] (-1) rfl rfl rfl rfl rfl rfl rfl (by simp)
    Writer.new).1
  have hvalue : (-1 : Int32).toInt.sign * (magnitude [1, 0] : Int) = -4294967296 := by decide
  have hfits : FitsInt64 (-4294967296) := by unfold FitsInt64; norm_num
  rwa [hvalue, if_pos hfits] at h

end EnvoyProxy.Dubbo
