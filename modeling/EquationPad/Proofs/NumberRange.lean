import Mathlib.Tactic.NormNum
import EquationPad.Proofs.Contributions

/-! How great and how small the number of a term can be. The digits of a number are limited by one
scanner and those of its exponent by another, and neither looks at the number they make together.
The two limits are tight enough all the same: a number that is not zero is a normal double but for
rounding, so that converting it can neither overflow nor underflow, and as its text is a floating
literal from beginning to end, converting it cannot fail either or stop before the end. -/

namespace EquationPad

/-! ## Floating literals -/

/-- Digits, perhaps with a point among them, before them or behind them, and how many of them are
behind the point. -/
inductive MantissaText (digits : Text) : Nat → Text → Prop
  | whole : MantissaText digits 0 digits
  | point {front behind} : digits = front ++ behind →
      MantissaText digits behind.length (front ++ '.' :: behind)

/-- Nothing, or `E` and one or two digits, perhaps with a minus sign before them. -/
inductive PowerText : Int → Text → Prop
  | none : PowerText 0 []
  | plus {digits} : IsExponent digits → PowerText (digitsValue digits) ('E' :: digits)
  | minus {digits} : IsExponent digits →
      PowerText (-(digitsValue digits : Int)) ('E' :: '-' :: digits)

/-- A decimal floating literal by its digits, the number of them that are behind the point, and its
power of ten. -/
structure FloatingText (digits : Text) (places : Nat) (power : Int) (text : Text) : Prop where
  nonempty : digits ≠ []
  digit : ∀ c ∈ digits, isDigit c = true
  parts : ∃ mantissa tail, text = mantissa ++ tail ∧ MantissaText digits places mantissa ∧
    PowerText power tail

/-! ## Digits -/

theorem toNat_of_isDigit {c : Char} (h : isDigit c = true) : 48 ≤ c.toNat ∧ c.toNat ≤ 57 := by
  simpa [isDigit, Char.le_def, UInt32.le_iff_toNat_le] using h

theorem digitsValue_cons (c : Char) (rest : Text) :
    digitsValue (c :: rest) = (c.toNat - 48) * 10 ^ rest.length + digitsValue rest := by
  have hone : digitsValue [c] = c.toNat - 48 := by simp [digitsValue, Nat.ofDigitChars_cons]
  rw [← List.singleton_append, digitsValue_append, hone]

theorem digitsValue_lt {digits : Text} (h : ∀ c ∈ digits, isDigit c = true) :
    digitsValue digits < 10 ^ digits.length := by
  induction digits with
  | nil => decide
  | cons c rest ih =>
    obtain ⟨hc, hrest⟩ := List.forall_mem_cons.mp h
    have hdigit : c.toNat - 48 ≤ 9 := by have := toNat_of_isDigit hc; omega
    have hlow := ih hrest
    rw [digitsValue_cons, List.length_cons, pow_succ]
    calc (c.toNat - 48) * 10 ^ rest.length + digitsValue rest
        < 9 * 10 ^ rest.length + 10 ^ rest.length :=
          Nat.add_lt_add_of_le_of_lt (Nat.mul_le_mul_right _ hdigit) hlow
      _ = 10 ^ rest.length * 10 := by ring

theorem digitsValue_eq_zero_iff {digits : Text} (h : ∀ c ∈ digits, isDigit c = true) :
    digitsValue digits = 0 ↔ ∀ c ∈ digits, c = '0' := by
  induction digits with
  | nil => simp [digitsValue]
  | cons c rest ih =>
    obtain ⟨hc, hrest⟩ := List.forall_mem_cons.mp h
    have hzero : c.toNat - 48 = 0 ↔ c = '0' := by
      have := toNat_of_isDigit hc
      rw [← Char.toNat_inj, show '0'.toNat = 48 from rfl]
      omega
    have hpow : 10 ^ rest.length ≠ 0 := pow_ne_zero _ (by omega)
    rw [digitsValue_cons, Nat.add_eq_zero_iff, Nat.mul_eq_zero, or_iff_left hpow, hzero, ih hrest,
      List.forall_mem_cons]

/-! ## What a literal is made of -/

variable {number : Literal} {n : Text}

theorem LiteralText.isNumeral (h : LiteralText number n) : IsNumeral number.mantissa := by
  cases h with
  | plain hmantissa => exact hmantissa
  | power _ hmantissa _ => exact hmantissa

theorem IsNumeral.mantissaText (h : IsNumeral number.mantissa) :
    MantissaText number.digits number.fraction.length number.mantissa := by
  obtain ⟨-, -, ⟨hn, hempty⟩ | hn⟩ := h.point_cases
  · have hdigits : number.digits = number.mantissa := by
      rw [Literal.digits, hempty, List.append_nil, ← hn]
    rw [hempty, hdigits]
    exact .whole
  · rw [hn]
    exact .point rfl

theorem IsNumeral.isDigit_digits (h : IsNumeral number.mantissa) :
    ∀ c ∈ number.digits, isDigit c = true := by
  obtain ⟨hwhole, hfraction, -⟩ := h.point_cases
  intro c hc
  rcases List.mem_append.mp hc with hc | hc
  · exact hwhole c hc
  · exact hfraction c hc

/-- The point takes the place of a digit. -/
theorem IsNumeral.length_digits_le (h : IsNumeral number.mantissa) :
    number.digits.length ≤ 20 ∧ number.fraction.length ≤ 19 := by
  have hfits := h.fits
  rw [Literal.digits, List.length_append]
  obtain ⟨-, -, ⟨hn, hempty⟩ | hn⟩ := h.point_cases
  · rw [hn] at hfits
    rw [hempty, List.length_nil]
    omega
  · rw [hn, List.length_append, List.length_cons] at hfits
    omega

theorem LiteralText.exists_powerText (h : LiteralText number n) :
    ∃ tail, number.text = number.mantissa ++ tail ∧ PowerText number.power tail := by
  cases h with
  | plain _ => exact ⟨[], rfl, .none⟩
  | @power mantissa digits sign _ hdigits =>
    refine ⟨_, rfl, ?_⟩
    rw [Literal.power, Option.elim_some, Exponent.power]
    cases isMinus sign with
    | true => exact .minus hdigits
    | false => exact .plus hdigits

theorem LiteralText.floatingText (h : LiteralText number n) :
    FloatingText number.digits number.fraction.length number.power number.text := by
  obtain ⟨tail, htext, hpower⟩ := h.exists_powerText
  exact ⟨h.isNumeral.digits_ne_nil, h.isNumeral.isDigit_digits,
    _, tail, htext, h.isNumeral.mantissaText, hpower⟩

theorem IsExponent.digitsValue_le {digits : Text} (h : IsExponent digits) :
    digitsValue digits ≤ 99 := by
  have hlt : digitsValue digits < 10 ^ 2 :=
    Nat.lt_of_lt_of_le (digitsValue_lt h.digits) (Nat.pow_le_pow_right (by omega) h.fits)
  omega

theorem PowerText.bounds {power : Int} {tail : Text} (h : PowerText power tail) :
    -99 ≤ power ∧ power ≤ 99 := by
  cases h with
  | none => omega
  | plus hdigits =>
    have := hdigits.digitsValue_le
    omega
  | minus hdigits =>
    have := hdigits.digitsValue_le
    omega

/-! ## The range of a literal -/

/-- The least positive double that has all its binary digits. -/
def leastNormal : ℚ := 2 ^ (-1022 : ℤ)

def greatestDouble : ℚ := (2 ^ 53 - 1) * 2 ^ 971

theorem ten_pow_le (n : Nat) : (10 : ℚ) ^ n ≤ 2 ^ (4 * n) := by
  rw [pow_mul]
  gcongr
  norm_num

theorem Literal.exact_eq (number : Literal) :
    number.exact = digitsValue number.digits * 10 ^ (number.power - number.fraction.length) :=
  number.exact_decimal.symm

theorem LiteralText.exact_eq_zero_iff (h : LiteralText number n) :
    number.exact = 0 ↔ ∀ c ∈ number.digits, c = '0' := by
  have hpow : (10 : ℚ) ^ (number.power - number.fraction.length) ≠ 0 :=
    zpow_ne_zero _ (by norm_num)
  rw [number.exact_eq, mul_eq_zero, or_iff_left hpow, Nat.cast_eq_zero,
    digitsValue_eq_zero_iff h.isNumeral.isDigit_digits]

/-- The least has all its places behind the point, and the greatest has none there. -/
theorem LiteralText.exact_range (h : LiteralText number n) (hne : number.exact ≠ 0) :
    10 ^ (-118 : ℤ) ≤ number.exact ∧ number.exact < 10 ^ 119 := by
  obtain ⟨hdigits, hplaces⟩ := h.isNumeral.length_digits_le
  obtain ⟨_, -, hpower⟩ := h.exists_powerText
  obtain ⟨hlow, hhigh⟩ := hpower.bounds
  rw [number.exact_eq] at hne ⊢
  have hpos : (1 : ℚ) ≤ digitsValue number.digits := by
    have hvalue : digitsValue number.digits ≠ 0 := by
      intro hzero
      rw [hzero, Nat.cast_zero, zero_mul] at hne
      exact hne rfl
    exact_mod_cast Nat.one_le_iff_ne_zero.mpr hvalue
  have hlt : (digitsValue number.digits : ℚ) < 10 ^ 20 := by
    exact_mod_cast Nat.lt_of_lt_of_le (digitsValue_lt h.isNumeral.isDigit_digits)
      (Nat.pow_le_pow_right (by omega) hdigits)
  have hleast : (10 : ℚ) ^ (-118 : ℤ) ≤ 10 ^ (number.power - number.fraction.length) :=
    zpow_le_zpow_right₀ (by norm_num) (by omega)
  have hmost : (10 : ℚ) ^ (number.power - number.fraction.length) ≤ 10 ^ (99 : ℤ) :=
    zpow_le_zpow_right₀ (by norm_num) (by omega)
  constructor
  · calc (10 : ℚ) ^ (-118 : ℤ)
        ≤ 1 * 10 ^ (number.power - number.fraction.length) := by rwa [one_mul]
      _ ≤ digitsValue number.digits * 10 ^ (number.power - number.fraction.length) := by gcongr
  · calc (digitsValue number.digits : ℚ) * 10 ^ (number.power - number.fraction.length)
        ≤ digitsValue number.digits * 10 ^ (99 : ℤ) := by gcongr
      _ < 10 ^ 20 * 10 ^ (99 : ℤ) := by gcongr
      _ = 10 ^ 119 := by norm_num

theorem leastNormal_le : leastNormal ≤ 10 ^ (-118 : ℤ) := by
  have hpow : (10 : ℚ) ^ 118 ≤ 2 ^ 1022 :=
    (ten_pow_le 118).trans (pow_le_pow_right₀ (by norm_num) (by omega))
  rw [leastNormal, zpow_neg, zpow_neg]
  exact inv_anti₀ (by positivity) (by exact_mod_cast hpow)

theorem le_greatestDouble : 10 ^ 119 ≤ greatestDouble := by
  rw [greatestDouble]
  calc (10 : ℚ) ^ 119
      ≤ 2 ^ (4 * 119) := ten_pow_le 119
    _ ≤ 2 ^ 971 := pow_le_pow_right₀ (by norm_num) (by omega)
    _ = 1 * 2 ^ 971 := (one_mul _).symm
    _ ≤ (2 ^ 53 - 1) * 2 ^ 971 := by gcongr; norm_num

/-! ## The numbers of terms -/

/-- The number of a term, if it has one. -/
def Term.number? : Term → Option Literal
  | constant _ number => some number
  | unknown _ factor _ => factor

/-- What is known of a number when it is converted to a double. -/
structure Convertible (number : Literal) : Prop where
  literal : FloatingText number.digits number.fraction.length number.power number.text
  whole : Decimal.read? number.text = some (number.decimal, [])
  converted : number.value = number.decimal.toFloat
  exact : number.exact = digitsValue number.digits * 10 ^ (number.power - number.fraction.length)
  zero : number.exact = 0 ↔ ∀ c ∈ number.digits, c = '0'
  range : number.exact ≠ 0 → 10 ^ (-118 : ℤ) ≤ number.exact ∧ number.exact < 10 ^ 119
  normal : number.exact ≠ 0 → leastNormal ≤ number.exact ∧ number.exact ≤ greatestDouble

theorem LiteralText.convertible (h : LiteralText number n) : Convertible number where
  literal := h.floatingText
  whole := h.read?_text
  converted := h.value_decimal
  exact := number.exact_eq
  zero := h.exact_eq_zero_iff
  range := h.exact_range
  normal hne := by
    obtain ⟨hlow, hhigh⟩ := h.exact_range hne
    exact ⟨leastNormal_le.trans hlow, hhigh.le.trans le_greatestDouble⟩

theorem Term.magnitude_of_number? {t : Term} (h : t.number? = some number) :
    t.magnitude = number.value := by
  cases t with
  | constant sign written =>
    obtain rfl := Option.some.inj h
    rfl
  | unknown sign factor name =>
    obtain rfl : factor = some number := h
    rfl

theorem TermText.literalText {t : Term} {text : Text} (h : TermText t text)
    (hnumber : t.number? = some number) : ∃ n, LiteralText number n :=
  TermText.literal_of_number? h (show (Contribution.ofTerm false t).number? = some number by
    cases t <;> exact hnumber)

theorem Builder.scan_of_accepted {builder : Builder} {c : Cursor}
    (h : (builder.takeTerm c).accepted = true) :
    ∃ t, (Term.scan c.rest).1 = .ok t ∧ (builder.takeTerm c).builder = builder.addTerm t := by
  unfold takeTerm at h ⊢
  dsimp only at h ⊢
  split
  · rename_i t ht
    exact ⟨t, ht, rfl⟩
  · rename_i hfault
    simp [hfault] at h

/-- **A number that is accepted is converted safely.** Wherever a term with a number is accepted,
the text that is converted is a floating literal as a whole and is read to its end. The number it
stands for is the integer of its digits, moved by the exponent and the places behind the point, and
unless all digits are zeros it is a normal double but for rounding. -/
theorem convertible_of_accepted (builder : Builder) (line : Text) (offset : Nat)
    (h : (builder.takeTerm (Cursor.ofLine line offset)).accepted = true) :
    ∃ t, (Term.scan (line.drop offset)).1 = .ok t ∧
      (builder.takeTerm (Cursor.ofLine line offset)).builder = builder.addTerm t ∧
      ∀ number, t.number? = some number →
        t.magnitude = number.value ∧ Convertible number := by
  obtain ⟨t, hscan, hadd⟩ := Builder.scan_of_accepted h
  refine ⟨t, hscan, hadd, ?_⟩
  intro number hnumber
  obtain ⟨piece, hpiece, -⟩ := Term.text_of_scan (Prod.ext hscan rfl)
  obtain ⟨n, hn⟩ := hpiece.literalText hnumber
  exact ⟨t.magnitude_of_number? hnumber, hn.convertible⟩

/-- The least of all numbers that are not zero is the factor of a variable here: a single unit in
the last place behind the point, with the least exponent. -/
theorem convertible_of_accepted_leastNumber :
    ((Builder.report {} .illegalEquation 3).takeTerm
        (Cursor.ofLine "7 = -.0000000000000000001^-99 x" 4)).accepted = true ∧
      Convertible ⟨".0000000000000000001", some ⟨true, "99"⟩⟩ ∧
      Literal.exact ⟨".0000000000000000001", some ⟨true, "99"⟩⟩ = 10 ^ (-118 : ℤ) := by
  have haccepted : ((Builder.report {} .illegalEquation 3).takeTerm
      (Cursor.ofLine "7 = -.0000000000000000001^-99 x" 4)).accepted = true := rfl
  obtain ⟨t, hscan, -, hconvertible⟩ := convertible_of_accepted _ _ _ haccepted
  obtain rfl : Term.unknown (some .minus) (some ⟨".0000000000000000001", some ⟨true, "99"⟩⟩) "x" =
      t := Except.ok.inj hscan
  obtain ⟨-, hnumber⟩ := hconvertible _ rfl
  refine ⟨haccepted, hnumber, ?_⟩
  calc _ = ((1 : Nat) : ℚ) * 10 ^ (-118 : ℤ) := hnumber.exact
    _ = 10 ^ (-118 : ℤ) := by rw [Nat.cast_one, one_mul]

end EquationPad
