import Mathlib.Algebra.Order.Field.Rat
import Mathlib.Data.List.TakeWhile
import Mathlib.Tactic.FieldSimp
import Mathlib.Tactic.Ring
import EquationPad.Proofs.Scanning

/-! The exact value of a written number. A literal is turned into a double by way of a
decimal, and that decimal has the value that was written, so a double is only as far
from its literal as one rounding takes it. -/

namespace EquationPad

/-! ## Exact values -/

def Exponent.power (e : Exponent) : Int :=
  if e.negative then -(digitsValue e.digits : Int) else digitsValue e.digits

namespace Literal

def whole (literal : Literal) : Text := literal.mantissa.takeWhile (· ≠ '.')

/-- The digits after the point. -/
def fraction (literal : Literal) : Text := (literal.mantissa.dropWhile (· ≠ '.')).drop 1

/-- The number written. -/
def exact (literal : Literal) : ℚ :=
  (digitsValue literal.whole + digitsValue literal.fraction / 10 ^ literal.fraction.length) *
    10 ^ (literal.exponent.elim 0 Exponent.power)

/-- The digits on both sides of the point. -/
def digits (literal : Literal) : Text := literal.whole ++ literal.fraction

def power (literal : Literal) : Int := literal.exponent.elim 0 Exponent.power

/-- The number written, with the point behind its digits. -/
def decimal (literal : Literal) : Decimal :=
  ⟨digitsValue literal.digits, literal.power - literal.fraction.length⟩

end Literal

def Decimal.exact (d : Decimal) : ℚ := d.digits * 10 ^ d.exponent

theorem digitsValue_append (a b : Text) :
    digitsValue (a ++ b) = digitsValue a * 10 ^ b.length + digitsValue b := by
  rw [digitsValue, Nat.ofDigitChars_append, Nat.ofDigitChars_eq_ofDigitChars_zero, Nat.mul_comm]
  rfl

/-! ## Digits around a point -/

/-- A numeral is digits, or digits with one point among them. -/
theorem IsNumeral.point_cases {number : Literal} (h : IsNumeral number.mantissa) :
    (∀ c ∈ number.whole, isDigit c = true) ∧ (∀ c ∈ number.fraction, isDigit c = true) ∧
      (number.mantissa = number.whole ∧ number.fraction = [] ∨
        number.mantissa = number.whole ++ '.' :: number.fraction) := by
  have hsplit : number.whole ++ number.mantissa.dropWhile (· ≠ '.') = number.mantissa :=
    List.takeWhile_append_dropWhile
  have hwhole : ∀ c ∈ number.whole, isDigit c = true := by
    intro c hc
    have hpoint : c ≠ '.' := by simpa using List.mem_takeWhile_imp hc
    have hmem : c ∈ number.mantissa := (List.takeWhile_subset _) hc
    exact (h.chars c hmem).resolve_right hpoint
  refine ⟨hwhole, ?_⟩
  cases hdrop : number.mantissa.dropWhile (· ≠ '.') with
  | nil =>
    rw [hdrop, List.append_nil] at hsplit
    have hfraction : number.fraction = [] := by rw [Literal.fraction, hdrop]; rfl
    exact ⟨by simp [hfraction], .inl ⟨hsplit.symm, hfraction⟩⟩
  | cons c fraction =>
    have hc : c = '.' := by
      have hstop := stops_dropWhile (fun c => decide (c ≠ '.')) number.mantissa
      rw [hdrop] at hstop
      simpa using stops_cons.mp hstop
    have hfraction : number.fraction = fraction := by rw [Literal.fraction, hdrop]; rfl
    rw [hdrop, hc] at hsplit
    refine ⟨?_, .inr (by rw [hfraction, hsplit])⟩
    rw [hfraction]
    intro d hd
    -- the one point is used up
    have hcount : fraction.count '.' = 0 := by
      have hpoints := h.points
      rw [← hsplit, List.count_append, List.count_cons_self] at hpoints
      omega
    have hpoint : d ≠ '.' := by
      rintro rfl
      exact List.count_eq_zero.mp hcount hd
    have hmem : d ∈ number.mantissa := by rw [← hsplit]; simp [hd]
    exact (h.chars d hmem).resolve_right hpoint

theorem IsNumeral.digits_ne_nil {number : Literal} (h : IsNumeral number.mantissa) :
    number.digits ≠ [] := by
  intro hempty
  obtain ⟨hw, hf⟩ := List.append_eq_nil_iff.mp hempty
  obtain ⟨c, hc, hdigit⟩ := h.digit
  obtain ⟨-, -, hn | hn⟩ := h.point_cases
  · rw [hn.1, hw] at hc
    cases hc
  · rw [hn, hw, hf] at hc
    rw [List.mem_singleton.mp hc] at hdigit
    cases hdigit

namespace Decimal

theorem readDigits_append {digits rest : Text} (h : ∀ c ∈ digits, isDigit c = true)
    (hrest : Stops isDigit rest) : readDigits (digits ++ rest) = (digits, rest) := by
  rw [readDigits, takeWhile_append h hrest, dropWhile_append h hrest]

theorem readMantissa_whole {digits rest : Text} (h : ∀ c ∈ digits, isDigit c = true)
    (hrest : Stops isNumeralChar rest) : readMantissa (digits ++ rest) = (digits, [], rest) := by
  rw [readMantissa, readDigits_append h (hrest.mono fun c hc => (Bool.or_eq_false_iff.mp hc).1)]
  cases rest with
  | nil => rfl
  | cons c rest =>
    have hc : c ≠ '.' := by
      rintro rfl
      exact absurd (stops_cons.mp hrest) (by decide)
    dsimp only
    split
    · rename_i heq
      exact absurd (List.cons.inj heq).1 hc
    · rfl

theorem readMantissa_point {front behind rest : Text} (hfront : ∀ c ∈ front, isDigit c = true)
    (hbehind : ∀ c ∈ behind, isDigit c = true) (hrest : Stops isNumeralChar rest) :
    readMantissa (front ++ '.' :: behind ++ rest) = (front, behind, rest) := by
  have hstop : Stops isDigit rest := hrest.mono fun c hc => (Bool.or_eq_false_iff.mp hc).1
  rw [readMantissa, List.append_assoc, List.cons_append,
    readDigits_append hfront (stops_cons.mpr rfl)]
  simp only [readDigits_append hbehind hstop]

theorem readMantissa_append {number : Literal} {rest : Text} (h : IsNumeral number.mantissa)
    (hrest : Stops isNumeralChar rest) :
    readMantissa (number.mantissa ++ rest) = (number.whole, number.fraction, rest) := by
  obtain ⟨hwhole, hfraction, ⟨hn, hempty⟩ | hn⟩ := h.point_cases
  · rw [hn, hempty]
    exact readMantissa_whole hwhole hrest
  · rw [hn]
    exact readMantissa_point hwhole hfraction hrest

theorem readExponent_digits {digits : Text} (hnonempty : digits ≠ [])
    (hdigits : ∀ c ∈ digits, isDigit c = true) (negative : Bool) :
    readExponent ('E' :: (if negative then '-' :: digits else digits)) =
      some (Exponent.power ⟨negative, digits⟩, []) := by
  have hread : readDigits digits = (digits, []) := by
    have := readDigits_append hdigits (stops_nil isDigit)
    rwa [List.append_nil] at this
  have hne : digits.isEmpty = false := List.isEmpty_eq_false_iff.mpr hnonempty
  cases negative with
  | true => simp [readExponent, hread, hne, Exponent.power]
  | false =>
    cases digits with
    | nil => exact absurd rfl hnonempty
    | cons c digits =>
      have hc : c ≠ '-' := by
        rintro rfl
        exact absurd (hdigits '-' (by simp)) (by decide)
      simp only [Bool.false_eq_true, if_false]
      unfold readExponent
      split
      · rename_i heq
        exact absurd (List.cons.inj (List.cons.inj heq).2).1 hc
      · rename_i heq
        obtain rfl := (List.cons.inj heq).2
        simp [hread, Exponent.power]
      · rename_i hother
        exact absurd rfl (hother _)

theorem read?_append {number : Literal} {rest : Text} {power : Int}
    (h : IsNumeral number.mantissa) (hrest : Stops isNumeralChar rest)
    (hpower : readExponent rest = some (power, [])) :
    read? (number.mantissa ++ rest) =
      some (⟨digitsValue (number.whole ++ number.fraction), power - number.fraction.length⟩, []) := by
  have hne : (number.whole ++ number.fraction).isEmpty = false :=
    List.isEmpty_eq_false_iff.mpr h.digits_ne_nil
  simp [read?, readMantissa_append h hrest, hne, hpower]

/-- The point in the digits and the power of ten say the same. -/
theorem exact_digits (whole fraction : Text) (power : Int) :
    (⟨digitsValue (whole ++ fraction), power - fraction.length⟩ : Decimal).exact =
      (digitsValue whole + digitsValue fraction / 10 ^ fraction.length) * 10 ^ power := by
  rw [exact, digitsValue_append, zpow_sub₀ (by norm_num), zpow_natCast]
  push_cast
  field_simp

end Decimal

theorem Literal.exact_decimal (number : Literal) : number.decimal.exact = number.exact :=
  Decimal.exact_digits _ _ _

/-- **A literal is read as the number written**, and nothing of it is left. -/
theorem LiteralText.read?_text {number : Literal} {n : Text} (h : LiteralText number n) :
    Decimal.read? number.text = some (number.decimal, []) := by
  cases h with
  | plain hmantissa => exact @Decimal.read?_append ⟨n, none⟩ [] 0 hmantissa (stops_nil _) rfl
  | @power mantissa digits sign hmantissa hdigits =>
    exact Decimal.read?_append hmantissa (stops_cons.mpr rfl)
      (Decimal.readExponent_digits hdigits.nonempty hdigits.digits (isMinus sign))

theorem LiteralText.value_decimal {number : Literal} {n : Text} (h : LiteralText number n) :
    number.value = number.decimal.toFloat := by
  rw [Literal.value, h.read?_text]

theorem LiteralText.value_eq {number : Literal} {n : Text} (h : LiteralText number n) :
    ∃ d : Decimal, d.exact = number.exact ∧ number.value = d.toFloat :=
  ⟨number.decimal, number.exact_decimal, h.value_decimal⟩

end EquationPad
