import EquationPad.Decimal
import EquationPad.Sign
import EquationPad.Status

/-! Number literals: up to twenty digits and points, with at most one point,
and after a digit perhaps `^`, a sign and a power of ten of one or two digits.
A scan takes the characters one by one; a fault keeps what was read before it,
and the rest begins where the fault was noticed. -/

namespace EquationPad

/-- The most characters a number may have, the point included. -/
def maxNumeralLength : Nat := 20

/-- The most digits an exponent may have. -/
def maxExponentLength : Nat := 2

/-! ## Digits and points -/

/-- The characters taken, what follows them, and the fault that ended the scan. -/
structure NumeralScan where
  lexeme : Text
  rest : Text
  fault : Option Status

namespace NumeralScan

def cons (c : Char) (scan : NumeralScan) : NumeralScan := { scan with lexeme := c :: scan.lexeme }

/-- A lone point is scanned but is no number. -/
def hasDigit (scan : NumeralScan) : Bool := scan.lexeme.any isDigit

end NumeralScan

/-- Goes on after `digits` digits and, if `point` holds, a point. The digit that
is one too many is taken; a second point is not. -/
def scanNumeralFrom (digits : Nat) (point : Bool) : Text → NumeralScan
  | [] => ⟨[], [], none⟩
  | c :: rest =>
    if isDigit c then
      if digits < maxNumeralLength then (scanNumeralFrom (digits + 1) point rest).cons c
      else ⟨[c], rest, some .tooManyDigits⟩
    else if c = '.' then
      if point then ⟨[], c :: rest, some .multipleDecimalPoints⟩
      else (scanNumeralFrom digits true rest).cons c
    else ⟨[], c :: rest, none⟩

/-- Digits and point together must fit as well. -/
def scanNumeral (text : Text) : NumeralScan :=
  let scan := scanNumeralFrom 0 false text
  if scan.fault.isNone && maxNumeralLength < scan.lexeme.length then
    { scan with fault := some .tooManyDigits }
  else scan

/-! ## Literals -/

/-- A result, or the status of a failure, and the text that begins after it. -/
abbrev Scan (α : Type) := Except Status α × Text

structure Exponent where
  negative : Bool
  digits : Text
  deriving DecidableEq

/-- A number as it is written. -/
structure Literal where
  mantissa : Text
  exponent : Option Exponent
  deriving DecidableEq

/-- What follows the `^`. Whatever is wrong with the digits makes the exponent
illegal, unless there are none. -/
def scanExponent (text : Text) : Scan Exponent :=
  let (sign, digits) := scanSign text
  let scan := scanNumeral digits
  let result :=
    if scan.fault.isSome then .error .illegalExponent
    else if !scan.hasDigit then .error .missingExponent
    else if maxExponentLength < scan.lexeme.length || !scan.lexeme.all isDigit then
      .error .illegalExponent
    else .ok ⟨isMinus sign, scan.lexeme⟩
  (result, scan.rest)

/-- A number, or none if there is no digit. -/
def scanLiteral (text : Text) : Scan (Option Literal) :=
  let scan := scanNumeral text
  match scan.fault with
  | some fault => (.error fault, scan.rest)
  | none =>
    if !scan.hasDigit then (.ok none, scan.rest)
    else match scan.rest with
      | '^' :: rest =>
        let (exponent, rest) := scanExponent rest
        (exponent.map fun e => some ⟨scan.lexeme, some e⟩, rest)
      | rest => (.ok (some ⟨scan.lexeme, none⟩), rest)

namespace Literal

/-- The literal in the usual floating notation. -/
def text (literal : Literal) : Text :=
  literal.mantissa ++
    match literal.exponent with
    | none => []
    | some e => 'E' :: (if e.negative then '-' :: e.digits else e.digits)

/-- The nearest double to the number written; text that is no number counts as zero. -/
def value (literal : Literal) : Float :=
  match Decimal.read? literal.text with
  | some (decimal, _) => decimal.toFloat
  | none => 0.0

end Literal

/-! ## Nothing is lost -/

theorem scanNumeralFrom_append (digits : Nat) (point : Bool) (text : Text) :
    (scanNumeralFrom digits point text).lexeme ++ (scanNumeralFrom digits point text).rest =
      text := by
  fun_induction scanNumeralFrom digits point text <;> simp_all [NumeralScan.cons]

theorem scanNumeral_append (text : Text) :
    (scanNumeral text).lexeme ++ (scanNumeral text).rest = text := by
  unfold scanNumeral
  dsimp only
  split <;> exact scanNumeralFrom_append 0 false text

theorem scanNumeral_suffix (text : Text) : (scanNumeral text).rest <:+ text :=
  ⟨_, scanNumeral_append text⟩

theorem length_scanNumeral_lt {text : Text} (h : (scanNumeral text).hasDigit) :
    (scanNumeral text).rest.length < text.length := by
  have whole := congrArg List.length (scanNumeral_append text)
  have taken : (scanNumeral text).lexeme ≠ [] := by
    intro empty
    simp [NumeralScan.hasDigit, empty] at h
  have := List.length_pos_iff.mpr taken
  simp only [List.length_append] at whole
  omega

theorem scanExponent_suffix (text : Text) : (scanExponent text).2 <:+ text :=
  (scanNumeral_suffix _).trans (scanSign_suffix text)

/-- After the digits a literal may take an exponent, so it leaves a suffix of what they leave. -/
theorem scanLiteral_rest_suffix (text : Text) : (scanLiteral text).2 <:+ (scanNumeral text).rest := by
  unfold scanLiteral
  dsimp only
  split
  · exact List.suffix_rfl
  · split
    · exact List.suffix_rfl
    · split
      · rename_i rest h
        exact h ▸ (scanExponent_suffix rest).trans (List.suffix_cons _ _)
      · exact List.suffix_rfl

theorem scanLiteral_suffix (text : Text) : (scanLiteral text).2 <:+ text :=
  (scanLiteral_rest_suffix text).trans (scanNumeral_suffix text)

theorem hasDigit_of_scanLiteral {text : Text} {literal : Literal}
    (h : (scanLiteral text).1 = .ok (some literal)) : (scanNumeral text).hasDigit := by
  unfold scanLiteral at h
  dsimp only at h
  split at h
  · simp at h
  · split at h
    · simp at h
    · rename_i digit
      simpa using digit

theorem length_scanLiteral_lt {text : Text} {literal : Literal}
    (h : (scanLiteral text).1 = .ok (some literal)) :
    (scanLiteral text).2.length < text.length :=
  Nat.lt_of_le_of_lt (scanLiteral_rest_suffix text).length_le
    (length_scanNumeral_lt (hasDigit_of_scanLiteral h))

end EquationPad
