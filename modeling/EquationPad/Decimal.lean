import EquationPad.Text

/-! Decimal numbers without sign: an integer times a power of ten. Reading takes
the longest floating literal at the start of a text (digits with at most one
point, then perhaps `E`, a sign and digits), so a literal is read as a whole
exactly if nothing is left. Conversion to a double rounds the exact value once,
to nearest, ties to even. -/

namespace EquationPad

/-- The number `digits * 10 ^ exponent`. -/
structure Decimal where
  digits : Nat
  exponent : Int
  deriving DecidableEq

namespace Decimal

/-- The longest run of digits, perhaps empty, and what follows it. -/
def readDigits (text : Text) : Text × Text := (text.takeWhile isDigit, text.dropWhile isDigit)

/-- Digits, and the digits after a point if there is one. -/
def readMantissa (text : Text) : Text × Text × Text :=
  let (whole, rest) := readDigits text
  match rest with
  | '.' :: rest =>
    let (fraction, rest) := readDigits rest
    (whole, fraction, rest)
  | rest => (whole, [], rest)

/-- The exponent that follows a mantissa; a letter without digits after it is none. -/
def readExponent : Text → Option (Int × Text)
  | 'E' :: '-' :: text =>
    let (digits, rest) := readDigits text
    if digits.isEmpty then none else some (-(digitsValue digits : Int), rest)
  | 'E' :: text =>
    let (digits, rest) := readDigits text
    if digits.isEmpty then none else some (digitsValue digits, rest)
  | text => some (0, text)

/-- Reads a floating literal; the point only moves the exponent. -/
def read? (text : Text) : Option (Decimal × Text) :=
  let (whole, fraction, rest) := readMantissa text
  if (whole ++ fraction).isEmpty then none
  else (readExponent rest).map fun (exponent, rest) =>
    (⟨digitsValue (whole ++ fraction), exponent - fraction.length⟩, rest)

/-- The nearest double. The standard library converts, and is given the digits and the power of ten
as they are. -/
def toFloat (d : Decimal) : Float :=
  match d.exponent with
  | .ofNat e => Float.ofScientific d.digits false e
  | .negSucc e => Float.ofScientific d.digits true (e + 1)

end Decimal

end EquationPad
