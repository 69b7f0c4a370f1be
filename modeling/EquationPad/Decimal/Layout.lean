import EquationPad.Decimal

/-! Decimals written with a given number of significant digits. Rounding is to
nearest, ties to even, on the exact value. The general layout drops trailing zeros
and goes over to an exponent below 1e-4 and from the power of ten that needs more
digits than the precision; the scientific layout always has an exponent and as
many digits as asked for. -/

namespace EquationPad

/-- The integer nearest to a quotient, the even one if two are equally near. -/
def roundHalfEven (n d : Nat) : Nat :=
  let q := n / d
  let twice := 2 * (n % d)
  if twice < d then q
  else if d < twice then q + 1
  else if q % 2 = 0 then q else q + 1

namespace Decimal

/-- The decimal with at most `precision` digits that is nearest. Rounding up to
the next power of ten leaves one more digit, a zero. -/
def round (precision : Nat) (d : Decimal) : Decimal :=
  let excess := (showNat d.digits).length - precision
  ⟨roundHalfEven d.digits (Nat.pow 10 excess), d.exponent + excess⟩

/-- The power of ten of the first digit. -/
def leadingPower (d : Decimal) : Int := (showNat d.digits).length - 1 + d.exponent

def dropTrailingZeros (digits : Text) : Text := (digits.reverse.dropWhile (· = '0')).reverse

/-- Digits after a point; no point without digits. -/
def fractionText : Text → Text
  | [] => []
  | digits => '.' :: digits

/-- At least two digits. -/
def exponentText (power : Int) : Text :=
  let digits := showNat power.natAbs
  'e' :: (if power < 0 then '-' else '+') :: (List.replicate (2 - digits.length) '0' ++ digits)

/-- The digits with the point where the power of the first digit puts it. -/
def positional (digits : Text) : Int → Text
  | .ofNat power =>
    let whole := digits.take (power + 1)
    whole ++ List.replicate (power + 1 - whole.length) '0' ++ fractionText (digits.drop (power + 1))
  | .negSucc zeros => ('0' :: '.' :: List.replicate zeros '0') ++ digits

/-- One digit before the point. -/
def scientific (digits : Text) (power : Int) : Text :=
  digits.take 1 ++ fractionText (digits.drop 1) ++ exponentText power

/-- The general layout with `precision` significant digits. -/
def general (precision : Nat) (d : Decimal) : Text :=
  let rounded := d.round precision
  let digits := dropTrailingZeros (showNat rounded.digits)
  let power := rounded.leadingPower
  if -4 ≤ power ∧ power < precision then positional digits power else scientific digits power

/-- The scientific layout with `places` digits after the point. -/
def scientificPlaces (places : Nat) (d : Decimal) : Text :=
  let rounded := d.round (places + 1)
  let digits := showNat rounded.digits ++ List.replicate (places + 1) '0'
  scientific (digits.take (places + 1)) rounded.leadingPower

end Decimal

end EquationPad
