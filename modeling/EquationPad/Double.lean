import EquationPad.Decimal.Layout

/-! What a double stands for, read off its bits, and its text. A finite double is a
significand times a power of two, and that has a finite decimal expansion, so its
text is rounded from the exact value and never from an approximation. -/

namespace EquationPad

inductive DoubleValue where
  | notANumber
  | infinite (negative : Bool)
  /-- The number `significand * 2 ^ exponent`, with a sign that zero has too. -/
  | finite (negative : Bool) (significand : Nat) (exponent : Int)

/-- One bit of sign, eleven of exponent, fifty-two of fraction. -/
def decodeDouble (x : Float) : DoubleValue :=
  let bits := x.toBits.toNat
  let negative := bits >>> 63 = 1
  let exponent : Nat := (bits >>> 52) % 0x800
  let fraction := bits % 0x10000000000000
  if exponent = 2047 then if fraction = 0 then .infinite negative else .notANumber
  else if exponent = 0 then .finite negative fraction (-1074)
  else .finite negative (0x10000000000000 + fraction) (exponent - 1075)

/-- The exact decimal; half a unit is five tenths of one. -/
def Decimal.ofBinary (significand : Nat) (exponent : Int) : Decimal :=
  if significand = 0 then ⟨0, 0⟩
  else match exponent with
    | .ofNat e => ⟨significand <<< e, 0⟩
    | .negSucc e => ⟨significand * Nat.pow 5 (e + 1), -(e + 1 : Nat)⟩

/-- A double with its sign; `layout` writes the magnitude. -/
def showDouble (layout : Decimal → Text) (x : Float) : Text :=
  let signed (negative : Bool) (text : Text) : Text := if negative then '-' :: text else text
  match decodeDouble x with
  | .notANumber => "nan"
  | .infinite negative => signed negative "inf"
  | .finite negative significand exponent =>
    signed negative (layout (Decimal.ofBinary significand exponent))

/-- With `precision` significant digits in the general layout. -/
def showGeneral (precision : Nat) (x : Float) : Text := showDouble (Decimal.general precision) x

/-- With `places` digits after the point and an exponent. -/
def showScientific (places : Nat) (x : Float) : Text :=
  showDouble (Decimal.scientificPlaces places) x

end EquationPad
