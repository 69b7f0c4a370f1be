/-! Text as the pad sees it: a list of characters, one per byte of the input,
each below 256. Positions, columns and field widths count characters. Blanks,
digits and name characters are ASCII whatever the locale: bytes above 127 are
none of them. -/

namespace EquationPad

/-- One character per byte. -/
abbrev Text := List Char

instance : Coe String Text := ⟨String.toList⟩

/-- Space, tab, newline, vertical tab, form feed and carriage return. -/
def isBlank (c : Char) : Bool := c = ' ' || ('\t' ≤ c && c ≤ '\r')

def isDigit (c : Char) : Bool := '0' ≤ c && c ≤ '9'

/-- Variable names are made of ASCII letters and underscores. -/
def isNameChar (c : Char) : Bool :=
  ('a' ≤ c && c ≤ 'z') || ('A' ≤ c && c ≤ 'Z') || c = '_'

def skipBlanks (text : Text) : Text := text.dropWhile isBlank

def trimRight (text : Text) : Text := (text.reverse.dropWhile isBlank).reverse

/-- The value of a run of decimal digits. -/
def digitsValue (digits : Text) : Nat := Nat.ofDigitChars 10 digits 0

/-- A natural number in decimal. -/
def showNat (n : Nat) : Text := Nat.toDigits 10 n

/-- An integer in decimal, with a minus sign if it is negative. -/
def showInt : Int → Text
  | .ofNat n => showNat n
  | .negSucc n => '-' :: showNat (n + 1)

/-- Fills a short text with spaces on the right; a long one is kept whole. -/
def padRight (width : Nat) (text : Text) : Text :=
  text ++ List.replicate (width - text.length) ' '

/-! ## Lines -/

/-- Cuts at newlines. A final newline ends the last line and opens no other. -/
def breakLines : Text → List Text
  | [] => []
  | c :: rest =>
    if c = '\n' then [] :: breakLines rest
    else match breakLines rest with
      | [] => [[c]]
      | line :: more => (c :: line) :: more

/-- Drops one carriage return at the end of a line. -/
def dropReturn (line : Text) : Text :=
  if line.getLast? = some '\r' then line.dropLast else line

/-- The lines of a text, ended by a newline or by a carriage return and a newline. -/
def linesOf (text : Text) : List Text := (breakLines text).map dropReturn

theorem length_skipBlanks_le (text : Text) : (skipBlanks text).length ≤ text.length :=
  (List.dropWhile_sublist _).length_le

theorem skipBlanks_suffix (text : Text) : skipBlanks text <:+ text :=
  List.dropWhile_suffix _

end EquationPad
