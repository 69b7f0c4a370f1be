import EquationPad.Numeral

/-! The two kinds of token of an equation. A term is a number, a name or a number
before a name, with a sign of its own; an operator is a sign or an equal sign,
and a sign may follow the equal sign directly. Terms and operators are read the
same way wherever they stand; what they mean depends on the equation so far. -/

namespace EquationPad

/-- The longest run of name characters, perhaps empty, and what follows it. -/
def scanName (text : Text) : Text × Text := (text.takeWhile isNameChar, text.dropWhile isNameChar)

inductive Term where
  | constant (sign : Option Sign) (number : Literal)
  | unknown (sign : Option Sign) (factor : Option Literal) (name : Text)
  deriving DecidableEq

inductive Operator where
  | additive (sign : Sign)
  | equals (sign : Option Sign)
  deriving DecidableEq

namespace Term

/-- Whether the term carries a minus sign of its own. -/
def isNegative : Term → Bool
  | constant sign _ => isMinus sign
  | unknown sign _ _ => isMinus sign

def isUnknown : Term → Bool
  | constant _ _ => false
  | unknown _ _ _ => true

/-- The number without its sign; a name alone counts once. -/
def magnitude : Term → Float
  | constant _ number => number.value
  | unknown _ (some factor) _ => factor.value
  | unknown _ none _ => 1.0

/-- A term from its parts; there is none without number and name. -/
def ofParts? (sign : Option Sign) (number : Option Literal) (name : Text) : Option Term :=
  match name, number with
  | [], none => none
  | [], some number => some (constant sign number)
  | name, factor => some (unknown sign factor name)

/-- Reads a term and the blanks after it. A failure leaves what follows the place
where it was noticed. -/
def scan (text : Text) : Scan Term :=
  let (sign, rest) := scanSign text
  match scanLiteral (skipBlanks rest) with
  | (.error fault, rest) => (.error fault, rest)
  | (.ok number, rest) =>
    let rest := skipBlanks rest
    let (name, after) := scanName rest
    match ofParts? sign number name with
    | some term => (.ok term, skipBlanks after)
    | none => (.error .noTermEncountered, rest)

end Term

namespace Operator

/-- Whether the operator carries a minus sign. -/
def isNegative : Operator → Bool
  | .additive s => s = .minus
  | .equals s => isMinus s

def isEquals : Operator → Bool
  | .additive _ => false
  | .equals _ => true

/-- The operator at the start of a text, if there is one, and what follows it. -/
def scan? : Text → Option (Operator × Text)
  | '=' :: rest =>
    let (sign, rest) := scanSign rest
    some (.equals sign, rest)
  | text =>
    match scanSign text with
    | (some sign, rest) => some (.additive sign, rest)
    | (none, _) => none

end Operator

/-! ## Progress -/

theorem scanName_append (text : Text) : (scanName text).1 ++ (scanName text).2 = text := by
  simp [scanName]

theorem scanName_suffix (text : Text) : (scanName text).2 <:+ text :=
  ⟨_, scanName_append text⟩

theorem length_scanName_lt {text : Text} (h : (scanName text).1 ≠ []) :
    (scanName text).2.length < text.length := by
  have whole := congrArg List.length (scanName_append text)
  have := List.length_pos_iff.mpr h
  simp only [List.length_append] at whole
  omega

namespace Term

theorem scan_suffix (text : Text) : (scan text).2 <:+ text := by
  have signed := scanSign_suffix text
  have blank := (skipBlanks_suffix (scanSign text).2).trans signed
  have number := (scanLiteral_suffix _).trans blank
  unfold scan
  dsimp only
  split
  · rename_i rest h
    rwa [h] at number
  · rename_i rest h
    rw [h] at number
    have spaced := (skipBlanks_suffix rest).trans number
    split
    · exact (skipBlanks_suffix _).trans ((scanName_suffix _).trans spaced)
    · exact spaced

theorem length_scan_lt {text : Text} {term : Term} (h : (scan text).1 = .ok term) :
    (scan text).2.length < text.length := by
  have blank := ((skipBlanks_suffix (scanSign text).2).trans (scanSign_suffix text)).length_le
  unfold scan at h ⊢
  dsimp only at h ⊢
  split at h
  · simp at h
  · rename_i number rest hnumber
    have afterNumber := (scanLiteral_suffix (skipBlanks (scanSign text).2)).length_le
    rw [hnumber] at afterNumber
    dsimp only at afterNumber
    have afterSpace := length_skipBlanks_le rest
    have afterName := (scanName_suffix (skipBlanks rest)).length_le
    have last := length_skipBlanks_le (scanName (skipBlanks rest)).2
    split
    · rename_i found hparts
      dsimp only
      cases hname : (scanName (skipBlanks rest)).1 with
      | cons c name =>
        have := length_scanName_lt
          (show (scanName (skipBlanks rest)).1 ≠ [] by simp [hname])
        omega
      | nil =>
        cases number with
        | none => simp [ofParts?, hname] at hparts
        | some literal =>
          have := length_scanLiteral_lt
            (show (scanLiteral (skipBlanks (scanSign text).2)).1 = .ok (some literal) by
              rw [hnumber])
          rw [hnumber] at this
          dsimp only at this
          omega
    · rename_i hparts
      simp [hparts] at h

end Term

namespace Operator

theorem length_scan?_lt {text rest : Text} {operator : Operator}
    (h : scan? text = some (operator, rest)) : rest.length < text.length := by
  unfold scan? at h
  split at h
  · rename_i rest'
    simp only [Option.some.injEq, Prod.mk.injEq] at h
    have := (scanSign_suffix rest').length_le
    simp only [← h.2, List.length_cons]
    omega
  · split at h
    · rename_i hsign
      simp only [Option.some.injEq, Prod.mk.injEq] at h
      have := length_scanSign_lt (show (scanSign text).1.isSome by rw [hsign]; rfl)
      rwa [hsign, h.2] at this
    · simp at h

end Operator

end EquationPad
