import EquationPad.Text

/-! A place in a line: what is left of the line, and how many characters come
before it. A place beyond the end keeps its position and has nothing left. Positions
have no bound here; where they are kept in 32 bits, lines are shorter than `2 ^ 31`
characters. -/

namespace EquationPad

structure Cursor where
  position : Nat
  rest : Text
  deriving DecidableEq

namespace Cursor

/-- The place after the first `position` characters of a line. -/
def ofLine (line : Text) (position : Nat) : Cursor := ⟨position, line.drop position⟩

/-- Moves on to where only `rest` is left. -/
def moveTo (cursor : Cursor) (rest : Text) : Cursor :=
  ⟨cursor.position + (cursor.rest.length - rest.length), rest⟩

def skipBlanks (cursor : Cursor) : Cursor := cursor.moveTo (EquationPad.skipBlanks cursor.rest)

def isAtEnd (cursor : Cursor) : Bool := cursor.rest.isEmpty

@[simp] theorem rest_moveTo (cursor : Cursor) (rest : Text) : (cursor.moveTo rest).rest = rest := rfl

@[simp] theorem rest_skipBlanks (cursor : Cursor) :
    cursor.skipBlanks.rest = EquationPad.skipBlanks cursor.rest := rfl

/-- Moving on never changes where the line ends. -/
theorem position_add_length_moveTo (cursor : Cursor) {rest : Text} (h : rest <:+ cursor.rest) :
    (cursor.moveTo rest).position + rest.length = cursor.position + cursor.rest.length := by
  have := h.length_le
  simp only [moveTo]
  omega

end Cursor

end EquationPad
