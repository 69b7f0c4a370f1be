import EquationPad.Status

/-! The equation being read. It may go on over several lines, so what has been
seen of it outlives a line, together with the status of the last line and where
on the line that status arose. -/

namespace EquationPad

inductive TokenKind where
  | term
  | operator
  deriving DecidableEq

structure Draft where
  /-- What must come next. -/
  expected : TokenKind := .term
  /-- The row of the equation, which is the number of equations completed before it. It has no
  bound here; where rows are kept in 32 bits, documents have fewer than `2 ^ 31` equations. -/
  row : Nat := 0
  /-- The first column of the line that is not blank. -/
  start : Int := 0
  status : Status := .success
  /-- The column that the status refers to. -/
  position : Int := 0
  /-- Whether the last operator carried a minus sign. -/
  negative : Bool := false
  equalSeen : Bool := false
  variableSeen : Bool := false
  leftTerm : Bool := false
  rightTerm : Bool := false
  deriving DecidableEq

namespace Draft

/-- The draft of a new document. -/
def reset (draft : Draft) : Draft :=
  { draft with
    expected := .term
    row := 0
    start := 0
    status := .success
    position := 0
    negative := false
    equalSeen := false
    variableSeen := false
    leftTerm := false
    rightTerm := false }

/-- Nothing of the draft is left. -/
theorem reset_eq (draft : Draft) : draft.reset = {} := rfl

/-- The draft of the next equation. The status of the line stays. -/
def next (draft : Draft) : Draft :=
  { draft with
    expected := .term
    start := 0
    negative := false
    equalSeen := false
    variableSeen := false
    leftTerm := false
    rightTerm := false
    row := draft.row + 1 }

/-- The next equation begins like the first, but for its row. -/
theorem next_eq (draft : Draft) :
    draft.next = { row := draft.row + 1, status := draft.status, position := draft.position } := rfl

def report (draft : Draft) (status : Status) (position : Int) : Draft :=
  { draft with status, position }

/-- What the equation lacks. One that has not been begun counts as a blank line. -/
def verdict (draft : Draft) : Status :=
  if !draft.equalSeen && !draft.leftTerm && !draft.rightTerm && !draft.variableSeen then .blankLine
  else if !draft.equalSeen then .noEqualSign
  else if !draft.leftTerm then .noTermBeforeEqualSign
  else if !draft.rightTerm then .noTermAfterEqualSign
  else if !draft.variableSeen then .noVariable
  else .success

/-- Begun but not completed. -/
def isOpen (draft : Draft) : Bool :=
  draft.expected = .operator || draft.equalSeen || draft.leftTerm || draft.rightTerm

end Draft

end EquationPad
