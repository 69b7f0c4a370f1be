import EquationPad.Cursor
import EquationPad.Draft
import EquationPad.LinearSystem
import EquationPad.Token

/-! Lines become equations. Terms and operators alternate; each term adds one
number to the row of the equation, with everything moved to the left side and
the constants moved back to the right. A line that ends on a term completes the
equation, and one that ends on an operator leaves it open for the next line.
Every accepted token shortens the rest of the line, so a line is read in finitely
many steps. -/

namespace EquationPad

structure Builder where
  draft : Draft := {}
  system : LinearSystem := {}
  /-- The number of equations, as of the last completed one. -/
  count : Int := 0

/-- The outcome of trying one token: where reading stands, and whether the token was taken. -/
structure Step where
  accepted : Bool
  builder : Builder
  cursor : Cursor

namespace Builder

def report (builder : Builder) (status : Status) (position : Int) : Builder :=
  { builder with draft := builder.draft.report status position }

/-! ## Terms -/

/-- The number a term stands for on the left side of the equation. -/
def signedValue (draft : Draft) (term : Term) : Float :=
  if (draft.equalSeen ^^ draft.negative) ^^ term.isNegative then -term.magnitude
  else term.magnitude

def addTerm (builder : Builder) (term : Term) : Builder :=
  let draft := builder.draft
  let value := signedValue draft term
  let system := match term with
    | .unknown _ _ name =>
      let (column, system) := builder.system.variableIndex name
      system.addCoefficient draft.row column value
    | .constant _ _ => builder.system.addConstant draft.row (-value)
  { builder with
    system
    draft := { draft with
      variableSeen := draft.variableSeen || term.isUnknown
      leftTerm := draft.leftTerm || !draft.equalSeen
      rightTerm := draft.rightTerm || draft.equalSeen } }

def takeTerm (builder : Builder) (cursor : Cursor) : Step :=
  let (result, rest) := Term.scan cursor.rest
  let cursor := cursor.moveTo rest
  match result with
  | .ok term => ⟨true, builder.addTerm term, cursor⟩
  | .error fault => ⟨false, builder.report fault cursor.position, cursor⟩

/-! ## Operators -/

def addOperator (builder : Builder) (operator : Operator) : Builder :=
  { builder with
    draft := { builder.draft with
      negative := operator.isNegative
      equalSeen := builder.draft.equalSeen || operator.isEquals } }

/-- The sign of the operator before is forgotten even if no operator follows. -/
def dropSign (builder : Builder) : Builder :=
  { builder with draft := { builder.draft with negative := false } }

/-- A second equal sign is refused where it stands. -/
def takeOperator (builder : Builder) (cursor : Cursor) : Step :=
  let cursor := cursor.skipBlanks
  match Operator.scan? cursor.rest with
  | none => ⟨false, builder.dropSign, cursor⟩
  | some (operator, rest) =>
    if operator.isEquals && builder.draft.equalSeen then
      ⟨false, builder.dropSign.report .multipleEqualSigns cursor.position, cursor⟩
    else ⟨true, builder.addOperator operator, cursor.moveTo rest⟩

/-! ## Lines -/

def expect (builder : Builder) (kind : TokenKind) : Builder :=
  { builder with draft := { builder.draft with expected := kind } }

/-- A term that is refused without a fault of its own makes the equation illegal. -/
def blameTerm (step : Step) : Step :=
  if step.builder.draft.status = .success then
    { step with builder := step.builder.report .illegalEquation step.cursor.position }
  else step

/-- A line that starts with a second equal sign shows that the line before did not
end its equation, which makes the equation illegal. -/
def blameStart (step : Step) : Step :=
  let draft := step.builder.draft
  if draft.status ≠ .success ∧ step.cursor.position = draft.start then
    { step with builder := step.builder.report .illegalEquation step.cursor.position }
  else step

/-- Tries the token that must come next. -/
def take (builder : Builder) (cursor : Cursor) : Step :=
  match builder.draft.expected with
  | .term =>
    let step := builder.takeTerm cursor
    if step.accepted then { step with builder := step.builder.expect .operator } else blameTerm step
  | .operator =>
    let step := builder.takeOperator cursor
    if step.accepted then { step with builder := step.builder.expect .term } else blameStart step

theorem length_takeTerm_lt {builder : Builder} {cursor : Cursor}
    (h : (builder.takeTerm cursor).accepted) :
    (builder.takeTerm cursor).cursor.rest.length < cursor.rest.length := by
  unfold takeTerm at h ⊢
  dsimp only at h ⊢
  split
  · rename_i term hterm
    exact Term.length_scan_lt hterm
  · rename_i hfault
    simp [hfault] at h

theorem length_takeOperator_lt {builder : Builder} {cursor : Cursor}
    (h : (builder.takeOperator cursor).accepted) :
    (builder.takeOperator cursor).cursor.rest.length < cursor.rest.length := by
  have blank := length_skipBlanks_le cursor.rest
  unfold takeOperator at h ⊢
  dsimp only at h ⊢
  split
  · rename_i hnone
    rw [hnone] at h
    simp at h
  · rename_i operator rest hsome
    have := Operator.length_scan?_lt hsome
    split
    · rename_i hsecond
      rw [hsome] at h
      simp [hsecond] at h
    · simp only [Cursor.rest_skipBlanks, Cursor.rest_moveTo] at this ⊢
      omega

@[simp] theorem accepted_blameTerm (step : Step) : (blameTerm step).accepted = step.accepted := by
  unfold blameTerm
  split <;> rfl

@[simp] theorem accepted_blameStart (step : Step) : (blameStart step).accepted = step.accepted := by
  unfold blameStart
  dsimp only
  split <;> rfl

theorem length_take_lt {builder : Builder} {cursor : Cursor}
    (h : (builder.take cursor).accepted) :
    (builder.take cursor).cursor.rest.length < cursor.rest.length := by
  unfold take at h ⊢
  split
  · rename_i kind
    simp only [kind] at h
    dsimp only at h ⊢
    split
    · exact length_takeTerm_lt ‹_›
    · simp_all
  · rename_i kind
    simp only [kind] at h
    dsimp only at h ⊢
    split
    · exact length_takeOperator_lt ‹_›
    · simp_all

/-- Takes tokens until the line is used up or a token is refused. Tells whether the last token
taken is an operator too, given whether the one before them was. -/
def loop (operatorLast : Bool) (builder : Builder) (cursor : Cursor) : Bool × Builder × Cursor :=
  if cursor.isAtEnd then (operatorLast, builder, cursor)
  else
    let start := cursor.skipBlanks
    if start.isAtEnd then (operatorLast, builder, start)
    else
      let step := builder.take start
      if step.accepted then
        loop (builder.draft.expected = .operator) step.builder step.cursor
      else (operatorLast, step.builder, step.cursor)
termination_by cursor.rest.length
decreasing_by
  rename_i accepted
  exact Nat.lt_of_lt_of_le (length_take_lt accepted) (length_skipBlanks_le _)

def complete (builder : Builder) : Builder :=
  { builder with draft := builder.draft.next, count := builder.draft.row + 1 }

/-- Reads from the first character that is not blank to where reading stops. -/
def readTokens (builder : Builder) (line : Text) : Bool × Builder × Cursor :=
  let cursor := (Cursor.ofLine line 0).skipBlanks
  let begun := { builder with draft := { builder.draft with start := cursor.position } }
  begun.loop false cursor

/-- Reads a line that is not blank. The equation is complete if the line is used up and its last
token is no operator. -/
def feedTokens (builder : Builder) (line : Text) : Builder :=
  let (operatorLast, read, stop) := builder.readTokens line
  if stop.isAtEnd && 0 < stop.position && !operatorLast && read.draft.status = .success then
    read.complete
  else read

/-- Forgets what was read; the number of equations stays. -/
def clear (builder : Builder) : Builder :=
  { builder with system := builder.system.clear, draft := builder.draft.reset }

theorem clear_eq (builder : Builder) : builder.clear = { count := builder.count } := by
  rw [clear, LinearSystem.clear_eq, Draft.reset_eq]

/-- Reads a line; its status is the status of the draft. -/
def feed (builder : Builder) (line : Text) : Builder :=
  let line := trimRight line
  if line.isEmpty then builder.report .blankLine 0
  else (builder.report .success 0).feedTokens line

end Builder

end EquationPad
