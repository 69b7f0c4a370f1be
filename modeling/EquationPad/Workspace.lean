import EquationPad.Builder
import EquationPad.Elimination

/-! A workspace holds one document: the system read from it so far, how far reading
and solving have come, and the settings and the solver to use. An operation
answers with a status, the workspace after it and the diagnostics it gives, which
are empty unless the workspace is verbose. Starting a new document forgets the old
one and keeps settings, document name and solver. -/

namespace EquationPad

/-- The precision of a new workspace. -/
def defaultPrecision : Nat := 10

structure Settings where
  /-- Zero prints nothing, one the solution, two the solution with its circumstances. -/
  printMode : Int := 1
  /-- Significant digits of printed values. -/
  precision : Nat := defaultPrecision
  tolerances : Tolerances := {}
  verbose : Bool := false

structure Workspace where
  builder : Builder := {}
  settings : Settings := {}
  documentName : Text := []
  status : Status := .success
  /-- The line the status refers to, counted from one; zero if it refers to none. -/
  errorLine : Int := 0
  /-- The column the status refers to, counted from zero. -/
  errorPosition : Int := 0
  /-- The number of lines read. It has no bound here; where lines are counted in 32 bits,
  documents have fewer than `2 ^ 31` of them. -/
  lineCount : Nat := 0
  /-- The number of variables when it was last looked at. -/
  variableCount : Nat := 0
  solution : Solution := {}
  /-- The names of the values of the solution. -/
  solvedNames : List Text := []
  solver : Solver := Elimination.solver

structure Reply where
  status : Status
  workspace : Workspace
  log : Text := []

/-- Goes on with another operation if the one before succeeded. -/
def Reply.andThen (reply : Reply) (next : Workspace → Reply) : Reply :=
  if reply.status = .success then
    let last := next reply.workspace
    { last with log := reply.log ++ last.log }
  else reply

namespace Workspace

/-! ## Settings -/

def setPrintMode (ws : Workspace) (mode : Int) : Workspace :=
  { ws with settings := { ws.settings with printMode := mode } }

/-- A precision that is not positive is ignored. -/
def setPrecision (ws : Workspace) (precision : Int) : Workspace :=
  if 0 < precision then { ws with settings := { ws.settings with precision := precision.toNat } }
  else ws

def setVerbose (ws : Workspace) (verbose : Bool) : Workspace :=
  { ws with settings := { ws.settings with verbose } }

def setTolerances (ws : Workspace) (tolerances : Tolerances) : Workspace :=
  { ws with settings := { ws.settings with tolerances } }

def install (ws : Workspace) (solver : Solver) : Workspace := { ws with solver }

/-! ## Status -/

def record (ws : Workspace) (status : Status) (line position : Int) : Workspace :=
  { ws with status, errorLine := line, errorPosition := position }

/-- A diagnostic text, for a verbose workspace only. -/
def note (ws : Workspace) (text : Text) : Text := if ws.settings.verbose then text else []

/-! ## Starting again -/

/-- Forgets what reading and solving told; the settings stay. -/
def resetOutput (ws : Workspace) : Workspace :=
  { ws with
    status := .success
    errorLine := 0
    errorPosition := 0
    lineCount := 0
    builder := { ws.builder with count := 0 }
    variableCount := 0
    solution := { ws.solution with rcond := 0.0, solved := false, values := [] }
    solvedNames := [] }

/-- Goes back to the settings of a new workspace as well. -/
def resetSettings (ws : Workspace) : Workspace :=
  { ws with
    settings := { ws.settings with
      printMode := 1
      precision := defaultPrecision
      tolerances := { ws.settings.tolerances with
        singular := defaultSingular
        illConditioned := defaultIllConditioned }
      verbose := false }
    documentName := [] }.resetOutput

/-- Forgets the document; settings, document name and solver stay. -/
def startOver (ws : Workspace) : Workspace :=
  { ws with builder := ws.builder.clear }.resetOutput

/-- Forgets everything. -/
def startAnew (ws : Workspace) : Workspace :=
  { { ws with builder := ws.builder.clear }.resetSettings with solver := Elimination.solver }

/-- The settings and the solver are all that stays. -/
theorem startOver_eq (ws : Workspace) : ws.startOver =
    { settings := ws.settings, documentName := ws.documentName, solver := ws.solver } := by
  rw [startOver, Builder.clear_eq, resetOutput]

/-- Nothing stays. -/
theorem startAnew_eq (ws : Workspace) : ws.startAnew = {} := by
  rw [startAnew, Builder.clear_eq, resetSettings, resetOutput]

/-! ## Reading -/

/-- Reads one more line. A solution found before is no longer one. -/
def feedLine (ws : Workspace) (line : Text) : Reply :=
  let builder := ws.builder.feed line
  let status := builder.draft.status
  let position := builder.draft.position
  let read := { ws with
    builder
    lineCount := ws.lineCount + 1
    variableCount := builder.system.variableCount
    solution := { ws.solution with solved := false } }
  if status.isSuccess then { status, workspace := read.record status 0 0 }
  else
    { status
      workspace := read.record status read.lineCount position
      log := ws.note ("[Parser] line " ++ showNat read.lineCount ++ ", column " ++
        showInt (position + 1) ++ ": " ++ status.message ++ "\n") }

/-- Reads lines up to the first that fails; blank lines are no failures. -/
def feedLines (ws : Workspace) : List Text → Reply
  | [] => { status := .success, workspace := ws }
  | line :: rest =>
    let reply := ws.feedLine line
    if reply.status.isSuccess then
      let last := feedLines reply.workspace rest
      { last with log := reply.log ++ last.log }
    else reply

/-- The end of a document whose last line is given. The last equation must not be open;
if it is, the document ends where that line does. -/
def finish (ws : Workspace) (lastLine : Text) : Reply :=
  let draft := ws.builder.draft
  if draft.isOpen then
    let status := if draft.verdict.isSuccess then .illegalEquation else draft.verdict
    { status
      workspace := ws.record status ws.lineCount (trimRight lastLine).length
      log := ws.note ("[Parser] unterminated equation " ++ showNat (draft.row + 1) ++ ": " ++
        status.message ++ "\n") }
  else { status := .success, workspace := ws.record .success 0 0 }

/-- Reads a new document. -/
def readDocument (ws : Workspace) (lines : List Text) : Reply :=
  (ws.startOver.feedLines lines).andThen fun read => read.finish (lines.getLast?.getD [])

def readText (ws : Workspace) (text : Text) : Reply := ws.readDocument (linesOf text)

/-- Reads a named document, of which the content is given if there is one. -/
def openDocument (ws : Workspace) (name : Text) (content : Option Text) : Reply :=
  let named := { ws with documentName := name }
  match content with
  | some text => named.readText text
  | none =>
    { status := .documentNotFound
      workspace := { named.startOver with status := .documentNotFound } }

/-! ## Solving -/

/-- Checks that there are as many equations as variables. -/
def checkCounts (ws : Workspace) : Workspace :=
  let equations := ws.builder.count
  let unknowns := ws.builder.system.variableCount
  let status :=
    if equations = 0 then .noEquations
    else if equations < unknowns then .tooFewEquations
    else if unknowns < equations then .tooManyEquations
    else .success
  { ws with variableCount := unknowns }.record status 0 0

/-- Hands the system to the solver if the counts are right, whatever came before. -/
def runSolver (ws : Workspace) : Reply :=
  let checked := ws.checkCounts
  if checked.status = .success then
    let count := ws.builder.count
    let answer := ws.solver.solve ws.builder.system count ws.settings.tolerances ws.solution
    let solved := { checked with
      solution := answer.solution
      solvedNames := ws.builder.system.names }
    { status := answer.status
      workspace := solved.record answer.status 0 0
      log := ws.note (answer.log ++ "[" ++ ws.solver.name ++ "] " ++ showInt count ++
        " equations: " ++ answer.status.message ++ "\n") }
  else { status := checked.status, workspace := checked }

/-- Solves unless the last status is a failure. -/
def solve (ws : Workspace) : Reply :=
  if ws.status.isSuccess then ws.runSolver else { status := ws.status, workspace := ws }

def solveDocument (ws : Workspace) (lines : List Text) : Reply :=
  (ws.readDocument lines).andThen runSolver

/-- The value of a variable, if the system is solved. -/
def value? (ws : Workspace) (name : Text) : Option Float :=
  if ws.solution.solved then
    (ws.builder.system.findVariable? name).bind fun column => ws.solution.values[column]?
  else none

end Workspace

end EquationPad
