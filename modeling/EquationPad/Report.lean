import EquationPad.Workspace

/-! What a workspace tells: the message of its status, the line that reports an
error, the solution, and what printing sends to the output and to the error
stream. -/

namespace EquationPad

structure Printout where
  output : Text := []
  errors : Text := []
  deriving DecidableEq

namespace Workspace

/-- The message of the status; one about counts gives the counts. -/
def message (ws : Workspace) : Text :=
  if ws.status = .tooFewEquations ∨ ws.status = .tooManyEquations then
    ws.status.message ++ " (" ++ showInt ws.builder.count ++ " equations, " ++
      showNat ws.variableCount ++ " variables)"
  else ws.status.message

/-- The message after the document and the place it refers to, as far as they are known. -/
def errorText (ws : Workspace) : Text :=
  let document : Text := if ws.documentName.isEmpty then [] else ws.documentName ++ ": "
  let place : Text :=
    if 0 < ws.errorLine then
      "line " ++ showInt ws.errorLine ++ ", column " ++ showInt (ws.errorPosition + 1) ++ ": "
    else []
  document ++ place ++ ws.message

/-- The names and values of the solution, by column. -/
def assignments (ws : Workspace) : List (Text × Float) :=
  ws.solvedNames.zip ws.solution.values

def valueLine (ws : Workspace) (name : Text) (value : Float) : Text :=
  name ++ " = " ++ showGeneral ws.settings.precision value ++ "\n"

/-- One line for each variable; nothing unless the system is solved. -/
def solutionText (ws : Workspace) : Text :=
  if ws.solution.solved then
    ws.assignments.flatMap fun (name, value) => ws.valueLine name value
  else []

/-- The solution in columns, after the circumstances. -/
def detailedText (ws : Workspace) : Text :=
  let rule : Text := "========================================\n"
  let document : Text :=
    if ws.documentName.isEmpty then [] else "\nDocument:  " ++ ws.documentName ++ "\n"
  let values := ws.assignments.flatMap fun (name, value) =>
    ' ' :: ' ' :: ws.valueLine (padRight 20 name) value
  "\n" ++ rule ++ "        LINEAR SYSTEM RESULTS\n" ++ rule ++ document ++
    "\nEquations: " ++ showInt ws.builder.count ++ "\nVariables: " ++ showNat ws.variableCount ++
    "\nCondition: " ++ showScientific 3 ws.solution.rcond ++ " (reciprocal estimate)\n" ++
    "\nSolution:\n" ++ values ++ "\n" ++ rule ++ "\n"

/-- Prints as the print mode says. Without a solution the error is reported instead. -/
def printout (ws : Workspace) : Printout :=
  if ws.settings.printMode ≤ 0 then {}
  else if !ws.solution.solved then { errors := ws.errorText ++ "\n" }
  else if 2 ≤ ws.settings.printMode then { output := ws.detailedText }
  else { output := ws.solutionText }

end Workspace

end EquationPad
