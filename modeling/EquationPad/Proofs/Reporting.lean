import EquationPad.Report
import EquationPad.Proofs.FreshStart

/-! What a workspace is told to report does not decide what it does. Some settings only say what is
shown and how: the print mode, the precision, whether diagnostics are given, and the name that the
document is given in messages. Every operation answers and changes the rest of a workspace in the
same way whatever they are. So two workspaces that differ in them stay apart in nothing else, and
if it is only the diagnostics that one gives and the other does not, then diagnostics are all that
one shows and the other does not. -/

namespace EquationPad

/-- What is shown and how. -/
structure Reporting where
  printMode : Int := 1
  precision : Nat := 10
  verbose : Bool := false
  documentName : Text := []

/-- What an operation makes of the reporting. -/
def Operation.reporting (r : Reporting) : Operation → Reporting
  | .setPrintMode mode => { r with printMode := mode }
  | .setPrecision precision => if 0 < precision then { r with precision := precision.toNat } else r
  | .setVerbose verbose => { r with verbose }
  | .openDocument name _ => { r with documentName := name }
  | .startAnew => {}
  | .setTolerances _ | .install _ | .feedLine _ | .readDocument _ | .readText _ | .checkCounts
  | .solve | .runSolver | .solveDocument _ | .startOver => r

namespace Workspace

/-- The workspace with another reporting. -/
def withReporting (ws : Workspace) (r : Reporting) : Workspace :=
  { ws with
    settings := { ws.settings with
      printMode := r.printMode, precision := r.precision, verbose := r.verbose }
    documentName := r.documentName }

end Workspace

/-- All diagnostics are given. -/
def Reporting.loud : Reporting := { verbose := true }

/-- The reply of a workspace with another reporting; the diagnostics may be kept back. -/
def Reply.withReporting (reply : Reply) (r : Reporting) : Reply where
  status := reply.status
  workspace := reply.workspace.withReporting r
  log := if r.verbose then reply.log else []

/-- Where there are no diagnostics, none are kept back. -/
theorem Reply.eq_withReporting {reply reply' : Reply} {r : Reporting} (hlog : reply.log = [])
    (h : reply' = { reply with workspace := reply.workspace.withReporting r }) :
    reply' = reply.withReporting r := by
  rw [h, withReporting, hlog, ite_self]

/-- The reply is the one of a loud workspace, and only what is shown of it depends on the
reporting. -/
def ShownApart (respond : Workspace → Reply) : Prop :=
  ∀ (ws : Workspace) (r : Reporting),
    respond (ws.withReporting r) = (respond (ws.withReporting .loud)).withReporting r

namespace ShownApart

variable {first next : Workspace → Reply}

theorem loud (h : ShownApart first) (ws : Workspace) :
    (first (ws.withReporting .loud)).workspace.withReporting .loud =
      (first (ws.withReporting .loud)).workspace :=
  (congrArg Reply.workspace (h ws .loud)).symm

theorem andThen (h : ShownApart first) (hnext : ShownApart next) :
    ShownApart fun ws => (first ws).andThen next := by
  intro ws r
  have hloud := h.loud ws
  dsimp only
  rw [h ws r]
  generalize first (ws.withReporting .loud) = reply at hloud
  by_cases hstatus : reply.status = .success
  · have hsame : (reply.withReporting r).status = .success := hstatus
    have hlast : next (reply.withReporting r).workspace =
        (next reply.workspace).withReporting r := by
      rw [Reply.withReporting, hnext, hloud]
    rw [Reply.andThen, Reply.andThen, if_pos hstatus, if_pos hsame]
    dsimp only
    rw [hlast]
    cases hverbose : r.verbose <;> simp [Reply.withReporting, hverbose]
  · have hsame : ¬ (reply.withReporting r).status = .success := hstatus
    rw [Reply.andThen, Reply.andThen, if_neg hstatus, if_neg hsame]

end ShownApart

namespace Workspace

/-! ## Reading and solving -/

theorem shownApart_feedLine (line : Text) : ShownApart fun ws => ws.feedLine line := by
  intro ws r
  dsimp only
  unfold feedLine
  dsimp only [withReporting]
  split
  · exact Reply.eq_withReporting rfl rfl
  · rfl

theorem shownApart_feedLines (lines : List Text) : ShownApart fun ws => ws.feedLines lines := by
  induction lines with
  | nil =>
    exact fun ws r => Reply.eq_withReporting rfl rfl
  | cons line lines ih =>
    intro ws r
    have hline : (ws.withReporting r).feedLine line =
        ((ws.withReporting .loud).feedLine line).withReporting r := shownApart_feedLine line ws r
    have hloud := (shownApart_feedLine line).loud ws
    dsimp only at hloud ⊢
    rw [feedLines, feedLines, hline]
    generalize (ws.withReporting .loud).feedLine line = reply at hloud
    by_cases hstatus : reply.status.isSuccess = true
    · have hsame : (reply.withReporting r).status.isSuccess = true := hstatus
      have hrest := ih reply.workspace r
      dsimp only at hrest
      rw [hloud] at hrest
      change (reply.withReporting r).workspace.feedLines lines = _ at hrest
      dsimp only
      rw [if_pos hstatus, if_pos hsame, hrest]
      cases hverbose : r.verbose <;> simp [Reply.withReporting, hverbose]
    · have hsame : ¬ (reply.withReporting r).status.isSuccess = true := hstatus
      dsimp only
      rw [if_neg hstatus, if_neg hsame]

theorem shownApart_finish (lastLine : Text) : ShownApart fun ws => ws.finish lastLine := by
  intro ws r
  dsimp only
  unfold finish
  dsimp only [withReporting]
  split
  · rfl
  · exact Reply.eq_withReporting rfl rfl

theorem shownApart_readDocument (lines : List Text) :
    ShownApart fun ws => ws.readDocument lines :=
  ShownApart.andThen (fun ws => shownApart_feedLines lines ws.startOver)
    (shownApart_finish (lines.getLast?.getD []))

theorem shownApart_runSolver : ShownApart runSolver := by
  intro ws r
  unfold runSolver
  dsimp only
  by_cases hcounts : ws.checkCounts.status = .success
  · have hsame : ∀ r, (ws.withReporting r).checkCounts.status = .success := fun _ => hcounts
    rw [if_pos (hsame r), if_pos (hsame _)]
    rfl
  · have hsame : ∀ r, ¬ (ws.withReporting r).checkCounts.status = .success := fun _ => hcounts
    rw [if_neg (hsame r), if_neg (hsame _)]
    exact Reply.eq_withReporting rfl rfl

theorem shownApart_solve : ShownApart solve := by
  intro ws r
  unfold solve
  by_cases hstatus : ws.status.isSuccess = true
  · have hsame : ∀ r, (ws.withReporting r).status.isSuccess = true := fun _ => hstatus
    rw [if_pos (hsame r), if_pos (hsame _), shownApart_runSolver]
  · have hsame : ∀ r, ¬ (ws.withReporting r).status.isSuccess = true := fun _ => hstatus
    rw [if_neg (hsame r), if_neg (hsame _)]
    exact Reply.eq_withReporting rfl rfl

theorem shownApart_solveDocument (lines : List Text) :
    ShownApart fun ws => ws.solveDocument lines :=
  (shownApart_readDocument lines).andThen shownApart_runSolver

/-- A named document is read as any other, and leaves its name. -/
theorem openDocument_withReporting (ws : Workspace) (r : Reporting) (name : Text)
    (content : Option Text) :
    (ws.withReporting r).openDocument name content =
      ((ws.withReporting .loud).openDocument name content).withReporting
        { r with documentName := name } := by
  cases content with
  | none => exact Reply.eq_withReporting rfl rfl
  | some text =>
    have hread := shownApart_readDocument (linesOf text) ws
    show (ws.withReporting { r with documentName := name }).readDocument (linesOf text) =
      ((ws.withReporting { Reporting.loud with documentName := name }).readDocument
        (linesOf text)).withReporting _
    dsimp only at hread
    rw [hread, hread { Reporting.loud with documentName := name }]
    rfl

/-! ## Operations -/

variable (ws : Workspace) (r r' : Reporting) (operation : Operation)

theorem respond?_withReporting :
    (ws.withReporting r).respond? operation =
      ((ws.withReporting .loud).respond? operation).map fun reply =>
        reply.withReporting (operation.reporting r) := by
  cases operation with
  | feedLine line => exact congrArg some (shownApart_feedLine line ws r)
  | readDocument lines => exact congrArg some (shownApart_readDocument lines ws r)
  | readText text => exact congrArg some (shownApart_readDocument (linesOf text) ws r)
  | openDocument name content => exact congrArg some (openDocument_withReporting ws r name content)
  | checkCounts => exact congrArg some (Reply.eq_withReporting rfl rfl)
  | solve => exact congrArg some (shownApart_solve ws r)
  | runSolver => exact congrArg some (shownApart_runSolver ws r)
  | solveDocument lines => exact congrArg some (shownApart_solveDocument lines ws r)
  | _ => rfl

theorem step_withReporting :
    (ws.withReporting r).step operation =
      ((ws.withReporting r').step operation).withReporting (operation.reporting r) := by
  have hresponds := fun r => ws.respond?_withReporting r operation
  cases hreply : (ws.withReporting .loud).respond? operation with
  | some reply =>
    simp only [hreply, Option.map_some] at hresponds
    rw [step_of_respond? (hresponds r), step_of_respond? (hresponds r')]
    rfl
  | none =>
    cases operation with
    | setPrecision precision =>
      show (ws.withReporting r).setPrecision precision =
        ((ws.withReporting r').setPrecision precision).withReporting
          (if 0 < precision then { r with precision := precision.toNat } else r)
      unfold setPrecision
      split <;> rfl
    | setPrintMode _ | setVerbose _ | setTolerances _ | install _ | startOver | startAnew => rfl
    | _ => cases hreply

end Workspace

/-! ## Sessions -/

/-- An operation, or printing, which changes nothing. -/
inductive Action where
  | operate (operation : Operation)
  | print

/-- What an action shows: a status if it answers with one, and what it writes. -/
structure Shown where
  status : Option Status := none
  output : Text := []
  errors : Text := []

namespace Workspace

def act (ws : Workspace) : Action → Workspace
  | .operate operation => ws.step operation
  | .print => ws

def shown (ws : Workspace) : Action → Shown
  | .operate operation =>
    match ws.respond? operation with
    | some reply => { status := some reply.status, errors := reply.log }
    | none => {}
  | .print => { output := ws.printout.output, errors := ws.printout.errors }

end Workspace

def Action.reporting (r : Reporting) : Action → Reporting
  | .operate operation => operation.reporting r
  | .print => r

/-- The same but for the diagnostics that are given or kept back. -/
def Reporting.SameButVerbose (r r' : Reporting) : Prop :=
  ∃ verbose, r' = { r with verbose := verbose }

theorem Reporting.SameButVerbose.operation {r r' : Reporting} (h : r.SameButVerbose r')
    (operation : Operation) : (operation.reporting r).SameButVerbose (operation.reporting r') := by
  obtain ⟨verbose, rfl⟩ := h
  cases operation with
  | setPrecision precision =>
    refine ⟨verbose, ?_⟩
    by_cases hpositive : 0 < precision <;> simp [Operation.reporting, hpositive]
  | setVerbose value => exact ⟨value, rfl⟩
  | startAnew => exact ⟨false, rfl⟩
  | _ => exact ⟨verbose, rfl⟩

theorem Reporting.SameButVerbose.foldl {r r' : Reporting} (h : r.SameButVerbose r')
    (actions : List Action) :
    (actions.foldl Action.reporting r).SameButVerbose (actions.foldl Action.reporting r') := by
  induction actions generalizing r r' with
  | nil => exact h
  | cons action actions ih =>
    cases action with
    | operate operation => exact ih (h.operation operation)
    | print => exact ih h

namespace Workspace

theorem foldl_act_withReporting (ws : Workspace) (r r' : Reporting) (actions : List Action) :
    actions.foldl act (ws.withReporting r) =
      (actions.foldl act (ws.withReporting r')).withReporting
        (actions.foldl Action.reporting r) := by
  induction actions generalizing ws r r' with
  | nil => rfl
  | cons action actions ih =>
    cases action with
    | operate operation =>
      have hself := ws.step_withReporting r' r' operation
      show actions.foldl act ((ws.withReporting r).step operation) = _
      rw [ws.step_withReporting r r' operation, ih _ (operation.reporting r)
        (operation.reporting r'), ← hself]
      rfl
    | print => exact ih ws r r'

/-! ## What is the same -/

/-- The same results: everything that reading and solving leave behind, and the values that can
be asked for. -/
structure SameResults (ws ws' : Workspace) : Prop where
  builder : ws.builder = ws'.builder
  status : ws.status = ws'.status
  errorLine : ws.errorLine = ws'.errorLine
  errorPosition : ws.errorPosition = ws'.errorPosition
  lineCount : ws.lineCount = ws'.lineCount
  variableCount : ws.variableCount = ws'.variableCount
  solution : ws.solution = ws'.solution
  solvedNames : ws.solvedNames = ws'.solvedNames
  value : ∀ name, ws.value? name = ws'.value? name

theorem sameResults_withReporting (ws : Workspace) (r r' : Reporting) :
    SameResults (ws.withReporting r) (ws.withReporting r') :=
  ⟨rfl, rfl, rfl, rfl, rfl, rfl, rfl, rfl, fun _ => rfl⟩

/-- All texts are the same. -/
structure SameTexts (ws ws' : Workspace) : Prop where
  message : ws.message = ws'.message
  errorText : ws.errorText = ws'.errorText
  solutionText : ws.solutionText = ws'.solutionText
  detailedText : ws.detailedText = ws'.detailedText

end Workspace

/-- What one operation may give as a diagnostic: a line about the line that was read, one about
the equation left open at the end, or one about the answer of the solver, after what the solver
itself gives. -/
inductive Diagnostic (solver : Solver) : Text → Prop
  | line (number : Nat) (column : Int) (status : Status) :
      Diagnostic solver ("[Parser] line " ++ showNat number ++ ", column " ++ showInt column ++
        ": " ++ status.message ++ "\n")
  | unterminated (number : Nat) (status : Status) :
      Diagnostic solver ("[Parser] unterminated equation " ++ showNat number ++ ": " ++
        status.message ++ "\n")
  | solved (s : Submission) :
      Diagnostic solver ((solver.answer s).log ++ "[" ++ solver.name ++ "] " ++ showInt s.count ++
        " equations: " ++ (solver.answer s).status.message ++ "\n")

/-- One diagnostic at most. -/
def Diagnosed (solver : Solver) (log : Text) : Prop := log = [] ∨ Diagnostic solver log

/-- What only reads gives no diagnostic when it succeeds. -/
structure Reply.Diagnoses (reply : Reply) (solver : Solver) : Prop where
  log : Diagnosed solver reply.log
  silent : reply.status.isSuccess = true → reply.log = []

theorem Reply.log_andThen {reply : Reply} (h : reply.status.isSuccess = true → reply.log = [])
    (next : Workspace → Reply) :
    (reply.andThen next).log =
      if reply.status = .success then (next reply.workspace).log else reply.log := by
  rw [andThen]
  split
  · rename_i hstatus
    dsimp only
    rw [h (by rw [hstatus]; rfl), List.nil_append]
  · rfl

namespace Workspace

theorem diagnosed_note {solver : Solver} {text : Text} (h : Diagnostic solver text)
    (ws : Workspace) : Diagnosed solver (ws.note text) := by
  unfold note
  split
  · exact .inr h
  · exact .inl rfl

theorem solver_feedLine (ws : Workspace) (line : Text) :
    (ws.feedLine line).workspace.solver = ws.solver :=
  congrArg Setup.solver ((kept_setup ws.setup).feedLine line rfl)

theorem solver_feedLines (ws : Workspace) (lines : List Text) :
    (ws.feedLines lines).workspace.solver = ws.solver :=
  congrArg Setup.solver ((kept_setup ws.setup).feedLines rfl lines)

theorem diagnoses_feedLine (ws : Workspace) (line : Text) :
    (ws.feedLine line).Diagnoses ws.solver := by
  unfold feedLine
  dsimp only
  split
  · exact ⟨.inl rfl, fun _ => rfl⟩
  · rename_i hfailed
    exact ⟨diagnosed_note (.line _ _ _) ws, fun hsuccess => absurd hsuccess hfailed⟩

theorem diagnoses_feedLines (ws : Workspace) (lines : List Text) :
    (ws.feedLines lines).Diagnoses ws.solver := by
  induction lines generalizing ws with
  | nil => exact ⟨.inl rfl, fun _ => rfl⟩
  | cons line lines ih =>
    have hline := ws.diagnoses_feedLine line
    have hrest := ih (ws.feedLine line).workspace
    rw [solver_feedLine] at hrest
    rw [feedLines]
    dsimp only
    split
    · rename_i hsuccess
      rw [hline.silent hsuccess]
      exact hrest
    · exact hline

theorem diagnoses_finish (ws : Workspace) (lastLine : Text) :
    (ws.finish lastLine).Diagnoses ws.solver := by
  unfold finish
  dsimp only
  split
  · refine ⟨diagnosed_note (.unterminated _ _) ws, fun hsuccess => ?_⟩
    dsimp only at hsuccess
    split at hsuccess
    · cases hsuccess
    · rename_i hverdict
      exact absurd hsuccess hverdict
  · exact ⟨.inl rfl, fun _ => rfl⟩

theorem diagnoses_readDocument (ws : Workspace) (lines : List Text) :
    (ws.readDocument lines).Diagnoses ws.solver := by
  have hread : (ws.startOver.feedLines lines).Diagnoses ws.solver :=
    ws.startOver.diagnoses_feedLines lines
  have hfinish := (ws.startOver.feedLines lines).workspace.diagnoses_finish
    (lines.getLast?.getD [])
  rw [solver_feedLines] at hfinish
  have hlog := Reply.log_andThen hread.silent fun read => read.finish (lines.getLast?.getD [])
  rw [readDocument]
  by_cases hstatus : (ws.startOver.feedLines lines).status = .success
  · rw [if_pos hstatus] at hlog
    refine ⟨by rw [hlog]; exact hfinish.log, fun hsuccess => ?_⟩
    rw [Reply.andThen, if_pos hstatus] at hsuccess
    rw [hlog]
    exact hfinish.silent hsuccess
  · rw [Reply.andThen, if_neg hstatus]
    exact hread

theorem diagnosed_runSolver (ws : Workspace) : Diagnosed ws.solver ws.runSolver.log := by
  unfold runSolver
  dsimp only
  split
  · exact diagnosed_note (.solved ⟨_, _, _, _⟩) ws
  · exact .inl rfl

theorem diagnosed_solve (ws : Workspace) : Diagnosed ws.solver ws.solve.log := by
  unfold solve
  split
  · exact ws.diagnosed_runSolver
  · exact .inl rfl

theorem diagnosed_solveDocument (ws : Workspace) (lines : List Text) :
    Diagnosed ws.solver (ws.solveDocument lines).log := by
  have hread := ws.diagnoses_readDocument lines
  have hsolve := (ws.readDocument lines).workspace.diagnosed_runSolver
  have hsolver : (ws.readDocument lines).workspace.solver = ws.solver :=
    congrArg Setup.solver (ws.setup_readDocument lines)
  rw [hsolver] at hsolve
  rw [solveDocument, Reply.log_andThen hread.silent]
  split
  · exact hsolve
  · exact hread.log

theorem diagnosed_of_respond? {ws : Workspace} {operation : Operation} {reply : Reply}
    (h : ws.respond? operation = some reply) : Diagnosed ws.solver reply.log := by
  cases operation with
  | feedLine line =>
    cases h
    exact (ws.diagnoses_feedLine line).log
  | readDocument lines =>
    cases h
    exact (ws.diagnoses_readDocument lines).log
  | readText text =>
    cases h
    exact (ws.diagnoses_readDocument (linesOf text)).log
  | openDocument name content =>
    cases h
    cases content with
    | none => exact .inl rfl
    | some text => exact (diagnoses_readDocument _ (linesOf text)).log
  | checkCounts =>
    cases h
    exact .inl rfl
  | solve =>
    cases h
    exact ws.diagnosed_solve
  | runSolver =>
    cases h
    exact ws.diagnosed_runSolver
  | solveDocument lines =>
    cases h
    exact ws.diagnosed_solveDocument lines
  | _ => cases h

/-! ## Two sessions -/

/-- What two workspaces show differs by a diagnostic at most, which each gives if it is verbose. -/
structure ShowBut (ws ws' : Workspace) (action : Action) : Prop where
  status : (ws.shown action).status = (ws'.shown action).status
  output : (ws.shown action).output = (ws'.shown action).output
  errors : ∃ diagnostic common, Diagnosed ws.solver diagnostic ∧
    (ws.shown action).errors = ws.note diagnostic ++ common ∧
    (ws'.shown action).errors = ws'.note diagnostic ++ common

theorem status_shown_withReporting (ws : Workspace) (r r' : Reporting) (action : Action) :
    ((ws.withReporting r).shown action).status = ((ws.withReporting r').shown action).status := by
  cases action with
  | operate operation =>
    rw [shown, shown, respond?_withReporting ws r, respond?_withReporting ws r']
    cases (ws.withReporting .loud).respond? operation <;> rfl
  | print => rfl

theorem verbose_of_respond? {ws : Workspace} {operation : Operation} {reply : Reply}
    (h : ws.respond? operation = some reply) (r : Reporting) :
    (operation.reporting r).verbose = r.verbose := by
  cases operation <;> first | rfl | cases h

theorem shown_operate (ws : Workspace) (r : Reporting) {operation : Operation} {reply : Reply}
    (h : (ws.withReporting .loud).respond? operation = some reply) :
    (ws.withReporting r).shown (.operate operation) =
      { status := some reply.status, errors := (ws.withReporting r).note reply.log } := by
  rw [shown, respond?_withReporting, h]
  show ({ status := _, errors := if (operation.reporting r).verbose then _ else _ } : Shown) = _
  rw [verbose_of_respond? h]
  rfl

theorem shown_operate_of_none (ws : Workspace) (r : Reporting) {operation : Operation}
    (h : (ws.withReporting .loud).respond? operation = none) :
    (ws.withReporting r).shown (.operate operation) = {} := by
  rw [shown, respond?_withReporting, h]
  rfl

theorem note_nil (ws : Workspace) : ws.note [] = [] := ite_self []

theorem showBut_withReporting (ws : Workspace) {r r' : Reporting} (h : r.SameButVerbose r')
    (action : Action) : ShowBut (ws.withReporting r) (ws.withReporting r') action := by
  cases action with
  | operate operation =>
    cases hreply : (ws.withReporting .loud).respond? operation with
    | some reply =>
      have hlog := diagnosed_of_respond? hreply
      constructor <;> rw [ws.shown_operate r hreply, ws.shown_operate r' hreply]
      exact ⟨reply.log, [], hlog, (List.append_nil _).symm, (List.append_nil _).symm⟩
    | none =>
      constructor <;> rw [ws.shown_operate_of_none r hreply, ws.shown_operate_of_none r' hreply]
      exact ⟨[], [], .inl rfl, by rw [note_nil]; rfl, by rw [note_nil]; rfl⟩
  | print =>
    obtain ⟨verbose, rfl⟩ := h
    refine ⟨rfl, rfl, [], (ws.withReporting r).printout.errors, .inl rfl, ?_, ?_⟩
    · rw [note_nil]
      rfl
    · rw [note_nil]
      rfl

theorem sameTexts_withReporting (ws : Workspace) {r r' : Reporting} (h : r.SameButVerbose r') :
    SameTexts (ws.withReporting r) (ws.withReporting r') := by
  obtain ⟨verbose, rfl⟩ := h
  exact ⟨rfl, rfl, rfl, rfl⟩

/-- **What is reported never decides what is done.** Of two workspaces that differ in their
reporting only, let the same be asked: they have the same results at any time, and the next action
is answered with the same status. If all that differs is whether diagnostics are given, then the
texts are the same as well, so is the output, and the errors are the same but for a diagnostic. -/
theorem reporting_never_decides (ws : Workspace) (r : Reporting) (actions : List Action)
    (action : Action) :
    (∀ r' : Reporting,
      SameResults (actions.foldl act (ws.withReporting r))
        (actions.foldl act (ws.withReporting r')) ∧
      ((actions.foldl act (ws.withReporting r)).shown action).status =
        ((actions.foldl act (ws.withReporting r')).shown action).status) ∧
    ∀ verbose : Bool,
      SameTexts (actions.foldl act (ws.withReporting r))
        (actions.foldl act (ws.withReporting { r with verbose := verbose })) ∧
      ShowBut (actions.foldl act (ws.withReporting r))
        (actions.foldl act (ws.withReporting { r with verbose := verbose })) action := by
  have hafter := fun r' => ws.foldl_act_withReporting r' r actions
  refine ⟨fun r' => ?_, fun verbose => ?_⟩
  · rw [hafter r, hafter r']
    exact ⟨sameResults_withReporting _ _ _, status_shown_withReporting _ _ _ _⟩
  · have hsame : r.SameButVerbose { r with verbose := verbose } := ⟨verbose, rfl⟩
    have hlater := hsame.foldl actions
    rw [hafter r, hafter { r with verbose := verbose }]
    exact ⟨sameTexts_withReporting _ hlater, showBut_withReporting _ hlater action⟩

end Workspace

end EquationPad
