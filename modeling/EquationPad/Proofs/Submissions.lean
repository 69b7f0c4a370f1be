import EquationPad.Proofs.Indifference
import EquationPad.Proofs.Operations
import EquationPad.Proofs.Tables

/-! What a solver is shown. An operation hands the system at hand to the solver at most
once, and a solver matters only by its answer to that; so it is enough to know what is
handed over. It is always a square system whose equations are all complete, even if lines
failed before or a further equation is open. The solver that a workspace starts with checks
the counts once more, with the same verdict, so its own checks never fail then. -/

namespace EquationPad

/-- What is handed to a solver. -/
structure Submission where
  system : LinearSystem
  count : Int
  tolerances : Tolerances
  solution : Solution

def Solver.answer (solver : Solver) (submission : Submission) : Answer :=
  solver.solve submission.system submission.count submission.tolerances submission.solution

/-- What the solver is handed if it is run now. -/
def Workspace.submission? (ws : Workspace) : Option Submission :=
  if ws.checkCounts.status = .success then
    some ⟨ws.builder.system, ws.builder.count, ws.settings.tolerances, ws.solution⟩
  else none

/-- What an operation hands to the solver. -/
def Operation.submission? (ws : Workspace) : Operation → Option Submission
  | .solve => if ws.status.isSuccess then ws.submission? else none
  | .runSolver => ws.submission?
  | .solveDocument lines =>
    if (ws.readDocument lines).status = .success then
      (ws.readDocument lines).workspace.submission?
    else none
  | _ => none

/-! ## The solver's part -/

def Reply.install (reply : Reply) (solver : Solver) : Reply :=
  { reply with workspace := reply.workspace.install solver }

namespace Workspace

variable (ws : Workspace) (solver : Solver)

theorem feedLine_install (line : Text) :
    (ws.install solver).feedLine line = (ws.feedLine line).install solver :=
  (unread_install solver).feedLine ws line

/-- Reading does not ask the solver. -/
theorem readDocument_install (lines : List Text) :
    (ws.install solver).readDocument lines = (ws.readDocument lines).install solver :=
  (unread_install solver).readDocument ws lines

variable {ws solver} {solver' : Solver}

theorem readDocument_congr (ws : Workspace) (solver solver' : Solver) (lines : List Text) :
    ((ws.install solver).readDocument lines).workspace.install solver =
      ((ws.install solver').readDocument lines).workspace.install solver := by
  rw [readDocument_install, readDocument_install]
  rfl

theorem runSolver_congr (h : ∀ s ∈ ws.submission?, solver.answer s = solver'.answer s) :
    (ws.install solver).runSolver.workspace.install solver =
      (ws.install solver').runSolver.workspace.install solver := by
  unfold runSolver
  by_cases hcounts : ws.checkCounts.status = .success
  · have hanswer := h _ (if_pos hcounts)
    have hcounts' : ∀ s : Solver, (ws.install s).checkCounts.status = .success := fun _ => hcounts
    dsimp only
    rw [if_pos (hcounts' solver), if_pos (hcounts' solver')]
    change solver.solve ws.builder.system ws.builder.count ws.settings.tolerances ws.solution =
      solver'.solve ws.builder.system ws.builder.count ws.settings.tolerances ws.solution at hanswer
    dsimp only [install]
    rw [hanswer]
    rfl
  · have hcounts' : ∀ s : Solver, ¬ (ws.install s).checkCounts.status = .success := fun _ => hcounts
    dsimp only
    rw [if_neg (hcounts' solver), if_neg (hcounts' solver')]
    rfl

/-- A solver matters only by its answer to what it is handed. -/
theorem step_congr (operation : Operation)
    (h : ∀ s ∈ operation.submission? ws, solver.answer s = solver'.answer s) :
    ((ws.install solver).step operation).install solver =
      ((ws.install solver').step operation).install solver := by
  cases operation with
  | setPrecision precision =>
    show ((ws.install solver).setPrecision precision).install solver =
      ((ws.install solver').setPrecision precision).install solver
    unfold setPrecision
    split <;> rfl
  | feedLine line =>
    show ((ws.install solver).feedLine line).workspace.install solver =
      ((ws.install solver').feedLine line).workspace.install solver
    rw [feedLine_install, feedLine_install]
    rfl
  | readDocument lines => exact readDocument_congr ws solver solver' lines
  | readText text => exact readDocument_congr ws solver solver' (linesOf text)
  | openDocument name content =>
    cases content with
    | none => rfl
    | some text =>
      exact readDocument_congr { ws with documentName := name } solver solver' (linesOf text)
  | solve =>
    show (ws.install solver).solve.workspace.install solver =
      (ws.install solver').solve.workspace.install solver
    by_cases hstatus : ws.status.isSuccess = true
    · have hsame : ∀ s : Solver, (ws.install s).status.isSuccess = true := fun _ => hstatus
      rw [Operation.submission?, if_pos hstatus] at h
      rw [solve, solve, if_pos (hsame solver), if_pos (hsame solver')]
      exact runSolver_congr h
    · have hsame : ∀ s : Solver, ¬ (ws.install s).status.isSuccess = true := fun _ => hstatus
      rw [solve, solve, if_neg (hsame solver), if_neg (hsame solver')]
      rfl
  | runSolver => exact runSolver_congr h
  | solveDocument lines =>
    show ((ws.install solver).solveDocument lines).workspace.install solver =
      ((ws.install solver').solveDocument lines).workspace.install solver
    rw [solveDocument, solveDocument, readDocument_install, readDocument_install, Reply.andThen,
      Reply.andThen]
    by_cases hread : (ws.readDocument lines).status = .success
    · have hsame : ∀ s : Solver, ((ws.readDocument lines).install s).status = .success :=
        fun _ => hread
      rw [Operation.submission?, if_pos hread] at h
      rw [if_pos (hsame solver), if_pos (hsame solver')]
      exact runSolver_congr h
    · have hsame : ∀ s : Solver, ¬ ((ws.readDocument lines).install s).status = .success :=
        fun _ => hread
      rw [if_neg (hsame solver), if_neg (hsame solver')]
      rfl
  | _ => rfl

end Workspace

/-! ## Counts -/

theorem Workspace.status_checkCounts_eq_success (ws : Workspace) :
    ws.checkCounts.status = .success ↔
      ws.builder.count ≠ 0 ∧ ws.builder.count = ws.builder.system.variableCount := by
  show (if _ then _ else _) = Status.success ↔ _
  split_ifs <;> simp <;> omega

theorem Workspace.submission?_spec {ws : Workspace} {submission : Submission}
    (h : ws.submission? = some submission) :
    submission.system = ws.builder.system ∧ submission.count = ws.builder.count ∧
      submission.count ≠ 0 ∧ submission.count = submission.system.variableCount := by
  unfold submission? at h
  split at h
  · rename_i hcounts
    obtain rfl := Option.some.inj h
    exact ⟨rfl, rfl, ws.status_checkCounts_eq_success.mp hcounts⟩
  · cases h

/-- The system is handed over as it is after the operation, for solving does not change it. -/
theorem Operation.submission?_spec {ws : Workspace} {operation : Operation}
    {submission : Submission} (h : operation.submission? ws = some submission) :
    submission.system = (ws.step operation).builder.system ∧
      submission.count = (ws.step operation).builder.count ∧
      submission.count ≠ 0 ∧ submission.count = submission.system.variableCount := by
  cases operation with
  | solve =>
    rw [submission?] at h
    split at h
    · rw [show (ws.step .solve).builder = ws.builder from ws.builder_solve]
      exact Workspace.submission?_spec h
    · cases h
  | runSolver =>
    rw [show (ws.step .runSolver).builder = ws.builder from ws.builder_runSolver]
    exact Workspace.submission?_spec h
  | solveDocument lines =>
    rw [submission?] at h
    split at h
    · have hbuilder : (ws.step (.solveDocument lines)).builder =
          (ws.readDocument lines).workspace.builder :=
        (ws.builder_solveDocument lines).trans (ws.builder_readDocument lines).symm
      rw [hbuilder]
      exact Workspace.submission?_spec h
    · cases h
  | _ => cases h

namespace Elimination

/-- What the counts can be blamed for. -/
def countFaults : List Status := [.noEquations, .tooFewEquations, .tooManyEquations]

theorem status_solveSquare (system : LinearSystem) (tolerances : Tolerances) (solution : Solution) :
    (solveSquare system tolerances solution).status ∉ countFaults := by
  unfold solveSquare
  dsimp only
  split_ifs <;> simp [countFaults]

theorem status_solve_of_square {system : LinearSystem} {count : Int} (hsome : count ≠ 0)
    (hsquare : count = system.variableCount) (tolerances : Tolerances) (solution : Solution) :
    (solver.solve system count tolerances solution).status ∉ countFaults := by
  show (if _ then _ else if _ then _ else _ : Answer).status ∉ _
  rw [if_neg hsome, if_neg (not_not.mpr hsquare)]
  exact status_solveSquare system tolerances solution

/-- The solver refuses the counts that the workspace refuses, with the same status. -/
theorem status_solve_of_refused {ws : Workspace} (h : ws.checkCounts.status ≠ .success)
    (tolerances : Tolerances) (solution : Solution) :
    (solver.solve ws.builder.system ws.builder.count tolerances solution).status =
      ws.checkCounts.status := by
  rw [ne_eq, ws.status_checkCounts_eq_success] at h
  show (if _ then _ else if _ then _ else _ : Answer).status = if _ then _ else if _ then _ else _
  by_cases hnone : ws.builder.count = 0
  · rw [if_pos hnone, if_pos hnone]
  · have hne : ws.builder.count ≠ ws.builder.system.variableCount := fun heq => h ⟨hnone, heq⟩
    rw [if_neg hnone, if_neg hnone, if_pos hne]
    dsimp only
    split_ifs <;> first | rfl | omega

end Elimination

/-! ## Tables -/

/-- A solver is handed `n` equations in as many variables: those completed while the lines
were read, each with what its tokens add up to. -/
structure Submission.Square (submission : Submission) (builder : Builder) (lines : List Text)
    (n : Nat) : Prop where
  read : builder = Builder.feedAll {} lines
  system : submission.system = builder.system
  positive : 1 ≤ n
  submitted : submission.count = n
  count : builder.count = n
  row : builder.draft.row = n
  unknowns : submission.system.variableCount = n
  known : ∀ row, ∀ c ∈ contributions (Builder.tokensOf {} row lines), ∀ name,
    c.unknown? = some name → name ∈ submission.system.names
  coefficients : submission.system.denseCoefficients n =
    (List.range n).map fun row => submission.system.names.map fun name =>
      total (some name) (Builder.tokensOf {} row lines)
  constants : submission.system.denseConstants n =
    (List.range n).map fun row => total none (Builder.tokensOf {} row lines)
  completed : ∀ row < n, ∃ text, Reads .term false (Builder.tokensOf {} row lines) text

namespace Workspace

theorem square_of_submission {operations : List Operation} {operation : Operation}
    {submission : Submission} (h : operation.submission? (run operations) = some submission) :
    ∃ n, submission.Square (run (operations ++ [operation])).builder
      (documentOf (operations ++ [operation])) n := by
  have hstep : run (operations ++ [operation]) = (run operations).step operation := by
    rw [run, List.foldl_concat]
    rfl
  obtain ⟨hsystem, hcount, hsome, hsquare⟩ := Operation.submission?_spec h
  rw [← hstep] at hsystem hcount
  have hread := builder_run (operations ++ [operation])
  have hrow : (run (operations ++ [operation])).builder.count =
      (run (operations ++ [operation])).builder.draft.row := (stored_run _).count
  generalize run (operations ++ [operation]) = ws at hsystem hcount hread hrow
  generalize documentOf (operations ++ [operation]) = lines at hread
  refine ⟨ws.builder.draft.row, hread, hsystem, by omega, hcount.trans hrow, hrow, rfl, by omega,
    ?_, ?_, ?_, ?_⟩
  · intro row c hc name hname
    rw [hsystem, hread]
    exact Builder.mem_names_feedAll hc hname
  · rw [hsystem, hread]
    exact Builder.denseCoefficients_feedAll lines _
  · rw [hsystem, hread]
    exact Builder.denseConstants_feedAll lines _
  · intro row hlt
    rw [hread] at hlt
    exact (@Builder.readRows_feedAll {} describes_empty lines).completed row (Nat.zero_le _) hlt

/-- **A solver is only ever shown a square system of complete equations.** It is asked by
the operations that solve and only there, a workspace refuses the counts that elimination
would refuse, and with the same status, so elimination does not refuse what it is handed. -/
theorem square_submissions :
    (∀ (ws : Workspace) (operation : Operation) (solver solver' : Solver),
      (∀ s ∈ operation.submission? ws, solver.answer s = solver'.answer s) →
        ((ws.install solver).step operation).install solver =
          ((ws.install solver').step operation).install solver) ∧
    (∀ (operations : List Operation) (operation : Operation),
      ∀ s ∈ operation.submission? (run operations),
        (∃ n, s.Square (run (operations ++ [operation])).builder
          (documentOf (operations ++ [operation])) n) ∧
        (Elimination.solver.answer s).status ∉ Elimination.countFaults) ∧
    ∀ (ws : Workspace) (tolerances : Tolerances) (solution : Solution),
      (ws.checkCounts.status = .success →
        (Elimination.solver.solve ws.builder.system ws.builder.count tolerances solution).status ∉
          Elimination.countFaults) ∧
      (ws.checkCounts.status ≠ .success →
        (Elimination.solver.solve ws.builder.system ws.builder.count tolerances solution).status =
          ws.checkCounts.status) := by
  refine ⟨fun ws operation solver solver' h => step_congr operation h, ?_, ?_⟩
  · intro operations operation submission h
    obtain ⟨-, -, hsome, hsquare⟩ := Operation.submission?_spec h
    exact ⟨square_of_submission h, Elimination.status_solve_of_square hsome hsquare _ _⟩
  · intro ws tolerances solution
    refine ⟨?_, fun h => Elimination.status_solve_of_refused h tolerances solution⟩
    intro h
    obtain ⟨hsome, hsquare⟩ := ws.status_checkCounts_eq_success.mp h
    exact Elimination.status_solve_of_square hsome hsquare tolerances solution

/-- A further equation is open when the first two are solved. Nothing is submitted before. -/
theorem square_submissions_openEquation :
    (∀ solver solver' : Solver,
      ((install {} solver).step .solve).install solver =
        ((install {} solver').step .solve).install solver) ∧
    ∃ s ∈ Operation.solve.submission?
        (run [.feedLine "x + y = 3", .feedLine "x - y = 1", .feedLine "2 y +"]),
      (∃ n, s.Square
        (run [.feedLine "x + y = 3", .feedLine "x - y = 1", .feedLine "2 y +", .solve]).builder
        (documentOf
          [.feedLine "x + y = 3", .feedLine "x - y = 1", .feedLine "2 y +", .solve]) n) ∧
      (Elimination.solver.answer s).status ∉ Elimination.countFaults := by
  refine ⟨?_, ?_⟩
  · intro solver solver'
    exact square_submissions.1 {} .solve solver solver' nofun
  · have hsome : (Operation.solve.submission?
        (run [.feedLine "x + y = 3", .feedLine "x - y = 1", .feedLine "2 y +"])).isSome = true := by
      decide +kernel
    obtain ⟨s, hs⟩ := Option.isSome_iff_exists.mp hsome
    exact ⟨s, hs, square_submissions.2.1 _ _ s hs⟩

end Workspace

end EquationPad
