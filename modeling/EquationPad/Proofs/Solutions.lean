import EquationPad.Proofs.FreshStart
import EquationPad.Proofs.Printing

/-! What a workspace tells about a solution is about the system it holds. The values, the names
they are shown with and the mark that the system is solved are written by different operations,
and reading a line leaves the values and names of the system before it. But it takes the mark
away, and only a solver sets it, so a workspace that is solved holds the answer of the solver
that was asked last, and it was asked about this very system. -/

namespace EquationPad

/-- If the solver calls what it was handed solved, it returns a value for each equation. -/
def Solver.Fills (solver : Solver) (s : Submission) : Prop :=
  (solver.answer s).solution.solved = true →
    ((solver.answer s).solution.values.length : Int) = s.count

theorem Solver.fills_scripted {name : Text} {status : Status} {solved : Bool} {rcond : Float}
    {values : List Float} {s : Submission} (h : 0 ≤ s.count) :
    (scripted name status solved rcond values).Fills s := by
  intro _
  simp only [answer, scripted, List.length_map, List.length_range]
  omega

namespace Workspace

/-! ## Where a solution comes from -/

/-- The workspace holds the answer of a solver about the system it still holds. -/
structure HoldsAnswer (solver : Solver) (s : Submission) (ws : Workspace) : Prop where
  solution : ws.solution = (solver.answer s).solution
  names : ws.solvedNames = s.system.names
  system : ws.builder.system = s.system
  count : ws.builder.count = s.count
  variableCount : ws.variableCount = s.system.variableCount

variable {ws : Workspace}

theorem HoldsAnswer.checkCounts {solver : Solver} {s : Submission}
    (h : HoldsAnswer solver s ws) : HoldsAnswer solver s ws.checkCounts where
  solution := h.solution
  names := h.names
  system := h.system
  count := h.count
  variableCount := congrArg LinearSystem.variableCount h.system

/-- If the workspace is solved afterwards, the solver was asked about the system it then holds,
or it was solved before and holds the same answer still. -/
def Accounts (ws : Workspace) (asked : Option Submission) (after : Workspace) : Prop :=
  after.solution.solved = true →
    (∃ s ∈ asked, HoldsAnswer ws.solver s after) ∨
      (ws.solution.solved = true ∧
        ∀ solver s, HoldsAnswer solver s ws → HoldsAnswer solver s after)

theorem Accounts.of_kept {after : Workspace} (hsolution : after.solution = ws.solution)
    (hnames : after.solvedNames = ws.solvedNames) (hbuilder : after.builder = ws.builder)
    (hcount : after.variableCount = ws.variableCount) : ws.Accounts none after := by
  intro hsolved
  refine .inr ⟨hsolution ▸ hsolved, fun solver s h => ?_⟩
  exact ⟨hsolution.trans h.solution, hnames.trans h.names, hbuilder ▸ h.system,
    hbuilder ▸ h.count, hcount.trans h.variableCount⟩

theorem Accounts.of_unsolved {asked : Option Submission} {after : Workspace}
    (h : after.solution.solved = false) : ws.Accounts asked after := by
  intro hsolved
  rw [h] at hsolved
  cases hsolved

theorem accounts_runSolver (ws : Workspace) :
    ws.Accounts ws.submission? ws.runSolver.workspace := by
  intro hsolved
  unfold runSolver at hsolved ⊢
  dsimp only at hsolved ⊢
  unfold submission?
  by_cases hcounts : ws.checkCounts.status = .success
  · rw [if_pos hcounts, if_pos hcounts]
    exact .inl ⟨_, rfl, rfl, rfl, rfl, rfl, rfl⟩
  · rw [if_neg hcounts] at hsolved
    rw [if_neg hcounts, if_neg hcounts]
    exact .inr ⟨hsolved, fun solver s h => h.checkCounts⟩

theorem solved_feedLine (ws : Workspace) (line : Text) :
    (ws.feedLine line).workspace.solution.solved = false := by
  unfold feedLine
  dsimp only
  split <;> rfl

theorem kept_unsolved : KeptByReading fun ws => ws.solution.solved = false where
  feedLine {ws} line _ := ws.solved_feedLine line
  finish lastLine h := by
    unfold finish
    dsimp only
    split <;> exact h

/-- A document that was only read is not solved. -/
theorem solved_readDocument (ws : Workspace) (lines : List Text) :
    (ws.readDocument lines).workspace.solution.solved = false :=
  kept_unsolved.readDocument rfl lines

theorem accounts_step (ws : Workspace) (operation : Operation) :
    ws.Accounts (operation.submission? ws) (ws.step operation) := by
  cases operation with
  | setPrecision precision =>
    show ws.Accounts none (ws.setPrecision precision)
    unfold setPrecision
    split <;> exact .of_kept rfl rfl rfl rfl
  | setPrintMode _ | setVerbose _ | setTolerances _ | install _ => exact .of_kept rfl rfl rfl rfl
  | feedLine line => exact .of_unsolved (ws.solved_feedLine line)
  | readDocument lines => exact .of_unsolved (ws.solved_readDocument lines)
  | readText text => exact .of_unsolved (ws.solved_readDocument (linesOf text))
  | openDocument name content =>
    cases content with
    | none => exact .of_unsolved rfl
    | some text => exact .of_unsolved (solved_readDocument _ (linesOf text))
  | checkCounts => exact fun hsolved => .inr ⟨hsolved, fun solver s h => h.checkCounts⟩
  | solve =>
    show ws.Accounts (if _ then _ else _) ws.solve.workspace
    unfold solve
    split
    · exact ws.accounts_runSolver
    · exact .of_kept rfl rfl rfl rfl
  | runSolver => exact ws.accounts_runSolver
  | solveDocument lines =>
    show ws.Accounts (if _ then _ else _) (ws.solveDocument lines).workspace
    rw [solveDocument, Reply.andThen]
    split
    · intro hsolved
      rcases accounts_runSolver _ hsolved with ⟨s, hs, hanswer⟩ | ⟨hread, -⟩
      · -- reading does not change the solver, so it is the one from before that was asked
        have hsolver : (ws.readDocument lines).workspace.solver = ws.solver :=
          congrArg Setup.solver (ws.setup_readDocument lines)
        exact .inl ⟨s, hs, hsolver ▸ hanswer⟩
      · rw [solved_readDocument] at hread
        cases hread
    · exact .of_unsolved (ws.solved_readDocument lines)
  | startOver | startAnew => exact .of_unsolved rfl

/-- A workspace that is solved holds what a solver answered when it was asked about the system
that the workspace holds. -/
theorem holdsAnswer_run {operations : List Operation}
    (hsolved : (run operations).solution.solved = true) :
    ∃ before operation after, operations = before ++ operation :: after ∧
      ∃ s ∈ operation.submission? (run before),
        HoldsAnswer (run before).solver s (run operations) := by
  induction operations using List.reverseRecOn with
  | nil => cases hsolved
  | append_singleton operations operation ih =>
    have hrun : run (operations ++ [operation]) = (run operations).step operation :=
      run_append_cons ..
    rw [hrun] at hsolved ⊢
    rcases accounts_step _ _ hsolved with ⟨s, hs, hanswer⟩ | ⟨hbefore, hkept⟩
    · exact ⟨operations, operation, [], rfl, s, hs, hanswer⟩
    · obtain ⟨before, asking, after, rfl, s, hs, hanswer⟩ := ih hbefore
      exact ⟨before, asking, after ++ [operation], by simp, s, hs, hkept _ _ hanswer⟩

/-! ## What is told -/

/-- What a solved workspace tells about its solution fits the system it holds. -/
structure TellsSolution (ws : Workspace) : Prop where
  names : ws.solvedNames = ws.builder.system.names
  paired : ws.solvedNames.length = ws.solution.values.length
  equations : ws.builder.count = ws.solution.values.length
  unknowns : ws.builder.system.variableCount = ws.solution.values.length
  variableCount : ws.variableCount = ws.solution.values.length
  value : ∀ (i : Nat) (name : Text), ws.solvedNames[i]? = some name →
    ∃ x, ws.solution.values[i]? = some x ∧ ws.value? name = some x ∧
      ∀ label, (ws.valueRows label)[i]? =
        some (label name ++ " = " ++ showGeneral ws.settings.precision x)
  other : ∀ name ∉ ws.solvedNames, ws.value? name = none
  solutionText : breakLines ws.solutionText = ws.valueRows id
  detailedText : ∃ header, breakLines ws.detailedText = header ++ "Solution:".toList ::
    (ws.valueRows (fun name => ' ' :: ' ' :: padRight 20 name) ++
      [[], "========================================".toList, []])

theorem HoldsAnswer.tellsSolution {solver : Solver} {s : Submission}
    (h : HoldsAnswer solver s ws) (hsolved : ws.solution.solved = true) (hfills : solver.Fills s)
    (hsquare : s.count = s.system.variableCount) (hnodup : ws.builder.system.names.Nodup)
    (hwritten : ∀ name ∈ ws.builder.system.names, IsName name) : ws.TellsSolution := by
  have hnames : ws.solvedNames = ws.builder.system.names := by rw [h.names, h.system]
  have hfilled : (ws.solution.values.length : Int) = s.count := by
    rw [h.solution] at hsolved ⊢
    exact hfills hsolved
  have hunknowns : ws.builder.system.variableCount = ws.solution.values.length := by
    rw [h.system]
    omega
  have hlines : ∀ name ∈ ws.solvedNames, '\n' ∉ name := by
    intro name hname
    exact (hwritten name (hnames ▸ hname)).newline_notMem
  refine ⟨hnames, by rw [hnames, LinearSystem.length_names]; exact hunknowns, by rw [h.count, hfilled], hunknowns,
    by rw [h.variableCount, ← h.system, hunknowns], ?_, ?_,
    breakLines_solutionText hsolved hlines, breakLines_detailedText hlines⟩
  · intro i name hname
    have hlt : i < ws.solution.values.length := by
      obtain ⟨hi, -⟩ := List.getElem?_eq_some_iff.mp hname
      rwa [hnames, LinearSystem.length_names, hunknowns] at hi
    refine ⟨ws.solution.values[i], List.getElem?_eq_getElem hlt, ?_, ?_⟩
    · rw [hnames] at hname
      rw [value?, if_pos hsolved, LinearSystem.findVariable?_of_getElem? hnodup hname]
      exact List.getElem?_eq_getElem hlt
    · intro label
      rw [valueRows, List.getElem?_zipWith, hname, List.getElem?_eq_getElem hlt]
  · intro name hname
    have hfind : ws.builder.system.findVariable? name = none :=
      LinearSystem.findVariable?_eq_none_iff.mpr (hnames ▸ hname)
    rw [value?, if_pos hsolved, hfind]
    rfl

/-- Whenever a solver is asked in the course of the operations, it fills what it calls solved. -/
def SolversFill (ws : Workspace) : List Operation → Prop
  | [] => True
  | operation :: operations =>
    (∀ s ∈ operation.submission? ws, ws.solver.Fills s) ∧
      (ws.step operation).SolversFill operations

theorem SolversFill.fills {before after : List Operation} {operation : Operation}
    (h : ws.SolversFill (before ++ operation :: after)) :
    ∀ s ∈ operation.submission? (before.foldl step ws), (before.foldl step ws).solver.Fills s := by
  induction before generalizing ws with
  | nil => exact h.1
  | cons first before ih => exact ih h.2

/-- **What is told about a solution is in range and about the system at hand.** After any
operations, a workspace that is solved pairs each name of its system with one value, tells
these values by name, line by line and nothing else, and they are what a solver answered when
it was asked about this very system. -/
theorem tellsSolution_run {operations : List Operation} (hfill : SolversFill {} operations)
    (hsolved : (run operations).solution.solved = true) :
    (run operations).TellsSolution ∧
      ∃ before operation after, operations = before ++ operation :: after ∧
        ∃ s ∈ operation.submission? (run before),
          HoldsAnswer (run before).solver s (run operations) := by
  obtain ⟨before, operation, after, rfl, s, hs, hanswer⟩ := holdsAnswer_run hsolved
  refine ⟨?_, before, operation, after, rfl, s, hs, hanswer⟩
  obtain ⟨-, -, -, hsquare⟩ := Operation.submission?_spec hs
  have hwritten := Builder.isName_feedAll (documentOf (before ++ operation :: after))
  rw [← builder_run] at hwritten
  exact hanswer.tellsSolution hsolved (hfill.fills s hs) hsquare (sized_run _).spans.nodup hwritten

/-- Of two systems that were solved one after the other, the second is told. -/
theorem tellsSolution_run_secondSystem :
    (run [.install (.scripted "fixed" .success true 1.0 [2.0, 1.0]), .feedLine "z = 1", .solve,
        .readText "x + y = 3\nx - y = 1\n", .solve]).solvedNames = ["x".toList, "y".toList] ∧
      (run [.install (.scripted "fixed" .success true 1.0 [2.0, 1.0]), .feedLine "z = 1", .solve,
        .readText "x + y = 3\nx - y = 1\n", .solve]).TellsSolution := by
  have hfills : ∀ {ws : Workspace} {operation : Operation},
      ws.solver = .scripted "fixed" .success true 1.0 [2.0, 1.0] →
        ∀ s ∈ operation.submission? ws, ws.solver.Fills s := by
    intro ws operation hsolver s hs
    obtain ⟨-, -, -, hsquare⟩ := Operation.submission?_spec hs
    rw [hsolver]
    exact Solver.fills_scripted (by omega)
  refine ⟨by decide +kernel, (tellsSolution_run ?_ (by decide +kernel)).1⟩
  have hsolver := fun later => congrArg Setup.solver
    (setup_run (.install (.scripted "fixed" .success true 1.0 [2.0, 1.0]) :: later))
  exact ⟨nofun, nofun, hfills (hsolver [.feedLine "z = 1"]), nofun,
    hfills (hsolver [.feedLine "z = 1", .solve, .readText "x + y = 3\nx - y = 1\n"]), trivial⟩

end Workspace

end EquationPad
