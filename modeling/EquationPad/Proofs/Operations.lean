import EquationPad.Proofs.Dimensions
import EquationPad.Proofs.Documents

/-! What can be done with a workspace, and what holds after any of it. Whatever the
operations were, the builder of a workspace is what reading some lines from the start
leads to: the lines that were read since a document was last begun. So what holds of
builders that read lines holds of workspaces, and operations that read nothing have
nothing to add. -/

namespace EquationPad

/-- What a workspace can be asked to do. -/
inductive Operation where
  | setPrintMode (mode : Int)
  | setPrecision (precision : Int)
  | setVerbose (verbose : Bool)
  | setTolerances (tolerances : Tolerances)
  | install (solver : Solver)
  | feedLine (line : Text)
  | readDocument (lines : List Text)
  | readText (text : Text)
  | openDocument (name : Text) (content : Option Text)
  | checkCounts
  | solve
  | runSolver
  | solveDocument (lines : List Text)
  | startOver
  /-- Settings, document name and solver go as well. -/
  | startAnew

namespace Workspace

def step (ws : Workspace) : Operation → Workspace
  | .setPrintMode mode => ws.setPrintMode mode
  | .setPrecision precision => ws.setPrecision precision
  | .setVerbose verbose => ws.setVerbose verbose
  | .setTolerances tolerances => ws.setTolerances tolerances
  | .install solver => ws.install solver
  | .feedLine line => (ws.feedLine line).workspace
  | .readDocument lines => (ws.readDocument lines).workspace
  | .readText text => (ws.readText text).workspace
  | .openDocument name content => (ws.openDocument name content).workspace
  | .checkCounts => ws.checkCounts
  | .solve => ws.solve.workspace
  | .runSolver => ws.runSolver.workspace
  | .solveDocument lines => (ws.solveDocument lines).workspace
  | .startOver => ws.startOver
  | .startAnew => ws.startAnew

/-- The workspace after some operations on a new one. -/
def run (operations : List Operation) : Workspace := operations.foldl step {}

end Workspace

/-! ## The document at hand -/

/-- The lines up to the first that fails, with that line. -/
def Builder.upToFailure (builder : Builder) : List Text → List Text
  | [] => []
  | line :: rest =>
    line :: if (builder.feed line).draft.status.isSuccess then (builder.feed line).upToFailure rest
      else []

/-- The lines read since the document was begun, given those before the operation. -/
def Operation.document (before : List Text) : Operation → List Text
  | .feedLine line => before ++ [line]
  | .readDocument lines | .solveDocument lines => Builder.upToFailure {} lines
  | .readText text | .openDocument _ (some text) => Builder.upToFailure {} (linesOf text)
  | .openDocument _ none | .startOver | .startAnew => []
  | .setPrintMode _ | .setPrecision _ | .setVerbose _ | .setTolerances _ | .install _
  | .checkCounts | .solve | .runSolver => before

/-- The lines that were read of the document at hand. -/
def documentOf (operations : List Operation) : List Text := operations.foldl Operation.document []

namespace Builder

theorem upToFailure_prefix (builder : Builder) (lines : List Text) :
    builder.upToFailure lines <+: lines := by
  induction lines generalizing builder with
  | nil => exact List.prefix_rfl
  | cons line lines ih =>
    rw [upToFailure, List.prefix_cons_inj]
    split
    · exact ih _
    · exact List.nil_prefix

theorem upToFailure_of_succeeds {builder : Builder} {lines : List Text}
    (h : builder.Succeeds lines) : builder.upToFailure lines = lines := by
  induction lines generalizing builder with
  | nil => rfl
  | cons line lines ih =>
    obtain ⟨hline, hrest⟩ := h
    rw [upToFailure, if_pos hline, ih hrest]

end Builder

namespace Workspace

theorem builder_feedLines (ws : Workspace) (lines : List Text) :
    (ws.feedLines lines).workspace.builder =
      ws.builder.feedAll (ws.builder.upToFailure lines) := by
  induction lines generalizing ws with
  | nil => rfl
  | cons line lines ih =>
    rw [feedLines, Builder.upToFailure]
    dsimp only
    rw [feedLine_status]
    split
    · dsimp only
      rw [ih, feedLine_builder]
      rfl
    · exact feedLine_builder ws line

theorem builder_finish (ws : Workspace) (lastLine : Text) :
    (ws.finish lastLine).workspace.builder = ws.builder := by
  unfold finish
  dsimp only
  split <;> rfl

theorem builder_readDocument (ws : Workspace) (lines : List Text) :
    (ws.readDocument lines).workspace.builder =
      Builder.feedAll {} (Builder.upToFailure {} lines) := by
  have hread := builder_feedLines ws.startOver lines
  rw [readDocument, Reply.andThen]
  split
  · dsimp only
    rw [builder_finish, hread]
    rfl
  · exact hread

theorem builder_runSolver (ws : Workspace) : ws.runSolver.workspace.builder = ws.builder := by
  unfold runSolver
  dsimp only
  split <;> rfl

theorem builder_solve (ws : Workspace) : ws.solve.workspace.builder = ws.builder := by
  unfold solve
  split
  · exact builder_runSolver ws
  · rfl

theorem builder_solveDocument (ws : Workspace) (lines : List Text) :
    (ws.solveDocument lines).workspace.builder =
      Builder.feedAll {} (Builder.upToFailure {} lines) := by
  rw [solveDocument, Reply.andThen]
  split
  · exact (builder_runSolver _).trans (builder_readDocument ws lines)
  · exact builder_readDocument ws lines

theorem builder_step {ws : Workspace} {lines : List Text}
    (h : ws.builder = Builder.feedAll {} lines) (operation : Operation) :
    (ws.step operation).builder = Builder.feedAll {} (operation.document lines) := by
  cases operation with
  | setPrecision precision =>
    show (ws.setPrecision precision).builder = _
    unfold setPrecision
    split <;> exact h
  | feedLine line =>
    show (ws.feedLine line).workspace.builder = Builder.feedAll {} (lines ++ [line])
    rw [feedLine_builder, h, Builder.feedAll, Builder.feedAll, List.foldl_append]
    rfl
  | readDocument lines => exact builder_readDocument ws lines
  | readText text => exact builder_readDocument ws (linesOf text)
  | openDocument name content =>
    cases content with
    | none => rfl
    | some text => exact builder_readDocument _ (linesOf text)
  | solve => exact (builder_solve ws).trans h
  | runSolver => exact (builder_runSolver ws).trans h
  | solveDocument lines => exact builder_solveDocument ws lines
  | startOver => rfl
  | startAnew => rfl
  | _ => exact h

/-- A workspace holds what reading its document from the start leads to. -/
theorem builder_run (operations : List Operation) :
    (run operations).builder = Builder.feedAll {} (documentOf operations) := by
  have hsteps : ∀ (ws : Workspace) (lines : List Text), ws.builder = Builder.feedAll {} lines →
      (operations.foldl step ws).builder =
        Builder.feedAll {} (operations.foldl Operation.document lines) := by
    induction operations with
    | nil => exact fun _ _ h => h
    | cons operation operations ih => exact fun ws lines h => ih _ _ (builder_step h operation)
  exact hsteps {} [] rfl

end Workspace

/-! ## Storage -/

namespace Workspace

/-- The storage goes with the equation being read: it has a row for it at most, and none
if it is not open. -/
structure Stored (ws : Workspace) : Prop where
  count : ws.builder.count = ws.builder.draft.row
  rows : ws.builder.system.rows ≤ ws.builder.draft.row + 1
  columns : ws.builder.system.columns = ws.builder.system.variableCount
  constantRows : ws.builder.system.constantRows ≤ ws.builder.draft.row + 1
  closedRows : ws.builder.draft.isOpen = false → ws.builder.system.rows ≤ ws.builder.draft.row
  closedConstants : ws.builder.draft.isOpen = false →
    ws.builder.system.constantRows ≤ ws.builder.draft.row

theorem sized_run (operations : List Operation) : (run operations).builder.Sized := by
  rw [builder_run]
  exact Builder.kept_sized.feedAll (Builder.sized_start 0) _

theorem stored_run (operations : List Operation) : (run operations).Stored := by
  have h := sized_run operations
  have hempty := fun hclosed => h.empty (Builder.isBegun_of_isOpen hclosed)
  refine ⟨?_, h.spans.rows, h.spans.columns, h.spans.constantRows,
    fun hclosed => (hempty hclosed).rows, fun hclosed => (hempty hclosed).constantRows⟩
  rw [builder_run]
  exact Builder.kept_count.feedAll rfl _

/-- **Completed equations stay as they are, and the storage fits the equation being read.**
Whatever was done with a workspace before, the rows before the equation being read and the
columns of the names survive the next line and the next attempt to solve, whether these
fail or not. The solver may also be run in spite of an earlier failure. -/
theorem storage_run (operations : List Operation) :
    (run operations).Stored ∧
      (∀ line, (run operations).builder.system.Frozen (run operations).builder.draft.row
        ((run operations).feedLine line).workspace.builder.system) ∧
      (run operations).builder.system.Frozen (run operations).builder.draft.row
        (run operations).solve.workspace.builder.system ∧
      (run operations).builder.system.Frozen (run operations).builder.draft.row
        (run operations).runSolver.workspace.builder.system := by
  have h := sized_run operations
  have hsame := (LinearSystem.Extends.refl (run operations).builder.draft.row _).frozen
    h.spans.toFits h.spans.toFits
  refine ⟨stored_run operations, ?_, ?_, ?_⟩
  · intro line
    rw [feedLine_builder]
    exact (Builder.extends_feed _ line).frozen h.spans.toFits
      (Builder.kept_sized.feed h line).spans.toFits
  · rw [builder_solve]
    exact hsame
  · rw [builder_runSolver]
    exact hsame

end Workspace

end EquationPad
