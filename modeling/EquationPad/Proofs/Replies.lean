import EquationPad.Proofs.Submissions

/-! What operations answer, and what becomes of a failure. A workspace records the status of the
last operation that answered with one, and solving looks at nothing but that. So it is refused
as long as whatever is asked fails, and the first line that is read with success, even a blank
one, lifts the refusal, though nothing was reset. -/

namespace EquationPad

/-! ## Replies -/

/-- The workspace has the status that was answered. -/
def Reply.Recorded (reply : Reply) : Prop := reply.workspace.status = reply.status

theorem Reply.Recorded.andThen {reply : Reply} {next : Workspace → Reply}
    (h : reply.status ≠ .success → reply.Recorded) (hnext : ∀ ws, (next ws).Recorded) :
    (reply.andThen next).Recorded := by
  unfold Reply.andThen
  split
  · exact hnext reply.workspace
  · exact h ‹_›

/-- What a reply keeps, and each that may follow it. -/
theorem Reply.andThen_kept {P : Workspace → Prop} {reply : Reply} {next : Workspace → Reply}
    (h : P reply.workspace) (hnext : ∀ ws, P ws → P (next ws).workspace) :
    P (reply.andThen next).workspace := by
  unfold Reply.andThen
  split
  · exact hnext _ h
  · exact h

namespace Workspace

/-- The reply to an operation, for those that answer with a status. -/
def respond? (ws : Workspace) : Operation → Option Reply
  | .feedLine line => some (ws.feedLine line)
  | .readDocument lines => some (ws.readDocument lines)
  | .readText text => some (ws.readText text)
  | .openDocument name content => some (ws.openDocument name content)
  | .checkCounts => some { status := ws.checkCounts.status, workspace := ws.checkCounts }
  | .solve => some ws.solve
  | .runSolver => some ws.runSolver
  | .solveDocument lines => some (ws.solveDocument lines)
  | .setPrintMode _ | .setPrecision _ | .setVerbose _ | .setTolerances _ | .install _
  | .startOver | .startAnew => none

theorem run_append_cons (before later : List Operation) (operation : Operation) :
    run (before ++ operation :: later) = later.foldl step ((run before).step operation) := by
  rw [run, List.foldl_append]
  rfl

variable {ws : Workspace}

theorem step_of_respond? {operation : Operation} {reply : Reply}
    (h : ws.respond? operation = some reply) : ws.step operation = reply.workspace := by
  cases operation <;> cases h <;> rfl

theorem recorded_feedLine (ws : Workspace) (line : Text) : (ws.feedLine line).Recorded := by
  unfold feedLine
  dsimp only
  split <;> rfl

/-- No lines at all are read with success, whatever the status was before. -/
theorem recorded_feedLines {lines : List Text} (h : (ws.feedLines lines).status ≠ .success) :
    (ws.feedLines lines).Recorded := by
  induction lines generalizing ws with
  | nil => exact absurd rfl h
  | cons line lines ih =>
    rw [feedLines] at h ⊢
    dsimp only at h ⊢
    split
    · rename_i hline
      rw [if_pos hline] at h
      exact ih h
    · exact ws.recorded_feedLine line

theorem recorded_finish (ws : Workspace) (lastLine : Text) : (ws.finish lastLine).Recorded := by
  unfold finish
  dsimp only
  split <;> rfl

theorem recorded_readDocument (ws : Workspace) (lines : List Text) :
    (ws.readDocument lines).Recorded :=
  .andThen recorded_feedLines fun read => read.recorded_finish _

theorem recorded_runSolver (ws : Workspace) : ws.runSolver.Recorded := by
  unfold runSolver
  dsimp only
  split <;> rfl

theorem recorded_solve (ws : Workspace) : ws.solve.Recorded := by
  unfold solve
  split
  · exact ws.recorded_runSolver
  · rfl

theorem recorded_solveDocument (ws : Workspace) (lines : List Text) :
    (ws.solveDocument lines).Recorded :=
  .andThen (fun _ => ws.recorded_readDocument lines) recorded_runSolver

theorem recorded_of_respond? {operation : Operation} {reply : Reply}
    (h : ws.respond? operation = some reply) : reply.Recorded := by
  cases operation with
  | feedLine line =>
    cases h
    exact ws.recorded_feedLine line
  | readDocument lines =>
    cases h
    exact ws.recorded_readDocument lines
  | readText text =>
    cases h
    exact ws.recorded_readDocument (linesOf text)
  | openDocument name content =>
    cases h
    cases content with
    | none => rfl
    | some text => exact recorded_readDocument _ (linesOf text)
  | checkCounts =>
    cases h
    rfl
  | solve =>
    cases h
    exact ws.recorded_solve
  | runSolver =>
    cases h
    exact ws.recorded_runSolver
  | solveDocument lines =>
    cases h
    exact ws.recorded_solveDocument lines
  | _ => cases h

/-! ## Reading -/

/-- A property that each line keeps, and the end of a document. -/
structure KeptByReading (P : Workspace → Prop) : Prop where
  feedLine {ws : Workspace} (line : Text) : P ws → P (ws.feedLine line).workspace
  finish {ws : Workspace} (lastLine : Text) : P ws → P (ws.finish lastLine).workspace

namespace KeptByReading

variable {P : Workspace → Prop}

theorem feedLines (h : KeptByReading P) (hP : P ws) (lines : List Text) :
    P (ws.feedLines lines).workspace := by
  induction lines generalizing ws with
  | nil => exact hP
  | cons line lines ih =>
    rw [Workspace.feedLines]
    dsimp only
    split
    · exact ih (h.feedLine line hP)
    · exact h.feedLine line hP

theorem readDocument (h : KeptByReading P) (hP : P ws.startOver) (lines : List Text) :
    P (ws.readDocument lines).workspace := by
  have hread := h.feedLines hP lines
  exact Reply.andThen_kept hread fun _ => h.finish _

end KeptByReading

/-! ## Failures -/

/-- Whether the operation leaves a failure standing: it fails as well, or solves, or does not
answer. Starting over forgets the failure with the document. -/
def KeepsFailure (ws : Workspace) : Operation → Prop
  | .solve => True
  | .startOver | .startAnew => False
  | operation => ∀ reply ∈ ws.respond? operation, reply.status.isSuccess = false

def AllKeepFailure (ws : Workspace) : List Operation → Prop
  | [] => True
  | operation :: operations =>
    ws.KeepsFailure operation ∧ (ws.step operation).AllKeepFailure operations

/-- Solving answers the failure that stands, and does nothing. -/
structure Refuses (ws : Workspace) : Prop where
  status : ws.solve.status.isSuccess = false
  workspace : ws.solve.workspace = ws
  log : ws.solve.log = []
  unasked : Operation.solve.submission? ws = none

theorem refuses_of_failed (h : ws.status.isSuccess = false) : ws.Refuses := by
  have hnot : ¬ ws.status.isSuccess = true := by simp [h]
  have hsolve : ws.solve = { status := ws.status, workspace := ws } := by rw [solve, if_neg hnot]
  refine ⟨by rwa [hsolve], by rw [hsolve], by rw [hsolve], ?_⟩
  rw [Operation.submission?, if_neg hnot]

theorem failed_step {operation : Operation} (h : ws.status.isSuccess = false)
    (hkeeps : ws.KeepsFailure operation) : (ws.step operation).status.isSuccess = false := by
  have hanswered : (∀ reply ∈ ws.respond? operation, reply.status.isSuccess = false) →
      (ws.respond? operation).isSome = true → (ws.step operation).status.isSuccess = false := by
    intro hfails hsome
    obtain ⟨reply, hreply⟩ := Option.isSome_iff_exists.mp hsome
    rw [step_of_respond? hreply, recorded_of_respond? hreply]
    exact hfails reply hreply
  cases operation with
  | setPrecision precision =>
    show (ws.setPrecision precision).status.isSuccess = false
    unfold setPrecision
    split <;> exact h
  | setPrintMode _ | setVerbose _ | setTolerances _ | install _ => exact h
  | solve =>
    show ws.solve.workspace.status.isSuccess = false
    rwa [(refuses_of_failed h).workspace]
  | startOver | startAnew => exact hkeeps.elim
  | _ => exact hanswered hkeeps rfl

theorem failed_steps {operations : List Operation} (h : ws.status.isSuccess = false)
    (hkeep : ws.AllKeepFailure operations) : (operations.foldl step ws).status.isSuccess = false := by
  induction operations generalizing ws with
  | nil => exact h
  | cons operation operations ih =>
    obtain ⟨hfirst, hrest⟩ := hkeep
    exact ih (failed_step h hfirst) hrest

/-- **A failure keeps a workspace from solving until a line is read.** Whatever failed, solving
is refused while all that is asked fails as well. A line that is read with success lifts the
refusal, so then the system is solved as if nothing had failed before. -/
theorem refuses_after_failure {before later : List Operation} {operation : Operation}
    {reply : Reply} (h : (run before).respond? operation = some reply)
    (hfailed : reply.status.isSuccess = false) (hlater : reply.workspace.AllKeepFailure later) :
    (run (before ++ operation :: later)).Refuses ∧
      ∀ line, ((run (before ++ operation :: later)).feedLine line).status.isSuccess = true →
        (run (before ++ operation :: later ++ [.feedLine line])).solve =
            (run (before ++ operation :: later ++ [.feedLine line])).runSolver ∧
          Operation.solve.submission? (run (before ++ operation :: later ++ [.feedLine line])) =
            (run (before ++ operation :: later ++ [.feedLine line])).submission? := by
  have hrun : run (before ++ operation :: later) = later.foldl step reply.workspace := by
    rw [run_append_cons, step_of_respond? h]
  refine ⟨?_, ?_⟩
  · rw [← recorded_of_respond? h] at hfailed
    rw [hrun]
    exact refuses_of_failed (failed_steps hfailed hlater)
  · intro line hline
    have hread : run (before ++ operation :: later ++ [.feedLine line]) =
        ((run (before ++ operation :: later)).feedLine line).workspace := run_append_cons ..
    rw [← recorded_feedLine] at hline
    rw [hread, solve, Operation.submission?, if_pos hline, if_pos hline]
    exact ⟨rfl, rfl⟩

/-- A second line fails for a reason of its own, and a blank line lifts the refusal. -/
theorem refuses_after_failure_twoFailures :
    ((run [.feedLine "x = 1"]).feedLine "1..2").status = .multipleDecimalPoints ∧
      ((run [.feedLine "x = 1", .feedLine "1..2", .solve]).feedLine "2^ x").status =
        .missingExponent ∧
      (run [.feedLine "x = 1", .feedLine "1..2", .solve, .feedLine "2^ x"]).Refuses ∧
      (run [.feedLine "x = 1", .feedLine "1..2", .solve, .feedLine "2^ x", .feedLine ""]).solve =
        (run [.feedLine "x = 1", .feedLine "1..2", .solve, .feedLine "2^ x",
          .feedLine ""]).runSolver := by
  have hfirst : ((run [.feedLine "x = 1"]).feedLine "1..2").status = .multipleDecimalPoints := by
    decide +kernel
  have hsecond : ((run [.feedLine "x = 1", .feedLine "1..2", .solve]).feedLine "2^ x").status =
      .missingExponent := by decide +kernel
  have hblank : ((run [.feedLine "x = 1", .feedLine "1..2", .solve,
      .feedLine "2^ x"]).feedLine "").status.isSuccess = true := by decide +kernel
  have hkeep : ((run [.feedLine "x = 1"]).feedLine "1..2").workspace.AllKeepFailure
      [.solve, .feedLine "2^ x"] := by
    refine ⟨trivial, ?_, trivial⟩
    intro reply hreply
    cases hreply
    exact (congrArg Status.isSuccess hsecond).trans rfl
  obtain ⟨hrefuses, hlifted⟩ := refuses_after_failure (rfl : (run [.feedLine "x = 1"]).respond?
    (.feedLine "1..2") = some _) ((congrArg Status.isSuccess hfirst).trans rfl) hkeep
  exact ⟨hfirst, hsecond, hrefuses, (hlifted "" hblank).1⟩

/-- A blank line is enough for the solver to be asked about the system that a line was lost
from, though nothing was reset since that line failed. -/
theorem blankLine_lifts_refusal :
    ((run [.install (.scripted "fixed" .success true 1.0 [42.0]),
        .feedLine "x = 1"]).feedLine "1..2").status.isSuccess = false ∧
      (run [.install (.scripted "fixed" .success true 1.0 [42.0]), .feedLine "x = 1",
        .feedLine "1..2", .feedLine ""]).solve.status = .success ∧
      (Operation.solve.submission? (run [.install (.scripted "fixed" .success true 1.0 [42.0]),
        .feedLine "x = 1", .feedLine "1..2", .feedLine ""])).isSome = true := by
  decide +kernel

end Workspace

end EquationPad
