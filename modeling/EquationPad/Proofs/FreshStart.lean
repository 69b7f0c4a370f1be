import EquationPad.Proofs.Replies

/-! A new document does not depend on what was done before it. To begin one, everything that
reading and solving have left in the workspace is set back one by one, and what stays is its setup:
the workspace is a new one with that setup. Reading and solving never change the setup, so of all
that was done only the operations that set something up can matter. Starting anew sets these back
too. -/

namespace EquationPad

/-- What a document is read with. -/
structure Setup where
  settings : Settings := {}
  documentName : Text := []
  solver : Solver := Elimination.solver

/-- A new workspace with the setup. -/
def Setup.fresh (setup : Setup) : Workspace :=
  { settings := setup.settings, documentName := setup.documentName, solver := setup.solver }

namespace Operation

/-- Whether the operation begins a document, which forgets the one before. -/
def begins : Operation → Bool
  | .readDocument _ | .readText _ | .openDocument _ _ | .solveDocument _ | .startOver
  | .startAnew => true
  | .setPrintMode _ | .setPrecision _ | .setVerbose _ | .setTolerances _ | .install _
  | .feedLine _ | .checkCounts | .solve | .runSolver => false

/-- What an operation makes of the setup. Reading and solving leave it as it is. -/
def setup (setup : Setup) : Operation → Setup
  | .setPrintMode mode => { setup with settings.printMode := mode }
  | .setPrecision precision =>
    if 0 < precision then { setup with settings.precision := precision.toNat } else setup
  | .setVerbose verbose => { setup with settings.verbose := verbose }
  | .setTolerances tolerances => { setup with settings.tolerances := tolerances }
  | .install solver => { setup with solver }
  | .openDocument name _ => { setup with documentName := name }
  | .startAnew => {}
  | .feedLine _ | .readDocument _ | .readText _ | .checkCounts | .solve | .runSolver
  | .solveDocument _ | .startOver => setup

/-- Whether the operation may change the setup. -/
def setsUp : Operation → Bool
  | .setPrintMode _ | .setPrecision _ | .setVerbose _ | .setTolerances _ | .install _
  | .openDocument _ _ | .startAnew => true
  | .feedLine _ | .readDocument _ | .readText _ | .checkCounts | .solve | .runSolver
  | .solveDocument _ | .startOver => false

theorem setup_of_not_setsUp {operation : Operation} (h : operation.setsUp = false)
    (setup : Setup) : operation.setup setup = setup := by
  cases operation <;> first | rfl | cases h

end Operation

namespace Workspace

def setup (ws : Workspace) : Setup := ⟨ws.settings, ws.documentName, ws.solver⟩

/-- What a sequence of operations answers. -/
def transcript (ws : Workspace) : List Operation → List (Option Reply)
  | [] => []
  | operation :: operations => ws.respond? operation :: (ws.step operation).transcript operations

variable (ws : Workspace)

/-! ## What stays -/

theorem kept_setup (setup : Setup) : KeptByReading fun ws => ws.setup = setup where
  feedLine line h := by
    unfold feedLine
    dsimp only
    split <;> exact h
  finish lastLine h := by
    unfold finish
    dsimp only
    split <;> exact h

theorem setup_readDocument (lines : List Text) :
    (ws.readDocument lines).workspace.setup = ws.setup :=
  (kept_setup ws.setup).readDocument rfl lines

theorem setup_runSolver : ws.runSolver.workspace.setup = ws.setup := by
  unfold runSolver
  dsimp only
  split <;> rfl

theorem setup_solve : ws.solve.workspace.setup = ws.setup := by
  unfold solve
  split
  · exact ws.setup_runSolver
  · rfl

theorem setup_solveDocument (lines : List Text) :
    (ws.solveDocument lines).workspace.setup = ws.setup :=
  Reply.andThen_kept (P := fun after => after.setup = ws.setup) (ws.setup_readDocument lines)
    fun read hread => read.setup_runSolver.trans hread

theorem setup_step (operation : Operation) :
    (ws.step operation).setup = operation.setup ws.setup := by
  cases operation with
  | setPrecision precision =>
    show (ws.setPrecision precision).setup = if 0 < precision then _ else _
    unfold setPrecision
    split <;> rfl
  | feedLine line => exact (kept_setup ws.setup).feedLine line rfl
  | readDocument lines => exact ws.setup_readDocument lines
  | readText text => exact ws.setup_readDocument (linesOf text)
  | openDocument name content =>
    cases content with
    | none => rfl
    | some text => exact setup_readDocument _ (linesOf text)
  | solve => exact ws.setup_solve
  | runSolver => exact ws.setup_runSolver
  | solveDocument lines => exact ws.setup_solveDocument lines
  | _ => rfl

theorem setup_run (operations : List Operation) :
    (run operations).setup = operations.foldl Operation.setup {} := by
  have hsteps : ∀ ws : Workspace,
      (operations.foldl step ws).setup = operations.foldl Operation.setup ws.setup := by
    induction operations with
    | nil => exact fun _ => rfl
    | cons operation operations ih =>
      intro ws
      rw [List.foldl_cons, List.foldl_cons, ih, setup_step]
  exact hsteps {}

/-- What was read and what was solved does not show in the setup. -/
theorem setup_run_filter (operations : List Operation) :
    (run (operations.filter Operation.setsUp)).setup = (run operations).setup := by
  rw [setup_run, setup_run, List.foldl_filter]
  congr 1
  funext setup operation
  split
  · rfl
  · rename_i hkept
    exact (Operation.setup_of_not_setsUp (by simpa using hkept) setup).symm

/-! ## What is begun -/

variable {ws} {ws' : Workspace} {operation : Operation}

theorem startOver_eq_fresh (ws : Workspace) : ws.startOver = ws.setup.fresh := ws.startOver_eq

theorem setup_fresh (setup : Setup) : setup.fresh.setup = setup := rfl

theorem startOver_fresh (ws : Workspace) : ws.setup.fresh.startOver = ws.startOver := by
  rw [startOver_eq_fresh, startOver_eq_fresh, setup_fresh]

theorem readDocument_fresh (ws : Workspace) (lines : List Text) :
    ws.setup.fresh.readDocument lines = ws.readDocument lines := by
  rw [readDocument, readDocument, startOver_fresh]

theorem openDocument_fresh (ws : Workspace) (name : Text) (content : Option Text) :
    ws.setup.fresh.openDocument name content = ws.openDocument name content := by
  let named := { ws with documentName := name }
  cases content with
  | some text => exact named.readDocument_fresh (linesOf text)
  | none =>
    have hstart : named.setup.fresh.startOver = named.startOver := startOver_fresh named
    exact congrArg (fun start : Workspace => ({
      status := .documentNotFound
      workspace := { start with status := .documentNotFound } } : Reply)) hstart

/-- A document is begun as in a new workspace with the same setup. -/
theorem begins_fresh (h : operation.begins = true) (ws : Workspace) :
    ws.setup.fresh.step operation = ws.step operation ∧
      ws.setup.fresh.respond? operation = ws.respond? operation := by
  cases operation with
  | readDocument lines =>
    have hread := ws.readDocument_fresh lines
    exact ⟨congrArg Reply.workspace hread, congrArg some hread⟩
  | readText text =>
    have hread := ws.readDocument_fresh (linesOf text)
    exact ⟨congrArg Reply.workspace hread, congrArg some hread⟩
  | openDocument name content =>
    have hread := ws.openDocument_fresh name content
    exact ⟨congrArg Reply.workspace hread, congrArg some hread⟩
  | solveDocument lines =>
    have hsolved : ws.setup.fresh.solveDocument lines = ws.solveDocument lines := by
      rw [solveDocument, solveDocument, readDocument_fresh]
    exact ⟨congrArg Reply.workspace hsolved, congrArg some hsolved⟩
  | startOver => exact ⟨ws.startOver_fresh, rfl⟩
  | startAnew => exact ⟨(startAnew_eq _).trans ws.startAnew_eq.symm, rfl⟩
  | _ => cases h

theorem begins_congr (hbegins : operation.begins = true) (h : ws.setup = ws'.setup) :
    ws.step operation = ws'.step operation ∧ ws.respond? operation = ws'.respond? operation := by
  obtain ⟨hstep, hrespond⟩ := begins_fresh hbegins ws
  obtain ⟨hstep', hrespond'⟩ := begins_fresh hbegins ws'
  rw [← hstep, ← hstep', ← hrespond, ← hrespond', h]
  exact ⟨rfl, rfl⟩

/-- **A new document never depends on the past.** After any two histories with the same setup
it is read with the same result into the same workspace, and the same follows from there.
The setup tells no more of a history than its operations that set something up, so all others
might as well be left out. After starting over the workspace is a new one with the same setup, and
after starting anew it is a new one altogether. -/
theorem document_forgets_past :
    (∀ (operation : Operation) (before before' : List Operation), operation.begins = true →
      (run before).setup = (run before').setup → ∀ later,
        (run before).transcript (operation :: later) =
            (run before').transcript (operation :: later) ∧
          run (before ++ operation :: later) = run (before' ++ operation :: later)) ∧
    (∀ (operation : Operation) (before : List Operation), operation.begins = true →
      ∀ later, run (before ++ operation :: later) =
        run (before.filter Operation.setsUp ++ operation :: later)) ∧
    (∀ before, run (before ++ [.startOver]) = (run before).setup.fresh) ∧
    (∀ before, run (before ++ [.startAnew]) = {}) ∧
    ∀ before later, run (before ++ .startAnew :: later) = run later := by
  have hforgets : ∀ {operation : Operation} {before before' : List Operation},
      operation.begins = true → (run before).setup = (run before').setup → ∀ later,
        run (before ++ operation :: later) = run (before' ++ operation :: later) := by
    intro operation before before' hbegins hsetup later
    rw [run_append_cons, run_append_cons, (begins_congr hbegins hsetup).1]
  have hanew : ∀ before, run (before ++ [.startAnew]) = {} := by
    intro before
    rw [run_append_cons]
    exact startAnew_eq (run before)
  refine ⟨?_, ?_, ?_, hanew, ?_⟩
  · intro operation before before' hbegins hsetup later
    obtain ⟨hstep, hrespond⟩ := begins_congr hbegins hsetup
    refine ⟨?_, hforgets hbegins hsetup later⟩
    rw [transcript, transcript, hstep, hrespond]
  · intro operation before hbegins later
    exact hforgets hbegins (setup_run_filter before).symm later
  · intro before
    rw [run_append_cons]
    exact startOver_eq_fresh (run before)
  · intro before later
    rw [List.append_cons, run, List.foldl_append, ← run, hanew]
    rfl

/-- One history ends on a failure, the other with an open equation. -/
theorem document_forgets_past_twoHistories :
    (run [.feedLine "x = 1", .solve, .setVerbose true, .feedLine "1..2"]).status =
        .multipleDecimalPoints ∧
      (run [.setVerbose true, .readText "a +"]).status = .noEqualSign ∧
      (run [.feedLine "x = 1", .solve, .setVerbose true, .feedLine "1..2"]).transcript
          [.readText "y = 2", .solve] =
        (run [.setVerbose true, .readText "a +"]).transcript [.readText "y = 2", .solve] ∧
      run [.feedLine "x = 1", .solve, .setVerbose true, .feedLine "1..2", .readText "y = 2",
          .solve] =
        run [.setVerbose true, .readText "a +", .readText "y = 2", .solve] := by
  refine ⟨by decide +kernel, by decide +kernel, ?_⟩
  refine document_forgets_past.1 (.readText "y = 2")
    [.feedLine "x = 1", .solve, .setVerbose true, .feedLine "1..2"]
    [.setVerbose true, .readText "a +"] rfl ?_ [.solve]
  rw [setup_run, setup_run]
  rfl

end Workspace

end EquationPad
