import EquationPad.Workspace
import EquationPad.Proofs.Scanning

/-! What reading does not look at. The blanks at the end of a line are cut off before anything
else, so lines that differ in nothing else are read alike. Some parts of a workspace are only
kept for later, like the solver; a change to these may as well be made after reading. -/

namespace EquationPad

/-! ## Blanks at the ends of lines -/

theorem Builder.feed_eq_of_trimRight {line line' : Text} (h : trimRight line = trimRight line')
    (builder : Builder) : builder.feed line = builder.feed line' := by
  rw [feed, feed, h]

namespace Workspace

theorem feedLine_eq_of_trimRight {line line' : Text} (h : trimRight line = trimRight line')
    (ws : Workspace) : ws.feedLine line = ws.feedLine line' := by
  rw [feedLine, feedLine, Builder.feed_eq_of_trimRight h]

theorem feedLines_eq_of_trimRight {lines lines' : List Text}
    (h : lines.map trimRight = lines'.map trimRight) (ws : Workspace) :
    ws.feedLines lines = ws.feedLines lines' := by
  induction lines generalizing lines' ws with
  | nil => rw [List.map_eq_nil_iff.mp h.symm]
  | cons line lines ih =>
    cases lines' with
    | nil => cases h
    | cons line' lines' =>
      obtain ⟨hline, hlines⟩ := List.cons.inj h
      rw [feedLines, feedLines, feedLine_eq_of_trimRight hline]
      dsimp only
      rw [ih hlines]

theorem finish_eq_of_trimRight {line line' : Text} (h : trimRight line = trimRight line')
    (ws : Workspace) : ws.finish line = ws.finish line' := by
  rw [finish, finish, h]

/-- Documents whose lines differ in blanks at their ends are read alike. -/
theorem readDocument_eq_of_trimRight {lines lines' : List Text}
    (h : lines.map trimRight = lines'.map trimRight) (ws : Workspace) :
    ws.readDocument lines = ws.readDocument lines' := by
  have hlast : ∀ lines : List Text, trimRight (lines.getLast?.getD []) =
      (lines.map trimRight).getLast?.getD [] := by
    intro lines
    rw [List.getLast?_map]
    cases lines.getLast? <;> rfl
  have hends : trimRight (lines.getLast?.getD []) = trimRight (lines'.getLast?.getD []) := by
    rw [hlast, hlast, h]
  simp only [readDocument, feedLines_eq_of_trimRight h, finish_eq_of_trimRight hends]

end Workspace

/-! ## What is kept for later -/

def Reply.map (f : Workspace → Workspace) (reply : Reply) : Reply :=
  { reply with workspace := f reply.workspace }

theorem Reply.map_andThen {f : Workspace → Workspace} {next : Workspace → Reply}
    (hnext : ∀ ws, next (f ws) = (next ws).map f) (reply : Reply) :
    (reply.map f).andThen next = (reply.andThen next).map f := by
  by_cases hstatus : reply.status = .success
  · have hsame : (reply.map f).status = .success := hstatus
    rw [andThen, andThen, if_pos hstatus, if_pos hsame]
    dsimp only [map]
    rw [hnext]
    rfl
  · have hsame : ¬ (reply.map f).status = .success := hstatus
    rw [andThen, andThen, if_neg hstatus, if_neg hsame]

namespace Workspace

/-- A change to what reading neither looks at nor touches. -/
structure Unread (f : Workspace → Workspace) : Prop where
  startOver (ws : Workspace) : (f ws).startOver = f ws.startOver
  feedLine (ws : Workspace) (line : Text) : (f ws).feedLine line = (ws.feedLine line).map f
  finish (ws : Workspace) (lastLine : Text) : (f ws).finish lastLine = (ws.finish lastLine).map f

namespace Unread

variable {f : Workspace → Workspace}

theorem feedLines (h : Unread f) (ws : Workspace) (lines : List Text) :
    (f ws).feedLines lines = (ws.feedLines lines).map f := by
  induction lines generalizing ws with
  | nil => rfl
  | cons line lines ih =>
    rw [Workspace.feedLines, Workspace.feedLines, h.feedLine]
    by_cases hstatus : (ws.feedLine line).status.isSuccess = true
    · have hsame : ((ws.feedLine line).map f).status.isSuccess = true := hstatus
      have hrest : ((ws.feedLine line).map f).workspace.feedLines lines = _ :=
        ih (ws.feedLine line).workspace
      dsimp only
      rw [if_pos hstatus, if_pos hsame, hrest]
      rfl
    · have hsame : ¬ ((ws.feedLine line).map f).status.isSuccess = true := hstatus
      dsimp only
      rw [if_neg hstatus, if_neg hsame]

/-- The change may as well be made to what was read. -/
theorem readDocument (h : Unread f) (ws : Workspace) (lines : List Text) :
    (f ws).readDocument lines = (ws.readDocument lines).map f := by
  rw [Workspace.readDocument, Workspace.readDocument, h.startOver, h.feedLines,
    Reply.map_andThen fun read => h.finish read _]

end Unread

theorem unread_install (solver : Solver) : Unread fun ws => ws.install solver where
  startOver _ := rfl
  feedLine ws line := by
    unfold feedLine
    dsimp only [install]
    split <;> rfl
  finish ws lastLine := by
    unfold finish
    dsimp only [install]
    split <;> rfl

def rename (ws : Workspace) (name : Text) : Workspace := { ws with documentName := name }

theorem unread_rename (name : Text) : Unread fun ws => ws.rename name where
  startOver _ := rfl
  feedLine ws line := by
    unfold feedLine
    dsimp only [rename]
    split <;> rfl
  finish ws lastLine := by
    unfold finish
    dsimp only [rename]
    split <;> rfl

end Workspace

end EquationPad
