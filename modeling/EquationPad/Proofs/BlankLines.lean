import EquationPad.Proofs.Composition
import EquationPad.Proofs.Replies

/-! Blank lines put into a document, wherever they are put. A blank line counts as a line, and its
status and its place overwrite those of the line before; nothing else of a workspace changes, and
the next line looks at neither. So two runs are compared by what is left of a workspace without
these, and only the numbers of the lines tell them apart. -/

namespace EquationPad

/-- A line of a document and the blank lines that are put before it. -/
structure PaddedLine where
  before : List Text
  line : Text
  blank : ∀ gap ∈ before, Blanks gap

/-- A document with blank lines put before its lines and after the last. -/
structure PaddedDocument where
  entries : List PaddedLine
  after : List Text
  blank : ∀ gap ∈ after, Blanks gap

namespace PaddedLine

def padded (entry : PaddedLine) : List Text := entry.before ++ [entry.line]

/-- How many lines are put in before one of the first `n` lines. -/
def added (entries : List PaddedLine) (n : Nat) : Nat :=
  ((entries.take n).map fun entry => entry.before.length).sum

theorem added_succ (entry : PaddedLine) (entries : List PaddedLine) (n : Nat) :
    added (entry :: entries) (n + 1) = entry.before.length + added entries n := rfl

end PaddedLine

namespace PaddedDocument

/-- The lines without those that are put in. -/
def lines (document : PaddedDocument) : List Text := document.entries.map PaddedLine.line

def padded (document : PaddedDocument) : List Text :=
  document.entries.flatMap PaddedLine.padded ++ document.after

end PaddedDocument

open PaddedLine (added added_succ)

namespace Workspace

/-! ## What blank lines leave alone -/

/-- The workspace without the places and the statuses of lines. -/
def unplaced (ws : Workspace) : Workspace :=
  { ws with
    builder := ws.builder.report .success 0
    status := .success
    errorLine := 0
    errorPosition := 0
    lineCount := 0
    variableCount := ws.builder.system.variableCount
    solution := { ws.solution with solved := false } }

/-- The same but for places and for the statuses of lines. -/
def Alike (ws ws' : Workspace) : Prop := ws'.unplaced = ws.unplaced

variable {ws ws' : Workspace}

theorem Alike.system (h : Alike ws ws') : ws'.builder.system = ws.builder.system :=
  congrArg (·.builder.system) h

theorem Alike.count (h : Alike ws ws') : ws'.builder.count = ws.builder.count :=
  congrArg (·.builder.count) h

theorem Alike.draft (h : Alike ws ws') :
    ws'.builder.draft = ws.builder.draft.report ws'.builder.draft.status
      ws'.builder.draft.position :=
  congrArg (·.builder.draft.report ws'.builder.draft.status ws'.builder.draft.position) h

/-- What is left out is not looked at. -/
theorem Alike.feed (h : Alike ws ws') (line : Text) :
    ws'.builder.feed line = ws.builder.feed line :=
  congrArg (·.builder.feed line) h

theorem unplaced_feedLine (ws : Workspace) (line : Text) :
    (ws.feedLine line).workspace.unplaced =
      { ws.unplaced with
        builder := (ws.builder.feed line).report .success 0
        variableCount := (ws.builder.feed line).system.variableCount } := by
  unfold feedLine
  dsimp only
  split <;> rfl

theorem Alike.feedLine (h : Alike ws ws') (line : Text) :
    Alike (ws.feedLine line).workspace (ws'.feedLine line).workspace := by
  rw [Alike, unplaced_feedLine, unplaced_feedLine, h.feed line, h]

theorem alike_feedLine_blank (ws : Workspace) {line : Text} (h : Blanks line) :
    Alike ws (ws.feedLine line).workspace := by
  rw [Alike, unplaced_feedLine, Builder.feed_of_blank h]
  rfl

theorem alike_finish (ws : Workspace) (lastLine : Text) :
    Alike ws (ws.finish lastLine).workspace := by
  unfold finish
  dsimp only
  split <;> rfl

/-- The status at the end is a matter of the equation, not of the last line. -/
theorem Alike.status_finish (h : Alike ws ws') (lastLine lastLine' : Text) :
    (ws'.finish lastLine').status = (ws.finish lastLine).status := by
  have hopen : ws'.builder.draft.isOpen = ws.builder.draft.isOpen :=
    congrArg (·.builder.draft.isOpen) h
  have hend : ws'.builder.draft.endStatus = ws.builder.draft.endStatus :=
    congrArg (·.builder.draft.endStatus) h
  rw [Workspace.status_finish, Workspace.status_finish, hopen, hend]

theorem keptByReading_variableCount :
    KeptByReading fun ws => ws.variableCount = ws.builder.system.variableCount where
  feedLine line _ := by
    unfold feedLine
    dsimp only
    split <;> rfl
  finish lastLine h := by
    unfold finish
    dsimp only
    split <;> exact h

/-! ## Lines -/

theorem feedLines_blanks (ws : Workspace) {gaps : List Text} (h : ∀ gap ∈ gaps, Blanks gap) :
    (ws.feedLines gaps).status = .success ∧ Alike ws (ws.feedLines gaps).workspace := by
  induction gaps generalizing ws with
  | nil => exact ⟨rfl, rfl⟩
  | cons gap gaps ih =>
    obtain ⟨hgap, hrest⟩ := List.forall_mem_cons.mp h
    obtain ⟨hstatus, halike⟩ := ih (ws.feedLine gap).workspace hrest
    have hread : (ws.feedLine gap).status.isSuccess = true := by
      rw [feedLine_status, Builder.feed_of_blank hgap]
      rfl
    rw [feedLines]
    dsimp only
    rw [if_pos hread]
    exact ⟨hstatus, halike.trans (ws.alike_feedLine_blank hgap)⟩

/-- The replies to lines and to the same lines with blank ones before them, where `n` and `n'`
lines were read before. A failure is at the same column, further down. -/
structure Beside (entries : List PaddedLine) (n n' : Nat) (bare padded : Reply) : Prop where
  status : padded.status = bare.status
  alike : Alike bare.workspace padded.workspace
  failure : bare.status.isSuccess = false → ∃ k : Nat,
    bare.workspace.errorLine = (n + k : Nat) ∧
    padded.workspace.errorLine = (n' + added entries k + k : Nat) ∧
    padded.workspace.errorPosition = bare.workspace.errorPosition

theorem beside_feedLines (h : Alike ws ws') (entries : List PaddedLine) :
    Beside entries ws.lineCount ws'.lineCount (ws.feedLines (entries.map PaddedLine.line))
      (ws'.feedLines (entries.flatMap PaddedLine.padded)) := by
  induction entries generalizing ws ws' with
  | nil => exact ⟨rfl, h, nofun⟩
  | cons entry entries ih =>
    obtain ⟨hgaps, hsame⟩ := ws'.feedLines_blanks entry.blank
    have hcount := lineCount_feedLines hgaps
    rw [List.map_cons, List.flatMap_cons, PaddedLine.padded, List.append_assoc, List.singleton_append,
      feedLines_append, Reply.andThen, if_pos hgaps]
    generalize (ws'.feedLines entry.before).workspace = between at hsame hcount ⊢
    have halike : Alike ws between := hsame.trans h
    have hstatus : (between.feedLine entry.line).status = (ws.feedLine entry.line).status := by
      rw [feedLine_status, feedLine_status, halike.feed]
    have hrest := ih (halike.feedLine entry.line)
    rw [feedLines, feedLines]
    dsimp only
    rw [hstatus]
    split
    · refine ⟨hrest.status, hrest.alike, fun hfailed => ?_⟩
      obtain ⟨k, hline, hline', hposition⟩ := hrest.failure hfailed
      rw [lineCount_feedLine] at hline hline'
      refine ⟨k + 1, ?_, ?_, hposition⟩
      · rw [hline]
        omega
      · rw [added_succ, hline', hcount]
        omega
    · refine ⟨hstatus, halike.feedLine entry.line, fun hfailed => ?_⟩
      obtain ⟨hline, hposition⟩ := failure_feedLine hfailed
      obtain ⟨hline', hposition'⟩ := failure_feedLine ((congrArg _ hstatus).trans hfailed)
      refine ⟨1, hline, ?_, ?_⟩
      · rw [added_succ, hline', hcount]
        simp [added]
      · rw [hposition, hposition', halike.feed]

/-! ## Documents -/

theorem beside_padded (ws : Workspace) (document : PaddedDocument) :
    Beside document.entries ws.lineCount ws.lineCount (ws.feedLines document.lines)
      (ws.feedLines document.padded) := by
  have hread := beside_feedLines (rfl : Alike ws ws) document.entries
  rw [PaddedDocument.padded, feedLines_append, Reply.andThen]
  split
  · rename_i hsuccess
    obtain ⟨hafter, hsame⟩ := feedLines_blanks _ document.blank
    refine ⟨hafter.trans (hsuccess.symm.trans hread.status), hsame.trans hread.alike, ?_⟩
    intro hfailed
    rw [PaddedDocument.lines, ← hread.status, hsuccess] at hfailed
    cases hfailed
  · exact hread

/-- What the reply to a document has to do with the reply to it with blank lines put in. -/
structure SameButPlaces (document : PaddedDocument) (bare padded : Reply) : Prop where
  status : padded.status = bare.status
  recorded : padded.workspace.status = bare.workspace.status
  system : padded.workspace.builder.system = bare.workspace.builder.system
  count : padded.workspace.builder.count = bare.workspace.builder.count
  variableCount : padded.workspace.variableCount = bare.workspace.variableCount
  draft : ∃ status position, padded.workspace.builder.draft =
    bare.workspace.builder.draft.report status position
  failure : ¬ Builder.Succeeds {} document.lines →
    padded.workspace.errorPosition = bare.workspace.errorPosition ∧
    padded.workspace.errorLine =
      bare.workspace.errorLine + added document.entries bare.workspace.errorLine.toNat

theorem alike_readDocument (ws : Workspace) (document : PaddedDocument) :
    (ws.readDocument document.padded).status = (ws.readDocument document.lines).status ∧
      Alike (ws.readDocument document.lines).workspace
        (ws.readDocument document.padded).workspace := by
  have hread := beside_padded ws.startOver document
  rw [readDocument, readDocument, Reply.andThen, Reply.andThen, hread.status]
  split
  · refine ⟨hread.alike.status_finish _ _, ?_⟩
    exact (alike_finish _ _).trans (hread.alike.trans (alike_finish _ _).symm)
  · exact ⟨hread.status, hread.alike⟩

theorem failure_of_not_succeeds {ws : Workspace} {lines : List Text}
    (h : ¬ ws.builder.Succeeds lines) : (ws.feedLines lines).status.isSuccess = false := by
  rcases status_feedLines ws lines with hsuccess | ⟨hfailed, -⟩
  · exact absurd (succeeds_of_feedLines hsuccess).1 h
  · exact hfailed

/-- **Blank lines are neutral.** Put into a document anywhere, they change neither what it is
answered nor what is read from it, and what is left of the draft apart from the status and the
column of the last line is the same as well. A line that fails does so at the same column, as many
lines further down as were put before it. -/
theorem sameButPlaces_readDocument (ws : Workspace) (document : PaddedDocument) :
    SameButPlaces document (ws.readDocument document.lines)
      (ws.readDocument document.padded) := by
  obtain ⟨hstatus, halike⟩ := ws.alike_readDocument document
  have hstart : ws.startOver.variableCount = ws.startOver.builder.system.variableCount := rfl
  have hvariables := keptByReading_variableCount.readDocument hstart
  refine ⟨hstatus, ?_, halike.system, halike.count, ?_, ⟨_, _, halike.draft⟩, ?_⟩
  · rw [ws.recorded_readDocument, ws.recorded_readDocument, hstatus]
  · rw [hvariables, hvariables, halike.system]
  · intro hline
    have hread := beside_padded ws.startOver document
    have hfailed := @failure_of_not_succeeds ws.startOver _ hline
    obtain ⟨k, hbare, hpadded, hposition⟩ := hread.failure hfailed
    rw [readDocument_of_failure hfailed, readDocument_of_failure (hread.status ▸ hfailed)]
    have hk : (ws.startOver.feedLines document.lines).workspace.errorLine = k :=
      hbare.trans (congrArg Nat.cast (Nat.zero_add k))
    refine ⟨hposition, ?_⟩
    rw [hpadded, hk]
    show ((0 + added document.entries k + k : Nat) : Int) = k + added document.entries k
    omega

/-- The second line fails where its second equal sign is, three lines further down. -/
theorem sameButPlaces_readDocument_secondEquals :
    ∃ document : PaddedDocument, document.lines = ["x +".toList, "1 = = 2".toList] ∧
      document.padded = [[], "x +".toList, " ".toList, "\t".toList, "1 = = 2".toList, []] ∧
      (readDocument {} document.lines).workspace.errorLine = 2 ∧
      (readDocument {} document.padded).workspace.errorLine = 5 ∧
      SameButPlaces document (readDocument {} document.lines)
        (readDocument {} document.padded) := by
  let document : PaddedDocument :=
    { entries := [⟨[""], "x +", by decide +kernel⟩, ⟨[" ", "\t"], "1 = = 2", by decide +kernel⟩]
      after := [""]
      blank := by decide +kernel }
  have hsame := sameButPlaces_readDocument {} document
  have hline : (readDocument {} document.lines).workspace.errorLine = 2 := by decide +kernel
  refine ⟨document, rfl, rfl, hline, ?_, hsame⟩
  have hfails : ¬ Builder.Succeeds {} document.lines := by
    intro hsucceeds
    have hsecond : ((Builder.feed {} "x +").feed "1 = = 2").draft.status.isSuccess = true :=
      hsucceeds.2.1
    revert hsecond
    decide +kernel
  rw [(hsame.failure hfails).2, hline]
  rfl

end Workspace

end EquationPad
