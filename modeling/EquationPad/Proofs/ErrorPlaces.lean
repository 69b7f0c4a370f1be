import EquationPad.Proofs.Composition
import EquationPad.Proofs.Replies
import EquationPad.Report

/-! Where errors are said to be. Columns come from the place where reading stopped on a line, or
from the end of the last line if the document ends too early; all other operations give no place.
Either way the place is on the last line that was read, at most behind its last character that is
not blank, and it stays there until something else is reported. -/

namespace EquationPad

/-- A line that fails says where on the line; it may be the end of what is not blank. -/
theorem Builder.position_feed {builder : Builder} {line : Text}
    (h : (builder.feed line).draft.status.isSuccess = false) :
    ∃ column : Nat, (builder.feed line).draft.position = column ∧
      column ≤ (trimRight line).length := by
  rcases hcut : builder.cut line with ⟨tokens, left⟩
  have hleft : left ≠ [] := by
    rintro rfl
    rw [isSuccess_feed_of_whole hcut] at h
    cases h
  obtain ⟨step, hrefusal, hfeed⟩ := feed_of_refused hcut hleft
  have hlength := length_cut_le hcut
  rw [hfeed] at h ⊢
  cases hrefusal with
  | @term fault rest _ hfault =>
    refine ⟨_, rfl, ?_⟩
    simp only [Cursor.moveTo]
    omega
  | noOperator _ _ =>
    simp only [dropSign, status_acceptAll, status_begun] at h
    cases h
  | secondEquals _ _ _ => exact ⟨_, rfl, Nat.sub_le _ _⟩

namespace Workspace

/-- What a status may refer to, given the lines that were read. -/
inductive Located (lines : List Text) (status : Status) (line position : Int) : Prop
  | nowhere : line = 0 → position = 0 → Located lines status line position
  | onLast {last : Text} {column : Nat} : status.isSuccess = false → lines.getLast? = some last →
      line = lines.length → position = column → column ≤ (trimRight last).length →
      Located lines status line position

/-- The lines are those of the document, and the status refers to the last of them or to none. -/
structure Tracks (lines : List Text) (ws : Workspace) : Prop where
  lineCount : ws.lineCount = lines.length
  located : Located lines ws.status ws.errorLine ws.errorPosition

variable {ws : Workspace} {lines : List Text}

theorem tracks_nil {ws : Workspace} (hcount : ws.lineCount = 0) (hline : ws.errorLine = 0)
    (hposition : ws.errorPosition = 0) : Tracks [] ws := ⟨hcount, .nowhere hline hposition⟩

/-! ## Reading -/

theorem Tracks.feedLine (h : Tracks lines ws) (line : Text) :
    Tracks (lines ++ [line]) (ws.feedLine line).workspace where
  lineCount := by rw [lineCount_feedLine, h.lineCount, List.length_append, List.length_singleton]
  located := by
    cases hstatus : (ws.feedLine line).status.isSuccess with
    | true =>
      rw [feedLine_status] at hstatus
      unfold Workspace.feedLine
      dsimp only
      rw [if_pos hstatus]
      exact .nowhere rfl rfl
    | false =>
      obtain ⟨hline, hposition⟩ := failure_feedLine hstatus
      rw [feedLine_status] at hstatus
      obtain ⟨column, hcolumn, hle⟩ := Builder.position_feed hstatus
      refine .onLast ?_ List.getLast?_concat ?_ (hposition.trans hcolumn) hle
      · rwa [recorded_feedLine, feedLine_status]
      · rw [hline, h.lineCount, List.length_append, List.length_singleton]

theorem Tracks.feedLines (h : Tracks lines ws) (more : List Text) :
    Tracks (lines ++ ws.builder.upToFailure more) (ws.feedLines more).workspace := by
  induction more generalizing lines ws with
  | nil => simpa [Workspace.feedLines, Builder.upToFailure] using h
  | cons line more ih =>
    have hline := h.feedLine line
    have hrest := ih hline
    rw [Workspace.feedLines, Builder.upToFailure]
    dsimp only
    rw [feedLine_status]
    split
    · rw [feedLine_builder, List.append_assoc] at hrest
      exact hrest
    · exact hline

/-- A document that ends too early has a last line, for without lines no equation is open. -/
theorem Tracks.finish (h : Tracks lines ws) (hbuilder : ws.builder = Builder.feedAll {} lines) :
    Tracks lines (ws.finish (lines.getLast?.getD [])).workspace := by
  unfold Workspace.finish
  dsimp only
  split
  · rename_i hopen
    have hne : lines ≠ [] := by
      rintro rfl
      rw [hbuilder] at hopen
      cases hopen
    refine ⟨h.lineCount, .onLast ?_ (List.getLast?_eq_some_getLast hne)
      (congrArg Nat.cast h.lineCount) rfl ?_⟩
    · dsimp only [record]
      split
      · rfl
      · exact Bool.eq_false_of_not_eq_true ‹_›
    · rw [List.getLast?_eq_some_getLast hne]
      exact Nat.le_refl _
  · exact ⟨h.lineCount, .nowhere rfl rfl⟩

theorem tracks_readDocument (ws : Workspace) (lines : List Text) :
    Tracks (Builder.upToFailure {} lines) (ws.readDocument lines).workspace := by
  have hread : Tracks (Builder.upToFailure {} lines) (ws.startOver.feedLines lines).workspace :=
    (tracks_nil rfl rfl rfl : Tracks [] ws.startOver).feedLines lines
  rw [readDocument, Reply.andThen]
  split
  · rename_i hsuccess
    obtain ⟨hsucceeds, hbuilder⟩ := succeeds_of_feedLines hsuccess
    have hall : Builder.upToFailure {} lines = lines := Builder.upToFailure_of_succeeds hsucceeds
    rw [hall] at hread ⊢
    exact hread.finish hbuilder
  · exact hread

/-! ## Solving -/

theorem Tracks.runSolver (h : Tracks lines ws) : Tracks lines ws.runSolver.workspace := by
  unfold Workspace.runSolver
  dsimp only
  split <;> exact ⟨h.lineCount, .nowhere rfl rfl⟩

theorem Tracks.solve (h : Tracks lines ws) : Tracks lines ws.solve.workspace := by
  unfold Workspace.solve
  split
  · exact h.runSolver
  · exact h

theorem tracks_solveDocument (ws : Workspace) (lines : List Text) :
    Tracks (Builder.upToFailure {} lines) (ws.solveDocument lines).workspace :=
  Reply.andThen_kept (tracks_readDocument ws lines) fun _ hread => hread.runSolver

/-! ## Operations -/

theorem Tracks.step (h : Tracks lines ws) (operation : Operation) :
    Tracks (operation.document lines) (ws.step operation) := by
  cases operation with
  | setPrecision precision =>
    show Tracks lines (ws.setPrecision precision)
    unfold setPrecision
    split
    · exact ⟨h.lineCount, h.located⟩
    · exact h
  | feedLine line => exact h.feedLine line
  | readDocument lines => exact tracks_readDocument ws lines
  | readText text => exact tracks_readDocument ws (linesOf text)
  | openDocument name content =>
    cases content with
    | none => exact tracks_nil rfl rfl rfl
    | some text => exact tracks_readDocument _ (linesOf text)
  | checkCounts => exact ⟨h.lineCount, .nowhere rfl rfl⟩
  | solve => exact h.solve
  | runSolver => exact h.runSolver
  | solveDocument lines => exact tracks_solveDocument ws lines
  | startOver => exact tracks_nil rfl rfl rfl
  | startAnew => exact tracks_nil rfl rfl rfl
  | setPrintMode mode => exact ⟨h.lineCount, h.located⟩
  | setVerbose verbose => exact ⟨h.lineCount, h.located⟩
  | setTolerances tolerances => exact ⟨h.lineCount, h.located⟩
  | install solver => exact ⟨h.lineCount, h.located⟩

theorem tracks_run (operations : List Operation) :
    Tracks (documentOf operations) (run operations) := by
  have hsteps : ∀ (ws : Workspace) (lines : List Text), Tracks lines ws →
      Tracks (operations.foldl Operation.document lines) (operations.foldl step ws) := by
    induction operations with
    | nil => exact fun _ _ h => h
    | cons operation operations ih => exact fun _ _ h => ih _ _ (h.step operation)
  exact hsteps {} [] (tracks_nil rfl rfl rfl)

/-! ## Places -/

/-- The report of an error, with its place counted from one. -/
def placedText (ws : Workspace) (line column : Nat) : Text :=
  let document : Text := if ws.documentName.isEmpty then [] else ws.documentName ++ ": "
  document ++ ("line " ++ showNat line ++ ", column " ++ showNat column ++ ": ") ++ ws.message

/-- The place of an error is on this line, which is the last one that was read. -/
structure PlacedOn (lines : List Text) (last : Text) (ws : Workspace) : Prop where
  isLast : lines.getLast? = some last
  line : lines[(ws.errorLine - 1).toNat]? = some last
  position : 0 ≤ ws.errorPosition ∧ ws.errorPosition ≤ (trimRight last).length
  shown : ∃ column : Nat, 1 ≤ column ∧ column ≤ (trimRight last).length + 1 ∧
    ws.errorText = ws.placedText ws.lineCount column

/-- What the status refers to is in the document, if it refers to a place at all. -/
structure PlacesErrors (lines : List Text) (ws : Workspace) : Prop where
  lineCount : ws.lineCount = lines.length
  line : ws.errorLine = 0 ∨ ws.errorLine = ws.lineCount ∧ 1 ≤ ws.errorLine
  failure : 0 < ws.errorLine → ws.status.isSuccess = false
  success : ws.status.isSuccess = true → ws.errorLine = 0 ∧ ws.errorPosition = 0
  place : 0 < ws.errorLine → ∃ last, PlacedOn lines last ws

theorem Tracks.placesErrors (h : Tracks lines ws) : PlacesErrors lines ws := by
  cases h.located with
  | nowhere hline hposition =>
    refine ⟨h.lineCount, .inl hline, ?_, fun _ => ⟨hline, hposition⟩, ?_⟩ <;>
      exact fun hplace => absurd hline (by omega)
  | @onLast last column hstatus hlast hline hposition hcolumn =>
    have hpos : 0 < lines.length := by
      refine List.length_pos_iff.mpr ?_
      rintro rfl
      cases hlast
    have hcount := h.lineCount
    refine ⟨hcount, .inr ⟨by omega, by omega⟩, fun _ => hstatus, ?_, fun _ => ⟨last, ?_⟩⟩
    · intro hsuccess
      rw [hstatus] at hsuccess
      cases hsuccess
    have hindex : (ws.errorLine - 1).toNat = lines.length - 1 := by omega
    refine ⟨hlast, ?_, ⟨by omega, by omega⟩, column + 1, by omega, by omega, ?_⟩
    · rw [hindex, ← List.getLast?_eq_getElem?, hlast]
    · have hplace : 0 < ws.errorLine := by omega
      have hshown : ws.errorLine = Int.ofNat ws.lineCount := by rw [hline, hcount]; rfl
      have hcolumn : ws.errorPosition + 1 = Int.ofNat (column + 1) := by rw [hposition]; rfl
      rw [errorText, if_pos hplace, hcolumn, hshown]
      rfl

/-- **Errors are placed in the document.** After any operations the status refers to the last line
that was read, or to no place at all. Only a failure has a place; its column is one of the line
without the blanks at its end, or the one behind them. If a document is read, then the lines that
were read are the first of its lines. -/
theorem placesErrors_run (operations : List Operation) :
    PlacesErrors (documentOf operations) (run operations) ∧
      ∀ lines, ∃ read, read <+: lines ∧
        PlacesErrors read ((run operations).readDocument lines).workspace :=
  ⟨(tracks_run operations).placesErrors, fun lines =>
    ⟨_, Builder.upToFailure_prefix {} lines, (tracks_readDocument _ lines).placesErrors⟩⟩

end Workspace

end EquationPad
