import EquationPad.Proofs.Indifference
import EquationPad.Proofs.Printing

/-! The ways to hand in a document: line by line, as a text, and as a named document that holds
a text. Which end each line has in the text does not matter, for a carriage return that is not
taken off with the newline is a blank at the end of the line. -/

namespace EquationPad

inductive LineEnd where
  | newline
  | returnNewline

def LineEnd.text : LineEnd → Text
  | newline => ['\n']
  | returnNewline => ['\r', '\n']

/-- The ways to write lines as a text. Each line has an end of its own; the last may go without
one if there is something on it. -/
inductive WrittenAs : List Text → Text → Prop
  | nil : WrittenAs [] []
  | cons {line lines text} (ending : LineEnd) : WrittenAs lines text →
      WrittenAs (line :: lines) (line ++ (ending.text ++ text))
  | unended {line} : line ≠ [] → WrittenAs [line] line

/-! ## Carriage returns -/

theorem dropReturn_append_return (line : Text) : dropReturn (line ++ ['\r']) = line := by
  simp [dropReturn]

theorem trimRight_dropReturn (line : Text) : trimRight (dropReturn line) = trimRight line := by
  unfold dropReturn
  split
  · rename_i hlast
    obtain ⟨front, rfl⟩ := List.getLast?_eq_some_iff.mp hlast
    have hreturn : Blanks ['\r'] := List.forall_mem_singleton.mpr rfl
    rw [List.dropLast_concat, trimRight_append_blanks front hreturn]
  · rfl

/-! ## Lines of a text -/

theorem breakLines_of_ne_nil {line : Text} (hne : line ≠ []) (hline : '\n' ∉ line) :
    breakLines line = [line] := by
  induction line with
  | nil => exact absurd rfl hne
  | cons c line ih =>
    obtain ⟨hc, hrest⟩ := List.ne_and_not_mem_of_not_mem_cons hline
    by_cases hnil : line = []
    · subst hnil
      rw [breakLines, if_neg (Ne.symm hc)]
      rfl
    · exact breakLines_cons (Ne.symm hc) (ih hnil hrest)

/-- What is read of a line: the line itself, or the line without a carriage return of its own. -/
def ReadAs (line read : Text) : Prop := read = line ∨ read = dropReturn line

theorem linesOf_append {line : Text} (hline : '\n' ∉ line) (ending : LineEnd) (text : Text) :
    ∃ read, ReadAs line read ∧ linesOf (line ++ (ending.text ++ text)) = read :: linesOf text := by
  cases ending with
  | newline =>
    refine ⟨dropReturn line, .inr rfl, ?_⟩
    show (breakLines (line ++ '\n' :: text)).map dropReturn = _
    rw [breakLines_of_newline_notMem hline]
    rfl
  | returnNewline =>
    have hreturn : '\n' ∉ line ++ ['\r'] := by simpa using hline
    have hwhole : line ++ (LineEnd.returnNewline.text ++ text) =
        (line ++ ['\r']) ++ '\n' :: text := by simp [LineEnd.text]
    refine ⟨line, .inl rfl, ?_⟩
    rw [linesOf, hwhole, breakLines_of_newline_notMem hreturn, List.map_cons,
      dropReturn_append_return]
    rfl

variable {lines reads : List Text} {text : Text}

theorem WrittenAs.readAs (h : WrittenAs lines text) (hlines : ∀ line ∈ lines, '\n' ∉ line) :
    List.Forall₂ ReadAs lines (linesOf text) := by
  induction h with
  | nil => exact .nil
  | cons ending _ ih =>
    obtain ⟨hline, hrest⟩ := List.forall_mem_cons.mp hlines
    obtain ⟨read, hread, hwhole⟩ := linesOf_append hline ending _
    rw [hwhole]
    exact .cons hread (ih hrest)
  | @unended line hne =>
    rw [linesOf, breakLines_of_ne_nil hne (hlines line List.mem_cons_self)]
    exact .cons (.inr rfl) .nil

theorem map_trimRight_of_readAs (h : List.Forall₂ ReadAs lines reads) :
    reads.map trimRight = lines.map trimRight := by
  induction h with
  | nil => rfl
  | cons hread _ ih =>
    rw [List.map_cons, List.map_cons, ih]
    rcases hread with rfl | rfl
    · rfl
    · rw [trimRight_dropReturn]

theorem eq_of_readAs (h : List.Forall₂ ReadAs lines reads)
    (hreturns : ∀ line ∈ lines, line.getLast? ≠ some '\r') : reads = lines := by
  induction h with
  | nil => rfl
  | cons hread _ ih =>
    obtain ⟨hline, hrest⟩ := List.forall_mem_cons.mp hreturns
    rw [ih hrest]
    rcases hread with rfl | rfl
    · rfl
    · rw [dropReturn, if_neg hline]

/-! ## Entrances -/

namespace Workspace

/-- **However a document is handed in, it is read the same.** The replies are the same in every
respect, but that a named document leaves its name. Whatever their ends are, the lines of a text
come back as they were, unless one has a carriage return of its own at its end. -/
theorem entrances_agree (hlines : ∀ line ∈ lines, '\n' ∉ line) (htext : WrittenAs lines text) :
    (∀ ws : Workspace, ws.readText text = ws.readDocument lines ∧
      ∀ name, ws.openDocument name (some text) =
        (ws.readDocument lines).map fun read => read.rename name) ∧
    ((∀ line ∈ lines, line.getLast? ≠ some '\r') → linesOf text = lines) := by
  have hreads := htext.readAs hlines
  have hread : ∀ ws : Workspace, ws.readText text = ws.readDocument lines :=
    readDocument_eq_of_trimRight (map_trimRight_of_readAs hreads)
  refine ⟨fun ws => ⟨hread ws, fun name => ?_⟩, eq_of_readAs hreads⟩
  show (ws.rename name).readText text = _
  rw [hread, (unread_rename name).readDocument]

/-- Two kinds of ends in a text whose last line, which has none, fails. -/
theorem entrances_agree_mixedEnds :
    (∀ line ∈ [("x +" : Text), "", "y\r = 3", "= 2"], '\n' ∉ line) ∧
      WrittenAs ["x +", "", "y\r = 3", "= 2"] "x +\r\n\ny\r = 3\r\n= 2" ∧
      (∀ line ∈ [("x +" : Text), "", "y\r = 3", "= 2"], line.getLast? ≠ some '\r') ∧
      (readDocument {} ["x +", "", "y\r = 3", "= 2"]).workspace.errorLine = 4 ∧
      readText {} "x +\r\n\ny\r = 3\r\n= 2" = readDocument {} ["x +", "", "y\r = 3", "= 2"] ∧
      linesOf "x +\r\n\ny\r = 3\r\n= 2" = ["x +".toList, [], "y\r = 3".toList, "= 2".toList] := by
  have hlines : ∀ line ∈ [("x +" : Text), "", "y\r = 3", "= 2"], '\n' ∉ line := by decide
  have hreturns : ∀ line ∈ [("x +" : Text), "", "y\r = 3", "= 2"], line.getLast? ≠ some '\r' := by
    decide
  have htext : WrittenAs ["x +", "", "y\r = 3", "= 2"] "x +\r\n\ny\r = 3\r\n= 2" :=
    .cons .returnNewline (.cons .newline (.cons .returnNewline (.unended (by decide))))
  obtain ⟨hread, hback⟩ := entrances_agree hlines htext
  exact ⟨hlines, htext, hreturns, by decide +kernel, (hread {}).1, hback hreturns⟩

end Workspace

end EquationPad
