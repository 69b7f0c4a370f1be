import EquationPad.Proofs.LineReading

/-! A line completes the equation exactly if it can be read as what the equation still
lacks: an equation, or the rest of one that was left open after a term. This is said of
every builder, whatever its flags are and however it came about. -/

namespace EquationPad

/-- The line without the blanks at both ends. -/
def trimmed (line : Text) : Text := skipBlanks (trimRight line)

namespace Builder

/-- What the last line of an equation does to a builder. -/
structure Completed (before after : Builder) : Prop where
  status : after.draft.status = .success
  row : after.draft.row = before.draft.row + 1
  count : after.count = after.draft.row
  expected : after.draft.expected = .term
  negative : after.draft.negative = false
  equalSeen : after.draft.equalSeen = false
  variableSeen : after.draft.variableSeen = false
  leftTerm : after.draft.leftTerm = false
  rightTerm : after.draft.rightTerm = false

theorem completed_complete {before after : Builder} (hstatus : after.draft.status = .success)
    (hrow : after.draft.row = before.draft.row) : Completed before after.complete where
  status := hstatus
  row := by simp [complete, Draft.next_eq, hrow]
  count := rfl
  expected := rfl
  negative := rfl
  equalSeen := rfl
  variableSeen := rfl
  leftTerm := rfl
  rightTerm := rfl

/-- A line that cannot be cut up completely, up to a term, leaves row and count as they are. -/
theorem completed_or_kept (builder : Builder) (line : Text) :
    (Completed builder (builder.feed line) ∧
        ∃ tokens, builder.cut line = (tokens, []) ∧ EndsOnTerm tokens) ∨
      ((builder.feed line).draft.row = builder.draft.row ∧
        (builder.feed line).count = builder.count ∧
        ∀ tokens, builder.cut line = (tokens, []) → ¬ EndsOnTerm tokens) := by
  by_cases hline : Blanks line
  · right
    rw [feed_of_blank hline, cut_of_blank hline]
    refine ⟨rfl, rfl, ?_⟩
    intro tokens heq
    rw [← (Prod.mk.inj heq).1]
    simp [EndsOnTerm]
  rcases hcut : builder.cut line with ⟨tokens, left⟩
  by_cases hleft : left = []
  · subst hleft
    have hends : EndsOnTerm tokens ↔ kindAfter builder.draft.expected tokens = .operator := by
      rw [endsOnTerm_iff builder.draft.expected, and_iff_right (ne_nil_of_cut hline hcut)]
    rw [feed_of_whole hline hcut]
    by_cases hkind : kindAfter builder.draft.expected tokens = .operator
    · left
      rw [if_pos hkind]
      exact ⟨completed_complete (by simp) (by simp), tokens, rfl, hends.mpr hkind⟩
    · right
      rw [if_neg hkind]
      refine ⟨by simp, by simp, ?_⟩
      intro tokens' heq
      rw [← (Prod.mk.inj heq).1]
      exact mt hends.mp hkind
  · right
    obtain ⟨step, hrefusal, hfeed⟩ := feed_of_refused hcut hleft
    rw [hfeed, hrefusal.row, hrefusal.count]
    refine ⟨by simp, by simp, ?_⟩
    intro tokens' heq
    exact absurd (Prod.mk.inj heq).2 hleft

/-- **The lines that complete an equation.** Without the blanks at its ends the line is
terms and operators in alternation, from the kind that was due up to a term, with no
second equal sign. No other line changes the row or the count. -/
theorem completed_feed_iff (builder : Builder) (line : Text) :
    (Completed builder (builder.feed line) ↔
      ∃ tokens, Reads builder.draft.expected builder.draft.equalSeen tokens (trimmed line)) ∧
    (¬ Completed builder (builder.feed line) →
      (builder.feed line).draft.row = builder.draft.row ∧
        (builder.feed line).count = builder.count) := by
  rw [trimmed, exists_reads_iff]
  rcases completed_or_kept builder line with ⟨hdone, tokens, hcut, hends⟩ | ⟨hrow, hcount, hnone⟩
  · exact ⟨iff_of_true hdone ⟨tokens, hcut, hends⟩, fun hnot => absurd hdone hnot⟩
  · have hopen : ¬ Completed builder (builder.feed line) := by
      intro hdone
      have hnext := hdone.row
      omega
    refine ⟨iff_of_false hopen ?_, fun _ => ⟨hrow, hcount⟩⟩
    intro hsome
    obtain ⟨tokens, hcut, hends⟩ := hsome
    exact hnone tokens hcut hends

end Builder

end EquationPad
