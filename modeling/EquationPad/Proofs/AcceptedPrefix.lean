import EquationPad.Proofs.Rows

/-! What a line adds that is not read to its end. Up to the token that is refused it is read like
a line that ends there: nothing of that token has been used, however much of it was scanned, and
no scanner looks beyond the token it takes, except for a sign or for a character that goes on with
a number or a name. Only the end of the shorter line differs, for it may complete the equation. -/

namespace EquationPad.Builder

variable {builder : Builder} {line left : Text} {tokens : List Token}

/-- The line up to what is left of it is cut into the same tokens, and nothing is left of it. -/
theorem cut_take (h : builder.cut line = (tokens, left)) :
    builder.cut (line.take ((trimRight line).length - left.length)) = (tokens, []) ∧
      (trimRight line).drop ((trimRight line).length - left.length) = left := by
  obtain ⟨s, -, hwhole, hfront⟩ :=
    lex_front builder.draft.expected builder.draft.equalSeen (trimRight line)
  rw [cut] at h
  rw [h] at hwhole hfront
  dsimp only at hwhole hfront
  obtain ⟨b, hb, htrim⟩ := exists_blanks_append (trimRight line)
  obtain ⟨b', -, hline⟩ := exists_append_blanks line
  rw [hwhole, ← List.append_assoc] at htrim
  have hlength : (trimRight line).length - left.length = (b ++ s).length := by
    rw [htrim, List.length_append]
    omega
  have htake : line.take (b ++ s).length = b ++ s := by
    rw [hline, htrim, List.append_assoc, List.take_left]
  refine ⟨?_, ?_⟩
  · rw [hlength, htake, cut, lex_trimRight_blanks_append _ _ hb, hfront]
  · rw [hlength, htrim, List.drop_left]

/-- The line fails, or it is left before its end. -/
def LeavesLine (builder : Builder) (line : Text) : Prop :=
  (builder.feed line).draft.status.isSuccess = false ∨
    (builder.feed line).draft.status = .success ∧ (builder.readLine line).2.isAtEnd = false

theorem LeavesLine.left_ne_nil (h : LeavesLine builder line)
    (hcut : builder.cut line = (tokens, left)) : left ≠ [] := by
  rintro rfl
  rcases h with hfailed | ⟨-, hleft⟩
  · rw [isSuccess_feed_of_whole hcut] at hfailed
    cases hfailed
  · rw [readLine_of_whole hcut] at hleft
    cases hleft

/-- The line is read like its first `q` characters, which are read to their end, and what begins
after them is refused. -/
structure ReadUpTo (builder : Builder) (line : Text) (q : Nat) : Prop where
  inside : q < (trimRight line).length
  notBlank : Stops isBlank ((trimRight line).drop q)
  refused : ((builder.readLine (line.take q)).1.take ⟨q, (trimRight line).drop q⟩).accepted = false
  status : (builder.feed (line.take q)).draft.status.isSuccess = true
  consumed : (builder.readLine (line.take q)).2.isAtEnd = true
  system : (builder.feed line).system = (builder.feed (line.take q)).system

theorem readUpTo_of_cut (hcut : builder.cut line = (tokens, left)) (hleft : left ≠ []) :
    ReadUpTo builder line ((trimRight line).length - left.length) := by
  obtain ⟨hfront, hdrop⟩ := cut_take hcut
  have hpos := List.length_pos_iff.mpr hleft
  have hle := length_cut_le hcut
  have hread := readLine_of_whole hfront
  obtain ⟨hnext, hblank⟩ :=
    nextToken?_lex_left builder.draft.expected builder.draft.equalSeen (trimRight line)
  rw [← cut, hcut] at hnext hblank
  refine ⟨by omega, ?_, ?_, isSuccess_feed_of_whole hfront, by rw [hread]; rfl, ?_⟩
  · rw [hdrop]
    exact hblank
  · rw [hread, hdrop]
    refine (refusal_take ?_ hblank (by simp)).accepted
    simpa [expected_acceptAll] using hnext
  · rw [system_feed, system_feed, hcut, hfront]

/-- **A line that is not read to its end adds what stands before the token that is refused.** The
row and the count stay, and the system is the one that the line up to that token leaves, a line
that is read to its end without an error. -/
theorem readUpTo_of_leavesLine (h : LeavesLine builder line) :
    (builder.feed line).draft.row = builder.draft.row ∧
      (builder.feed line).count = builder.count ∧ ∃ q, ReadUpTo builder line q := by
  rcases hcut : builder.cut line with ⟨tokens, left⟩
  have hleft := h.left_ne_nil hcut
  obtain ⟨step, hrefusal, hfeed⟩ := feed_of_refused hcut hleft
  refine ⟨?_, ?_, _, readUpTo_of_cut hcut hleft⟩
  · rw [hfeed, hrefusal.row, row_acceptAll, row_begun]
  · rw [hfeed, hrefusal.count, count_acceptAll, count_begun]

/-- A number with two points is refused with its sign, and so is a second name. -/
theorem readUpTo_of_leavesLine_term_and_name :
    LeavesLine {} "x = -2.5.1 z" ∧ (Builder.feed {} "x = -2.5.1 z").draft.row = 0 ∧
      (∃ q, ReadUpTo {} "x = -2.5.1 z" q) ∧
      LeavesLine {} "3 x y = 1" ∧ (∃ q, ReadUpTo {} "3 x y = 1" q) := by
  have hfails : LeavesLine {} "x = -2.5.1 z" := .inl (by decide +kernel)
  have hstops : LeavesLine {} "3 x y = 1" := .inr ⟨by decide +kernel, by decide +kernel⟩
  obtain ⟨hrow, -, hread⟩ := readUpTo_of_leavesLine hfails
  exact ⟨hfails, hrow, hread, hstops, (readUpTo_of_leavesLine hstops).2.2⟩

end EquationPad.Builder
