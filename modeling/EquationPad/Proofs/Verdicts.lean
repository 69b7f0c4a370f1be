import EquationPad.Proofs.Documents
import EquationPad.Proofs.Rows

/-! What a document that ends too early is told. The flags of a draft fit together after any
lines, refused or left in the middle as they may be, so an equation is open exactly if it
has a term before the equal sign, and its verdict names the first thing that its tokens
lack. Two statuses are thereby ruled out: that no term stands before the equal sign, and
that a document is a blank line. -/

namespace EquationPad

/-! ## Flags -/

namespace Draft

/-- The flags tell of an equation that begins with a term and has been read from the left. -/
structure Consistent (draft : Draft) : Prop where
  equalSeen : draft.rightTerm = true → draft.equalSeen = true
  leftTerm : draft.equalSeen = true → draft.leftTerm = true
  variableSeen : draft.variableSeen = true → draft.leftTerm = true
  expected : draft.expected = .operator →
    draft.leftTerm = true ∧ (draft.equalSeen = true → draft.rightTerm = true)
  notBegun : draft.leftTerm = false → draft.expected = .term ∧ draft.negative = false ∧
    draft.equalSeen = false ∧ draft.variableSeen = false ∧ draft.rightTerm = false

theorem consistent_empty : Consistent {} :=
  ⟨nofun, nofun, nofun, nofun, fun _ => ⟨rfl, rfl, rfl, rfl, rfl⟩⟩

theorem Consistent.isOpen {draft : Draft} (h : draft.Consistent) :
    draft.isOpen = draft.leftTerm := by
  cases hleft : draft.leftTerm with
  | true => simp [Draft.isOpen, hleft]
  | false =>
    obtain ⟨hexpected, -, hseen, -, hright⟩ := h.notBegun hleft
    simp [Draft.isOpen, hleft, hexpected, hseen, hright]

/-- The verdict on an open equation. -/
theorem Consistent.verdict {draft : Draft} (h : draft.Consistent) (hopen : draft.isOpen = true) :
    draft.verdict =
      if draft.equalSeen = false then .noEqualSign
      else if draft.rightTerm = false then .noTermAfterEqualSign
      else if draft.variableSeen = false then .noVariable
      else .success := by
  have hleft : draft.leftTerm = true := h.isOpen.symm.trans hopen
  simp only [Draft.verdict, hleft, Bool.not_true, Bool.and_false, Bool.false_and,
    Bool.false_eq_true, if_false, Bool.not_eq_true']

end Draft

namespace Builder

theorem kept_consistent : Kept fun builder => builder.draft.Consistent where
  report _ _ h := ⟨h.equalSeen, h.leftTerm, h.variableSeen, h.expected, h.notBegun⟩
  begun _ h := ⟨h.equalSeen, h.leftTerm, h.variableSeen, h.expected, h.notBegun⟩
  accept {builder token} h hkind := by
    cases token with
    | term t =>
      have hleft : (builder.accept (.term t)).draft.leftTerm = true := by
        show (builder.draft.leftTerm || !builder.draft.equalSeen) = true
        cases hseen : builder.draft.equalSeen with
        | true => simp [h.leftTerm hseen]
        | false => simp
      refine ⟨?_, fun _ => hleft, fun _ => hleft, fun _ => ⟨hleft, ?_⟩, ?_⟩
      · intro hright
        change (builder.draft.rightTerm || builder.draft.equalSeen) = true at hright
        rcases Bool.or_eq_true_iff.mp hright with hold | hseen
        · exact h.equalSeen hold
        · exact hseen
      · intro hseen
        change builder.draft.equalSeen = true at hseen
        show (builder.draft.rightTerm || builder.draft.equalSeen) = true
        simp [hseen]
      · intro hnot
        rw [hleft] at hnot
        cases hnot
    | operator o =>
      -- an operator is due only after a term, and there is one before any equal sign
      have hleft : builder.draft.leftTerm = true := (h.expected hkind.symm).1
      refine ⟨?_, fun _ => hleft, fun _ => hleft, nofun, ?_⟩
      · intro hright
        show (builder.draft.equalSeen || o.isEquals) = true
        simp [h.equalSeen hright]
      · intro hnot
        change builder.draft.leftTerm = false at hnot
        rw [hleft] at hnot
        cases hnot
  dropSign h hkind := by
    refine ⟨h.equalSeen, h.leftTerm, h.variableSeen, h.expected, ?_⟩
    intro hnot
    obtain ⟨hexpected, -, hrest⟩ := h.notBegun hnot
    exact ⟨hexpected, rfl, hrest⟩
  complete _ _ := ⟨nofun, nofun, nofun, nofun, fun _ => ⟨rfl, rfl, rfl, rfl, rfl⟩⟩

/-! ## The statuses of a line -/

/-- The statuses that a line can have. -/
def lineStatuses : List Status :=
  [.success, .blankLine, .illegalEquation, .multipleEqualSigns] ++ tokenFaults

theorem status_feed_mem (builder : Builder) (line : Text) :
    (builder.feed line).draft.status ∈ lineStatuses := by
  by_cases hline : Blanks line
  · rw [feed_of_blank hline]
    show Status.blankLine ∈ lineStatuses
    decide
  rcases hcut : builder.cut line with ⟨tokens, left⟩
  by_cases hleft : left = []
  · subst hleft
    rw [feed_of_whole hline hcut]
    have hsuccess : Status.success ∈ lineStatuses := by decide
    split <;> simpa [complete, Draft.next_eq] using hsuccess
  · obtain ⟨step, hrefusal, hfeed⟩ := feed_of_refused hcut hleft
    rw [hfeed]
    cases hrefusal with
    | term _ hfault => exact List.mem_append_right _ (Term.fault_mem_of_scan hfault)
    | noOperator _ _ =>
      show (((builder.begun _).acceptAll tokens).draft.status) ∈ lineStatuses
      rw [status_acceptAll, status_begun]
      decide
    | secondEquals _ _ _ =>
      show (if _ then Status.illegalEquation else Status.multipleEqualSigns) ∈ lineStatuses
      split <;> decide

theorem status_feedAll_ne {builder : Builder} (lines : List Text) {status : Status}
    (hstart : builder.draft.status ≠ status) (hline : status ∉ lineStatuses) :
    (builder.feedAll lines).draft.status ≠ status := by
  induction lines generalizing builder with
  | nil => exact hstart
  | cons line lines ih =>
    refine ih ?_
    intro heq
    exact hline (heq ▸ status_feed_mem builder line)

end Builder

/-! ## The end of a document -/

/-- What is wrong with an equation of which there is no more than these tokens. -/
structure EndsWith (tokens : List Token) (status : Status) : Prop where
  noEqualSign : (∀ token ∈ tokens, token.isEquals = false) → status = .noEqualSign
  noTermAfterEqualSign : (∃ token ∈ tokens, token.isEquals = true) →
    (∀ token ∈ rightSide tokens, token.isTerm = false) → status = .noTermAfterEqualSign
  noVariable : (∃ token ∈ leftSide tokens, token.isTerm = true) →
    (∃ token ∈ rightSide tokens, token.isTerm = true) →
    (∀ token ∈ tokens, token.isUnknown = false) → status = .noVariable
  illegalEquation : (∃ token ∈ leftSide tokens, token.isTerm = true) →
    (∃ token ∈ rightSide tokens, token.isTerm = true) →
    (∃ token ∈ tokens, token.isUnknown = true) → status = .illegalEquation

theorem equalsSeen_of_rightTerm {tokens : List Token}
    (h : (rightSide tokens).any Token.isTerm = true) : tokens.any Token.isEquals = true := by
  by_contra hnone
  rw [Bool.not_eq_true, List.any_eq_false] at hnone
  have hempty : rightSide tokens = [] :=
    List.dropWhile_eq_nil_iff.mpr fun token htoken => by simpa using hnone token htoken
  rw [hempty] at h
  cases h

/-- The status with which a document ends in an open equation. -/
def Draft.endStatus (draft : Draft) : Status :=
  if draft.verdict.isSuccess then .illegalEquation else draft.verdict

theorem Draft.Consistent.endStatus {draft : Draft} (h : draft.Consistent)
    (hopen : draft.isOpen = true) :
    draft.endStatus =
      if draft.equalSeen = false then .noEqualSign
      else if draft.rightTerm = false then .noTermAfterEqualSign
      else if draft.variableSeen = false then .noVariable
      else .illegalEquation := by
  rw [Draft.endStatus, h.verdict hopen]
  cases draft.equalSeen <;> cases draft.rightTerm <;> cases draft.variableSeen <;> rfl

theorem Draft.Consistent.endStatus_ne {draft : Draft} (h : draft.Consistent)
    (hopen : draft.isOpen = true) :
    draft.endStatus ≠ .noTermBeforeEqualSign ∧ draft.endStatus ≠ .blankLine := by
  rw [h.endStatus hopen]
  cases draft.equalSeen <;> cases draft.rightTerm <;> cases draft.variableSeen <;> decide

theorem Draft.Consistent.endsWith {draft : Draft} {tokens : List Token} (h : draft.Consistent)
    (hopen : draft.isOpen = true) (htokens : draft.Describes tokens) :
    EndsWith tokens draft.endStatus := by
  have hstatus := h.endStatus hopen
  rw [htokens.equalSeen, htokens.rightTerm, htokens.variableSeen] at hstatus
  refine ⟨?_, ?_, ?_, ?_⟩
  · intro hequal
    have hnone : tokens.any Token.isEquals = false := by simpa using hequal
    rw [hstatus, if_pos hnone]
  · intro hequal hterm
    have hsome : tokens.any Token.isEquals = true := by simpa using hequal
    have hnone : (rightSide tokens).any Token.isTerm = false := by simpa using hterm
    rw [hstatus, hsome, hnone]
    rfl
  · intro _ hterm hvariable
    have hsome : (rightSide tokens).any Token.isTerm = true := by simpa using hterm
    have hnone : tokens.any Token.isUnknown = false := by simpa using hvariable
    rw [hstatus, equalsSeen_of_rightTerm hsome, hsome, hnone]
    rfl
  · intro _ hterm hvariable
    have hsome : (rightSide tokens).any Token.isTerm = true := by simpa using hterm
    have hnamed : tokens.any Token.isUnknown = true := by simpa using hvariable
    rw [hstatus, equalsSeen_of_rightTerm hsome, hsome, hnamed]
    rfl

namespace Workspace

theorem feedLines_of_succeeds {ws : Workspace} {lines : List Text}
    (h : ws.builder.Succeeds lines) :
    (ws.feedLines lines).status = .success ∧
      (ws.feedLines lines).workspace.builder = ws.builder.feedAll lines := by
  induction lines generalizing ws with
  | nil => exact ⟨rfl, rfl⟩
  | cons line lines ih =>
    obtain ⟨hline, hrest⟩ := h
    rw [← feedLine_status] at hline
    rw [← feedLine_builder] at hrest
    obtain ⟨hstatus, hbuilder⟩ := ih hrest
    rw [feedLines]
    dsimp only
    rw [if_pos hline]
    refine ⟨hstatus, hbuilder.trans ?_⟩
    rw [feedLine_builder]
    rfl

/-- A line fails with a status of its own. -/
theorem status_feedLines (ws : Workspace) (lines : List Text) :
    (ws.feedLines lines).status = .success ∨
      ((ws.feedLines lines).status.isSuccess = false ∧
        (ws.feedLines lines).status ∈ Builder.lineStatuses) := by
  induction lines generalizing ws with
  | nil => exact .inl rfl
  | cons line lines ih =>
    rw [feedLines]
    dsimp only
    split
    · exact ih _
    · rename_i hfailed
      refine .inr ⟨by simpa using hfailed, ?_⟩
      rw [feedLine_status]
      exact Builder.status_feed_mem _ _

theorem status_finish (ws : Workspace) (lastLine : Text) :
    (ws.finish lastLine).status =
      if ws.builder.draft.isOpen then ws.builder.draft.endStatus else .success := by
  unfold finish
  dsimp only
  split <;> rfl

/-- The status of a document all lines of which were accepted. -/
theorem status_readDocument_of_succeeds (ws : Workspace) {lines : List Text}
    (h : Builder.Succeeds {} lines) :
    (ws.readDocument lines).status =
      if (Builder.feedAll {} lines).draft.isOpen then (Builder.feedAll {} lines).draft.endStatus
      else .success := by
  obtain ⟨hstatus, hbuilder⟩ := @feedLines_of_succeeds ws.startOver lines h
  rw [readDocument, Reply.andThen, if_pos hstatus]
  dsimp only
  rw [status_finish, hbuilder]
  rfl

/-- A document in which a line fails is left there. -/
theorem readDocument_of_failure {ws : Workspace} {lines : List Text}
    (h : (ws.startOver.feedLines lines).status.isSuccess = false) :
    ws.readDocument lines = ws.startOver.feedLines lines := by
  rw [readDocument, Reply.andThen, if_neg]
  intro hsuccess
  rw [hsuccess] at h
  cases h

/-- No document is told that it is a blank line or that no term stands before the equal
sign: no line fails with that status, and the flags of an open equation rule it out. -/
theorem status_readDocument_ne (ws : Workspace) (lines : List Text) :
    (ws.readDocument lines).status ≠ .noTermBeforeEqualSign ∧
      (ws.readDocument lines).status ≠ .blankLine := by
  rcases status_feedLines ws.startOver lines with hread | ⟨hfailed, hmem⟩
  · obtain ⟨hsucceeds, -⟩ := succeeds_of_feedLines hread
    have hconsistent : (Builder.feedAll {} lines).draft.Consistent :=
      Builder.kept_consistent.feedAll Draft.consistent_empty lines
    rw [status_readDocument_of_succeeds ws hsucceeds]
    split
    · rename_i hopen
      exact hconsistent.endStatus_ne hopen
    · exact ⟨nofun, nofun⟩
  · rw [readDocument_of_failure hfailed]
    refine ⟨?_, ?_⟩
    · intro heq
      rw [heq] at hmem
      exact absurd hmem (by decide)
    · intro heq
      rw [heq] at hfailed
      cases hfailed

/-- **The flags always tell a consistent story, and a document that ends too early is told
what its last equation lacks.** The flags are those of any lines read from an empty draft,
whatever system and count it came with. What an open equation lacks is said of the tokens
that were accepted for its row. -/
theorem consistent_feedAll_and_endsWith :
    (∀ (system : LinearSystem) (count : Int) (lines : List Text),
      (Builder.feedAll { system, count } lines).draft.Consistent ∧
      (Builder.feedAll { system, count } lines).draft.isOpen =
        (Builder.feedAll { system, count } lines).draft.leftTerm ∧
      (Builder.feedAll { system, count } lines).draft.status ≠ .noTermBeforeEqualSign) ∧
    ∀ (ws : Workspace) (lines : List Text),
      (ws.readDocument lines).status ≠ .noTermBeforeEqualSign ∧
      (ws.readDocument lines).status ≠ .blankLine ∧
      (Builder.Succeeds {} lines → (Builder.feedAll {} lines).draft.isOpen = true →
        EndsWith (Builder.tokensOf {} (Builder.feedAll {} lines).draft.row lines)
          (ws.readDocument lines).status) := by
  refine ⟨?_, ?_⟩
  · intro system count lines
    have hconsistent : (Builder.feedAll { system, count } lines).draft.Consistent :=
      Builder.kept_consistent.feedAll Draft.consistent_empty lines
    exact ⟨hconsistent, hconsistent.isOpen, Builder.status_feedAll_ne lines nofun (by decide)⟩
  · intro ws lines
    obtain ⟨hterm, hblank⟩ := status_readDocument_ne ws lines
    refine ⟨hterm, hblank, ?_⟩
    intro hsucceeds hopen
    have hconsistent : (Builder.feedAll {} lines).draft.Consistent :=
      Builder.kept_consistent.feedAll Draft.consistent_empty lines
    have hrows := @Builder.readRows_feedAll {} describes_empty lines
    rw [status_readDocument_of_succeeds ws hsucceeds, if_pos hopen]
    exact hconsistent.endsWith hopen hrows.describes

/-- Both sides of `2 = 3 +` have terms, and none of them names a variable. -/
theorem consistent_feedAll_and_endsWith_noVariable :
    Builder.Succeeds {} ["x = 1", "2 =", "", "3 +"] ∧
      (Builder.feedAll {} ["x = 1", "2 =", "", "3 +"]).draft.isOpen = true ∧
      (readDocument {} ["x = 1", "2 =", "", "3 +"]).status = .noVariable := by
  have hsucceeds : Builder.Succeeds {} ["x = 1", "2 =", "", "3 +"] :=
    ⟨by decide +kernel, by decide +kernel, by decide +kernel, by decide +kernel, trivial⟩
  have hopen : (Builder.feedAll {} ["x = 1", "2 =", "", "3 +"]).draft.isOpen = true := by
    decide +kernel
  have hends := (consistent_feedAll_and_endsWith.2 {} ["x = 1", "2 =", "", "3 +"]).2.2
    hsucceeds hopen
  refine ⟨hsucceeds, hopen, hends.noVariable ?_ ?_ ?_⟩ <;> decide +kernel

end Workspace

end EquationPad
