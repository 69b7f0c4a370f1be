import EquationPad.Proofs.Lookup
import EquationPad.Proofs.Verdicts

/-! Documents that are read one behind the other. Behind a document that was read
successfully a second one is read as it would be alone, only that its equations come in
later rows and its new names in later columns. So the two runs are compared by a relation
that moves the rows and looks columns up by name; it holds where the second document
begins, whatever the first one was, and every step of reading keeps it. A failure in the
second document is the same failure, further down. -/

namespace EquationPad

/-! ## Systems -/

namespace LinearSystem

/-- The first `offset` rows of `whole` are those of `first`, the others are those of
`second`, and so are the names. -/
structure Appends (offset : Nat) (first second whole : LinearSystem) : Prop where
  names : whole.names = first.names ++ second.names.filter fun name => name ∉ first.names
  before : ∀ r < offset, ∀ place, whole.value r place = first.value r place
  behind : ∀ (r : Nat) place, whole.value (offset + r : Nat) place = second.value r place

variable {offset row : Nat} {first second whole : LinearSystem}

theorem Appends.start (h : Spans offset first) : Appends offset first {} first where
  names := by simp
  before _ _ _ := rfl
  behind r place := by
    rw [h.value_eq_zero (Nat.le_add_right _ _), (spans_empty 0).value_eq_zero (Nat.zero_le _)]

theorem Appends.mem_names (h : Appends offset first second whole) (name : Text) :
    name ∈ whole.names ↔ name ∈ first.names ∨ name ∈ second.names := by
  rw [h.names]
  by_cases hfirst : name ∈ first.names <;> simp [hfirst]

theorem Appends.contribute (h : Appends offset first second whole)
    (hsecond : Spans (row + 1) second) (hwhole : Spans (offset + row + 1) whole)
    (c : Contribution) :
    Appends offset first (second.contribute row c) (whole.contribute (offset + row) c) where
  names := by
    -- a name is new to the whole if it is new to both parts
    have hnew : ∀ name, (decide (name ∉ whole.names)) =
        (decide (name ∉ first.names) && decide (name ∉ second.names)) := by
      intro name
      simp [h.mem_names name]
    rw [names_contribute_eq, names_contribute_eq, List.filter_append, List.filter_filter,
      ← List.append_assoc, ← h.names]
    simp only [hnew]
  before r hr place := by
    rw [← h.before r hr place]
    exact (value_foldl_contribute hwhole [c] r place).trans (if_neg (by omega))
  behind r place := by
    refine (value_foldl_contribute hwhole [c] (offset + r) place).trans ?_
    refine Eq.trans ?_ (value_foldl_contribute hsecond [c] r place).symm
    rw [h.behind r place]
    simp only [Nat.add_left_cancel_iff]

/-- A row is either before the offset or behind it; there is none before the first. -/
theorem Appends.value_eq (h : Appends offset first second whole) (row : Int)
    (place : Option Text) :
    whole.value row place =
      if row < offset then first.value row place else second.value (row - offset) place := by
  match row with
  | .ofNat r =>
    by_cases hr : r < offset
    · rw [if_pos (by simpa using hr)]
      exact h.before r hr place
    · rw [if_neg (by simpa using hr)]
      have hrow := h.behind (r - offset) place
      rw [show offset + (r - offset) = r by omega] at hrow
      rw [show (Int.ofNat r - offset : Int) = (r - offset : Nat) by simp; omega]
      exact hrow
  | .negSucc r =>
    rw [if_pos (by omega), value_negSucc, value_negSucc]

end LinearSystem

/-! ## Builders -/

namespace Builder

/-- The same equation is being read in a later row. -/
structure Placed (offset : Nat) (first : LinearSystem) (second whole : Builder) : Prop where
  draft : whole.draft = { second.draft with row := offset + second.draft.row }
  count : whole.count = offset + second.count
  system : LinearSystem.Appends offset first second.system whole.system
  sized : second.Sized
  sizedWhole : whole.Sized

variable {offset : Nat} {first : LinearSystem} {second whole : Builder}

theorem Placed.expected (h : Placed offset first second whole) :
    whole.draft.expected = second.draft.expected := by rw [h.draft]

theorem simulation_placed (offset : Nat) (first : LinearSystem) :
    Simulation (Placed offset first) where
  expected h := h.expected
  equalSeen h := by rw [h.draft]
  report status position h :=
    ⟨congrArg (·.report status position) h.draft, h.count, h.system,
      kept_sized.report status position h.sized, kept_sized.report status position h.sizedWhole⟩
  begun text h := by
    refine ⟨?_, h.count, h.system, kept_sized.begun text h.sized,
      kept_sized.begun text h.sizedWhole⟩
    simp only [Builder.begun, h.draft]
  accept {second whole token} h hkind := by
    have hkind' := hkind.trans h.expected.symm
    refine ⟨?_, by rw [count_accept, count_accept, h.count], ?_, kept_sized.accept h.sized hkind,
      kept_sized.accept h.sizedWhole hkind'⟩
    · cases token <;> simp [Builder.accept, addTerm, addOperator, expect, h.draft]
    · cases token with
      | term t =>
        have hwhole := h.sizedWhole.spans
        rw [h.draft] at hwhole
        rw [system_accept_term, system_accept_term, h.draft]
        exact h.system.contribute h.sized.spans hwhole _
      | operator o => exact h.system
  dropSign {second whole} h hkind := by
    have hkind' := h.expected.trans hkind
    refine ⟨?_, h.count, h.system, kept_sized.dropSign h.sized hkind,
      kept_sized.dropSign h.sizedWhole hkind'⟩
    simp only [Builder.dropSign, h.draft]
  complete {second whole} h hkind := by
    have hkind' := h.expected.trans hkind
    refine ⟨?_, ?_, h.system, kept_sized.complete h.sized hkind,
      kept_sized.complete h.sizedWhole hkind'⟩
    · simp only [Builder.complete, h.draft, Draft.next_eq, Nat.add_assoc]
    · simp only [Builder.complete, h.draft]
      push_cast
      omega

/-- Where a line begins and how it ended is forgotten with the next line, so a builder is
taken as if a line had just begun. -/
theorem Placed.feed (h : Placed offset first (second.begun []) (whole.begun [])) (line : Text) :
    Placed offset first ((second.feed line).begun []) ((whole.feed line).begun []) ∧
      (whole.feed line).draft.status = (second.feed line).draft.status ∧
      (whole.feed line).draft.position = (second.feed line).draft.position := by
  by_cases hline : Blanks line
  · rw [feed_of_blank hline, feed_of_blank hline]
    exact ⟨h, rfl, rfl⟩
  · have hfeed := (simulation_placed offset first).feed h line
    rw [feed_begun [] hline, feed_begun [] hline] at hfeed
    refine ⟨(simulation_placed offset first).begun [] hfeed, ?_, ?_⟩ <;> rw [hfeed.draft]

/-- Behind complete equations an empty builder is placed. -/
theorem Placed.start (hsized : whole.Sized) (hconsistent : whole.draft.Consistent)
    (hcount : whole.count = whole.draft.row) (hclosed : whole.draft.isOpen = false) :
    Placed whole.draft.row whole.system (begun {} []) (whole.begun []) where
  draft := by
    rw [hconsistent.isOpen] at hclosed
    obtain ⟨hexpected, hnegative, hseen, hvariable, hright⟩ := hconsistent.notBegun hclosed
    simp [Builder.begun, hclosed, hexpected, hnegative, hseen, hvariable, hright]
  count := by simpa using hcount
  system := .start (hsized.empty (isBegun_of_isOpen hclosed))
  sized := kept_sized.begun [] (sized_start 0)
  sizedWhole := kept_sized.begun [] hsized

end Builder

/-! ## Workspaces -/

/-- The answers to what was asked of a document alone, and of the same document behind
`lines` lines more. -/
structure Reply.Behind (lines offset : Nat) (first : LinearSystem) (second whole : Reply) :
    Prop where
  status : whole.status = second.status
  builder : Builder.Placed offset first (second.workspace.builder.begun [])
    (whole.workspace.builder.begun [])
  lineCount : whole.workspace.lineCount = lines + second.workspace.lineCount
  failure : second.status.isSuccess = false →
    whole.workspace.errorLine = lines + second.workspace.errorLine ∧
    whole.workspace.errorPosition = second.workspace.errorPosition

theorem Reply.Behind.andThen {lines offset : Nat} {first : LinearSystem} {second whole : Reply}
    (h : Behind lines offset first second whole) {next next' : Workspace → Reply}
    (hnext : Behind lines offset first (next second.workspace) (next' whole.workspace)) :
    Behind lines offset first (second.andThen next) (whole.andThen next') := by
  rw [Reply.andThen, Reply.andThen, h.status]
  split
  · exact ⟨hnext.status, hnext.builder, hnext.lineCount, hnext.failure⟩
  · exact h

namespace Workspace

/-! ### Lines -/

theorem lineCount_feedLine (ws : Workspace) (line : Text) :
    (ws.feedLine line).workspace.lineCount = ws.lineCount + 1 := by
  unfold feedLine
  dsimp only
  split <;> rfl

theorem failure_feedLine {ws : Workspace} {line : Text}
    (h : (ws.feedLine line).status.isSuccess = false) :
    (ws.feedLine line).workspace.errorLine = (ws.lineCount + 1 : Nat) ∧
      (ws.feedLine line).workspace.errorPosition = (ws.builder.feed line).draft.position := by
  rw [feedLine_status] at h
  unfold feedLine
  dsimp only
  rw [if_neg (by simp [h])]
  exact ⟨rfl, rfl⟩

theorem lineCount_feedLines {ws : Workspace} {lines : List Text}
    (h : (ws.feedLines lines).status = .success) :
    (ws.feedLines lines).workspace.lineCount = ws.lineCount + lines.length := by
  induction lines generalizing ws with
  | nil => rfl
  | cons line lines ih =>
    obtain ⟨-, hmore, hworkspace⟩ := feedLines_cons_success h
    rw [hworkspace, ih hmore, lineCount_feedLine, List.length_cons]
    omega

/-- Lines are read in two goes as they are in one. -/
theorem feedLines_append (ws : Workspace) (lines more : List Text) :
    ws.feedLines (lines ++ more) = (ws.feedLines lines).andThen fun read => read.feedLines more := by
  induction lines generalizing ws with
  | nil => simp [feedLines, Reply.andThen]
  | cons line lines ih =>
    rw [List.cons_append, feedLines, feedLines]
    dsimp only
    split
    · rw [ih, Reply.andThen, Reply.andThen]
      split <;> simp
    · rename_i hfailed
      rw [Reply.andThen, if_neg]
      intro hsuccess
      rw [hsuccess] at hfailed
      exact hfailed rfl

/-! ### Behind other lines -/

variable {lines offset : Nat} {first : LinearSystem} {second whole : Workspace}

theorem behind_feedLine
    (h : Builder.Placed offset first (second.builder.begun []) (whole.builder.begun []))
    (hcount : whole.lineCount = lines + second.lineCount) (line : Text) :
    Reply.Behind lines offset first (second.feedLine line) (whole.feedLine line) := by
  obtain ⟨hplaced, hstatus, hposition⟩ := h.feed line
  have hsame : (whole.feedLine line).status = (second.feedLine line).status := by
    rw [feedLine_status, feedLine_status, hstatus]
  refine ⟨hsame, ?_, ?_, ?_⟩
  · rwa [feedLine_builder, feedLine_builder]
  · rw [lineCount_feedLine, lineCount_feedLine, hcount, Nat.add_assoc]
  · intro hfailed
    obtain ⟨hline, hcolumn⟩ := failure_feedLine hfailed
    obtain ⟨hline', hcolumn'⟩ := failure_feedLine (hsame ▸ hfailed)
    rw [hline, hline', hcolumn, hcolumn', hcount]
    exact ⟨by push_cast; omega, hposition⟩

theorem behind_feedLines
    (h : Builder.Placed offset first (second.builder.begun []) (whole.builder.begun []))
    (hcount : whole.lineCount = lines + second.lineCount) (more : List Text) :
    Reply.Behind lines offset first (second.feedLines more) (whole.feedLines more) := by
  induction more generalizing second whole with
  | nil => exact ⟨rfl, h, hcount, nofun⟩
  | cons line more ih =>
    have hline := behind_feedLine h hcount line
    have hmore := ih hline.builder hline.lineCount
    rw [feedLines, feedLines]
    dsimp only
    rw [hline.status]
    split
    · exact ⟨hmore.status, hmore.builder, hmore.lineCount, hmore.failure⟩
    · exact hline

/-- The last line is told for the column only, so it matters only if an equation is open. -/
theorem behind_finish
    (h : Builder.Placed offset first (second.builder.begun []) (whole.builder.begun []))
    (hcount : whole.lineCount = lines + second.lineCount) {lastLine lastLine' : Text}
    (hlast : second.builder.draft.isOpen = true → lastLine' = lastLine) :
    Reply.Behind lines offset first (second.finish lastLine) (whole.finish lastLine') := by
  have hopen := congrArg Draft.isOpen h.draft
  have hverdict := congrArg Draft.verdict h.draft
  change whole.builder.draft.isOpen = second.builder.draft.isOpen at hopen
  change whole.builder.draft.verdict = second.builder.draft.verdict at hverdict
  unfold finish
  dsimp only
  rw [hopen, hverdict]
  split
  · rename_i hpending
    rw [hlast hpending]
    exact ⟨rfl, h, hcount, fun _ => ⟨congrArg Nat.cast hcount, rfl⟩⟩
  · exact ⟨rfl, h, hcount, nofun⟩

/-! ### Documents -/

/-- What the answer to two documents in one has to do with the answers to each. -/
structure Composed (lines : Nat) (first second whole : Reply) : Prop where
  status : whole.status = second.status
  count : whole.workspace.builder.count =
    first.workspace.builder.count + second.workspace.builder.count
  names : whole.workspace.builder.system.names =
    first.workspace.builder.system.names ++
      second.workspace.builder.system.names.filter fun name =>
        name ∉ first.workspace.builder.system.names
  coefficient : ∀ (row : Int) (name : Text),
    whole.workspace.builder.system.coefficientOf row name =
      if row < first.workspace.builder.count then
        first.workspace.builder.system.coefficientOf row name
      else
        second.workspace.builder.system.coefficientOf (row - first.workspace.builder.count) name
  constant : ∀ row : Int,
    whole.workspace.builder.system.constant row =
      if row < first.workspace.builder.count then first.workspace.builder.system.constant row
      else second.workspace.builder.system.constant (row - first.workspace.builder.count)
  error : second.status ≠ .success →
    whole.workspace.errorLine = second.workspace.errorLine + lines ∧
    whole.workspace.errorPosition = second.workspace.errorPosition

theorem behind_readDocument {ws : Workspace} {before : List Text}
    (h : (ws.readDocument before).status = .success) (alone behind : Workspace) (more : List Text) :
    Reply.Behind before.length (Builder.feedAll {} before).draft.row
      (Builder.feedAll {} before).system (alone.readDocument more)
      (behind.readDocument (before ++ more)) := by
  obtain ⟨hsucceeds, hclosed, -⟩ := feedAll_of_readDocument h
  obtain ⟨hread, hbuilder⟩ := @feedLines_of_succeeds behind.startOver before hsucceeds
  have hlineCount := lineCount_feedLines hread
  have hstart := Builder.Placed.start (Builder.kept_sized.feedAll (Builder.sized_start 0) before)
    (Builder.kept_consistent.feedAll Draft.consistent_empty before)
    (Builder.kept_count.feedAll rfl before) hclosed
  change _ = Builder.feedAll {} before at hbuilder
  rw [← hbuilder] at hstart hclosed ⊢
  have hlines := @behind_feedLines before.length _ _ alone.startOver _ hstart
    (by rw [hlineCount]; exact Nat.add_comm _ _) more
  rw [readDocument, readDocument, feedLines_append]
  rw [Reply.andThen.eq_def (behind.startOver.feedLines before), if_pos hread]
  refine Reply.Behind.andThen ?_ ?_
  · exact ⟨hlines.status, hlines.builder, hlines.lineCount, hlines.failure⟩
  refine behind_finish hlines.builder hlines.lineCount ?_
  intro hopen
  cases more with
  | nil => cases hopen
  | cons line more => rw [List.getLast?_append_of_ne_nil _ (List.cons_ne_nil _ _)]

/-- **Documents compose.** Behind a document that is read successfully a second one is
read as it is alone, be it successful or not: the equations of both are counted, those of
the second follow those of the first under the same names, new names come last, and an
error is the same error as many lines further down as the first document has. -/
theorem composed_readDocument {ws : Workspace} {before : List Text}
    (h : (ws.readDocument before).status = .success) (alone behind : Workspace) (more : List Text) :
    Composed before.length (ws.readDocument before) (alone.readDocument more)
      (behind.readDocument (before ++ more)) := by
  have hbehind := behind_readDocument h alone behind more
  obtain ⟨-, -, hbuilder⟩ := feedAll_of_readDocument h
  have hcount : (Builder.feedAll {} before).count = (Builder.feedAll {} before).draft.row :=
    Builder.kept_count.feedAll rfl before
  rw [← hbuilder] at hbehind hcount
  have hsystem := hbehind.builder.system
  refine ⟨hbehind.status, ?_, hsystem.names, ?_, ?_, ?_⟩
  · rw [hcount]
    exact hbehind.builder.count
  · rw [hcount]
    exact fun row name => hsystem.value_eq row (some name)
  · rw [hcount]
    exact fun row => hsystem.value_eq row none
  · intro hfailed
    have hblank := (status_readDocument_ne alone more).2
    obtain ⟨hline, hposition⟩ := hbehind.failure (by
      cases hstatus : (alone.readDocument more).status <;> simp_all [Status.isSuccess])
    exact ⟨by rw [hline, Int.add_comm], hposition⟩

/-- The second document fails in its second line, which is the fourth. -/
theorem composed_readDocument_secondFails :
    (readDocument {} ["x - y =", "1"]).status = .success ∧
      Composed 2 (readDocument {} ["x - y =", "1"]) (readDocument {} ["z + x = 2", "y = = 3"])
        (readDocument {} ["x - y =", "1", "z + x = 2", "y = = 3"]) := by
  have h : (readDocument {} ["x - y =", "1"]).status = .success := by decide +kernel
  exact ⟨h, composed_readDocument h {} {} ["z + x = 2", "y = = 3"]⟩

end Workspace

end EquationPad
