import EquationPad.Proofs.LineReading

/-! A line break after an operator is a space. What was read before the break is kept in
the builder and what comes after it is cut on its own, so reading two lines and reading
them as one accept the same tokens and stop at the same character. The only difference
is where columns are counted from. -/

namespace EquationPad

/-! ## Joined lines -/

/-- The lines with a space for every line break. -/
def joined (lines : List Text) : Text := [' '].intercalate lines

theorem joined_cons (line : Text) {lines : List Text} (h : lines ≠ []) :
    joined (line :: lines) = line ++ ' ' :: joined lines := by
  rw [joined, List.intercalate_cons_of_ne_nil h]
  simp [joined]

theorem not_blanks_joined {last : Text} (hlast : ¬ Blanks last) (lines : List Text) :
    ¬ Blanks (joined (lines ++ [last])) := by
  induction lines with
  | nil => simpa [joined] using hlast
  | cons line lines ih =>
    rw [List.cons_append, joined_cons line (by simp)]
    intro hblank
    exact ih fun c hc => hblank c (by simp [hc])

theorem trimRight_space_append (l₁ : Text) {l₂ : Text} (hline : ¬ Blanks l₂) :
    trimRight (l₁ ++ ' ' :: l₂) = (l₁ ++ [' ']) ++ trimRight l₂ := by
  rw [← trimRight_append (mt trimRight_eq_nil_iff.mp hline)]
  simp

namespace Builder

/-! ## Blank lines -/

def feedAll (builder : Builder) (lines : List Text) : Builder := lines.foldl feed builder

/-- Blank lines leave no trace once another line is read. -/
theorem feed_feedAll_blanks (builder : Builder) {blanks : List Text}
    (h : ∀ line ∈ blanks, Blanks line) (line : Text) :
    (builder.feedAll blanks).feed line = builder.feed line := by
  induction blanks generalizing builder with
  | nil => rfl
  | cons blank blanks ih =>
    have hblank : Blanks blank := h blank (by simp)
    have hrest : ∀ line ∈ blanks, Blanks line := fun line hline => h line (by simp [hline])
    calc (builder.feedAll (blank :: blanks)).feed line
        = ((builder.feed blank).feedAll blanks).feed line := rfl
      _ = (builder.feed blank).feed line := ih (builder.feed blank) hrest
      _ = builder.feed line := by rw [feed_of_blank hblank, feed_report]

/-! ## One line for two -/

theorem cut_joined {builder : Builder} {l₁ l₂ : Text} {tokens : List Token}
    (hcut : builder.cut l₁ = (tokens, [])) (hkind : kindAfter builder.draft.expected tokens = .term)
    (hline : ¬ Blanks l₂) :
    builder.cut (l₁ ++ ' ' :: l₂) =
      (tokens ++ ((builder.acceptAll tokens).cut l₂).1, ((builder.acceptAll tokens).cut l₂).2) := by
  obtain ⟨b, hb, hl₁⟩ := exists_append_blanks l₁
  have htrim : trimRight (l₁ ++ ' ' :: l₂) = trimRight l₁ ++ ((b ++ [' ']) ++ trimRight l₂) := by
    calc trimRight (l₁ ++ ' ' :: l₂)
        = (l₁ ++ [' ']) ++ trimRight l₂ := trimRight_space_append l₁ hline
      _ = ((trimRight l₁ ++ b) ++ [' ']) ++ trimRight l₂ := by rw [← hl₁]
      _ = trimRight l₁ ++ ((b ++ [' ']) ++ trimRight l₂) := by simp
  have hgap := hb.append_space
  have hmore : Stops isSignChar ((b ++ [' ']) ++ trimRight l₂) := by
    cases b with
    | nil => exact stops_cons.mpr rfl
    | cons c b =>
      have hc : isBlank c = true := hb c (by simp)
      exact stops_cons.mpr (isSignChar_eq_false (blank_apart_operator c hc))
  rw [cut, htrim, lex_append hcut hkind hmore, lex_blanks_append hgap, cut, expected_acceptAll,
    hkind, equalSeen_acceptAll]

/-- The same state but for columns, which the second counts from `shift` characters earlier. -/
structure AgreeButColumns (shift : Nat) (apart joined : Builder) : Prop where
  status : joined.draft.status = apart.draft.status
  system : joined.system = apart.system
  count : joined.count = apart.count
  draft : { joined.draft with start := apart.draft.start, position := apart.draft.position } =
    apart.draft
  position : joined.draft.status ≠ .success →
    joined.draft.position = apart.draft.position + shift

theorem AgreeButColumns.refl (builder : Builder) : AgreeButColumns 0 builder builder :=
  ⟨rfl, rfl, rfl, rfl, fun _ => by simp⟩

theorem AgreeButColumns.trans {shift₁ shift₂ : Nat} {b₁ b₂ b₃ : Builder}
    (h₁ : AgreeButColumns shift₁ b₁ b₂) (h₂ : AgreeButColumns shift₂ b₂ b₃) :
    AgreeButColumns (shift₁ + shift₂) b₁ b₃ where
  status := h₂.status.trans h₁.status
  system := h₂.system.trans h₁.system
  count := h₂.count.trans h₁.count
  draft := by rw [← h₁.draft, ← h₂.draft]
  position := by
    intro hfailed
    rw [h₂.position hfailed, h₁.position (h₂.status ▸ hfailed)]
    push_cast
    omega

/-- What is refused at the same place of two lines is refused for the same reason, if that
place is the start of both lines or of neither. -/
theorem Refusal.agree {builder : Builder} {t₁ t₂ left : Text} {n shift : Nat} {step₁ step₂ : Step}
    (h₁ : Refusal (builder.begun t₁) ⟨n, left⟩ step₁)
    (h₂ : Refusal (builder.begun t₂) ⟨n + shift, left⟩ step₂)
    (hstart : builder.draft.expected = .operator →
      (n = t₁.length - (skipBlanks t₁).length ↔ n + shift = t₂.length - (skipBlanks t₂).length)) :
    AgreeButColumns shift step₁.builder step₂.builder := by
  cases h₁ with
  | @term fault rest hkind hfault =>
    cases h₂ with
    | @term fault' rest' _ hfault' =>
      obtain ⟨rfl, rfl⟩ : fault = fault' ∧ rest = rest' := by
        simpa using hfault.symm.trans hfault'
      refine ⟨rfl, rfl, rfl, rfl, fun _ => ?_⟩
      simp only [report, Draft.report, Cursor.moveTo]
      omega
    | noOperator hkind' _ => exact absurd (hkind.symm.trans hkind') TokenKind.noConfusion
    | secondEquals hkind' _ _ => exact absurd (hkind.symm.trans hkind') TokenKind.noConfusion
  | noOperator hkind hnone =>
    cases h₂ with
    | term hkind' _ => exact absurd (hkind.symm.trans hkind') TokenKind.noConfusion
    | noOperator _ _ => exact ⟨rfl, rfl, rfl, rfl, fun h => absurd rfl h⟩
    | secondEquals _ hsome _ => rw [hnone] at hsome; cases hsome
  | secondEquals hkind hsome _ =>
    cases h₂ with
    | term hkind' _ => exact absurd (hkind.symm.trans hkind') TokenKind.noConfusion
    | noOperator _ hnone => rw [hnone] at hsome; cases hsome
    | secondEquals _ _ _ =>
      have hsame : ((n : Nat) : Int) = (builder.begun t₁).draft.start ↔
          ((n + shift : Nat) : Int) = (builder.begun t₂).draft.start := by
        rw [start_begun, start_begun, Int.natCast_inj, Int.natCast_inj]
        exact hstart hkind
      by_cases hn : ((n : Nat) : Int) = (builder.begun t₁).draft.start
      · rw [if_pos hn, if_pos (hsame.mp hn)]
        exact ⟨rfl, rfl, rfl, rfl, fun _ => by simp [report, Draft.report]⟩
      · rw [if_neg hn, if_neg (mt hsame.mpr hn)]
        exact ⟨rfl, rfl, rfl, rfl, fun _ => by simp [report, Draft.report]⟩

/-- Two lines that are cut like one are read like one. -/
theorem agree_of_cut {builder : Builder} {l₁ l₂ left : Text} {tokens₁ tokens₂ : List Token}
    (hline : ¬ Blanks l₂) (hcut : (builder.acceptAll tokens₁).cut l₂ = (tokens₂, left))
    (hjoined : builder.cut (l₁ ++ ' ' :: l₂) = (tokens₁ ++ tokens₂, left))
    (hstart : ((builder.acceptAll tokens₁).acceptAll tokens₂).draft.expected = .operator →
      (left.length = (skipBlanks (trimRight l₂)).length ↔
        left.length = (skipBlanks (trimRight (l₁ ++ ' ' :: l₂))).length)) :
    AgreeButColumns (l₁.length + 1) ((builder.acceptAll tokens₁).feed l₂)
      (builder.feed (l₁ ++ ' ' :: l₂)) := by
  have htrim := trimRight_space_append l₁ hline
  have hline' : ¬ Blanks (l₁ ++ ' ' :: l₂) := by
    rw [← trimRight_eq_nil_iff, htrim]
    simp
  by_cases hleft : left = []
  · subst hleft
    rw [feed_of_whole hline hcut, feed_of_whole hline' hjoined, ← expected_acceptAll,
      ← expected_acceptAll, acceptAll_append, acceptAll_begun, acceptAll_begun, acceptAll_append]
    by_cases hkind : ((builder.acceptAll tokens₁).acceptAll tokens₂).draft.expected = .operator
    · rw [if_pos hkind, if_pos hkind]
      exact ⟨rfl, rfl, rfl, rfl, fun h => absurd rfl h⟩
    · rw [if_neg hkind, if_neg hkind]
      exact ⟨rfl, rfl, rfl, rfl, fun h => absurd rfl h⟩
  · obtain ⟨step₁, hrefusal₁, hfeed₁⟩ := feed_of_refused hcut hleft
    obtain ⟨step₂, hrefusal₂, hfeed₂⟩ := feed_of_refused hjoined hleft
    rw [hfeed₁, hfeed₂]
    rw [acceptAll_begun] at hrefusal₁
    rw [acceptAll_begun, acceptAll_append] at hrefusal₂
    have hlength : (trimRight (l₁ ++ ' ' :: l₂)).length = (trimRight l₂).length + (l₁.length + 1) := by
      simp only [htrim, List.length_append, List.length_singleton]
      omega
    have hle := length_cut_le hcut
    have hshift : (trimRight (l₁ ++ ' ' :: l₂)).length - left.length =
        ((trimRight l₂).length - left.length) + (l₁.length + 1) := by omega
    rw [hshift] at hrefusal₂
    refine hrefusal₁.agree hrefusal₂ ?_
    intro hkind
    have hsame := hstart hkind
    have hle' := length_cut_le hjoined
    have hskip := length_skipBlanks_le (trimRight l₂)
    have hskip' := length_skipBlanks_le (trimRight (l₁ ++ ' ' :: l₂))
    omega

theorem feed_joined {builder : Builder} {l₁ l₂ : Text} (h₁ : EndsOnOperator builder l₁)
    (h₂ : ¬ Blanks l₂) :
    AgreeButColumns (l₁.length + 1) ((builder.feed l₁).feed l₂) (builder.feed (l₁ ++ ' ' :: l₂)) := by
  obtain ⟨-, tokens₁, hcut₁, hkind₁⟩ := endsOnOperator_iff.mp h₁
  have hjoined := cut_joined hcut₁ hkind₁ h₂
  rcases hcut₂ : (builder.acceptAll tokens₁).cut l₂ with ⟨tokens₂, left⟩
  rw [hcut₂] at hjoined
  rw [feed_of_endsOnOperator h₁ hcut₁, acceptAll_begun, feed_begun _ h₂]
  refine agree_of_cut h₂ hcut₂ hjoined ?_
  -- an operator is due only after a term of the second line
  intro hkind
  have hne : tokens₂ ≠ [] := by
    intro hnil
    subst hnil
    rw [acceptAll_nil, expected_acceptAll, hkind₁] at hkind
    cases hkind
  have hlt := length_cut_lt hcut₂ hne
  have hlt' := length_cut_lt hjoined (by simp [hne])
  exact iff_of_false (Nat.ne_of_lt hlt) (Nat.ne_of_lt hlt')

theorem feed_joined_blank {builder : Builder} {l₁ l₂ : Text} (h₁ : Blanks l₁) (h₂ : ¬ Blanks l₂) :
    AgreeButColumns (l₁.length + 1) ((builder.feed l₁).feed l₂) (builder.feed (l₁ ++ ' ' :: l₂)) := by
  have hgap := h₁.append_space
  have htrim := trimRight_space_append l₁ h₂
  rw [feed_of_blank h₁, feed_report]
  refine @agree_of_cut builder l₁ l₂ _ [] _ h₂ rfl ?_ ?_
  · rw [cut, htrim, lex_blanks_append hgap]
    rfl
  · intro _
    rw [htrim, skipBlanks_blanks_append hgap]

/-- **A line break after an operator is a space.** -/
theorem lineBreak_as_space {builder : Builder} {l₁ l₂ : Text} {blanks : List Text}
    (h₁ : EndsOnOperator builder l₁) (hblanks : ∀ line ∈ blanks, Blanks line)
    (h₂ : ¬ Blanks l₂) :
    AgreeButColumns (l₁.length + 1) (((builder.feed l₁).feedAll blanks).feed l₂)
      (builder.feed (l₁ ++ ' ' :: l₂)) := by
  rw [feed_feedAll_blanks _ hblanks]
  exact feed_joined h₁ h₂

/-- The second equal sign of `2 = y` is refused four columns later in `x = 2 = y`. -/
theorem lineBreak_as_space_secondEquals :
    EndsOnOperator {} "x =" ∧ (∀ line ∈ [(" " : Text)], Blanks line) ∧ ¬ Blanks "2 = y" ∧
      (Builder.feed {} ("x =" ++ ' ' :: "2 = y".toList)).draft.status = .multipleEqualSigns ∧
      AgreeButColumns 4 (((Builder.feed {} "x =").feedAll [" "]).feed "2 = y")
        (Builder.feed {} ("x =" ++ ' ' :: "2 = y".toList)) :=
  have h₁ : EndsOnOperator {} "x =" :=
    ⟨by decide +kernel, by decide +kernel, by decide +kernel, by decide +kernel⟩
  have hblanks : ∀ line ∈ [(" " : Text)], Blanks line :=
    List.forall_mem_singleton.mpr (by decide +kernel)
  have h₂ : ¬ Blanks "2 = y" := by decide +kernel
  ⟨h₁, hblanks, h₂, by decide +kernel, lineBreak_as_space h₁ hblanks h₂⟩

/-! ## One line for many -/

/-- Each line is blank or ends on an operator, so that the equation goes on after it. -/
def Continues (builder : Builder) : List Text → Prop
  | [] => True
  | line :: lines =>
    (Blanks line ∨ EndsOnOperator builder line) ∧ Continues (builder.feed line) lines

/-- The lines of an equation are read like the one line they are joined to. -/
theorem feedAll_joined {builder : Builder} {lines : List Text} {last : Text}
    (hlines : Continues builder lines) (hlast : ¬ Blanks last) :
    ∃ shift, AgreeButColumns shift ((builder.feedAll lines).feed last)
      (builder.feed (joined (lines ++ [last]))) := by
  induction lines generalizing builder with
  | nil => exact ⟨0, by simpa [joined, feedAll] using AgreeButColumns.refl (builder.feed last)⟩
  | cons line lines ih =>
    obtain ⟨hline, hrest⟩ := hlines
    obtain ⟨shift, hagree⟩ := ih hrest
    have hmore := not_blanks_joined hlast lines
    rw [List.cons_append, joined_cons line (by simp)]
    rcases hline with hblank | hends
    · exact ⟨_, hagree.trans (feed_joined_blank hblank hmore)⟩
    · exact ⟨_, hagree.trans (feed_joined hends hmore)⟩

theorem Continues.row {builder : Builder} {lines : List Text} (h : Continues builder lines) :
    (builder.feedAll lines).draft.row = builder.draft.row := by
  induction lines generalizing builder with
  | nil => rfl
  | cons line lines ih =>
    obtain ⟨hline, hrest⟩ := h
    have hkept : (builder.feed line).draft.row = builder.draft.row := by
      rcases hline with hblank | hends
      · rw [feed_of_blank hblank]
        rfl
      · obtain ⟨-, tokens, hcut, -⟩ := endsOnOperator_iff.mp hends
        rw [feed_of_endsOnOperator hends hcut]
        simp
    exact (ih hrest).trans hkept

end Builder

end EquationPad
