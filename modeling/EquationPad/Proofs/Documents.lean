import EquationPad.Workspace
import EquationPad.Proofs.Meaning
import EquationPad.Proofs.Portions

/-! What a document that was read successfully consists of. Its lines that are not blank
make up its equations, one after the other, and each row stands for what was read of its
equation. Text is lost only where a line was left in the middle. -/

namespace EquationPad

open Portion (allTokens allRead)

/-! ## The equations of a document -/

/-- The lines of one equation, and what they add to the system. -/
structure EquationLines (row : Nat) (before after : LinearSystem) (ps : List Portion) : Prop where
  portions : Portions .term ps
  reads : Reads .term false (allTokens ps) (allRead ps)
  represents : Represents row before after (allTokens ps)

inductive Equations : Nat → LinearSystem → List (List Portion) → LinearSystem → Prop
  | nil {row system} : Equations row system [] system
  | cons {row before between after ps blocks} : EquationLines row before between ps →
      Equations (row + 1) between blocks after → Equations row before (ps :: blocks) after

/-- The lines are the equations of the rows that follow, up to the last one. -/
def Follows (row : Nat) (system : LinearSystem) (lines : List Text) (final : Builder) : Prop :=
  ∃ blocks, Equations row system blocks final.system ∧
    lines = blocks.flatten.map Portion.line ∧ final.count = (row + blocks.length : Nat)

def written (lines : List Text) : List Text := lines.filter fun line => ¬ Blanks line

/-- Lines that are not blank are equations, and no text of them is left out. -/
def KeepsText (lines : List Text) (count : Int) : Prop :=
  ∃ blocks : List (List Text), written lines = blocks.flatten ∧ count = blocks.length ∧
    ∀ block ∈ blocks, ∃ tokens, Reads .term false tokens (joined (block.map trimmed))

theorem Equations.of_mem {row : Nat} {before after : LinearSystem} {blocks : List (List Portion)}
    (h : Equations row before blocks after) {ps : List Portion} (hps : ps ∈ blocks) :
    ∃ row before after, EquationLines row before after ps := by
  induction h with
  | nil => cases hps
  | cons hequation _ ih =>
    rcases List.mem_cons.mp hps with rfl | hps
    · exact ⟨_, _, _, hequation⟩
    · exact ih hps

/-- Text is lost only from lines that were left in the middle. -/
theorem Equations.keepsText {row : Nat} {before after : LinearSystem}
    {blocks : List (List Portion)} (h : Equations row before blocks after) {lines : List Text}
    (hlines : written lines = blocks.flatten.map Portion.line)
    (hlost : ∀ p ∈ blocks.flatten, p.lost = []) : KeepsText lines blocks.length := by
  refine ⟨blocks.map (·.map Portion.line), by rw [hlines, List.map_flatten], by simp, ?_⟩
  intro block hblock
  obtain ⟨ps, hps, rfl⟩ := List.mem_map.mp hblock
  obtain ⟨row, before, after, hequation⟩ := h.of_mem hps
  have hread : ps.map Portion.read = (ps.map Portion.line).map trimmed := by
    rw [List.map_map]
    refine List.map_congr_left ?_
    intro p hp
    have hwhole := hequation.portions.whole p hp
    rw [hlost p (List.mem_flatten.mpr ⟨ps, hps, hp⟩), List.append_nil] at hwhole
    exact hwhole.symm
  exact ⟨allTokens ps, by rw [← hread]; exact hequation.reads⟩

namespace Builder

/-- The lines up to the end of the equation, and the system after them. -/
structure Rest (builder : Builder) (ps : List Portion) (after : LinearSystem) : Prop where
  portions : Portions builder.draft.expected ps
  equalsFit : EqualsFit builder.draft.equalSeen (allTokens ps)
  system : after = (builder.acceptAll (allTokens ps)).system

/-- The same where an equation is to be ended first. -/
def FollowsRest (builder : Builder) (lines : List Text) (final : Builder) : Prop :=
  ∃ ps between more, lines = ps.map Portion.line ++ more ∧ Rest builder ps between ∧
    Follows (builder.draft.row + 1) between more final

variable {builder final : Builder} {lines : List Text}

theorem Rest.of_begun {ps : List Portion} {after : LinearSystem} {text : Text}
    (h : Rest (builder.begun text) ps after) : Rest builder ps after where
  portions := h.portions
  equalsFit := h.equalsFit
  system := by
    rw [h.system, acceptAll_begun]
    rfl

theorem Rest.of_report {ps : List Portion} {after : LinearSystem} {status : Status}
    {position : Int} (h : Rest (builder.report status position) ps after) :
    Rest builder ps after where
  portions := h.portions
  equalsFit := h.equalsFit
  system := by
    rw [h.system, system_acceptAll, system_acceptAll]
    rfl

/-- A pending sign is dropped by the operator that is due in any case. -/
theorem Rest.of_dropSign {ps : List Portion} {after : LinearSystem}
    (h : Rest builder.dropSign ps after) (hkind : builder.draft.expected = .operator) :
    Rest builder ps after where
  portions := h.portions
  equalsFit := h.equalsFit
  system := by
    obtain ⟨_, s, -, -, hspells, -⟩ := h.portions.spells
    change Spells builder.draft.expected _ s at hspells
    rw [hkind] at hspells
    rw [h.system, system_acceptAll, system_acceptAll]
    show List.foldl _ builder.system (contributionsFrom builder.draft.equalSeen false _) = _
    rw [hspells.contributionsFrom_eq _ false builder.draft.negative]
    rfl

theorem Rest.cons {p : Portion} {ps : List Portion} {after : LinearSystem}
    (h : Rest (builder.acceptAll p.tokens) ps after)
    (hfit : EqualsFit builder.draft.equalSeen p.tokens)
    (hportions : Portions builder.draft.expected (p :: ps)) : Rest builder (p :: ps) after where
  portions := hportions
  equalsFit := by
    rw [allTokens_cons, equalsFit_append]
    exact ⟨hfit, by simpa using h.equalsFit⟩
  system := by rw [allTokens_cons, acceptAll_append, h.system]

/-- Where no equation is open, what ends the equation is all of it. -/
theorem FollowsRest.follows (h : FollowsRest builder lines final) (htidy : Tidy builder)
    (hclosed : builder.draft.isOpen = false) :
    Follows builder.draft.row builder.system lines final := by
  obtain ⟨ps, between, more, rfl, hrest, blocks, hblocks, rfl, hcount⟩ := h
  have hempty := isBegun_of_isOpen hclosed
  have hportions : Portions .term ps := htidy.expected hempty ▸ hrest.portions
  obtain ⟨gap, s, -, hread, hspells, hgap⟩ := hportions.spells
  rw [hgap rfl, List.nil_append] at hread
  have hequation : EquationLines builder.draft.row builder.system between ps := by
    refine ⟨hportions, ⟨hread ▸ hspells, hportions.endsOnTerm, ?_⟩, ?_⟩
    · exact htidy.equalSeen hempty ▸ hrest.equalsFit
    · rw [hrest.system, htidy.system_acceptAll hclosed]
      exact represents_contributions (htidy.empty hempty) hspells
  refine ⟨ps :: blocks, .cons hequation hblocks, by simp, ?_⟩
  rw [hcount, List.length_cons]
  omega

/-- A line that is no failure goes before the lines that are read after it. -/
theorem FollowsRest.of_outcome {p : Portion} {next : Builder}
    (hcut : p.CutFrom builder.draft.expected) (hfit : EqualsFit builder.draft.equalSeen p.tokens)
    (hnext : Outcome builder p next) (htidy : Tidy builder)
    (hclosed : next.draft.isOpen = false → Follows next.draft.row next.system lines final)
    (hopen : next.draft.isOpen = true → FollowsRest next lines final) :
    FollowsRest builder (p.line :: lines) final := by
  cases hnext with
  | completes hlost hends =>
    have hfollows := hclosed rfl
    refine ⟨[p], _, lines, rfl, ?_, by simpa [complete, Draft.next_eq] using hfollows⟩
    refine ⟨.last hcut hends hlost, by simpa [allTokens] using hfit, ?_⟩
    simp only [allTokens, List.flatMap_singleton]
    rfl
  | goesOn hlost hop =>
    obtain ⟨hne, hkind⟩ := (lastOperator_iff builder.draft.expected p.tokens).mp hop
    have hbegun := htidy.isBegun_acceptAll hcut.spells hne
    obtain ⟨ps, between, more, rfl, hrest, hfollows⟩ := hopen (isOpen_of_isBegun hbegun)
    have hrest := hrest.of_begun
    refine ⟨p :: ps, between, more, rfl, hrest.cons hfit ?_, by simpa using hfollows⟩
    refine .operator hcut hop hlost ?_
    have hportions := hrest.portions
    rwa [expected_acceptAll, hkind] at hportions
  | stops hlost hkind hstops =>
    have hexpected : (builder.acceptAll p.tokens).draft.expected = .operator := by
      rw [expected_acceptAll, hkind]
    have hpending : (builder.acceptAll p.tokens).draft.isOpen = true := by
      simp [Draft.isOpen, hexpected]
    obtain ⟨ps, between, more, rfl, hrest, hfollows⟩ := hopen hpending
    have hrest := (hrest.of_dropSign hexpected).of_begun
    refine ⟨p :: ps, between, more, rfl, hrest.cons hfit ?_, by simpa [dropSign] using hfollows⟩
    refine .stopped hcut hkind hlost hstops ?_
    have hportions := hrest.portions
    rwa [hexpected] at hportions

/-! ## Reading all lines -/

/-- No line is a failure. -/
def Succeeds (builder : Builder) : List Text → Prop
  | [] => True
  | line :: lines =>
    (builder.feed line).draft.status.isSuccess = true ∧ Succeeds (builder.feed line) lines

/-- Lines without failure that leave no equation open are the equations that follow,
behind the lines that end an equation if one is open before. -/
theorem follows_of_succeeds (htidy : Tidy builder) (hcount : builder.count = builder.draft.row)
    (h : Succeeds builder lines) (hend : (builder.feedAll lines).draft.isOpen = false) :
    (builder.draft.isOpen = false →
      Follows builder.draft.row builder.system (written lines) (builder.feedAll lines)) ∧
    (builder.draft.isOpen = true →
      FollowsRest builder (written lines) (builder.feedAll lines)) := by
  induction lines generalizing builder with
  | nil =>
    refine ⟨fun _ => ⟨[], .nil, rfl, by simpa [feedAll] using hcount⟩, ?_⟩
    intro hopen
    rw [show builder.feedAll [] = builder from rfl, hopen] at hend
    cases hend
  | cons line lines ih =>
    obtain ⟨hline, hrest⟩ := h
    obtain ⟨hclosed, hopen⟩ := ih (htidy.feed line) (kept_count.feed hcount line) hrest hend
    by_cases hblank : Blanks line
    · have hwritten : written (line :: lines) = written lines := by simp [written, hblank]
      have hfinal : builder.feedAll (line :: lines) =
          (builder.report .blankLine 0).feedAll lines := by
        rw [← feed_of_blank hblank]
        rfl
      rw [feed_of_blank hblank] at hclosed hopen
      rw [hwritten, hfinal]
      refine ⟨hclosed, fun h => ?_⟩
      obtain ⟨ps, between, more, hlines, hrest, hfollows⟩ := hopen h
      exact ⟨ps, between, more, hlines, hrest.of_report, hfollows⟩
    · have hwritten : written (line :: lines) = line :: written lines := by simp [written, hblank]
      obtain ⟨p, rfl, hcut, hfit, hnext⟩ := outcome_of_success hblank hline
      have hfollows := FollowsRest.of_outcome hcut hfit hnext htidy hclosed hopen
      rw [hwritten]
      exact ⟨fun h => hfollows.follows htidy h, fun _ => hfollows⟩

end Builder

namespace Workspace

theorem feedLine_status (ws : Workspace) (line : Text) :
    (ws.feedLine line).status = (ws.builder.feed line).draft.status := by
  unfold feedLine
  dsimp only
  split <;> rfl

theorem feedLine_builder (ws : Workspace) (line : Text) :
    (ws.feedLine line).workspace.builder = ws.builder.feed line := by
  unfold feedLine
  dsimp only
  split <;> rfl

/-- Reading succeeds if the first line does and the others do after it. -/
theorem feedLines_cons_success {ws : Workspace} {line : Text} {lines : List Text}
    (h : (ws.feedLines (line :: lines)).status = .success) :
    (ws.feedLine line).status.isSuccess = true ∧
      ((ws.feedLine line).workspace.feedLines lines).status = .success ∧
      (ws.feedLines (line :: lines)).workspace =
        ((ws.feedLine line).workspace.feedLines lines).workspace := by
  rw [feedLines] at h ⊢
  dsimp only at h ⊢
  by_cases hline : (ws.feedLine line).status.isSuccess = true
  · rw [if_pos hline] at h ⊢
    exact ⟨hline, h, rfl⟩
  · rw [if_neg hline] at h
    rw [h] at hline
    exact absurd rfl hline

theorem succeeds_of_feedLines {ws : Workspace} {lines : List Text}
    (h : (ws.feedLines lines).status = .success) :
    ws.builder.Succeeds lines ∧
      (ws.feedLines lines).workspace.builder = ws.builder.feedAll lines := by
  induction lines generalizing ws with
  | nil => exact ⟨trivial, rfl⟩
  | cons line lines ih =>
    obtain ⟨hline, hmore, hworkspace⟩ := feedLines_cons_success h
    obtain ⟨hrest, hbuilder⟩ := ih hmore
    rw [feedLine_builder] at hrest hbuilder
    rw [feedLine_status] at hline
    rw [hworkspace]
    exact ⟨⟨hline, hrest⟩, hbuilder⟩

theorem closed_of_finish {ws : Workspace} {lastLine : Text}
    (h : (ws.finish lastLine).status = .success) :
    ws.builder.draft.isOpen = false ∧
      (ws.finish lastLine).workspace.builder = ws.builder := by
  unfold finish at h ⊢
  dsimp only at h ⊢
  cases hopen : ws.builder.draft.isOpen with
  | true =>
    rw [hopen, if_pos rfl] at h
    dsimp only at h
    split at h
    · cases h
    · rename_i hfailed
      rw [h] at hfailed
      exact absurd rfl hfailed
  | false =>
    rw [if_neg Bool.false_ne_true]
    exact ⟨rfl, rfl⟩

theorem feedAll_of_readDocument {ws : Workspace} {lines : List Text}
    (h : (ws.readDocument lines).status = .success) :
    Builder.Succeeds {} lines ∧ (Builder.feedAll {} lines).draft.isOpen = false ∧
      (ws.readDocument lines).workspace.builder = Builder.feedAll {} lines := by
  rw [readDocument, Reply.andThen] at h ⊢
  by_cases hread : (ws.startOver.feedLines lines).status = .success
  · obtain ⟨hsucceeds, hbuilder⟩ := succeeds_of_feedLines hread
    rw [if_pos hread] at h ⊢
    obtain ⟨hclosed, hkept⟩ := closed_of_finish h
    rw [hbuilder] at hclosed hkept
    exact ⟨hsucceeds, hclosed, hkept⟩
  · rw [if_neg hread] at h
    exact absurd h hread

/-- **A document that is read successfully is its equations.** The lines that are not
blank are cut into as many blocks as equations are counted, what was read of a block is
one equation, and its row stands for that equation. A line is read as a whole or left
where an operator is due and none stands; if no line is left, no text is lost. -/
theorem equations_of_readDocument {ws : Workspace} {lines : List Text}
    (h : (ws.readDocument lines).status = .success) :
    ∃ blocks : List (List Portion), written lines = blocks.flatten.map Portion.line ∧
      (ws.readDocument lines).workspace.builder.count = blocks.length ∧
      Equations 0 {} blocks (ws.readDocument lines).workspace.builder.system ∧
      ((∀ p ∈ blocks.flatten, p.lost = []) →
        KeepsText lines (ws.readDocument lines).workspace.builder.count) := by
  obtain ⟨hsucceeds, hclosed, hbuilder⟩ := feedAll_of_readDocument h
  obtain ⟨blocks, hequations, hlines, hcount⟩ :=
    (Builder.follows_of_succeeds (Builder.tidy_start 0) rfl hsucceeds hclosed).1 rfl
  rw [hbuilder]
  have hcount : (Builder.feedAll {} lines).count = blocks.length := by simpa using hcount
  refine ⟨blocks, hlines, hcount, hequations, fun hlost => ?_⟩
  rw [hcount]
  exact hequations.keepsText hlines hlost

theorem equations_of_readDocument_twoEquations :
    (readDocument {} ["x - y =", "", "2", "-3 y =-x"]).status = .success ∧
      ∃ blocks : List (List Portion),
        written ["x - y =", "", "2", "-3 y =-x"] = blocks.flatten.map Portion.line ∧
        (readDocument {} ["x - y =", "", "2", "-3 y =-x"]).workspace.builder.count =
          blocks.length ∧
        Equations 0 {} blocks
          (readDocument {} ["x - y =", "", "2", "-3 y =-x"]).workspace.builder.system ∧
        ((∀ p ∈ blocks.flatten, p.lost = []) → KeepsText ["x - y =", "", "2", "-3 y =-x"]
          (readDocument {} ["x - y =", "", "2", "-3 y =-x"]).workspace.builder.count) := by
  have h : (readDocument {} ["x - y =", "", "2", "-3 y =-x"]).status = .success := by
    decide +kernel
  exact ⟨h, equations_of_readDocument h⟩

/-- The second of two terms side by side is lost, and so is the rest of its line. -/
theorem adjacentTerms_lose_text :
    (readDocument {} ["x y", "= 1"]).status = .success ∧
      ¬ KeepsText ["x y", "= 1"] (readDocument {} ["x y", "= 1"]).workspace.builder.count := by
  refine ⟨by decide +kernel, ?_⟩
  intro hkeeps
  obtain ⟨blocks, hlines, hcount, hreads⟩ := hkeeps
  have hone : (readDocument {} ["x y", "= 1"]).workspace.builder.count = 1 := by decide +kernel
  rw [hone] at hcount
  obtain ⟨block, rfl⟩ := List.length_eq_one_iff.mp (by omega : blocks.length = 1)
  obtain ⟨tokens, h⟩ := hreads block (by simp)
  have hblock : block = ["x y".toList, "= 1".toList] := by
    rw [List.flatten_singleton] at hlines
    rw [← hlines]
    decide +kernel
  obtain ⟨tokens', hlex, -⟩ := lex_of_spells h.spells h.equalsFit
  have hleft : (lex .term false (joined (block.map trimmed))).2 ≠ [] := by
    rw [hblock]
    decide +kernel
  rw [hlex] at hleft
  exact hleft rfl

end Workspace

end EquationPad
