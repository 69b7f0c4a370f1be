import EquationPad.Proofs.Completion
import EquationPad.Proofs.LineBreaks

/-! The lines of an equation that was read without a failure. Reading leaves a line
without a fault where an operator is due and none stands; the rest of that line is lost
and the equation goes on with the next line. Nothing else is ever lost, and what was read
is an equation when it is written in one line. -/

namespace EquationPad

/-! ## The lines of an equation -/

/-- A line, the tokens that were accepted from it, how they are written there, and what
comes after them. -/
structure Portion where
  line : Text
  tokens : List Token
  read : Text
  lost : Text

namespace Portion

structure CutFrom (kind : TokenKind) (portion : Portion) : Prop where
  whole : trimmed portion.line = portion.read ++ portion.lost
  spells : Spells kind portion.tokens portion.read

def allTokens (portions : List Portion) : List Token := portions.flatMap Portion.tokens

def allRead (portions : List Portion) : Text := joined (portions.map Portion.read)

end Portion

open Portion (allTokens allRead)

/-- The lines of an equation from where a token of the given kind is due. -/
inductive Portions : TokenKind → List Portion → Prop
  | last {kind p} : p.CutFrom kind → EndsOnTerm p.tokens → p.lost = [] → Portions kind [p]
  | operator {kind p rest} : p.CutFrom kind → (∃ o, p.tokens.getLast? = some (.operator o)) →
      p.lost = [] → Portions .term rest → Portions kind (p :: rest)
  /-- An operator is due after the tokens of the line, and none stands there. -/
  | stopped {kind p rest} : p.CutFrom kind → kindAfter kind p.tokens = .operator →
      p.lost ≠ [] → Stops isOperatorChar p.lost → Portions .operator rest →
      Portions kind (p :: rest)

theorem Portions.ne_nil {kind : TokenKind} {portions : List Portion}
    (h : Portions kind portions) : portions ≠ [] := by
  cases h <;> simp

theorem Portions.whole {kind : TokenKind} {portions : List Portion} (h : Portions kind portions) :
    ∀ p ∈ portions, trimmed p.line = p.read ++ p.lost := by
  induction h with
  | last hcut _ _ =>
    intro p hp
    rw [List.mem_singleton.mp hp]
    exact hcut.whole
  | operator hcut _ _ _ ih =>
    intro p hp
    rcases List.mem_cons.mp hp with rfl | hp
    · exact hcut.whole
    · exact ih p hp
  | stopped hcut _ _ _ _ ih =>
    intro p hp
    rcases List.mem_cons.mp hp with rfl | hp
    · exact hcut.whole
    · exact ih p hp

theorem Spells.eq_nil {kind : TokenKind} {text : Text} (h : Spells kind [] text) : text = [] := by
  cases h
  rfl

/-- Tokens may go on after blanks, which belong to the token before. -/
theorem Spells.append {kind : TokenKind} {t₁ t₂ : List Token} {s₁ gap s₂ : Text}
    (h₁ : Spells kind t₁ s₁) (hne : t₁ ≠ []) (hgap : Blanks gap)
    (h₂ : Spells (kindAfter kind t₁) t₂ s₂) : Spells kind (t₁ ++ t₂) (s₁ ++ (gap ++ s₂)) := by
  induction h₁ with
  | nil => exact absurd rfl hne
  | @cons kind token tokens piece rest hkind hpiece hrest ih =>
    subst hkind
    rw [kindAfter] at h₂
    cases tokens with
    | nil =>
      cases hrest
      rw [List.append_nil, ← List.append_assoc]
      exact .cons rfl (hpiece.append_blanks hgap) h₂
    | cons next tokens =>
      rw [List.append_assoc]
      exact .cons rfl hpiece (ih (by simp) h₂)

theorem equalsFit_append {equalSeen : Bool} {t₁ t₂ : List Token} :
    EqualsFit equalSeen (t₁ ++ t₂) ↔
      EqualsFit equalSeen t₁ ∧ EqualsFit (equalSeen || t₁.any Token.isEquals) t₂ := by
  induction t₁ generalizing equalSeen with
  | nil => simp [equalsFit_nil]
  | cons token t₁ ih =>
    rw [List.cons_append, equalsFit_cons, ih, equalsFit_cons, List.any_cons, Bool.or_assoc,
      and_assoc]

theorem allRead_cons (p : Portion) {portions : List Portion} (h : portions ≠ []) :
    allRead (p :: portions) = p.read ++ ' ' :: allRead portions := by
  rw [allRead, List.map_cons, joined_cons p.read (by simpa using h)]
  rfl

theorem allTokens_cons (p : Portion) (portions : List Portion) :
    allTokens (p :: portions) = p.tokens ++ allTokens portions := rfl

theorem Portion.CutFrom.spells_cons {kind : TokenKind} {p : Portion} (hcut : p.CutFrom kind)
    (hne : p.tokens ≠ []) {rest : List Portion} (hrest : rest ≠ []) {gap s : Text}
    (hgap : Blanks gap) (hread : allRead rest = gap ++ s)
    (hs : Spells (kindAfter kind p.tokens) (allTokens rest) s) :
    Spells kind (allTokens (p :: rest)) (allRead (p :: rest)) := by
  rw [allTokens_cons, allRead_cons p hrest, hread]
  exact hcut.spells.append hne hgap.cons_space hs

/-- What was read of an equation is spelled by its tokens. From where an operator is due
the first lines may be lost as a whole, which leaves blanks in front. -/
theorem Portions.spells {kind : TokenKind} {portions : List Portion} (h : Portions kind portions) :
    ∃ gap s, Blanks gap ∧ allRead portions = gap ++ s ∧ Spells kind (allTokens portions) s ∧
      (kind = .term → gap = []) := by
  induction h with
  | @last kind p hcut _ _ =>
    refine ⟨[], p.read, blanks_nil, ?_, ?_, fun _ => rfl⟩
    · simp [allRead, joined]
    · simpa [allTokens] using hcut.spells
  | @operator kind p rest hcut hop _ hrest ih =>
    obtain ⟨gap, s, hgap, hread, hs, -⟩ := ih
    obtain ⟨hne, hkind⟩ := (lastOperator_iff kind p.tokens).mp hop
    exact ⟨[], _, blanks_nil, rfl,
      hcut.spells_cons hne hrest.ne_nil hgap hread (hkind ▸ hs), fun _ => rfl⟩
  | @stopped kind p rest hcut hkind _ _ hrest ih =>
    obtain ⟨gap, s, hgap, hread, hs, -⟩ := ih
    by_cases hne : p.tokens = []
    · have hempty : p.read = [] := Spells.eq_nil (hne ▸ hcut.spells)
      rw [hne, kindAfter] at hkind
      refine ⟨' ' :: gap, s, hgap.cons_space, ?_, ?_, ?_⟩
      · rw [allRead_cons p hrest.ne_nil, hempty, hread]
        rfl
      · rw [allTokens_cons, hne, hkind]
        exact hs
      · intro hterm
        rw [hterm] at hkind
        cases hkind
    · exact ⟨[], _, blanks_nil, rfl,
        hcut.spells_cons hne hrest.ne_nil hgap hread (hkind ▸ hs), fun _ => rfl⟩

theorem EndsOnTerm.append {tokens : List Token} (h : EndsOnTerm tokens) (front : List Token) :
    EndsOnTerm (front ++ tokens) := by
  obtain ⟨t, ht⟩ := h
  exact ⟨t, by rw [List.getLast?_append, ht]; rfl⟩

theorem Portions.endsOnTerm {kind : TokenKind} {portions : List Portion}
    (h : Portions kind portions) : EndsOnTerm (allTokens portions) := by
  induction h with
  | last _ hends _ => simpa [allTokens] using hends
  | operator _ _ _ _ ih => exact ih.append _
  | stopped _ _ _ _ _ ih => exact ih.append _

/-! ## What a line does -/

namespace Builder

/-- What a line that is not blank does if it is not a failure. -/
inductive Outcome (builder : Builder) (p : Portion) : Builder → Prop
  | completes {text} : p.lost = [] → EndsOnTerm p.tokens →
      Outcome builder p ((builder.acceptAll p.tokens).begun text).complete
  | goesOn {text} : p.lost = [] → (∃ o, p.tokens.getLast? = some (.operator o)) →
      Outcome builder p ((builder.acceptAll p.tokens).begun text)
  | stops {text} : p.lost ≠ [] → kindAfter builder.draft.expected p.tokens = .operator →
      Stops isOperatorChar p.lost →
      Outcome builder p ((builder.acceptAll p.tokens).begun text).dropSign

theorem outcome_of_success {builder : Builder} {line : Text} (hline : ¬ Blanks line)
    (h : (builder.feed line).draft.status.isSuccess = true) :
    ∃ p : Portion, p.line = line ∧ p.CutFrom builder.draft.expected ∧
      EqualsFit builder.draft.equalSeen p.tokens ∧ Outcome builder p (builder.feed line) := by
  rcases hcut : builder.cut line with ⟨tokens, left⟩
  obtain ⟨s, hs, hwhole⟩ :=
    spells_lex builder.draft.expected builder.draft.equalSeen (trimRight line)
  have hfit := equalsFit_lex builder.draft.expected builder.draft.equalSeen (trimRight line)
  rw [← cut, hcut] at hs hwhole hfit
  refine ⟨⟨line, tokens, s, left⟩, rfl, ⟨hwhole, hs⟩, hfit, ?_⟩
  by_cases hleft : left = []
  · subst hleft
    have hne := ne_nil_of_cut hline hcut
    rw [feed_of_whole hline hcut, acceptAll_begun]
    cases hkind : kindAfter builder.draft.expected tokens with
    | operator =>
      rw [if_pos rfl]
      exact .completes rfl ((endsOnTerm_iff builder.draft.expected tokens).mpr ⟨hne, hkind⟩)
    | term =>
      rw [if_neg TokenKind.noConfusion]
      exact .goesOn rfl ((lastOperator_iff builder.draft.expected tokens).mpr ⟨hne, hkind⟩)
  · obtain ⟨step, hrefusal, hfeed⟩ := feed_of_refused hcut hleft
    rw [hfeed] at h ⊢
    rw [acceptAll_begun] at hrefusal
    cases hrefusal with
    | @term fault rest _ hfault =>
      have hfailed := isSuccess_of_mem_tokenFaults (Term.fault_mem_of_scan hfault)
      change fault.isSuccess = true at h
      rw [hfailed] at h
      cases h
    | noOperator hkind hnone =>
      refine .stops hleft ?_ (Operator.stops_of_scan?_eq_none hnone)
      rwa [expected_begun, expected_acceptAll] at hkind
    | secondEquals _ _ _ =>
      change Status.isSuccess (if _ then _ else _) = true at h
      split at h <;> cases h

end Builder

end EquationPad
