import EquationPad.Proofs.LineBreaks

/-! What reading lines keeps. A line is read in steps of a few kinds, so a relation
between two builders that every step keeps is kept by whole lines, and a property of one
builder is the case of a builder beside itself. The builders must expect the same kind of
token and agree about the equal sign, for then they cut every line alike; what else the
relation says is left open. -/

namespace EquationPad.Builder

/-- Two builders that read the same line side by side. -/
structure Simulation (R : Builder → Builder → Prop) : Prop where
  expected {b b'} : R b b' → b'.draft.expected = b.draft.expected
  equalSeen {b b'} : R b b' → b'.draft.equalSeen = b.draft.equalSeen
  report {b b'} (status : Status) (position : Int) : R b b' →
    R (b.report status position) (b'.report status position)
  begun {b b'} (text : Text) : R b b' → R (b.begun text) (b'.begun text)
  accept {b b'} {token : Token} : R b b' → token.kind = b.draft.expected →
    R (b.accept token) (b'.accept token)
  dropSign {b b'} : R b b' → b.draft.expected = .operator → R b.dropSign b'.dropSign
  complete {b b'} : R b b' → b.draft.expected = .operator → R b.complete b'.complete

namespace Simulation

variable {R : Builder → Builder → Prop} {b b' : Builder}

theorem acceptAll (h : Simulation R) (hR : R b b') {tokens : List Token} {text : Text}
    (hspells : Spells b.draft.expected tokens text) :
    R (b.acceptAll tokens) (b'.acceptAll tokens) := by
  induction tokens generalizing b b' text with
  | nil => exact hR
  | cons token tokens ih =>
    cases hspells with
    | @cons _ _ _ _ rest hkind _ hrest =>
      have hnext : Spells (b.accept token).draft.expected tokens rest := by
        rw [expected_accept, hkind]
        exact hrest
      exact ih (h.accept hR hkind) hnext

/-- What one builder refuses the other refuses for the same reason. -/
theorem refusal (h : Simulation R) (hR : R b b') {text : Text} {cursor : Cursor} {step step' : Step}
    (h₁ : Refusal (b.begun text) cursor step) (h₂ : Refusal (b'.begun text) cursor step') :
    R step.builder step'.builder := by
  have hbegun := h.begun text hR
  have hkinds := h.expected hbegun
  cases h₁ with
  | term hkind hfault =>
    cases h₂ with
    | term _ hfault' =>
      rw [hfault] at hfault'
      cases hfault'
      exact h.report _ _ hbegun
    | noOperator hkind' _ => rw [hkinds, hkind] at hkind'; cases hkind'
    | secondEquals hkind' _ _ => rw [hkinds, hkind] at hkind'; cases hkind'
  | noOperator hkind hnone =>
    cases h₂ with
    | term hkind' _ => rw [hkinds, hkind] at hkind'; cases hkind'
    | noOperator _ _ => exact h.dropSign hbegun hkind
    | secondEquals _ hsome _ => rw [hnone] at hsome; cases hsome
  | secondEquals hkind hsome _ =>
    cases h₂ with
    | term hkind' _ => rw [hkinds, hkind] at hkind'; cases hkind'
    | noOperator _ hnone => rw [hnone] at hsome; cases hsome
    | secondEquals _ _ _ =>
      rw [start_begun, start_begun]
      exact h.report _ _ (h.dropSign hbegun hkind)

theorem cut_eq (h : Simulation R) (hR : R b b') (line : Text) : b'.cut line = b.cut line := by
  rw [cut, cut, h.expected hR, h.equalSeen hR]

/-- **Lines keep what their steps keep.** -/
theorem feed (h : Simulation R) (hR : R b b') (line : Text) : R (b.feed line) (b'.feed line) := by
  by_cases hline : Blanks line
  · rw [feed_of_blank hline, feed_of_blank hline]
    exact h.report _ _ hR
  rcases hcut : b.cut line with ⟨tokens, left⟩
  have hcut' : b'.cut line = (tokens, left) := (h.cut_eq hR line).trans hcut
  have hread : R (b.acceptAll tokens) (b'.acceptAll tokens) := by
    obtain ⟨s, hs, -⟩ := spells_lex b.draft.expected b.draft.equalSeen (trimRight line)
    rw [← cut, hcut] at hs
    exact h.acceptAll hR hs
  by_cases hleft : left = []
  · subst hleft
    have hkinds := h.expected hR
    rw [feed_of_whole hline hcut, feed_of_whole hline hcut', acceptAll_begun, acceptAll_begun,
      hkinds]
    have hbegun := h.begun (trimRight line) hread
    split
    · rename_i hkind
      refine h.complete hbegun ?_
      rwa [expected_begun, expected_acceptAll]
    · exact hbegun
  · obtain ⟨step, hrefusal, hfeed⟩ := feed_of_refused hcut hleft
    obtain ⟨step', hrefusal', hfeed'⟩ := feed_of_refused hcut' hleft
    rw [acceptAll_begun] at hrefusal hrefusal'
    rw [hfeed, hfeed']
    exact h.refusal hread hrefusal hrefusal'

end Simulation

/-! ## One builder -/

/-- A property that every step of reading keeps. -/
structure Kept (P : Builder → Prop) : Prop where
  report {b} (status : Status) (position : Int) : P b → P (b.report status position)
  begun {b} (text : Text) : P b → P (b.begun text)
  accept {b} {token : Token} : P b → token.kind = b.draft.expected → P (b.accept token)
  dropSign {b} : P b → b.draft.expected = .operator → P b.dropSign
  complete {b} : P b → b.draft.expected = .operator → P b.complete

namespace Kept

variable {P : Builder → Prop} {builder : Builder}

theorem simulation (h : Kept P) : Simulation fun b b' => b' = b ∧ P b where
  expected hR := by rw [hR.1]
  equalSeen hR := by rw [hR.1]
  report status position hR := ⟨by rw [hR.1], h.report status position hR.2⟩
  begun text hR := ⟨by rw [hR.1], h.begun text hR.2⟩
  accept hR hkind := ⟨by rw [hR.1], h.accept hR.2 hkind⟩
  dropSign hR hkind := ⟨by rw [hR.1], h.dropSign hR.2 hkind⟩
  complete hR hkind := ⟨by rw [hR.1], h.complete hR.2 hkind⟩

theorem feed (h : Kept P) (hP : P builder) (line : Text) : P (builder.feed line) :=
  (h.simulation.feed ⟨rfl, hP⟩ line).2

theorem feedAll (h : Kept P) (hP : P builder) (lines : List Text) : P (builder.feedAll lines) := by
  induction lines generalizing builder with
  | nil => exact hP
  | cons line lines ih => exact ih (h.feed hP line)

end Kept

end EquationPad.Builder
