import EquationPad.Proofs.Lexing

/-! Reading a line is accepting the tokens it is cut into, one after the other, and
then either being at the end of the line or trying the token that is refused. What
the tokens do is a matter of the builder, where they are is a matter of the line, and
neither depends on the other. -/

namespace EquationPad

namespace Cursor

theorem moveTo_self (cursor : Cursor) : cursor.moveTo cursor.rest = cursor := by
  simp [moveTo]

theorem moveTo_moveTo (cursor : Cursor) {r₁ r₂ : Text} (h₁ : r₁.length ≤ cursor.rest.length)
    (h₂ : r₂.length ≤ r₁.length) : (cursor.moveTo r₁).moveTo r₂ = cursor.moveTo r₂ := by
  simp only [moveTo, Cursor.mk.injEq, and_true]
  omega

theorem skipBlanks_of_stops {cursor : Cursor} (h : Stops isBlank cursor.rest) :
    cursor.skipBlanks = cursor := by
  rw [skipBlanks, skipBlanks_eq_self h, moveTo_self]

end Cursor

theorem length_lex_le (kind : TokenKind) (equalSeen : Bool) (text : Text) :
    (lex kind equalSeen text).2.length ≤ (skipBlanks text).length := by
  obtain ⟨s, -, h⟩ := spells_lex kind equalSeen text
  rw [h, List.length_append]
  omega

theorem length_lex_lt {kind : TokenKind} {equalSeen : Bool} {text : Text}
    (h : (lex kind equalSeen text).1 ≠ []) :
    (lex kind equalSeen text).2.length < (skipBlanks text).length := by
  cases hnext : nextToken? kind equalSeen (skipBlanks text) with
  | none => exact absurd (by rw [lex_of_none hnext]) h
  | some found =>
    obtain ⟨token, rest⟩ := found
    rw [lex_of_some hnext]
    exact Nat.lt_of_le_of_lt (length_lex_le _ _ rest)
      (Nat.lt_of_le_of_lt (length_skipBlanks_le rest) (length_nextToken?_lt hnext))

namespace Builder

/-! ## Accepted tokens -/

def accept (builder : Builder) : Token → Builder
  | .term t => (builder.addTerm t).expect .operator
  | .operator o => (builder.addOperator o).expect .term

def acceptAll (builder : Builder) (tokens : List Token) : Builder := tokens.foldl accept builder

variable (builder : Builder) (token : Token) (tokens : List Token)

@[simp] theorem acceptAll_nil : builder.acceptAll [] = builder := rfl

@[simp] theorem acceptAll_cons :
    builder.acceptAll (token :: tokens) = (builder.accept token).acceptAll tokens := rfl

@[simp] theorem expected_accept : (builder.accept token).draft.expected = token.kind.other := by
  cases token <;> rfl

@[simp] theorem equalSeen_accept :
    (builder.accept token).draft.equalSeen = (builder.draft.equalSeen || token.isEquals) := by
  cases token <;> simp [accept, addTerm, addOperator, expect, Token.isEquals]

@[simp] theorem row_accept : (builder.accept token).draft.row = builder.draft.row := by
  cases token <;> rfl

@[simp] theorem status_accept : (builder.accept token).draft.status = builder.draft.status := by
  cases token <;> rfl

@[simp] theorem count_accept : (builder.accept token).count = builder.count := by
  cases token <;> rfl

@[simp] theorem equalSeen_acceptAll : (builder.acceptAll tokens).draft.equalSeen =
    (builder.draft.equalSeen || tokens.any Token.isEquals) := by
  induction tokens generalizing builder with
  | nil => simp
  | cons token tokens ih => rw [acceptAll_cons, ih, equalSeen_accept, List.any_cons, Bool.or_assoc]

theorem expected_acceptAll :
    (builder.acceptAll tokens).draft.expected = kindAfter builder.draft.expected tokens := by
  induction tokens generalizing builder with
  | nil => rfl
  | cons token tokens ih => rw [acceptAll_cons, ih, expected_accept, kindAfter]

@[simp] theorem row_acceptAll : (builder.acceptAll tokens).draft.row = builder.draft.row := by
  induction tokens generalizing builder with
  | nil => rfl
  | cons token tokens ih => rw [acceptAll_cons, ih, row_accept]

@[simp] theorem status_acceptAll :
    (builder.acceptAll tokens).draft.status = builder.draft.status := by
  induction tokens generalizing builder with
  | nil => rfl
  | cons token tokens ih => rw [acceptAll_cons, ih, status_accept]

@[simp] theorem count_acceptAll : (builder.acceptAll tokens).count = builder.count := by
  induction tokens generalizing builder with
  | nil => rfl
  | cons token tokens ih => rw [acceptAll_cons, ih, count_accept]

theorem acceptAll_append (more : List Token) :
    builder.acceptAll (tokens ++ more) = (builder.acceptAll tokens).acceptAll more :=
  List.foldl_append ..

/-! ## One token of a line -/

variable {builder token}

theorem take_of_some {cursor : Cursor} {rest : Text}
    (h : nextToken? builder.draft.expected builder.draft.equalSeen cursor.rest =
      some (token, rest)) (hblank : Stops isBlank cursor.rest) :
    builder.take cursor = ⟨true, builder.accept token, cursor.moveTo rest⟩ := by
  unfold take
  cases hkind : builder.draft.expected with
  | term =>
    rw [hkind] at h
    obtain ⟨t, ht, rfl⟩ := nextToken?_term_eq_some_iff.mp h
    simp [takeTerm, ht, accept]
  | operator =>
    rw [hkind] at h
    obtain ⟨o, ho, rfl, hfirst⟩ := nextToken?_operator_eq_some_iff.mp h
    simp only [takeOperator, Cursor.skipBlanks_of_stops hblank, ho, hfirst]
    rfl

/-- A term is never refused without a fault of its own. -/
theorem blameTerm_takeTerm {cursor : Cursor} (h : (builder.takeTerm cursor).accepted = false) :
    blameTerm (builder.takeTerm cursor) = builder.takeTerm cursor := by
  cases hscan : (Term.scan cursor.rest).1 with
  | ok t =>
    rw [takeTerm] at h
    simp [hscan] at h
  | error fault =>
    have hfault : fault ≠ .success := by
      intro hsuccess
      have hfailed := isSuccess_of_mem_tokenFaults (Term.fault_mem_of_scan (Prod.ext hscan rfl))
      rw [hsuccess] at hfailed
      cases hfailed
    simp [takeTerm, hscan, blameTerm, report, Draft.report, hfault]

/-- The ways in which a token is refused, where nothing was wrong before it. -/
inductive Refusal (builder : Builder) (cursor : Cursor) : Step → Prop
  | term {fault left} : builder.draft.expected = .term →
      Term.scan cursor.rest = (.error fault, left) →
      Refusal builder cursor
        ⟨false, builder.report fault (cursor.moveTo left).position, cursor.moveTo left⟩
  | noOperator : builder.draft.expected = .operator → Operator.scan? cursor.rest = none →
      Refusal builder cursor ⟨false, builder.dropSign, cursor⟩
  /-- The line before did not end its equation if the line starts like this. -/
  | secondEquals {o left} : builder.draft.expected = .operator →
      Operator.scan? cursor.rest = some (o, left) → (o.isEquals && builder.draft.equalSeen) = true →
      Refusal builder cursor
        ⟨false, builder.dropSign.report
          (if cursor.position = builder.draft.start then .illegalEquation else .multipleEqualSigns)
          cursor.position, cursor⟩

theorem refusal_take {cursor : Cursor}
    (h : nextToken? builder.draft.expected builder.draft.equalSeen cursor.rest = none)
    (hblank : Stops isBlank cursor.rest) (hstatus : builder.draft.status = .success) :
    Refusal builder cursor (builder.take cursor) := by
  cases hkind : builder.draft.expected with
  | term =>
    rw [hkind] at h
    unfold nextToken? at h
    dsimp only at h
    split at h
    · cases h
    · rename_i fault left hfault
      have htake : builder.take cursor =
          ⟨false, builder.report fault (cursor.moveTo left).position, cursor.moveTo left⟩ := by
        have hterm : builder.takeTerm cursor =
            ⟨false, builder.report fault (cursor.moveTo left).position, cursor.moveTo left⟩ := by
          simp [takeTerm, hfault]
        have hrefused : (builder.takeTerm cursor).accepted = false := by rw [hterm]
        simp only [take, hkind, hrefused, blameTerm_takeTerm hrefused, Bool.false_eq_true, if_false]
        exact hterm
      rw [htake]
      exact .term hkind hfault
  | operator =>
    rw [hkind] at h
    unfold nextToken? at h
    dsimp only at h
    split at h
    · rename_i o rest ho
      split at h
      · rename_i hsecond
        have htake : builder.take cursor = ⟨false, builder.dropSign.report
            (if cursor.position = builder.draft.start then .illegalEquation
              else .multipleEqualSigns) cursor.position, cursor⟩ := by
          simp only [take, hkind, takeOperator, Cursor.skipBlanks_of_stops hblank, ho, hsecond,
            blameStart, report, Draft.report, dropSign, if_true, Bool.false_eq_true, if_false]
          split <;> simp_all
        rw [htake]
        exact .secondEquals hkind ho hsecond
      · cases h
    · rename_i hnone
      have htake : builder.take cursor = ⟨false, builder.dropSign, cursor⟩ := by
        simp [take, hkind, takeOperator, Cursor.skipBlanks_of_stops hblank, hnone, blameStart,
          dropSign, hstatus]
      rw [htake]
      exact .noOperator hkind hnone

theorem Refusal.accepted {cursor : Cursor} {step : Step} (h : Refusal builder cursor step) :
    step.accepted = false := by cases h <;> rfl

theorem Refusal.row {cursor : Cursor} {step : Step} (h : Refusal builder cursor step) :
    step.builder.draft.row = builder.draft.row := by cases h <;> rfl

theorem Refusal.count {cursor : Cursor} {step : Step} (h : Refusal builder cursor step) :
    step.builder.count = builder.count := by cases h <;> rfl

/-- A refused term is a fault, and where an operator is refused the line goes on. -/
theorem Refusal.not_finished {cursor : Cursor} {step : Step} (h : Refusal builder cursor step)
    (hrest : cursor.rest ≠ []) (hend : step.cursor.isAtEnd = true) :
    step.builder.draft.status ≠ .success := by
  cases h with
  | @term fault left _ hfault =>
    intro hsuccess
    have hfailed := isSuccess_of_mem_tokenFaults (Term.fault_mem_of_scan hfault)
    change fault = .success at hsuccess
    rw [hsuccess] at hfailed
    cases hfailed
  | noOperator _ _ => exact absurd (List.isEmpty_iff.mp hend) hrest
  | secondEquals _ _ _ => exact absurd (List.isEmpty_iff.mp hend) hrest

theorem nextToken?_of_accepted {cursor : Cursor} (h : (builder.take cursor).accepted = true)
    (hblank : Stops isBlank cursor.rest) (hstatus : builder.draft.status = .success) :
    ∃ token rest, nextToken? builder.draft.expected builder.draft.equalSeen cursor.rest =
      some (token, rest) := by
  cases hnext : nextToken? builder.draft.expected builder.draft.equalSeen cursor.rest with
  | some found => exact ⟨found.1, found.2, rfl⟩
  | none =>
    rw [(refusal_take hnext hblank hstatus).accepted] at h
    cases h

/-! ## All tokens of a line -/

/-- Takes tokens until the line is used up or a token is refused. -/
def run (builder : Builder) (cursor : Cursor) : Builder × Cursor := (builder.loop false cursor).2

/-- Of the tokens before it is only told whether the last of them was an operator. -/
theorem loop_eq_run (operatorLast : Bool) (builder : Builder) (cursor : Cursor) :
    (loop operatorLast builder cursor).2 = builder.run cursor := by
  rw [run, loop, loop]
  dsimp only
  split
  · rfl
  · split
    · rfl
    · split <;> rfl

/-- The line is used up behind the blanks if it is used up before them. -/
theorem run_eq_ite (builder : Builder) (cursor : Cursor) :
    builder.run cursor =
      if cursor.skipBlanks.isAtEnd = true then (builder, cursor.skipBlanks)
      else if (builder.take cursor.skipBlanks).accepted = true then
        (builder.take cursor.skipBlanks).builder.run (builder.take cursor.skipBlanks).cursor
      else ((builder.take cursor.skipBlanks).builder, (builder.take cursor.skipBlanks).cursor) := by
  rw [run, loop]
  dsimp only
  by_cases hend : cursor.isAtEnd = true
  · have hspace : cursor.skipBlanks = cursor :=
      Cursor.skipBlanks_of_stops (List.isEmpty_iff.mp hend ▸ stops_nil isBlank)
    rw [hspace, if_pos hend, if_pos hend]
  · rw [if_neg hend]
    split
    · rfl
    · split
      · exact loop_eq_run _ _ _
      · rfl

/-- At the end of a line a term is due exactly if the last token was an operator, unless no token
has been taken yet. -/
theorem fst_loop {operatorLast : Bool} {builder : Builder} {cursor : Cursor}
    (hstatus : builder.draft.status = .success)
    (hbegun : cursor.skipBlanks.isAtEnd = true →
      operatorLast = decide (builder.draft.expected = .term))
    (hend : (loop operatorLast builder cursor).2.2.isAtEnd = true)
    (hdone : (loop operatorLast builder cursor).2.1.draft.status = .success) :
    (loop operatorLast builder cursor).1 =
      decide ((loop operatorLast builder cursor).2.1.draft.expected = .term) := by
  fun_induction loop operatorLast builder cursor with
  | case1 _ _ cursor hcursor =>
    have hspace : cursor.skipBlanks = cursor :=
      Cursor.skipBlanks_of_stops (List.isEmpty_iff.mp hcursor ▸ stops_nil isBlank)
    exact hbegun (by rwa [hspace])
  | case2 _ _ cursor _ _ hspace => exact hbegun hspace
  | case3 operatorLast builder cursor _ start _ step haccepted ih =>
    obtain ⟨token, rest, hnext⟩ := nextToken?_of_accepted haccepted (stops_skipBlanks _) hstatus
    have hstep : step = ⟨true, builder.accept token, start.moveTo rest⟩ :=
      take_of_some hnext (stops_skipBlanks _)
    refine ih (by rw [hstep, status_accept, hstatus]) ?_ hend hdone
    intro _
    rw [hstep, expected_accept, kind_nextToken? hnext]
    cases builder.draft.expected <;> rfl
  | case4 operatorLast builder cursor _ start hspace step haccepted =>
    cases hnext : nextToken? builder.draft.expected builder.draft.equalSeen start.rest with
    | some found =>
      have hstep : step = ⟨true, builder.accept found.1, start.moveTo found.2⟩ :=
        take_of_some hnext (stops_skipBlanks _)
      exact absurd (congrArg Step.accepted hstep) haccepted
    | none =>
      have hrefusal := refusal_take hnext (stops_skipBlanks _) hstatus
      have hrest : start.rest ≠ [] := by simpa [Cursor.isAtEnd] using hspace
      exact absurd hdone (hrefusal.not_finished hrest hend)

/-- The end of reading where no further token is accepted. -/
def settle (builder : Builder) (cursor : Cursor) : Builder × Cursor :=
  if cursor.isAtEnd then (builder, cursor)
  else ((builder.take cursor).builder, (builder.take cursor).cursor)

theorem run_eq (builder : Builder) (cursor : Cursor) (hstatus : builder.draft.status = .success) :
    builder.run cursor =
      (builder.acceptAll (lex builder.draft.expected builder.draft.equalSeen cursor.rest).1).settle
        (cursor.moveTo (lex builder.draft.expected builder.draft.equalSeen cursor.rest).2) := by
  have hspace := length_skipBlanks_le cursor.rest
  rw [run_eq_ite]
  cases hnext : nextToken? builder.draft.expected builder.draft.equalSeen
      (EquationPad.skipBlanks cursor.rest) with
  | none =>
    rw [lex_of_none hnext]
    have hrefused :=
      (@refusal_take builder cursor.skipBlanks hnext (stops_skipBlanks _) hstatus).accepted
    simp only [hrefused, settle, acceptAll_nil, Bool.false_eq_true, if_false]
    rfl
  | some found =>
    obtain ⟨token, rest⟩ := found
    rw [lex_of_some hnext]
    have hlt := length_nextToken?_lt hnext
    have hstep := @take_of_some builder token cursor.skipBlanks rest hnext (stops_skipBlanks _)
    have hend : cursor.skipBlanks.isAtEnd = false := by
      cases hrest : EquationPad.skipBlanks cursor.rest with
      | nil => rw [hrest] at hlt; simp at hlt
      | cons c rest => simp [Cursor.isAtEnd, hrest]
    have hleft := Nat.le_trans (length_lex_le token.kind.other
      (builder.draft.equalSeen || token.isEquals) rest) (length_skipBlanks_le rest)
    have hmove : (cursor.skipBlanks.moveTo rest) = cursor.moveTo rest :=
      cursor.moveTo_moveTo hspace (Nat.le_of_lt hlt)
    simp only [hend, hstep, hmove, Bool.false_eq_true, if_false, if_true]
    rw [run_eq (builder.accept token) (cursor.moveTo rest) (by rwa [status_accept])]
    simp only [expected_accept, equalSeen_accept, Cursor.rest_moveTo, acceptAll_cons,
      kind_nextToken? hnext] at hleft ⊢
    rw [cursor.moveTo_moveTo (by omega) hleft]
termination_by cursor.rest.length

/-! ## Whole lines -/

/-- The builder when the first token of a line is due. -/
def begun (builder : Builder) (text : Text) : Builder :=
  { builder with draft := { builder.draft with
      start := (text.length - (skipBlanks text).length : Nat)
      status := .success
      position := 0 } }

variable (text : Text)

/-- What a token does depends neither on where its line starts nor on the status. -/
theorem accept_begun : (builder.begun text).accept token = (builder.accept token).begun text := by
  cases token <;> rfl

theorem acceptAll_begun (tokens : List Token) :
    (builder.begun text).acceptAll tokens = (builder.acceptAll tokens).begun text := by
  induction tokens generalizing builder with
  | nil => rfl
  | cons token tokens ih => rw [acceptAll_cons, accept_begun, ih, acceptAll_cons]

@[simp] theorem expected_begun : (builder.begun text).draft.expected = builder.draft.expected := rfl

@[simp] theorem equalSeen_begun :
    (builder.begun text).draft.equalSeen = builder.draft.equalSeen := rfl

@[simp] theorem row_begun : (builder.begun text).draft.row = builder.draft.row := rfl

@[simp] theorem start_begun : (builder.begun text).draft.start =
    ((text.length - (skipBlanks text).length : Nat) : Int) := rfl

@[simp] theorem status_begun : (builder.begun text).draft.status = .success := rfl

@[simp] theorem count_begun : (builder.begun text).count = builder.count := rfl

/-- The tokens of a line and what is left of it where reading stops. -/
def cut (builder : Builder) (line : Text) : List Token × Text :=
  lex builder.draft.expected builder.draft.equalSeen (trimRight line)

theorem length_cut_le {builder : Builder} {line left : Text} {tokens : List Token}
    (h : builder.cut line = (tokens, left)) : left.length ≤ (trimRight line).length := by
  have hle := length_lex_le builder.draft.expected builder.draft.equalSeen (trimRight line)
  rw [← cut, h] at hle
  exact Nat.le_trans hle (length_skipBlanks_le _)

/-- Reading goes on beyond the first character that is not blank if it accepts a token. -/
theorem length_cut_lt {builder : Builder} {line left : Text} {tokens : List Token}
    (h : builder.cut line = (tokens, left)) (hne : tokens ≠ []) :
    left.length < (skipBlanks (trimRight line)).length := by
  have hlt := @length_lex_lt builder.draft.expected builder.draft.equalSeen (trimRight line)
  rw [← cut, h] at hlt
  exact hlt hne

/-- Reads the tokens of a line, without asking whether they complete the equation. -/
def readLine (builder : Builder) (line : Text) : Builder × Cursor :=
  ((builder.report .success 0).readTokens (trimRight line)).2

theorem readLine_eq (builder : Builder) (line : Text) :
    builder.readLine line =
      ((builder.begun (trimRight line)).acceptAll (builder.cut line).1).settle
        ⟨(trimRight line).length - (builder.cut line).2.length, (builder.cut line).2⟩ := by
  have hstart : (Cursor.ofLine (trimRight line) 0).skipBlanks =
      ⟨(trimRight line).length - (skipBlanks (trimRight line)).length,
        skipBlanks (trimRight line)⟩ := by
    simp [Cursor.ofLine, Cursor.skipBlanks, Cursor.moveTo]
  have hspace := length_skipBlanks_le (trimRight line)
  have hleft := length_lex_le builder.draft.expected builder.draft.equalSeen (trimRight line)
  have hlex : lex builder.draft.expected builder.draft.equalSeen (skipBlanks (trimRight line)) =
      builder.cut line := lex_skipBlanks _ _ _
  rw [readLine, readTokens, loop_eq_run, run_eq _ _ rfl]
  simp only [hstart, report, Draft.report, hlex, begun, cut] at hleft ⊢
  rw [Cursor.moveTo]
  congr 2
  dsimp only
  omega

theorem readLine_begun (builder : Builder) (text line : Text) :
    (builder.begun text).readLine line = builder.readLine line := rfl

theorem readLine_of_whole {builder : Builder} {line : Text} {tokens : List Token}
    (h : builder.cut line = (tokens, [])) :
    builder.readLine line =
      ((builder.begun (trimRight line)).acceptAll tokens, ⟨(trimRight line).length, []⟩) := by
  rw [readLine_eq, h]
  rfl

theorem readLine_of_refused {builder : Builder} {line left : Text} {tokens : List Token}
    (h : builder.cut line = (tokens, left)) (hleft : left ≠ []) :
    ∃ step, Refusal ((builder.begun (trimRight line)).acceptAll tokens)
        ⟨(trimRight line).length - left.length, left⟩ step ∧
      builder.readLine line = (step.builder, step.cursor) := by
  obtain ⟨hnext, hblank⟩ :=
    nextToken?_lex_left builder.draft.expected builder.draft.equalSeen (trimRight line)
  rw [readLine_eq, h]
  rw [cut] at h
  rw [h] at hnext hblank
  refine ⟨_, refusal_take ?_ hblank (by simp), ?_⟩
  · simpa [expected_acceptAll] using hnext
  · simp [settle, Cursor.isAtEnd, hleft]

theorem cut_of_blank {builder : Builder} {line : Text} (h : Blanks line) :
    builder.cut line = ([], []) := by
  rw [cut, trimRight_eq_nil_iff.mpr h, lex_nil]

theorem ne_nil_of_cut {builder : Builder} {line : Text} {tokens : List Token}
    (hline : ¬ Blanks line) (h : builder.cut line = (tokens, [])) : tokens ≠ [] := by
  intro hnil
  subst hnil
  obtain ⟨s, hs, hwhole⟩ :=
    spells_lex builder.draft.expected builder.draft.equalSeen (trimRight line)
  rw [cut] at h
  rw [h] at hs hwhole
  cases hs
  exact hline (trimRight_eq_nil_iff.mp (skipBlanks_trimRight_eq_nil_iff.mp hwhole))

theorem feed_report (builder : Builder) (status : Status) (position : Int) (line : Text) :
    (builder.report status position).feed line = builder.feed line := rfl

theorem feed_of_blank {builder : Builder} {line : Text} (h : Blanks line) :
    builder.feed line = builder.report .blankLine 0 := by
  simp [feed, trimRight_eq_nil_iff.mpr h]

/-- Behind a line that is used up an operator is due exactly if its last token is no operator, as
it has a token. -/
theorem fst_readTokens {builder : Builder} {line : Text} (hline : ¬ Blanks line)
    (hend : (builder.readLine line).2.isAtEnd = true)
    (hdone : (builder.readLine line).1.draft.status = .success) :
    ((builder.report .success 0).readTokens (trimRight line)).1 =
      decide ((builder.readLine line).1.draft.expected = .term) := by
  refine fst_loop rfl ?_ hend hdone
  intro hspace
  have hblank : skipBlanks (trimRight line) = [] := by
    rw [← skipBlanks_skipBlanks]
    exact List.isEmpty_iff.mp hspace
  exact absurd (trimRight_eq_nil_iff.mp (skipBlanks_trimRight_eq_nil_iff.mp hblank)) hline

theorem position_readLine_pos {builder : Builder} {line : Text} (hline : ¬ Blanks line)
    (hend : (builder.readLine line).2.isAtEnd = true)
    (hdone : (builder.readLine line).1.draft.status = .success) :
    0 < (builder.readLine line).2.position := by
  rcases hcut : builder.cut line with ⟨tokens, left⟩
  by_cases hleft : left = []
  · rw [hleft] at hcut
    rw [readLine_of_whole hcut]
    exact List.length_pos_iff.mpr (mt trimRight_eq_nil_iff.mp hline)
  · obtain ⟨step, hrefusal, hread⟩ := readLine_of_refused hcut hleft
    rw [hread] at hend hdone
    exact absurd hdone (hrefusal.not_finished hleft hend)

/-- A line that is not blank completes the equation if it is used up and an operator would be due
behind it. -/
theorem feed_eq {builder : Builder} {line : Text} (hline : ¬ Blanks line) :
    builder.feed line =
      if (builder.readLine line).2.isAtEnd = true ∧
          (builder.readLine line).1.draft.status = .success ∧
          (builder.readLine line).1.draft.expected = .operator then
        (builder.readLine line).1.complete
      else (builder.readLine line).1 := by
  have hne : (trimRight line).isEmpty = false := by
    simpa using mt trimRight_eq_nil_iff.mp hline
  have hfeed : builder.feed line =
      if ((builder.readLine line).2.isAtEnd && decide (0 < (builder.readLine line).2.position) &&
          !((builder.report .success 0).readTokens (trimRight line)).1 &&
          decide ((builder.readLine line).1.draft.status = .success)) = true then
        (builder.readLine line).1.complete
      else (builder.readLine line).1 := by
    rw [feed]
    simp only [hne, Bool.false_eq_true, if_false]
    rfl
  rw [hfeed]
  refine ite_congr (propext ?_) (fun _ => rfl) fun _ => rfl
  rw [Bool.and_eq_true, Bool.and_eq_true, Bool.and_eq_true, decide_eq_true_iff, decide_eq_true_iff]
  constructor
  · rintro ⟨⟨⟨hend, -⟩, hlast⟩, hdone⟩
    have hterm := fst_readTokens hline hend hdone
    refine ⟨hend, hdone, ?_⟩
    rw [hterm] at hlast
    cases hkind : (builder.readLine line).1.draft.expected with
    | operator => rfl
    | term => simp [hkind] at hlast
  · rintro ⟨hend, hdone, hkind⟩
    have hterm := fst_readTokens hline hend hdone
    exact ⟨⟨⟨hend, position_readLine_pos hline hend hdone⟩, by rw [hterm, hkind]; rfl⟩, hdone⟩

theorem feed_begun {builder : Builder} (text : Text) {line : Text} (hline : ¬ Blanks line) :
    (builder.begun text).feed line = builder.feed line := by
  rw [feed_eq hline, feed_eq hline, readLine_begun]

/-- A line that is read to its end completes the equation if an operator would be due
after it. -/
theorem feed_of_whole {builder : Builder} {line : Text} {tokens : List Token}
    (hline : ¬ Blanks line) (h : builder.cut line = (tokens, [])) :
    builder.feed line =
      if kindAfter builder.draft.expected tokens = .operator then
        ((builder.begun (trimRight line)).acceptAll tokens).complete
      else (builder.begun (trimRight line)).acceptAll tokens := by
  rw [feed_eq hline, readLine_of_whole h]
  simp [Cursor.isAtEnd, expected_acceptAll]

theorem isSuccess_feed_of_whole {builder : Builder} {line : Text} {tokens : List Token}
    (h : builder.cut line = (tokens, [])) :
    (builder.feed line).draft.status.isSuccess = true := by
  by_cases hline : Blanks line
  · rw [feed_of_blank hline]
    rfl
  · rw [feed_of_whole hline h]
    split <;> simp [complete, Draft.next_eq, Status.isSuccess]

/-- A line with a refused token completes nothing. -/
theorem feed_of_refused {builder : Builder} {line left : Text} {tokens : List Token}
    (h : builder.cut line = (tokens, left)) (hleft : left ≠ []) :
    ∃ step, Refusal ((builder.begun (trimRight line)).acceptAll tokens)
        ⟨(trimRight line).length - left.length, left⟩ step ∧ builder.feed line = step.builder := by
  obtain ⟨step, hrefusal, hread⟩ := readLine_of_refused h hleft
  have hline : ¬ Blanks line := by
    intro hblank
    rw [cut_of_blank hblank] at h
    exact hleft (Prod.mk.inj h).2.symm
  refine ⟨step, hrefusal, ?_⟩
  rw [feed_eq hline, hread, if_neg]
  intro hdone
  obtain ⟨hend, hstatus, -⟩ := hdone
  exact hrefusal.not_finished hleft hend hstatus

/-! ## Lines that leave a term due -/

/-- The line is read to its end without a fault, and a term is due after it. As it is not
blank, its last token is an operator. -/
structure EndsOnOperator (builder : Builder) (line : Text) : Prop where
  notBlank : ¬ Blanks line
  atEnd : (builder.readLine line).2.isAtEnd = true
  status : (builder.readLine line).1.draft.status = .success
  expected : (builder.readLine line).1.draft.expected = .term

theorem endsOnOperator_iff {builder : Builder} {line : Text} :
    EndsOnOperator builder line ↔ ¬ Blanks line ∧
      ∃ tokens, builder.cut line = (tokens, []) ∧
        kindAfter builder.draft.expected tokens = .term := by
  constructor
  · intro h
    rcases hcut : builder.cut line with ⟨tokens, left⟩
    by_cases hleft : left = []
    · subst hleft
      have hkind := h.expected
      rw [readLine_of_whole hcut, expected_acceptAll] at hkind
      exact ⟨h.notBlank, tokens, rfl, hkind⟩
    · obtain ⟨step, hrefusal, hread⟩ := readLine_of_refused hcut hleft
      have hend := h.atEnd
      have hstatus := h.status
      rw [hread] at hend hstatus
      exact absurd hstatus (hrefusal.not_finished hleft hend)
  · intro h
    obtain ⟨hline, tokens, hcut, hkind⟩ := h
    refine ⟨hline, ?_, ?_, ?_⟩ <;> rw [readLine_of_whole hcut]
    · rfl
    · simp
    · rw [expected_acceptAll]
      exact hkind

theorem feed_of_endsOnOperator {builder : Builder} {line : Text} {tokens : List Token}
    (h : EndsOnOperator builder line) (hcut : builder.cut line = (tokens, [])) :
    builder.feed line = (builder.begun (trimRight line)).acceptAll tokens := by
  obtain ⟨hline, tokens', hcut', hkind⟩ := endsOnOperator_iff.mp h
  obtain rfl := (Prod.mk.inj (hcut.symm.trans hcut')).1
  rw [feed_of_whole hline hcut, if_neg (by rw [hkind]; exact TokenKind.noConfusion)]

end Builder

end EquationPad
