import EquationPad.Proofs.Meaning
import EquationPad.Proofs.Portions

/-! Which tokens were accepted for which row. An equation may be spread over lines, some of
them refused in part, and still the tokens accepted while its row was being read are all
there is to know of it: a completed row has the tokens of an equation, and the flags of the
draft say of the tokens so far what later lines have to know. -/

namespace EquationPad

namespace Token

def isTerm (token : Token) : Bool := token.kind = .term

def isUnknown : Token → Bool
  | term t => t.isUnknown
  | operator _ => false

end Token

/-! ## Sides and signs of growing token lists -/

theorem leftSide_concat (tokens : List Token) (token : Token) :
    leftSide (tokens ++ [token]) =
      leftSide tokens ++ if tokens.any Token.isEquals || token.isEquals then [] else [token] := by
  induction tokens with
  | nil => cases h : token.isEquals <;> simp [leftSide, h]
  | cons first tokens ih =>
    cases h : first.isEquals with
    | true => simp [leftSide, h]
    | false => simpa [leftSide, h] using ih

theorem rightSide_concat (tokens : List Token) (token : Token) :
    rightSide (tokens ++ [token]) =
      rightSide tokens ++ if tokens.any Token.isEquals || token.isEquals then [token] else [] := by
  induction tokens with
  | nil => cases h : token.isEquals <;> simp [rightSide, h]
  | cons first tokens ih =>
    cases h : first.isEquals with
    | true => simp [rightSide, h]
    | false => simpa [rightSide, h] using ih

/-- Whether a minus sign is in force after some tokens. -/
def negativeAfter : Bool → List Token → Bool
  | negative, [] => negative
  | negative, .term _ :: rest => negativeAfter negative rest
  | _, .operator o :: rest => negativeAfter o.isNegative rest

theorem negativeAfter_concat_operator (negative : Bool) (tokens : List Token) (o : Operator) :
    negativeAfter negative (tokens ++ [.operator o]) = o.isNegative := by
  induction tokens generalizing negative with
  | nil => rfl
  | cons token tokens ih => cases token <;> exact ih _

theorem contributionsFrom_append (equalSeen negative : Bool) (tokens more : List Token) :
    contributionsFrom equalSeen negative (tokens ++ more) =
      contributionsFrom equalSeen negative tokens ++
        contributionsFrom (equalSeen || tokens.any Token.isEquals) (negativeAfter negative tokens)
          more := by
  induction tokens generalizing equalSeen negative with
  | nil => simp [contributionsFrom, negativeAfter]
  | cons token tokens ih =>
    cases token with
    | term t => simp [contributionsFrom, negativeAfter, Token.isEquals, ih]
    | operator o => simp [contributionsFrom, negativeAfter, Token.isEquals, ih, Bool.or_assoc]

/-! ## What the draft knows of its tokens -/

/-- The flags are those of an equation that has begun with the tokens. -/
structure Draft.Describes (draft : Draft) (tokens : List Token) : Prop where
  expected : draft.expected = kindAfter .term tokens
  equalSeen : draft.equalSeen = tokens.any Token.isEquals
  leftTerm : draft.leftTerm = (leftSide tokens).any Token.isTerm
  rightTerm : draft.rightTerm = (rightSide tokens).any Token.isTerm
  variableSeen : draft.variableSeen = tokens.any Token.isUnknown
  /-- The operator that is due after a term forgets the sign in any case. -/
  negative : draft.expected = .term → draft.negative = negativeAfter false tokens

/-- Of the flags only the sign may differ, where it will be forgotten. -/
theorem Draft.Describes.congr {draft draft' : Draft} {tokens : List Token}
    (h : draft.Describes tokens) (hexpected : draft'.expected = draft.expected)
    (hequal : draft'.equalSeen = draft.equalSeen) (hleft : draft'.leftTerm = draft.leftTerm)
    (hright : draft'.rightTerm = draft.rightTerm)
    (hvariable : draft'.variableSeen = draft.variableSeen)
    (hnegative : draft.expected = .term → draft'.negative = draft.negative) :
    draft'.Describes tokens where
  expected := hexpected.trans h.expected
  equalSeen := hequal.trans h.equalSeen
  leftTerm := hleft.trans h.leftTerm
  rightTerm := hright.trans h.rightTerm
  variableSeen := hvariable.trans h.variableSeen
  negative hterm := by
    rw [hexpected] at hterm
    rw [hnegative hterm, h.negative hterm]

theorem describes_empty : Draft.Describes {} [] := ⟨rfl, rfl, rfl, rfl, rfl, fun _ => rfl⟩

namespace Builder

variable {builder : Builder} {tokens : List Token}

theorem describes_accept (h : builder.draft.Describes tokens) (token : Token) :
    (builder.accept token).draft.Describes (tokens ++ [token]) where
  expected := by rw [expected_accept, kindAfter_append, kindAfter, kindAfter]
  equalSeen := by simp [equalSeen_accept, h.equalSeen]
  leftTerm := by
    rw [leftSide_concat, List.any_append, ← h.leftTerm, ← h.equalSeen]
    cases token with
    | term t =>
      cases hseen : builder.draft.equalSeen <;>
        simp [accept, addTerm, expect, hseen, Token.isEquals, Token.isTerm, Token.kind]
    | operator o =>
      show builder.draft.leftTerm = _
      split <;> simp [Token.isTerm, Token.kind]
  rightTerm := by
    rw [rightSide_concat, List.any_append, ← h.rightTerm, ← h.equalSeen]
    cases token with
    | term t =>
      cases hseen : builder.draft.equalSeen <;>
        simp [accept, addTerm, expect, hseen, Token.isEquals, Token.isTerm, Token.kind]
    | operator o =>
      show builder.draft.rightTerm = _
      split <;> simp [Token.isTerm, Token.kind]
  variableSeen := by
    rw [List.any_append, ← h.variableSeen]
    cases token <;> simp [accept, addTerm, addOperator, expect, Token.isUnknown]
  negative hkind := by
    cases token with
    | term t => cases hkind
    | operator o => exact (negativeAfter_concat_operator _ _ _).symm

theorem describes_acceptAll (h : builder.draft.Describes tokens) (more : List Token) :
    (builder.acceptAll more).draft.Describes (tokens ++ more) := by
  induction more generalizing builder tokens with
  | nil => simpa using h
  | cons token more ih => simpa using ih (describes_accept h token)

/-! ## What a line does -/

/-- Columns and status are of the line, not of the equation. -/
def placed (builder : Builder) (start : Int) (status : Status) (position : Int) : Builder :=
  { builder with draft := { builder.draft with start, status, position } }

/-- All that a line can do with the tokens that are accepted from it. -/
inductive Effect (builder : Builder) (tokens : List Token) : Builder → Prop
  | completes {start status position} : EndsOnTerm tokens →
      Effect builder tokens ((builder.acceptAll tokens).placed start status position).complete
  | stays {start status position} :
      Effect builder tokens ((builder.acceptAll tokens).placed start status position)
  | dropsSign {start status position} : kindAfter builder.draft.expected tokens = .operator →
      Effect builder tokens ((builder.acceptAll tokens).dropSign.placed start status position)

theorem effect_feed (builder : Builder) (line : Text) :
    Effect builder (builder.cut line).1 (builder.feed line) := by
  by_cases hline : Blanks line
  · rw [feed_of_blank hline, cut_of_blank hline]
    exact .stays
  rcases hcut : builder.cut line with ⟨tokens, left⟩
  by_cases hleft : left = []
  · subst hleft
    rw [feed_of_whole hline hcut, acceptAll_begun]
    split
    · rename_i hkind
      exact .completes ((endsOnTerm_iff builder.draft.expected tokens).mpr
        ⟨ne_nil_of_cut hline hcut, hkind⟩)
    · exact .stays
  · obtain ⟨step, hrefusal, hfeed⟩ := feed_of_refused hcut hleft
    rw [acceptAll_begun] at hrefusal
    rw [hfeed]
    cases hrefusal with
    | term _ _ => exact .stays
    | noOperator hkind _ => exact .dropsSign (by rwa [expected_begun, expected_acceptAll] at hkind)
    | secondEquals hkind _ _ =>
      exact .dropsSign (by rwa [expected_begun, expected_acceptAll] at hkind)

theorem system_feed (builder : Builder) (line : Text) :
    (builder.feed line).system =
      (contributionsFrom builder.draft.equalSeen builder.draft.negative (builder.cut line).1).foldl
        (LinearSystem.contribute builder.draft.row) builder.system := by
  rw [← system_acceptAll]
  have h := effect_feed builder line
  generalize builder.feed line = after at h
  cases h <;> rfl

theorem spells_cut (builder : Builder) (line : Text) :
    ∃ s, Spells builder.draft.expected (builder.cut line).1 s := by
  obtain ⟨s, hs, -⟩ := spells_lex builder.draft.expected builder.draft.equalSeen (trimRight line)
  exact ⟨s, hs⟩

theorem equalsFit_cut (builder : Builder) (line : Text) :
    EqualsFit builder.draft.equalSeen (builder.cut line).1 := equalsFit_lex _ _ _

/-! ## The tokens of a row -/

/-- The tokens accepted from lines while the equation of a row was being read. -/
def tokensOf (builder : Builder) (row : Nat) : List Text → List Token
  | [] => []
  | line :: lines =>
    (if builder.draft.row = row then (builder.cut line).1 else []) ++
      (builder.feed line).tokensOf row lines

theorem feedAll_concat (builder : Builder) (lines : List Text) (line : Text) :
    builder.feedAll (lines ++ [line]) = (builder.feedAll lines).feed line := by
  rw [feedAll, List.foldl_append]
  rfl

theorem tokensOf_concat (builder : Builder) (row : Nat) (lines : List Text) (line : Text) :
    builder.tokensOf row (lines ++ [line]) = builder.tokensOf row lines ++
      if (builder.feedAll lines).draft.row = row then ((builder.feedAll lines).cut line).1
      else [] := by
  induction lines generalizing builder with
  | nil =>
    rw [List.nil_append, tokensOf, tokensOf, tokensOf, List.append_nil, List.nil_append]
    rfl
  | cons first lines ih =>
    rw [List.cons_append, tokensOf, ih, tokensOf, List.append_assoc]
    rfl

/-- What the lines read so far say of rows: the row being read has begun with its tokens,
those before it have the tokens of an equation, those after it have none. -/
structure ReadRows (start : Builder) (lines : List Text) : Prop where
  describes : (start.feedAll lines).draft.Describes
    (start.tokensOf (start.feedAll lines).draft.row lines)
  spells : ∃ s, Spells .term (start.tokensOf (start.feedAll lines).draft.row lines) s
  equalsFit : EqualsFit false (start.tokensOf (start.feedAll lines).draft.row lines)
  later : ∀ row, (start.feedAll lines).draft.row < row → start.tokensOf row lines = []
  completed : ∀ row, start.draft.row ≤ row → row < (start.feedAll lines).draft.row →
    ∃ s, Reads .term false (start.tokensOf row lines) s

theorem readRows_nil {start : Builder} (h : start.draft.Describes []) : ReadRows start [] :=
  ⟨h, ⟨[], .nil⟩, equalsFit_nil _, fun _ _ => rfl, fun _ hle hlt =>
    absurd hlt (Nat.not_lt.mpr hle)⟩

variable {start : Builder} {lines : List Text}

/-- The tokens of the row being read, with those of a further line. -/
theorem ReadRows.spells_append (h : ReadRows start lines) (line : Text) :
    (∃ s, Spells .term (start.tokensOf (start.feedAll lines).draft.row lines ++
        ((start.feedAll lines).cut line).1) s) ∧
      EqualsFit false (start.tokensOf (start.feedAll lines).draft.row lines ++
        ((start.feedAll lines).cut line).1) := by
  obtain ⟨s, hs⟩ := h.spells
  obtain ⟨s', hs'⟩ := spells_cut (start.feedAll lines) line
  have hfit := equalsFit_cut (start.feedAll lines) line
  rw [h.describes.expected] at hs'
  rw [h.describes.equalSeen] at hfit
  refine ⟨?_, equalsFit_append.mpr ⟨h.equalsFit, by simpa using hfit⟩⟩
  generalize start.tokensOf (start.feedAll lines).draft.row lines = tokens at hs hs'
  by_cases hne : tokens = []
  · subst hne
    exact ⟨s', hs'⟩
  · exact ⟨_, hs.append hne blanks_nil hs'⟩

theorem tokensOf_concat_self (start : Builder) (lines : List Text) (line : Text) :
    start.tokensOf (start.feedAll lines).draft.row (lines ++ [line]) =
      start.tokensOf (start.feedAll lines).draft.row lines ++
        ((start.feedAll lines).cut line).1 := by
  rw [tokensOf_concat, if_pos rfl]

theorem tokensOf_concat_of_ne {start : Builder} {lines : List Text} {row : Nat}
    (h : (start.feedAll lines).draft.row ≠ row) (line : Text) :
    start.tokensOf row (lines ++ [line]) = start.tokensOf row lines := by
  rw [tokensOf_concat, if_neg h, List.append_nil]

/-- A line that does not complete the equation adds its tokens to the row. -/
theorem ReadRows.concat_of_row_eq (h : ReadRows start lines) {line : Text}
    (hrow : (start.feedAll (lines ++ [line])).draft.row = (start.feedAll lines).draft.row)
    (hflags : (start.feedAll (lines ++ [line])).draft.Describes
      (start.tokensOf (start.feedAll lines).draft.row lines ++
        ((start.feedAll lines).cut line).1)) :
    ReadRows start (lines ++ [line]) := by
  obtain ⟨hspells, hfit⟩ := h.spells_append line
  rw [← tokensOf_concat_self] at hspells hfit hflags
  refine ⟨?_, ?_, ?_, ?_, ?_⟩ <;> rw [hrow]
  · exact hflags
  · exact hspells
  · exact hfit
  · intro row hlt
    rw [tokensOf_concat_of_ne (Nat.ne_of_lt hlt), h.later row hlt]
  · intro row hle hlt
    rw [tokensOf_concat_of_ne (Nat.ne_of_gt hlt)]
    exact h.completed row hle hlt

/-- A line that completes the equation leaves its row with the tokens of one. -/
theorem ReadRows.concat_of_row_succ (h : ReadRows start lines) {line : Text}
    (hrow : (start.feedAll (lines ++ [line])).draft.row = (start.feedAll lines).draft.row + 1)
    (hflags : (start.feedAll (lines ++ [line])).draft.Describes [])
    (hends : EndsOnTerm ((start.feedAll lines).cut line).1) :
    ReadRows start (lines ++ [line]) := by
  have hnone : start.tokensOf ((start.feedAll lines).draft.row + 1) (lines ++ [line]) = [] := by
    rw [tokensOf_concat_of_ne (by omega), h.later _ (Nat.lt_succ_self _)]
  refine ⟨?_, ?_, ?_, ?_, ?_⟩ <;> rw [hrow]
  · rwa [hnone]
  · exact ⟨[], by rw [hnone]; exact .nil⟩
  · rw [hnone]
    exact equalsFit_nil _
  · intro row hlt
    rw [tokensOf_concat_of_ne (by omega), h.later row (by omega)]
  · intro row hle hlt
    by_cases hlast : (start.feedAll lines).draft.row = row
    · subst hlast
      obtain ⟨⟨s, hs⟩, hfit⟩ := h.spells_append line
      rw [← tokensOf_concat_self] at hs hfit
      refine ⟨s, hs, ?_, hfit⟩
      rw [tokensOf_concat_self]
      exact hends.append _
    · rw [tokensOf_concat_of_ne hlast]
      exact h.completed row hle (by omega)

theorem ReadRows.concat (h : ReadRows start lines) (line : Text) :
    ReadRows start (lines ++ [line]) := by
  have hflags := describes_acceptAll h.describes ((start.feedAll lines).cut line).1
  have heffect := effect_feed (start.feedAll lines) line
  rw [← feedAll_concat] at heffect
  generalize hafter : start.feedAll (lines ++ [line]) = after at heffect
  cases heffect with
  | completes hends =>
    refine h.concat_of_row_succ ?_ ?_ hends <;> rw [hafter]
    · simp [complete, placed, Draft.next_eq]
    · exact ⟨rfl, rfl, rfl, rfl, rfl, fun _ => rfl⟩
  | stays =>
    refine h.concat_of_row_eq ?_ ?_ <;> rw [hafter]
    · simp [placed]
    · exact hflags.congr rfl rfl rfl rfl rfl fun _ => rfl
  | dropsSign hkind =>
    have hexpected : ((start.feedAll lines).acceptAll
        ((start.feedAll lines).cut line).1).draft.expected = .operator := by
      rw [expected_acceptAll, hkind]
    refine h.concat_of_row_eq ?_ ?_ <;> rw [hafter]
    · simp [placed, dropSign]
    · refine hflags.congr rfl rfl rfl rfl rfl fun hterm => ?_
      exact absurd (hterm.symm.trans hexpected) TokenKind.noConfusion

theorem readRows_feedAll {start : Builder} (h : start.draft.Describes []) (lines : List Text) :
    ReadRows start lines := by
  induction lines using List.reverseRecOn with
  | nil => exact readRows_nil h
  | append_singleton lines line ih => exact ih.concat line

end Builder

end EquationPad
