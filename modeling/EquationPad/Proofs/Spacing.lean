import EquationPad.Proofs.LineReading
import EquationPad.Proofs.Words

/-! How wide the gaps of a line are does not matter. Scanners take no blanks but those they
skip, and they skip all there are, so on two texts that differ in their gaps each of them
takes the same characters and leaves texts that differ in their gaps. So a line with the same
words is cut into the same tokens, and if one is refused it is refused for the same reason
and next to the same character. -/

namespace EquationPad

namespace Respaced

variable {t t' : Text}

/-! ## Scanners -/

theorem scanSign_of_stops {text : Text} (h : Stops isSignChar text) :
    EquationPad.scanSign text = (none, text) := @scanSign_signText_append none _ fun _ => h

theorem scanSign (h : Respaced t t') :
    ∃ sign rest rest', EquationPad.scanSign t = (sign, rest) ∧
      EquationPad.scanSign t' = (sign, rest') ∧ Respaced rest rest' := by
  rcases h.head_cases with ⟨c, r, r', rfl, rfl, hc, hrest⟩ | hnone
  · by_cases hplus : c = '+'
    · subst hplus
      exact ⟨_, _, _, rfl, rfl, hrest⟩
    by_cases hminus : c = '-'
    · subst hminus
      exact ⟨_, _, _, rfl, rfl, hrest⟩
    have hsign : isSignChar c = false := by simp [isSignChar, hplus, hminus]
    exact ⟨_, _, _, scanSign_of_stops (stops_cons.mpr hsign),
      scanSign_of_stops (stops_cons.mpr hsign), .char hc hrest⟩
  · obtain ⟨hstop, hstop'⟩ := hnone isSignChar fun c hc =>
      isSignChar_eq_false (blank_apart_operator c hc)
    exact ⟨_, _, _, scanSign_of_stops hstop, scanSign_of_stops hstop', h⟩

theorem scanNumeralFrom_of_stops {text : Text} (h : Stops isNumeralChar text) (digits : Nat)
    (point : Bool) : EquationPad.scanNumeralFrom digits point text = ⟨[], text, none⟩ := by
  cases text with
  | nil => rfl
  | cons c text =>
    obtain ⟨hdigit, hpoint⟩ := Bool.or_eq_false_iff.mp (stops_cons.mp h)
    simp [EquationPad.scanNumeralFrom, hdigit, of_decide_eq_false hpoint]

theorem scanNumeralFrom (h : Respaced t t') (digits : Nat) (point : Bool) :
    ∃ lexeme rest rest' fault, EquationPad.scanNumeralFrom digits point t = ⟨lexeme, rest, fault⟩ ∧
      EquationPad.scanNumeralFrom digits point t' = ⟨lexeme, rest', fault⟩ ∧
      Respaced rest rest' := by
  induction h generalizing digits point with
  | nil => exact ⟨_, _, _, _, rfl, rfl, .nil⟩
  | @char c t t' hc h ih =>
    rw [EquationPad.scanNumeralFrom, EquationPad.scanNumeralFrom]
    split
    · split
      · obtain ⟨lexeme, rest, rest', fault, hscan, hscan', hrest⟩ := ih (digits + 1) point
        rw [hscan, hscan']
        exact ⟨_, _, _, _, rfl, rfl, hrest⟩
      · exact ⟨_, _, _, _, rfl, rfl, h⟩
    · split
      · split
        · exact ⟨_, _, _, _, rfl, rfl, .char hc h⟩
        · obtain ⟨lexeme, rest, rest', fault, hscan, hscan', hrest⟩ := ih digits true
          rw [hscan, hscan']
          exact ⟨_, _, _, _, rfl, rfl, hrest⟩
      · exact ⟨_, _, _, _, rfl, rfl, .char hc h⟩
  | gap hb hne hb' hne' h _ =>
    have hapart : Apart isBlank isNumeralChar := fun c hc =>
      isNumeralChar_eq_false (blank_apart_literal c hc)
    exact ⟨_, _, _, _, scanNumeralFrom_of_stops (stops_blanks_append hapart hb hne _) _ _,
      scanNumeralFrom_of_stops (stops_blanks_append hapart hb' hne' _) _ _,
      .gap hb hne hb' hne' h⟩

theorem scanNumeral (h : Respaced t t') :
    ∃ lexeme rest rest' fault, EquationPad.scanNumeral t = ⟨lexeme, rest, fault⟩ ∧
      EquationPad.scanNumeral t' = ⟨lexeme, rest', fault⟩ ∧ Respaced rest rest' := by
  obtain ⟨lexeme, rest, rest', fault, hscan, hscan', hrest⟩ := h.scanNumeralFrom 0 false
  simp only [EquationPad.scanNumeral, hscan, hscan']
  split
  · exact ⟨_, _, _, _, rfl, rfl, hrest⟩
  · exact ⟨_, _, _, _, rfl, rfl, hrest⟩

theorem scanExponent (h : Respaced t t') :
    ∃ result rest rest', EquationPad.scanExponent t = (result, rest) ∧
      EquationPad.scanExponent t' = (result, rest') ∧ Respaced rest rest' := by
  obtain ⟨sign, digits, digits', hsign, hsign', hdigits⟩ := h.scanSign
  obtain ⟨lexeme, rest, rest', fault, hscan, hscan', hrest⟩ := hdigits.scanNumeral
  simp only [EquationPad.scanExponent, hsign, hsign', hscan, hscan']
  exact ⟨_, _, _, rfl, rfl, hrest⟩

theorem scanLiteral_of_stops {lexeme rest : Text}
    (hscan : EquationPad.scanNumeral t = ⟨lexeme, rest, none⟩) (hdigit : lexeme.any isDigit = true)
    (hstop : Stops (· = '^') rest) :
    EquationPad.scanLiteral t = (.ok (some ⟨lexeme, none⟩), rest) := by
  simp only [EquationPad.scanLiteral, hscan, NumeralScan.hasDigit, hdigit]
  cases rest with
  | nil => rfl
  | cons c rest => simp [of_decide_eq_false (stops_cons.mp hstop)]

theorem scanLiteral (h : Respaced t t') :
    ∃ result rest rest', EquationPad.scanLiteral t = (result, rest) ∧
      EquationPad.scanLiteral t' = (result, rest') ∧ Respaced rest rest' := by
  obtain ⟨lexeme, rest, rest', fault, hscan, hscan', hrest⟩ := h.scanNumeral
  cases fault with
  | some fault =>
    simp only [EquationPad.scanLiteral, hscan, hscan']
    exact ⟨_, _, _, rfl, rfl, hrest⟩
  | none =>
    cases hdigit : lexeme.any isDigit with
    | false =>
      simp only [EquationPad.scanLiteral, hscan, hscan', NumeralScan.hasDigit, hdigit]
      exact ⟨_, _, _, rfl, rfl, hrest⟩
    | true =>
      -- an exponent follows directly or not at all
      rcases hrest.head_cases with ⟨c, r, r', rfl, rfl, hc, hafter⟩ | hnone
      · by_cases hpower : c = '^'
        · subst hpower
          obtain ⟨result, left, left', hexponent, hexponent', hleft⟩ := hafter.scanExponent
          simp only [EquationPad.scanLiteral, hscan, hscan', NumeralScan.hasDigit, hdigit,
            hexponent, hexponent']
          exact ⟨_, _, _, rfl, rfl, hleft⟩
        · have hstop : ∀ text, Stops (· = '^') (c :: text) := fun _ =>
            stops_cons.mpr (decide_eq_false hpower)
          exact ⟨_, _, _, scanLiteral_of_stops hscan hdigit (hstop r),
            scanLiteral_of_stops hscan' hdigit (hstop r'), hrest⟩
      · obtain ⟨hstop, hstop'⟩ := hnone (· = '^') fun c hc =>
          (Bool.or_eq_false_iff.mp (blank_apart_literal c hc)).2
        exact ⟨_, _, _, scanLiteral_of_stops hscan hdigit hstop,
          scanLiteral_of_stops hscan' hdigit hstop', hrest⟩

/-! ## Tokens -/

theorem scanTerm (h : Respaced t t') :
    ∃ result rest rest', Term.scan t = (result, rest) ∧ Term.scan t' = (result, rest') ∧
      Respaced rest rest' := by
  obtain ⟨sign, r₁, r₁', hsign, hsign', h₁⟩ := h.scanSign
  obtain ⟨result, r₂, r₂', hnumber, hnumber', h₂⟩ := h₁.skipBlanks.scanLiteral
  simp only [Term.scan, hsign, hsign', hnumber, hnumber']
  cases result with
  | error fault => exact ⟨_, _, _, rfl, rfl, h₂⟩
  | ok number =>
    obtain ⟨hname, hafter⟩ := h₂.skipBlanks.span blank_apart_name
    simp only [scanName, hname]
    split
    · exact ⟨_, _, _, rfl, rfl, hafter.skipBlanks⟩
    · exact ⟨_, _, _, rfl, rfl, h₂.skipBlanks⟩

theorem scanOperator (h : Respaced t t') :
    (Operator.scan? t = none ∧ Operator.scan? t' = none) ∨
      ∃ o rest rest', Operator.scan? t = some (o, rest) ∧ Operator.scan? t' = some (o, rest') ∧
        Respaced rest rest' := by
  cases hscan : Operator.scan? t with
  | none =>
    have hstop := h.stops blank_apart_operator (Operator.stops_of_scan?_eq_none hscan)
    exact .inl ⟨rfl, Operator.scan?_of_stops hstop⟩
  | some found =>
    obtain ⟨o, rest⟩ := found
    obtain ⟨rfl, hsign⟩ := Operator.scan?_eq_some_iff.mp hscan
    obtain ⟨rest', rfl, hrest⟩ := h.of_append o.solid_text
    have hsign' : o = .equals none → Stops isSignChar rest' := fun hnone =>
      hrest.stops (fun c hc => isSignChar_eq_false (blank_apart_operator c hc)) (hsign hnone)
    exact .inr ⟨o, rest, rest', rfl, Operator.scan?_eq_some_iff.mpr ⟨rfl, hsign'⟩, hrest⟩

theorem nextToken (h : Respaced t t') (kind : TokenKind) (equalSeen : Bool) :
    (nextToken? kind equalSeen t = none ∧ nextToken? kind equalSeen t' = none) ∨
      ∃ token rest rest', nextToken? kind equalSeen t = some (token, rest) ∧
        nextToken? kind equalSeen t' = some (token, rest') ∧ Respaced rest rest' := by
  cases kind with
  | term =>
    obtain ⟨result, rest, rest', hscan, hscan', hrest⟩ := h.scanTerm
    unfold nextToken?
    rw [hscan, hscan']
    cases result with
    | error fault => exact .inl ⟨rfl, rfl⟩
    | ok term => exact .inr ⟨_, _, _, rfl, rfl, hrest⟩
  | operator =>
    unfold nextToken?
    rcases h.scanOperator with ⟨hnone, hnone'⟩ | ⟨o, rest, rest', hscan, hscan', hrest⟩
    · rw [hnone, hnone']
      exact .inl ⟨rfl, rfl⟩
    · rw [hscan, hscan']
      dsimp only
      split
      · exact .inl ⟨rfl, rfl⟩
      · exact .inr ⟨_, _, _, rfl, rfl, hrest⟩

/-- Texts that differ in their gaps have the same tokens. -/
theorem lex {t t' : Text} (h : Respaced t t') (kind : TokenKind) (equalSeen : Bool) :
    ∃ tokens left left', EquationPad.lex kind equalSeen t = (tokens, left) ∧
      EquationPad.lex kind equalSeen t' = (tokens, left') ∧ Respaced left left' := by
  rcases h.skipBlanks.nextToken kind equalSeen with
    ⟨hnone, hnone'⟩ | ⟨token, rest, rest', hnext, hnext', hrest⟩
  · exact ⟨_, _, _, lex_of_none hnone, lex_of_none hnone', h.skipBlanks⟩
  · have shorter := Nat.lt_of_lt_of_le (length_nextToken?_lt hnext) (length_skipBlanks_le t)
    obtain ⟨tokens, left, left', hlex, hlex', hleft⟩ :=
      hrest.lex kind.other (equalSeen || token.isEquals)
    rw [lex_of_some hnext, lex_of_some hnext', hlex, hlex']
    exact ⟨_, _, _, rfl, rfl, hleft⟩
termination_by t.length

end Respaced

/-! ## Where scanners stop

A number takes no blank, so where a scanner stops there is a character before or after that
is not blank. -/

/-- The place before `rest` is next to a character that is not blank. -/
def StopsSolid (text rest : Text) : Prop :=
  Stops isBlank rest ∨ ∃ front c, text = front ++ c :: rest ∧ isBlank c = false

theorem StopsSolid.prepend {text rest : Text} (h : StopsSolid text rest) (front : Text) :
    StopsSolid (front ++ text) rest := by
  rcases h with hstop | ⟨before, c, rfl, hc⟩
  · exact .inl hstop
  · exact .inr ⟨front ++ before, c, (List.append_assoc ..).symm, hc⟩

theorem StopsSolid.of_append {word rest : Text} (hword : ∀ c ∈ word, isBlank c = false)
    (hstop : Stops isBlank (word ++ rest)) : StopsSolid (word ++ rest) rest := by
  rcases List.eq_nil_or_concat word with rfl | ⟨front, c, rfl⟩
  · exact .inl hstop
  · exact .inr ⟨front, c, by simp, hword c (by simp)⟩

theorem isNumeralChar_of_mem_scanNumeral (text : Text) :
    ∀ c ∈ (scanNumeral text).lexeme, isNumeralChar c = true := by
  have hfrom : ∀ digits point,
      ∀ c ∈ (scanNumeralFrom digits point text).lexeme, isNumeralChar c = true := by
    intro digits point
    fun_induction scanNumeralFrom digits point text <;>
      simp_all [NumeralScan.cons, isNumeralChar]
  unfold scanNumeral
  dsimp only
  split
  · exact hfrom 0 false
  · exact hfrom 0 false

theorem isBlank_of_mem_scanNumeral (text : Text) :
    ∀ c ∈ (scanNumeral text).lexeme, isBlank c = false := fun c hc =>
  blank_apart_literal.symm c
    (isLiteralChar_of_isNumeralChar (isNumeralChar_of_mem_scanNumeral text c hc))

theorem exists_append_scanExponent (text : Text) :
    ∃ word, text = word ++ (scanExponent text).2 ∧ ∀ c ∈ word, isBlank c = false := by
  refine ⟨signText (scanSign text).1 ++ (scanNumeral (scanSign text).2).lexeme, ?_, ?_⟩
  · calc text = signText (scanSign text).1 ++ (scanSign text).2 := (signText_append_scanSign text).symm
      _ = signText (scanSign text).1 ++ ((scanNumeral (scanSign text).2).lexeme ++
            (scanNumeral (scanSign text).2).rest) := by rw [scanNumeral_append]
      _ = _ := (List.append_assoc ..).symm
  · intro c hc
    rcases List.mem_append.mp hc with hsign | hdigit
    · exact signText_solid _ c hsign
    · exact isBlank_of_mem_scanNumeral _ c hdigit

theorem exists_append_scanLiteral (text : Text) :
    ∃ word, text = word ++ (scanLiteral text).2 ∧ ∀ c ∈ word, isBlank c = false := by
  have hnumber := isBlank_of_mem_scanNumeral text
  have hwhole := (scanNumeral_append text).symm
  unfold scanLiteral
  dsimp only
  split
  · exact ⟨_, hwhole, hnumber⟩
  · split
    · exact ⟨_, hwhole, hnumber⟩
    · split
      · rename_i after hpower
        obtain ⟨word, hafter, hword⟩ := exists_append_scanExponent after
        refine ⟨(scanNumeral text).lexeme ++ '^' :: word, ?_, ?_⟩
        · rw [List.append_assoc, List.cons_append, ← hafter, ← hpower]
          exact hwhole
        · intro c hc
          rcases List.mem_append.mp hc with hnum | hexp
          · exact hnumber c hnum
          · rcases List.mem_cons.mp hexp with rfl | hmore
            · rfl
            · exact hword c hmore
      · exact ⟨_, hwhole, hnumber⟩

theorem Term.stopsSolid_of_scan {text rest : Text} {fault : Status}
    (h : scan text = (.error fault, rest)) : StopsSolid text rest := by
  have hsign := signText_append_scanSign text
  obtain ⟨b, -, hblank⟩ := exists_blanks_append (scanSign text).2
  unfold scan at h
  dsimp only at h
  split at h
  · rename_i fault' rest' hnumber
    cases h
    obtain ⟨word, hword, hsolid⟩ := exists_append_scanLiteral (skipBlanks (scanSign text).2)
    rw [hnumber] at hword
    have hstop := stops_skipBlanks (scanSign text).2
    rw [hword] at hstop
    have hplace := (StopsSolid.of_append hsolid hstop).prepend (signText (scanSign text).1 ++ b)
    rwa [← hword, List.append_assoc, ← hblank, hsign] at hplace
  · split at h
    · cases h
    · cases h
      exact .inl (stops_skipBlanks _)

/-! ## Places on a line -/

theorem exists_last_of_trimmed {text : Text} (h : Trimmed text) (hne : text ≠ []) :
    ∃ front c, text = front ++ [c] ∧ isBlank c = false := by
  rcases List.eq_nil_or_concat text with hnil | ⟨front, c, hwhole⟩
  · exact absurd hnil hne
  · exact ⟨front, c, by simp [hwhole], h c (by simp [hwhole])⟩

section Lines

variable {line line' : Text} (hwords : words line' = words line)

include hwords

theorem blanks_iff_of_words : Blanks line' ↔ Blanks line := by
  rw [← words_eq_nil_iff, hwords, words_eq_nil_iff]

theorem respaced_trimRight : Respaced (skipBlanks (trimRight line)) (skipBlanks (trimRight line')) :=
  respaced_of_words (trimmed_trimRight line) (trimmed_trimRight line') (words_trimRight line)
    (by rw [words_trimRight, hwords])

theorem solid_trimRight : solid (trimRight line') = solid (trimRight line) := by
  obtain ⟨b, hb, htext⟩ := exists_blanks_append (trimRight line)
  obtain ⟨b', hb', htext'⟩ := exists_blanks_append (trimRight line')
  rw [htext, htext', solid_append, solid_append, solid_of_blanks hb, solid_of_blanks hb',
    (respaced_trimRight hwords).solid_eq]

/-- Where scanners stop on lines with the same words is the same place. -/
theorem samePlace_of_words {rest rest' : Text} (hline : ¬ Blanks line)
    (hrest : rest <:+ trimRight line) (hrest' : rest' <:+ trimRight line')
    (hleft : Respaced rest rest') (hstop : StopsSolid (trimRight line) rest)
    (hstop' : StopsSolid (trimRight line') rest') :
    SamePlace line line' ((trimRight line).length - rest.length : Nat)
      ((trimRight line').length - rest'.length : Nat) := by
  obtain ⟨b, -, hwhole⟩ := exists_append_blanks line
  obtain ⟨b', -, hwhole'⟩ := exists_append_blanks line'
  have hsolid := solid_trimRight hwords
  suffices hplace : SamePlace (trimRight line) (trimRight line')
      ((trimRight line).length - rest.length : Nat)
      ((trimRight line').length - rest'.length : Nat) by
    have hends := hplace.append b b'
    rwa [← hwhole, ← hwhole'] at hends
  by_cases hend : rest = []
  · -- the end of a trimmed line is the place after its last character
    obtain rfl := hend
    obtain rfl := hleft.eq_nil_iff.mp rfl
    have hline' := mt (blanks_iff_of_words hwords).mp hline
    obtain ⟨front, c, hlast, hc⟩ :=
      exists_last_of_trimmed (trimmed_trimRight line) (mt trimRight_eq_nil_iff.mp hline)
    obtain ⟨front', c', hlast', hc'⟩ :=
      exists_last_of_trimmed (trimmed_trimRight line') (mt trimRight_eq_nil_iff.mp hline')
    exact .of_taken hlast hlast' hc hc' hsolid rfl
  by_cases hblank : Stops isBlank rest
  · exact .of_stops hsolid hrest hrest' hleft.solid_eq hend (mt hleft.eq_nil_iff.mpr hend) hblank
      (hleft.stops_iff.mp hblank)
  · obtain ⟨front, c, htaken, hc⟩ := hstop.resolve_left hblank
    obtain ⟨front', c', htaken', hc'⟩ := hstop'.resolve_left (mt hleft.stops_iff.mpr hblank)
    exact .of_taken htaken htaken' hc hc' hsolid hleft.solid_eq

end Lines

namespace Builder

/-! ## Lines -/

/-- Reading stands at the start of a line exactly if it has accepted no token. -/
theorem length_cut_eq_iff {builder : Builder} {line left : Text} {tokens : List Token}
    (h : builder.cut line = (tokens, left)) :
    left.length = (skipBlanks (trimRight line)).length ↔ tokens = [] := by
  constructor
  · intro hlength
    by_cases hne : tokens = []
    · exact hne
    · exact absurd hlength (Nat.ne_of_lt (length_cut_lt h hne))
  · intro hnil
    subst hnil
    obtain ⟨s, hs, hwhole⟩ :=
      spells_lex builder.draft.expected builder.draft.equalSeen (trimRight line)
    rw [cut] at h
    rw [h] at hs hwhole
    cases hs
    rw [hwhole, List.nil_append]

variable {builder : Builder} {line line' : Text}

theorem cut_of_words (builder : Builder) (hwords : words line' = words line) :
    ∃ tokens left left', builder.cut line = (tokens, left) ∧ builder.cut line' = (tokens, left') ∧
      Respaced left left' := by
  have hlex := (respaced_trimRight hwords).lex builder.draft.expected builder.draft.equalSeen
  rwa [lex_skipBlanks, lex_skipBlanks] at hlex

/-- The same state but for columns, and a column of the one line is the same place as that of
the other. What is no column of the line is the same number. -/
structure AgreeButGaps (builder : Builder) (line line' : Text) (read read' : Builder) : Prop where
  status : read'.draft.status = read.draft.status
  system : read'.system = read.system
  count : read'.count = read.count
  draft : { read'.draft with start := read.draft.start, position := read.draft.position } =
    read.draft
  position : read.draft.status.isSuccess = true → read'.draft.position = read.draft.position
  errorPosition : read.draft.status.isSuccess = false →
    SamePlace line line' read.draft.position read'.draft.position
  /-- A blank line does not set the start, and the next equation has none yet. -/
  start : Blanks line ∨ read.draft.row ≠ builder.draft.row →
    read'.draft.start = read.draft.start
  lineStart : ¬ Blanks line → read.draft.row = builder.draft.row →
    SamePlace line line' read.draft.start read'.draft.start

theorem cut_suffix {left : Text} {tokens : List Token} (h : builder.cut line = (tokens, left)) :
    left <:+ trimRight line := by
  obtain ⟨s, -, hwhole⟩ :=
    spells_lex builder.draft.expected builder.draft.equalSeen (trimRight line)
  rw [cut] at h
  rw [h] at hwhole
  exact List.IsSuffix.trans ⟨s, hwhole.symm⟩ (skipBlanks_suffix _)

theorem stops_cut {left : Text} {tokens : List Token} (h : builder.cut line = (tokens, left)) :
    Stops isBlank left := by
  obtain ⟨-, hblank⟩ :=
    nextToken?_lex_left builder.draft.expected builder.draft.equalSeen (trimRight line)
  rw [cut] at h
  rwa [h] at hblank

theorem agree_blank (hline : Blanks line) :
    AgreeButGaps builder line line' (builder.report .blankLine 0) (builder.report .blankLine 0) where
  status := rfl
  system := rfl
  count := rfl
  draft := rfl
  position := fun _ => rfl
  errorPosition := by
    intro hfailed
    cases hfailed
  start := fun _ => rfl
  lineStart := fun hnot => absurd hline hnot

theorem agree_complete {read : Builder} (hrow : read.draft.row = builder.draft.row) :
    AgreeButGaps builder line line' (read.begun (trimRight line)).complete
      (read.begun (trimRight line')).complete where
  status := rfl
  system := rfl
  count := rfl
  draft := rfl
  position := fun _ => rfl
  errorPosition := by
    intro hfailed
    cases hfailed
  start := fun _ => rfl
  lineStart := by
    intro _ hkept
    exact absurd (hkept.trans hrow.symm) (Nat.succ_ne_self _)

section Agree

variable {read : Builder} (hwords : words line' = words line) (hline : ¬ Blanks line)
  (hrow : read.draft.row = builder.draft.row)

include hwords hline hrow

theorem agree_begun :
    AgreeButGaps builder line line' (read.begun (trimRight line)) (read.begun (trimRight line')) where
  status := rfl
  system := rfl
  count := rfl
  draft := rfl
  position := fun _ => rfl
  errorPosition := by
    intro hfailed
    cases hfailed
  start := by
    intro hnone
    exact absurd hrow (hnone.resolve_left hline)
  lineStart := fun _ _ =>
    samePlace_of_words hwords hline (skipBlanks_suffix _) (skipBlanks_suffix _)
      (respaced_trimRight hwords) (.inl (stops_skipBlanks _)) (.inl (stops_skipBlanks _))

theorem agree_report {fault : Status} {p p' : Int} (hfault : fault.isSuccess = false)
    (hplace : SamePlace line line' p p') :
    AgreeButGaps builder line line' ((read.begun (trimRight line)).report fault p)
      ((read.begun (trimRight line')).report fault p') where
  status := rfl
  system := rfl
  count := rfl
  draft := rfl
  position := by
    intro hsuccess
    exact absurd (hsuccess.symm.trans hfault) Bool.noConfusion
  errorPosition := fun _ => hplace
  start := (agree_begun hwords hline hrow).start
  lineStart := (agree_begun hwords hline hrow).lineStart

end Agree

section Cut

variable {tokens : List Token} {left left' : Text} (hwords : words line' = words line)
  (hline : ¬ Blanks line) (hcut : builder.cut line = (tokens, left))
  (hcut' : builder.cut line' = (tokens, left'))

include hwords hline hcut hcut'

theorem samePlace_cut (hleft : Respaced left left') :
    SamePlace line line' ((trimRight line).length - left.length : Nat)
      ((trimRight line').length - left'.length : Nat) :=
  samePlace_of_words hwords hline (cut_suffix hcut) (cut_suffix hcut') hleft
    (.inl (stops_cut hcut)) (.inl (stops_cut hcut'))

theorem samePlace_fault {fault fault' : Status} {rest rest' : Text}
    (hscan : Term.scan left = (.error fault, rest))
    (hscan' : Term.scan left' = (.error fault', rest')) (hrest : Respaced rest rest') :
    SamePlace line line'
      (Cursor.moveTo ⟨(trimRight line).length - left.length, left⟩ rest).position
      (Cursor.moveTo ⟨(trimRight line').length - left'.length, left'⟩ rest').position := by
  have hstops : ∀ {t left rest : Text} {fault : Status}, left <:+ t →
      Term.scan left = (.error fault, rest) →
      rest <:+ t ∧ StopsSolid t rest ∧
        (Cursor.moveTo ⟨t.length - left.length, left⟩ rest).position = t.length - rest.length := by
    intro t left rest fault hsuffix hscan
    have hafter : rest <:+ left := by
      have hwhole := Term.scan_suffix left
      rwa [hscan] at hwhole
    have hlength := hsuffix.length_le
    have hlength' := hafter.length_le
    obtain ⟨front, rfl⟩ := hsuffix
    refine ⟨hafter.trans (List.suffix_append front left),
      (Term.stopsSolid_of_scan hscan).prepend front, ?_⟩
    simp only [Cursor.moveTo]
    omega
  obtain ⟨hsuffix, hstop, hposition⟩ := hstops (cut_suffix hcut) hscan
  obtain ⟨hsuffix', hstop', hposition'⟩ := hstops (cut_suffix hcut') hscan'
  rw [hposition, hposition']
  exact samePlace_of_words hwords hline hsuffix hsuffix' hrest hstop hstop'

/-- What is refused on both lines is refused for the same reason and at the same place. -/
theorem Refusal.agree_gaps (hleft : Respaced left left') {step step' : Step}
    (h : Refusal ((builder.acceptAll tokens).begun (trimRight line))
      ⟨(trimRight line).length - left.length, left⟩ step)
    (h' : Refusal ((builder.acceptAll tokens).begun (trimRight line'))
      ⟨(trimRight line').length - left'.length, left'⟩ step') :
    AgreeButGaps builder line line' step.builder step'.builder := by
  have hrow := row_acceptAll builder tokens
  cases h with
  | @term fault rest hkind hfault =>
    cases h' with
    | @term fault' rest' _ hfault' =>
      obtain ⟨result, _, _, hscan, hscan', hrest⟩ := hleft.scanTerm
      obtain ⟨rfl, rfl⟩ := Prod.mk.inj (hfault.symm.trans hscan)
      obtain ⟨hsame, rfl⟩ := Prod.mk.inj (hfault'.symm.trans hscan')
      obtain rfl := Except.error.inj hsame
      exact agree_report hwords hline hrow
        (isSuccess_of_mem_tokenFaults (Term.fault_mem_of_scan hfault))
        (samePlace_fault hwords hline hcut hcut' hscan hscan' hrest)
    | noOperator hkind' _ => exact absurd (hkind.symm.trans hkind') TokenKind.noConfusion
    | secondEquals hkind' _ _ => exact absurd (hkind.symm.trans hkind') TokenKind.noConfusion
  | noOperator hkind hnone =>
    cases h' with
    | term hkind' _ => exact absurd (hkind.symm.trans hkind') TokenKind.noConfusion
    | noOperator _ _ =>
      exact @agree_begun builder line line' (builder.acceptAll tokens).dropSign hwords hline hrow
    | secondEquals _ hsome _ =>
      rcases hleft.scanOperator with ⟨-, hnone'⟩ | ⟨_, _, _, hsome', -, -⟩
      · rw [hnone'] at hsome
        cases hsome
      · rw [hsome'] at hnone
        cases hnone
  | secondEquals hkind hsome _ =>
    cases h' with
    | term hkind' _ => exact absurd (hkind.symm.trans hkind') TokenKind.noConfusion
    | noOperator _ hnone =>
      rcases hleft.scanOperator with ⟨hnone', -⟩ | ⟨_, _, _, -, hsome', -⟩
      · rw [hnone'] at hsome
        cases hsome
      · rw [hsome'] at hnone
        cases hnone
    | secondEquals _ _ _ =>
      -- which fault it is depends on whether the line starts here, that is, on its tokens
      have hplace := samePlace_cut hwords hline hcut hcut' hleft
      have hstart : ∀ {line : Text} {left : Text}, builder.cut line = (tokens, left) →
          ((((trimRight line).length - left.length : Nat) : Int) =
            ((builder.acceptAll tokens).begun (trimRight line)).draft.start ↔ tokens = []) := by
        intro line left hcut
        have hlength := length_skipBlanks_le (trimRight line)
        have hle := length_cut_le hcut
        rw [start_begun, Int.natCast_inj, ← length_cut_eq_iff hcut]
        omega
      have hmoved := @agree_report builder line line' (builder.acceptAll tokens).dropSign hwords
        hline hrow
      by_cases hnil : tokens = []
      · rw [if_pos ((hstart hcut).mpr hnil), if_pos ((hstart hcut').mpr hnil)]
        exact hmoved rfl hplace
      · rw [if_neg (mt (hstart hcut).mp hnil), if_neg (mt (hstart hcut').mp hnil)]
        exact hmoved rfl hplace

end Cut

/-- **How wide gaps are does not matter.** A line with the same words is read the same way:
with the same status, and up to columns the same state. -/
theorem agree_feed_of_words (builder : Builder) (hwords : words line' = words line) :
    AgreeButGaps builder line line' (builder.feed line) (builder.feed line') := by
  by_cases hline : Blanks line
  · rw [feed_of_blank hline, feed_of_blank ((blanks_iff_of_words hwords).mpr hline)]
    exact agree_blank hline
  have hline' := mt (blanks_iff_of_words hwords).mp hline
  obtain ⟨tokens, left, left', hcut, hcut', hleft⟩ := cut_of_words builder hwords
  by_cases hend : left = []
  · obtain rfl := hend
    obtain rfl := hleft.eq_nil_iff.mp rfl
    rw [feed_of_whole hline hcut, feed_of_whole hline' hcut', acceptAll_begun, acceptAll_begun]
    split
    · exact agree_complete (row_acceptAll builder tokens)
    · exact agree_begun hwords hline (row_acceptAll builder tokens)
  · obtain ⟨step, hrefusal, hfeed⟩ := feed_of_refused hcut hend
    obtain ⟨step', hrefusal', hfeed'⟩ := feed_of_refused hcut' (mt hleft.eq_nil_iff.mpr hend)
    rw [acceptAll_begun] at hrefusal hrefusal'
    rw [hfeed, hfeed']
    exact Refusal.agree_gaps hwords hline hcut hcut' hleft hrefusal hrefusal'

/-- The second equal sign is refused before the same sign, two columns further. -/
theorem agree_feed_of_words_secondEquals :
    words " x=1\t\t= 2\n" = words "x=1 = 2" ∧
      (Builder.feed {} "x=1 = 2").draft.status = .multipleEqualSigns ∧
      (Builder.feed {} "x=1 = 2").draft.position = 4 ∧
      (Builder.feed {} " x=1\t\t= 2\n").draft.position = 6 ∧
      AgreeButGaps {} "x=1 = 2" " x=1\t\t= 2\n" (Builder.feed {} "x=1 = 2")
        (Builder.feed {} " x=1\t\t= 2\n") :=
  have hwords : words " x=1\t\t= 2\n" = words "x=1 = 2" := by decide +kernel
  ⟨hwords, by decide +kernel, by decide +kernel, by decide +kernel,
    agree_feed_of_words {} hwords⟩

end Builder

end EquationPad
