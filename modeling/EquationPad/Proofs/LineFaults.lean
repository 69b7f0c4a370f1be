import EquationPad.Proofs.Verdicts

/-! What is wrong with a line, said of the text where reading stops. Tokens are accepted one by
one until the line is at its end or the token that is due is not there; then the status tells what
stands in its place and the column tells where. Only faults inside a number are left to the
scanners. Of the rest there are three: an equal sign where the equation has one already, a term
that is missing, and anything else in the place of an operator, which is no fault. -/

namespace EquationPad

/-! ## Missing terms -/

/-- Where a term is due there is none. After a sign and blanks comes no number, and then no name;
in the place of the number there may be a lone point, which has neither a digit nor another point
behind it. What is left begins where the name would be. -/
inductive NoTerm : Text → Text → Prop
  | bare {sign b rest} : (sign = none → Stops isSignChar (b ++ rest)) → Blanks b →
      Stops isBlank rest → Stops isNumeralChar rest → Stops isNameChar rest →
      NoTerm (signText sign ++ (b ++ rest)) rest
  | lonePoint {sign b₁ b₂ rest} : Blanks b₁ → Blanks b₂ → Stops isNumeralChar (b₂ ++ rest) →
      Stops isBlank rest → Stops isNameChar rest →
      NoTerm (signText sign ++ (b₁ ++ '.' :: (b₂ ++ rest))) rest

theorem stops_scanNumeralFrom {digits : Nat} {point : Bool} {text : Text}
    (h : (scanNumeralFrom digits point text).fault = none) :
    Stops isNumeralChar (scanNumeralFrom digits point text).rest := by
  fun_induction scanNumeralFrom digits point text with
  | case1 => exact stops_nil _
  | case2 _ _ _ _ _ _ ih => exact ih h
  | case3 => cases h
  | case4 => cases h
  | case5 _ _ _ _ _ ih => exact ih h
  | case6 _ _ c rest hdigit hpoint =>
    exact stops_cons.mpr (Bool.or_eq_false_iff.mpr
      ⟨Bool.eq_false_of_not_eq_true hdigit, decide_eq_false hpoint⟩)

theorem stops_scanNumeral {text : Text} (h : (scanNumeral text).fault = none) :
    Stops isNumeralChar (scanNumeral text).rest := by
  unfold scanNumeral at h ⊢
  dsimp only at h ⊢
  split at h
  · cases h
  · rename_i hfits
    rw [if_neg hfits]
    exact stops_scanNumeralFrom h

/-- There is no number exactly if there is nothing of one, or a lone point. -/
theorem scanLiteral_eq_none_iff {text rest : Text} :
    scanLiteral text = (.ok none, rest) ↔
      ∃ point, (point = [] ∨ point = ['.']) ∧ text = point ++ rest ∧ Stops isNumeralChar rest := by
  constructor
  · intro h
    obtain ⟨point, hpoint, htext⟩ := point_of_scanLiteral h
    refine ⟨point, hpoint, htext, ?_⟩
    unfold scanLiteral at h
    dsimp only at h
    split at h
    · cases h
    · rename_i hfault
      split at h
      · cases h
        exact stops_scanNumeral hfault
      · split at h
        · simp only [Prod.mk.injEq] at h
          obtain ⟨hnone, -⟩ := h
          revert hnone
          cases (scanExponent _).1 <;> simp [Except.map]
        · cases h
  · rintro ⟨point, hpoint, rfl, hrest⟩
    exact scanLiteral_point_append hpoint hrest

namespace Term

theorem scan_of_no_parts {text r₁ r₂ rest : Text} {sign : Option Sign}
    (hsign : scanSign text = (sign, r₁)) (hnumber : scanLiteral (skipBlanks r₁) = (.ok none, r₂))
    (hrest : skipBlanks r₂ = rest) (hname : Stops isNameChar rest) :
    scan text = (.error .noTermEncountered, rest) := by
  have hnone : scanName rest = ([], rest) := @scanName_append_eq [] rest (by simp) hname
  simp [scan, hsign, hnumber, hrest, hnone, ofParts?]

theorem noTerm_of_scan {text rest : Text} (h : scan text = (.error .noTermEncountered, rest)) :
    NoTerm text rest := by
  have hsign := signText_append_scanSign text
  obtain ⟨b₁, hb₁, hspace₁⟩ := exists_blanks_append (scanSign text).2
  unfold scan at h
  dsimp only at h
  split at h
  · rename_i fault after hnumber
    cases h
    exact absurd (fault_mem_of_scanLiteral hnumber) (by decide)
  · rename_i number after hnumber
    obtain ⟨b₂, hb₂, hspace₂⟩ := exists_blanks_append after
    split at h
    · cases h
    · rename_i hparts
      cases h
      have hname : (scanName (skipBlanks after)).1 = [] := by
        by_contra hne
        rw [ofParts?_name hne] at hparts
        cases hparts
      have hstops : Stops isNameChar (skipBlanks after) := by
        have hwhole := scanName_append (skipBlanks after)
        rw [hname, List.nil_append] at hwhole
        rw [← hwhole]
        exact stops_dropWhile isNameChar (skipBlanks after)
      rw [hname] at hparts
      cases number with
      | some number => cases hparts
      | none =>
        obtain ⟨point, hpoint, htext, hnumeral⟩ := scanLiteral_eq_none_iff.mp hnumber
        rcases hpoint with rfl | rfl
        · have hblank : Stops isBlank after := by
            have := stops_skipBlanks (scanSign text).2
            rwa [htext] at this
          have hwhole : text = signText (scanSign text).1 ++ (b₁ ++ after) := by
            rw [← List.nil_append after, ← htext, ← hspace₁, hsign]
          rw [skipBlanks_eq_self hblank] at hstops ⊢
          rw [hwhole]
          refine .bare ?_ hb₁ hblank hnumeral hstops
          intro hnone
          have hfirst := stops_of_scanSign hnone
          rwa [hwhole, hnone] at hfirst
        · have hwhole : text =
              signText (scanSign text).1 ++ (b₁ ++ '.' :: (b₂ ++ skipBlanks after)) := by
            rw [← hspace₂, ← List.singleton_append, ← htext, ← hspace₁, hsign]
          rw [hwhole]
          refine .lonePoint hb₁ hb₂ ?_ (stops_skipBlanks after) hstops
          rwa [← hspace₂]

/-- A term is missing exactly if the scan says so. -/
theorem scan_eq_noTerm_iff {text rest : Text} :
    scan text = (.error .noTermEncountered, rest) ↔ NoTerm text rest := by
  refine ⟨noTerm_of_scan, ?_⟩
  intro h
  cases h with
  | @bare sign b rest hsign hb hblank hnumeral hname =>
    refine scan_of_no_parts (scanSign_signText_append hsign) ?_ (skipBlanks_eq_self hblank) hname
    rw [skipBlanks_append hb hblank]
    exact scanLiteral_point_append (.inl rfl) hnumeral
  | @lonePoint sign b₁ b₂ rest hb₁ hb₂ hnumeral hblank hname =>
    have hpoint : Stops isOperatorChar ('.' :: (b₂ ++ rest)) := stops_cons.mpr rfl
    refine scan_of_no_parts
      (scanSign_before_operand sign (hb₁.stops blank_apart_operator hpoint)) ?_
      (skipBlanks_append hb₂ hblank) hname
    rw [skipBlanks_append hb₁ (stops_cons.mpr rfl)]
    exact scanLiteral_point_append (.inr rfl) hnumeral

end Term

/-! ## Where a token is due -/

namespace Builder

/-- The first place of a line that is not blank. -/
def firstPlace (line : Text) : Cursor := (Cursor.ofLine (trimRight line) 0).skipBlanks

/-- The places where a token of a line is due, with the builder there: the first place that is not
blank, and behind each token that is accepted the next one. The line may be at its end there. -/
inductive Due (builder : Builder) (line : Text) : Builder → Cursor → Prop
  | first : Due builder line (builder.begun (trimRight line)) (firstPlace line)
  | next {b c} : Due builder line b c → (b.take c).accepted = true →
      Due builder line (b.take c).builder (b.take c).cursor.skipBlanks

variable {builder b : Builder} {line : Text} {c : Cursor}

theorem run_skipBlanks (b : Builder) (c : Cursor) : b.run c.skipBlanks = b.run c := by
  have hspace : c.skipBlanks.skipBlanks = c.skipBlanks :=
    Cursor.skipBlanks_of_stops (stops_skipBlanks c.rest)
  rw [run_eq_ite, hspace, run_eq_ite b c]

/-- What is known where a token is due. -/
structure Ready (line : Text) (b : Builder) (c : Cursor) : Prop where
  notBlank : Stops isBlank c.rest
  whole : c.position + c.rest.length = (trimRight line).length
  first_le : (firstPlace line).position ≤ c.position
  start : b.draft.start = (firstPlace line).position
  status : b.draft.status = .success
  position : b.draft.position = 0

theorem position_firstPlace_add (line : Text) :
    (firstPlace line).position + (firstPlace line).rest.length = (trimRight line).length := by
  have hle := length_skipBlanks_le (trimRight line)
  simp only [firstPlace, Cursor.ofLine, Cursor.skipBlanks, Cursor.moveTo, List.drop_zero]
  omega

theorem start_begun_eq (builder : Builder) (line : Text) :
    (builder.begun (trimRight line)).draft.start = (firstPlace line).position := by
  simp [firstPlace, Cursor.ofLine, Cursor.skipBlanks, Cursor.moveTo]

theorem readLine_eq_run (builder : Builder) (line : Text) :
    builder.readLine line = (builder.begun (trimRight line)).run (firstPlace line) := by
  have hbegun : builder.begun (trimRight line) = { builder with draft := { builder.draft with
      start := (firstPlace line).position, status := .success, position := 0 } } := by
    rw [← start_begun_eq builder line]
    rfl
  rw [hbegun]
  rfl

theorem Due.ready (h : Due builder line b c) : Ready line b c := by
  induction h with
  | first =>
    exact ⟨stops_skipBlanks _, position_firstPlace_add line, Nat.le_refl _,
      start_begun_eq builder line, rfl, rfl⟩
  | @next b c _ haccepted ih =>
    obtain ⟨token, rest, hnext⟩ := nextToken?_of_accepted haccepted ih.notBlank ih.status
    have hlt := length_nextToken?_lt hnext
    have hle := length_skipBlanks_le rest
    have hwhole := ih.whole
    have hfirst := ih.first_le
    rw [take_of_some hnext ih.notBlank]
    refine ⟨stops_skipBlanks _, ?_, ?_, ?_, ?_, ?_⟩
    · simp only [Cursor.skipBlanks, Cursor.moveTo]
      omega
    · simp only [Cursor.skipBlanks, Cursor.moveTo]
      omega
    · rw [← ih.start]
      cases token <;> rfl
    · rw [status_accept, ih.status]
    · rw [← ih.position]
      cases token <;> rfl

/-- Reading the line is reading on from there. -/
theorem Due.readLine (h : Due builder line b c) : builder.readLine line = b.run c := by
  induction h with
  | first => exact readLine_eq_run builder line
  | @next b c hdue haccepted ih =>
    have hready := hdue.ready
    have hspace : c.skipBlanks = c := Cursor.skipBlanks_of_stops hready.notBlank
    obtain ⟨token, rest, hnext⟩ := nextToken?_of_accepted haccepted hready.notBlank hready.status
    have hend : c.isAtEnd = false := by
      have hlt := length_nextToken?_lt hnext
      cases hrest : c.rest with
      | nil => rw [hrest] at hlt; cases hlt
      | cons d rest => simp [Cursor.isAtEnd, hrest]
    rw [ih, run_eq_ite, hspace, run_skipBlanks]
    simp only [hend, haccepted, Bool.false_eq_true, if_false, if_true]

/-- Somewhere the token that is due is not there. -/
theorem Due.last {b : Builder} {c : Cursor} (h : Due builder line b c) :
    ∃ b' c', Due builder line b' c' ∧
      nextToken? b'.draft.expected b'.draft.equalSeen c'.rest = none := by
  cases hnext : nextToken? b.draft.expected b.draft.equalSeen c.rest with
  | none => exact ⟨b, c, h, hnext⟩
  | some found =>
    have hblank := h.ready.notBlank
    have hlt := length_nextToken?_lt hnext
    have hle := length_skipBlanks_le found.2
    have hshort : ((b.take c).cursor.skipBlanks).rest.length < c.rest.length := by
      rw [take_of_some hnext hblank]
      exact Nat.lt_of_le_of_lt hle hlt
    exact (h.next (by rw [take_of_some hnext hblank])).last
termination_by c.rest.length

theorem Due.notBlanks (h : Due builder line b c) (hrest : c.rest ≠ []) : ¬ Blanks line := by
  intro hblank
  have hwhole := h.ready.whole
  rw [trimRight_eq_nil_iff.mpr hblank, List.length_nil] at hwhole
  exact hrest (List.length_eq_zero_iff.mp (by omega))

/-- What is not at its end there is refused. -/
theorem Due.refused (h : Due builder line b c) (hrest : c.rest ≠ [])
    (hnone : nextToken? b.draft.expected b.draft.equalSeen c.rest = none) :
    ∃ step, Refusal b c step ∧ builder.feed line = step.builder := by
  have hready := h.ready
  have hrefusal := refusal_take hnone hready.notBlank hready.status
  have hspace : c.skipBlanks = c := Cursor.skipBlanks_of_stops hready.notBlank
  have hend : c.isAtEnd = false := by simpa [Cursor.isAtEnd] using hrest
  have hread : builder.readLine line = ((b.take c).builder, (b.take c).cursor) := by
    rw [h.readLine, run_eq_ite, hspace]
    simp only [hend, hrefusal.accepted, Bool.false_eq_true, if_false]
  refine ⟨b.take c, hrefusal, ?_⟩
  rw [feed_eq (h.notBlanks hrest), hread, if_neg]
  intro hdone
  exact hrefusal.not_finished hrest hdone.1 hdone.2.1

/-- A line that is not blank is read to its end, or a token is refused. -/
theorem success_or_refused (builder : Builder) {line : Text} (hline : ¬ Blanks line) :
    (builder.feed line).draft.status = .success ∨
      ∃ b c step, Due builder line b c ∧ c.rest ≠ [] ∧ Refusal b c step ∧
        builder.feed line = step.builder := by
  obtain ⟨b, c, hdue, hnone⟩ := (Due.first : Due builder line _ _).last
  have hready := hdue.ready
  by_cases hrest : c.rest = []
  · left
    have hspace : c.skipBlanks = c := Cursor.skipBlanks_of_stops hready.notBlank
    have hread : builder.readLine line = (b, c) := by
      rw [hdue.readLine, run_eq_ite, hspace]
      simp [Cursor.isAtEnd, hrest]
    rw [feed_eq hline, hread]
    split <;> simp [complete, Draft.next_eq, hready.status]
  · right
    obtain ⟨step, hrefusal, hfeed⟩ := hdue.refused hrest hnone
    exact ⟨b, c, step, hdue, hrest, hrefusal, hfeed⟩

/-! ## What stands in the place of a token -/

/-- The number of blanks before the first character that is none. -/
def indent (line : Text) : Nat := (line.takeWhile isBlank).length

/-- An operator is due at this column, and there stands an equal sign although the equation has
one already. -/
def SecondEquals (builder : Builder) (line : Text) (column : Nat) : Prop :=
  ∃ b c rest, Due builder line b c ∧ b.draft.expected = .operator ∧ b.draft.equalSeen = true ∧
    c.rest = '=' :: rest ∧ c.position = column

/-- A term is due and missing in the given sense, which also tells what is left at the column. -/
def TermMissing (missing : Text → Text → Prop) (builder : Builder) (line : Text) (column : Nat) :
    Prop :=
  ∃ b c rest, Due builder line b c ∧ b.draft.expected = .term ∧ c.rest ≠ [] ∧
    missing c.rest rest ∧ (c.moveTo rest).position = column

/-- An operator is due, and the character in its place starts none. -/
def NoOperator (builder : Builder) (line : Text) : Prop :=
  ∃ b c d rest, Due builder line b c ∧ b.draft.expected = .operator ∧ c.rest = d :: rest ∧
    isOperatorChar d = false

theorem position_firstPlace {line : Text} (hline : ¬ Blanks line) :
    (firstPlace line).position = indent line := by
  obtain ⟨b, hb, htrim⟩ := exists_blanks_append (trimRight line)
  obtain ⟨b', -, hwhole⟩ := exists_append_blanks line
  have hwhole' : line = b ++ (skipBlanks (trimRight line) ++ b') := by
    rw [← List.append_assoc, ← htrim]
    exact hwhole
  have hstops : Stops isBlank (skipBlanks (trimRight line) ++ b') := by
    have hstop := stops_skipBlanks (trimRight line)
    cases hrest : skipBlanks (trimRight line) with
    | nil =>
      exact absurd (trimRight_eq_nil_iff.mp (skipBlanks_trimRight_eq_nil_iff.mp hrest)) hline
    | cons d rest =>
      rw [hrest] at hstop
      exact hstop
  have hlength : (trimRight line).length = b.length + (skipBlanks (trimRight line)).length := by
    rw [← List.length_append, ← htrim]
  have hplace := position_firstPlace_add line
  have hrest : (firstPlace line).rest = skipBlanks (trimRight line) := rfl
  have hindent : line.takeWhile isBlank = b := by
    rw [hwhole']
    exact takeWhile_append hb hstops
  rw [hrest] at hplace
  rw [indent, hindent]
  omega

theorem SecondEquals.feed {column : Nat} (h : SecondEquals builder line column) :
    (builder.feed line).draft.position = column ∧
      (builder.feed line).draft.status =
        if column = indent line then .illegalEquation else .multipleEqualSigns := by
  obtain ⟨b, c, rest, hdue, hkind, hseen, hrest, rfl⟩ := h
  have hready := hdue.ready
  have hne : c.rest ≠ [] := by simp [hrest]
  have hnone : nextToken? b.draft.expected b.draft.equalSeen c.rest = none := by
    simp [nextToken?, hkind, hrest, Operator.scan?, Operator.isEquals, hseen]
  obtain ⟨step, hrefusal, hfeed⟩ := hdue.refused hne hnone
  rw [hfeed, ← position_firstPlace (hdue.notBlanks hne)]
  cases hrefusal with
  | term hterm _ => rw [hkind] at hterm; cases hterm
  | noOperator _ hscan => simp [hrest, Operator.scan?] at hscan
  | secondEquals _ _ _ =>
    refine ⟨rfl, ?_⟩
    simp only [report, Draft.report, hready.start, Nat.cast_inj]

theorem TermMissing.feed {column : Nat} (h : TermMissing NoTerm builder line column) :
    (builder.feed line).draft.position = column ∧
      (builder.feed line).draft.status = .noTermEncountered := by
  obtain ⟨b, c, rest, hdue, hkind, hne, hmissing, rfl⟩ := h
  have hscan := Term.scan_eq_noTerm_iff.mpr hmissing
  have hnone : nextToken? b.draft.expected b.draft.equalSeen c.rest = none := by
    simp [nextToken?, hkind, hscan]
  obtain ⟨step, hrefusal, hfeed⟩ := hdue.refused hne hnone
  rw [hfeed]
  cases hrefusal with
  | term _ hfault =>
    rw [hscan] at hfault
    cases hfault
    exact ⟨rfl, rfl⟩
  | noOperator hoperator _ => rw [hkind] at hoperator; cases hoperator
  | secondEquals hoperator _ _ => rw [hkind] at hoperator; cases hoperator

theorem NoOperator.feed (h : NoOperator builder line) :
    (builder.feed line).draft.status = .success ∧ (builder.feed line).draft.position = 0 ∧
      (builder.feed line).draft.expected = .operator := by
  obtain ⟨b, c, d, rest, hdue, hkind, hrest, hd⟩ := h
  have hready := hdue.ready
  have hne : c.rest ≠ [] := by simp [hrest]
  have hscan : Operator.scan? c.rest = none := by
    rw [hrest]
    exact Operator.scan?_of_stops (stops_cons.mpr hd)
  have hnone : nextToken? b.draft.expected b.draft.equalSeen c.rest = none := by
    simp [nextToken?, hkind, hscan]
  obtain ⟨step, hrefusal, hfeed⟩ := hdue.refused hne hnone
  rw [hfeed]
  cases hrefusal with
  | term hterm _ => rw [hkind] at hterm; cases hterm
  | noOperator _ _ => exact ⟨hready.status, hready.position, hkind⟩
  | secondEquals _ hsome _ => rw [hscan] at hsome; cases hsome

/-- The column of a fault is not before the token that is refused. -/
theorem Due.column_of_refusal {step : Step} (h : Due builder line b c) (hrefusal : Refusal b c step)
    (hfailed : step.builder.draft.status.isSuccess = false) :
    (c.position : Int) ≤ step.builder.draft.position ∧
      step.builder.draft.position ≤ (trimRight line).length := by
  have hready := h.ready
  have hwhole := hready.whole
  cases hrefusal with
  | @term fault left _ _ =>
    show (c.position : Int) ≤ (c.moveTo left).position ∧
      ((c.moveTo left).position : Int) ≤ (trimRight line).length
    simp only [Cursor.moveTo]
    omega
  | noOperator _ _ =>
    change b.draft.status.isSuccess = false at hfailed
    rw [hready.status] at hfailed
    cases hfailed
  | secondEquals _ _ _ =>
    show (c.position : Int) ≤ c.position ∧ (c.position : Int) ≤ (trimRight line).length
    omega

/-! ## What a line is told -/

/-- The status of a line, its column and what they tell of the line. -/
structure Classified (builder : Builder) (line : Text) : Prop where
  status : (builder.feed line).draft.status ∈ lineStatuses
  blank : (builder.feed line).draft.status = .blankLine ↔ Blanks line
  secondEquals : (builder.feed line).draft.status = .multipleEqualSigns ∨
      (builder.feed line).draft.status = .illegalEquation ↔
    ∃ column, SecondEquals builder line column
  equalsColumn : ∀ column, SecondEquals builder line column →
    (builder.feed line).draft.position = column ∧
      ((builder.feed line).draft.status = .illegalEquation ↔ column = indent line)
  termMissing : (builder.feed line).draft.status = .noTermEncountered ↔
    ∃ column, TermMissing NoTerm builder line column
  termColumn : ∀ column, TermMissing NoTerm builder line column →
    (builder.feed line).draft.position = column
  noOperator : NoOperator builder line → (builder.feed line).draft.status = .success ∧
    (builder.feed line).draft.position = 0 ∧ (builder.feed line).draft.expected = .operator
  column : (builder.feed line).draft.status.isSuccess = false →
    (indent line : Int) ≤ (builder.feed line).draft.position ∧
      (builder.feed line).draft.position ≤ (trimRight line).length

/-- What a line is told, and why. -/
inductive Told (builder : Builder) (line : Text) : Status → Prop
  | blank : Blanks line → Told builder line .blankLine
  | success : Told builder line .success
  | secondEquals {column} : SecondEquals builder line column → Told builder line .multipleEqualSigns
  | startsWithEquals {column} : SecondEquals builder line column →
      Told builder line .illegalEquation
  | termMissing {column} : TermMissing NoTerm builder line column →
      Told builder line .noTermEncountered
  | number {fault} : fault ∈ numberFaults → Told builder line fault

theorem told_of_refusal {step : Step} (hdue : Due builder line b c) (hrest : c.rest ≠ [])
    (hrefusal : Refusal b c step) : Told builder line step.builder.draft.status := by
  cases hrefusal with
  | @term fault left hkind hscan =>
    rcases List.mem_cons.mp (Term.fault_mem_of_scan hscan) with rfl | hnumber
    · exact .termMissing ⟨b, c, left, hdue, hkind, hrest, Term.scan_eq_noTerm_iff.mp hscan, rfl⟩
    · exact .number hnumber
  | noOperator _ _ =>
    show Told builder line b.draft.status
    rw [hdue.ready.status]
    exact .success
  | @secondEquals o left hkind hscan hsecond =>
    obtain ⟨hequals, hseen⟩ := Bool.and_eq_true_iff.mp hsecond
    obtain ⟨htext, -⟩ := Operator.scan?_eq_some_iff.mp hscan
    cases o with
    | additive sign => cases hequals
    | equals sign =>
      have hfound : SecondEquals builder line c.position :=
        ⟨b, c, _, hdue, hkind, hseen, htext, rfl⟩
      show Told builder line (if _ then .illegalEquation else .multipleEqualSigns)
      split
      · exact .startsWithEquals hfound
      · exact .secondEquals hfound

theorem told_feed (builder : Builder) (line : Text) :
    Told builder line (builder.feed line).draft.status := by
  by_cases hline : Blanks line
  · rw [feed_of_blank hline]
    exact .blank hline
  · rcases success_or_refused builder hline with h | ⟨b, c, step, hdue, hrest, hrefusal, hfeed⟩
    · rw [h]
      exact .success
    · rw [hfeed]
      exact told_of_refusal hdue hrest hrefusal

/-- A fault is placed between the blanks around the line. -/
theorem column_feed (hfailed : (builder.feed line).draft.status.isSuccess = false) :
    (indent line : Int) ≤ (builder.feed line).draft.position ∧
      (builder.feed line).draft.position ≤ (trimRight line).length := by
  have hline : ¬ Blanks line := by
    intro hline
    rw [feed_of_blank hline] at hfailed
    cases hfailed
  rcases success_or_refused builder hline with h | ⟨b, c, step, hdue, -, hrefusal, hfeed⟩
  · rw [h] at hfailed
    cases hfailed
  · rw [hfeed] at hfailed ⊢
    obtain ⟨hfirst, hlast⟩ := hdue.column_of_refusal hrefusal hfailed
    have hindent := hdue.ready.first_le
    rw [position_firstPlace hline] at hindent
    exact ⟨by omega, hlast⟩

/-- **What a line is told.** A line is blank exactly if its status says so. Of the faults that a
line can have, an equal sign too many and a missing term are reported exactly where they are, and
an equal sign at the start of a line is blamed on the line before. Anything else in the place of an
operator is no fault. The column of a fault is never in the blanks before or behind the line. -/
theorem classified_feed (builder : Builder) (line : Text) : Classified builder line where
  status := status_feed_mem builder line
  blank := by
    constructor
    · intro hstatus
      have htold := told_feed builder line
      rw [hstatus] at htold
      cases htold with
      | blank hline => exact hline
      | number hfault => exact absurd hfault (by decide)
    · intro hline
      rw [feed_of_blank hline]
      rfl
  secondEquals := by
    constructor
    · intro hstatus
      have htold := told_feed builder line
      rcases hstatus with hstatus | hstatus
      · rw [hstatus] at htold
        cases htold with
        | secondEquals h => exact ⟨_, h⟩
        | number hfault => exact absurd hfault (by decide)
      · rw [hstatus] at htold
        cases htold with
        | startsWithEquals h => exact ⟨_, h⟩
        | number hfault => exact absurd hfault (by decide)
    · rintro ⟨column, h⟩
      rw [h.feed.2]
      split
      · exact .inr rfl
      · exact .inl rfl
  equalsColumn column h := by
    refine ⟨h.feed.1, ?_⟩
    rw [h.feed.2]
    split <;> simp_all
  termMissing := by
    constructor
    · intro hstatus
      have htold := told_feed builder line
      rw [hstatus] at htold
      cases htold with
      | termMissing h => exact ⟨_, h⟩
      | number hfault => exact absurd hfault (by decide)
    · rintro ⟨column, h⟩
      exact h.feed.2
  termColumn column h := h.feed.1
  noOperator h := h.feed
  column := column_feed

/-! ## What is no missing term -/

/-- What is left behind a sign, blanks, a lone point and blanks. -/
def behindPoint (text : Text) : Text :=
  match skipBlanks (scanSign text).2 with
  | '.' :: rest =>
    if (rest.head?.all fun d => !isNumeralChar d) then skipBlanks rest else '.' :: rest
  | rest => rest

/-- There stands neither a number with a digit nor a name. -/
def LacksOperand (text rest : Text) : Prop :=
  rest = behindPoint text ∧ (rest.takeWhile isNumeralChar).any isDigit = false ∧
    Stops isNameChar rest

/-- If the first token is refused, no other is due. -/
theorem Due.eq_first (h : Due builder line b c)
    (hrefused : ((builder.begun (trimRight line)).take (firstPlace line)).accepted = false) :
    b = builder.begun (trimRight line) ∧ c = firstPlace line := by
  induction h with
  | first => exact ⟨rfl, rfl⟩
  | next _ haccepted ih =>
    rw [ih.1, ih.2, hrefused] at haccepted
    cases haccepted

/-- A term is not missing wherever neither a number with a digit nor a name stands: two points are
a fault of their own. And it may be missing although a number stands there, for behind a lone point
none is looked for. -/
theorem points_of_missingTerm :
    ¬ ((Builder.feed {} "..").draft.status = .noTermEncountered ↔
        ∃ column, TermMissing LacksOperand {} ".." column) ∧
      ¬ ((Builder.feed {} ". 5").draft.status = .noTermEncountered ↔
        ∃ column, TermMissing LacksOperand {} ". 5" column) := by
  constructor
  · intro hiff
    have hmissing : TermMissing LacksOperand {} ".." 0 :=
      ⟨_, _, "..", .first, rfl, by decide, ⟨by decide, by decide, stops_cons.mpr rfl⟩, by decide⟩
    have hstatus := hiff.mpr ⟨0, hmissing⟩
    exact absurd hstatus (by decide +kernel)
  · intro hiff
    obtain ⟨column, b, c, rest, hdue, -, -, ⟨hrest, hdigit, -⟩, -⟩ :=
      hiff.mp (by decide +kernel)
    have hfirst : c.rest = ". 5" := by
      rw [(hdue.eq_first (by decide +kernel)).2]
      decide
    rw [hrest, hfirst] at hdigit
    exact absurd hdigit (by decide)

end Builder

end EquationPad
