import EquationPad.Proofs.Scanning

/-! How far a number is read, said of the longest run of digits and points that stands at a place.
A run that fits is the text of a number, or of a lone point, and is taken whole. One that does not
fit has a second point, a digit too many, or twenty digits and a point, and what comes first of
these decides the fault and its place. In an exponent all of them are one fault, and only having no
digit is another. -/

namespace EquationPad

/-! ## Runs -/

/-- The longest run of digits and points at the start of a text. -/
def numeralRun (text : Text) : Text := text.takeWhile isNumeralChar

structure RunFits (run : Text) : Prop where
  length : run.length ≤ 20
  points : run.count '.' ≤ 1

/-- The second point is at this column of the run, behind at most twenty digits. -/
def SecondPoint (run : Text) (column : Nat) : Prop :=
  ∃ before after, run = before ++ '.' :: after ∧ before.length = column ∧
    before.count '.' = 1 ∧ before.countP isDigit ≤ 20

/-- The digit behind twenty others is at this column of the run. -/
def DigitTooMany (run : Text) (column : Nat) : Prop :=
  ∃ before digit after, run = before ++ digit :: after ∧ before.length = column ∧
    isDigit digit = true ∧ before.countP isDigit = 20

theorem length_of_numeralChars {run : Text} (h : ∀ c ∈ run, isNumeralChar c = true) :
    run.length = run.countP isDigit + run.count '.' := by
  rw [List.length_eq_countP_add_countP isDigit, List.count]
  congr 1
  refine List.countP_congr fun c hc => ?_
  have hchar : isDigit c = true ∨ c = '.' := by simpa [isNumeralChar] using h c hc
  rcases hchar with hdigit | rfl
  · have hpoint : c ≠ '.' := by rintro rfl; cases hdigit
    simp [hdigit, hpoint]
  · simp [isDigit]

theorem isNumeralChar_of_mem_numeralRun {text : Text} :
    ∀ c ∈ numeralRun text, isNumeralChar c = true :=
  List.all_eq_true.mp List.all_takeWhile

theorem numeralRun_append {run rest : Text} (h : ∀ c ∈ run, isNumeralChar c = true)
    (hrest : Stops isNumeralChar rest) : numeralRun (run ++ rest) = run :=
  takeWhile_append h hrest

/-- The places of two characters in a text are the same, or one is before the other. -/
theorem append_cons_cases {α : Type} {a b a' b' : List α} {x y : α}
    (h : a ++ x :: b = a' ++ y :: b') :
    (a = a' ∧ x = y) ∨ (∃ c, a' = a ++ x :: c) ∨ ∃ c, a = a' ++ y :: c := by
  rcases List.append_eq_append_iff.mp h with ⟨c, rfl, hc⟩ | ⟨c, rfl, hc⟩
  · cases c with
    | nil => exact .inl ⟨by simp, (List.cons.inj hc).1⟩
    | cons d c =>
      obtain ⟨rfl, -⟩ := List.cons.inj hc
      exact .inr (.inl ⟨c, rfl⟩)
  · cases c with
    | nil => exact .inl ⟨by simp, (List.cons.inj hc).1.symm⟩
    | cons d c =>
      obtain ⟨rfl, -⟩ := List.cons.inj hc
      exact .inr (.inr ⟨c, rfl⟩)

/-- There is one place only with a given number of such characters before it. -/
theorem eq_of_countP_eq {p : Char → Bool} {a b a' b' : Text} {x y : Char}
    (h : a ++ x :: b = a' ++ y :: b') (hx : p x = true) (hy : p y = true)
    (hcount : a.countP p = a'.countP p) : a = a' := by
  rcases append_cons_cases h with ⟨rfl, -⟩ | ⟨c, rfl⟩ | ⟨c, rfl⟩
  · rfl
  · rw [List.countP_append, List.countP_cons_of_pos hx] at hcount
    omega
  · rw [List.countP_append, List.countP_cons_of_pos hy] at hcount
    omega

/-! ## What is taken of a run -/

/-- What is taken of a run behind `digits` digits and `points` points, with the fault. -/
inductive TakenBehind (digits points : Nat) (run : Text) : Text → Option Status → Prop
  | whole : digits + run.countP isDigit ≤ 20 → points + run.count '.' ≤ 1 →
      TakenBehind digits points run run none
  | secondPoint {before after} : run = before ++ '.' :: after →
      points + before.count '.' = 1 → digits + before.countP isDigit ≤ 20 →
      TakenBehind digits points run before (some .multipleDecimalPoints)
  | digitTooMany {before digit after} : run = before ++ digit :: after → isDigit digit = true →
      points + before.count '.' ≤ 1 → digits + before.countP isDigit = 20 →
      TakenBehind digits points run (before ++ [digit]) (some .tooManyDigits)

namespace TakenBehind

variable {digits points : Nat} {run lexeme : Text} {fault : Option Status}

theorem digit {c : Char} (hc : isDigit c = true)
    (h : TakenBehind (digits + 1) points run lexeme fault) :
    TakenBehind digits points (c :: run) (c :: lexeme) fault := by
  have hpoint : c ≠ '.' := by rintro rfl; cases hc
  have hcount : ∀ text : Text, (c :: text).count '.' = text.count '.' :=
    fun text => List.count_cons_of_ne hpoint
  have hdigits : ∀ text : Text, (c :: text).countP isDigit = text.countP isDigit + 1 :=
    fun text => List.countP_cons_of_pos hc
  cases h with
  | whole hfits hpoints =>
    exact .whole (by rw [hdigits]; omega) (by rw [hcount]; exact hpoints)
  | @secondPoint before after hrun hpoints hfits =>
    exact @secondPoint _ _ _ (c :: _) after (congrArg (c :: ·) hrun) (by rw [hcount]; exact hpoints)
      (by rw [hdigits]; omega)
  | @digitTooMany before digit after hrun hdigit hpoints hfull =>
    exact @digitTooMany _ _ _ (c :: _) digit after (congrArg (c :: ·) hrun) hdigit
      (by rw [hcount]; exact hpoints) (by rw [hdigits]; omega)

theorem point (h : TakenBehind digits (points + 1) run lexeme fault) :
    TakenBehind digits points ('.' :: run) ('.' :: lexeme) fault := by
  have hcount : ∀ text : Text, ('.' :: text).count '.' = text.count '.' + 1 :=
    fun text => List.count_cons_self
  have hdigits : ∀ text : Text, ('.' :: text).countP isDigit = text.countP isDigit :=
    fun text => List.countP_cons_of_neg (by decide)
  cases h with
  | whole hfits hpoints =>
    exact .whole (by rw [hdigits]; exact hfits) (by rw [hcount]; omega)
  | @secondPoint before after hrun hpoints hfits =>
    exact @secondPoint _ _ _ ('.' :: _) after (congrArg ('.' :: ·) hrun) (by rw [hcount]; omega)
      (by rw [hdigits]; exact hfits)
  | @digitTooMany before digit after hrun hdigit hpoints hfull =>
    exact @digitTooMany _ _ _ ('.' :: _) digit after (congrArg ('.' :: ·) hrun) hdigit
      (by rw [hcount]; omega) (by rw [hdigits]; exact hfull)

end TakenBehind

theorem numeralRun_cons {c : Char} (h : isNumeralChar c = true) (rest : Text) :
    numeralRun (c :: rest) = c :: numeralRun rest := List.takeWhile_cons_of_pos h

theorem takenBehind_scanNumeralFrom (digits : Nat) (point : Bool) (text : Text)
    (h : digits ≤ 20) :
    TakenBehind digits point.toNat (numeralRun text) (scanNumeralFrom digits point text).lexeme
      (scanNumeralFrom digits point text).fault := by
  fun_induction scanNumeralFrom digits point text with
  | case1 digits point => exact .whole h (by cases point <;> decide)
  | case2 digits point c rest hc hroom ih =>
    rw [numeralRun_cons (by simp [isNumeralChar, hc])]
    exact (ih hroom).digit hc
  | case3 digits point c rest hc hfull =>
    rw [numeralRun_cons (by simp [isNumeralChar, hc])]
    rw [maxNumeralLength] at hfull
    exact @TakenBehind.digitTooMany _ _ _ [] c _ rfl hc (by cases point <;> decide)
      (by simp; omega)
  | case4 digits rest _ =>
    rw [numeralRun_cons rfl]
    exact @TakenBehind.secondPoint _ _ _ [] _ rfl rfl h
  | case5 digits point rest hpoint _ ih =>
    obtain rfl : point = false := by simpa using hpoint
    rw [numeralRun_cons rfl]
    exact (ih h).point
  | case6 digits point c rest hdigit hpoint =>
    have hrun : numeralRun (c :: rest) = [] :=
      List.takeWhile_cons_of_neg (by simp [isNumeralChar, hdigit, hpoint])
    rw [hrun]
    exact .whole h (by cases point <;> decide)

/-- What is taken of a run, with the fault. -/
inductive Taken (run : Text) : Text → Option Status → Prop
  | whole : RunFits run → Taken run run none
  | secondPoint {before after} : run = before ++ '.' :: after → before.count '.' = 1 →
      before.countP isDigit ≤ 20 → Taken run before (some .multipleDecimalPoints)
  | digitTooMany {before digit after} : run = before ++ digit :: after → isDigit digit = true →
      before.count '.' ≤ 1 → before.countP isDigit = 20 →
      Taken run (before ++ [digit]) (some .tooManyDigits)
  | pointTooMany : run.countP isDigit = 20 → run.count '.' = 1 →
      Taken run run (some .tooManyDigits)

variable {run lexeme : Text} {fault : Option Status}

/-- The length is looked at in the end, when there is no other fault. -/
theorem TakenBehind.taken (h : TakenBehind 0 0 run lexeme fault)
    (hlength : run.length = run.countP isDigit + run.count '.') :
    Taken run lexeme
      (if fault.isNone && maxNumeralLength < lexeme.length then some .tooManyDigits
        else fault) := by
  cases h with
  | whole hfits hpoints =>
    by_cases hlong : maxNumeralLength < run.length
    · rw [if_pos (by simpa using hlong)]
      rw [maxNumeralLength] at hlong
      exact .pointTooMany (by omega) (by omega)
    · rw [if_neg (by simpa using hlong)]
      rw [maxNumeralLength] at hlong
      exact .whole ⟨by omega, by omega⟩
  | secondPoint hrun hpoints hfits => exact .secondPoint hrun (by omega) (by omega)
  | digitTooMany hrun hdigit hpoints hfull =>
    exact .digitTooMany hrun hdigit (by omega) (by omega)

theorem taken_scanNumeral (text : Text) :
    Taken (numeralRun text) (scanNumeral text).lexeme (scanNumeral text).fault := by
  have htaken := (takenBehind_scanNumeralFrom 0 false text (Nat.zero_le _)).taken
    (length_of_numeralChars isNumeralChar_of_mem_numeralRun)
  unfold scanNumeral
  dsimp only
  split
  · rename_i hlong
    rwa [if_pos hlong] at htaken
  · rename_i hlong
    rwa [if_neg hlong] at htaken

namespace Taken

theorem not_fits_of_secondPoint {before after : Text} (hrun : run = before ++ '.' :: after)
    (hpoints : before.count '.' = 1) : ¬ RunFits run := by
  intro hfits
  have hcount := hfits.points
  rw [hrun, List.count_append, List.count_cons_self] at hcount
  omega

theorem not_fits_of_digitTooMany {before after : Text} {digit : Char}
    (hrun : run = before ++ digit :: after) (hfull : before.countP isDigit = 20) :
    ¬ RunFits run := by
  intro hfits
  have hlength := hfits.length
  have hle : before.countP isDigit ≤ before.length := List.countP_le_length
  rw [hrun, List.length_append, List.length_cons] at hlength
  omega

theorem fault_eq_none_iff (h : Taken run lexeme fault)
    (hlength : run.length = run.countP isDigit + run.count '.') :
    fault = none ↔ RunFits run := by
  cases h with
  | whole hfits => exact ⟨fun _ => hfits, fun _ => rfl⟩
  | secondPoint hrun hpoints _ =>
    exact ⟨nofun, fun hfits => absurd hfits (not_fits_of_secondPoint hrun hpoints)⟩
  | digitTooMany hrun _ _ hfull =>
    exact ⟨nofun, fun hfits => absurd hfits (not_fits_of_digitTooMany hrun hfull)⟩
  | pointTooMany hfull hpoint =>
    refine ⟨nofun, fun hfits => ?_⟩
    have := hfits.length
    omega

theorem lexeme_eq (h : Taken run lexeme fault) (hfault : fault = none) : lexeme = run := by
  cases h with
  | whole _ => rfl
  | secondPoint _ _ _ | digitTooMany _ _ _ _ | pointTooMany _ _ => cases hfault

theorem secondPoint_iff (h : Taken run lexeme fault) (column : Nat) :
    SecondPoint run column ↔ fault = some .multipleDecimalPoints ∧ lexeme.length = column := by
  constructor
  · rintro ⟨before, after, hrun, rfl, hpoints, hfits⟩
    cases h with
    | whole hwhole => exact absurd hwhole (not_fits_of_secondPoint hrun hpoints)
    | @secondPoint before' after' hrun' hpoints' _ =>
      refine ⟨rfl, ?_⟩
      have hsame := eq_of_countP_eq (p := (· == '.')) (hrun'.symm.trans hrun) rfl rfl
        (hpoints'.trans hpoints.symm)
      rw [hsame]
    | @digitTooMany before' digit after' hrun' hdigit hpoints' hfull =>
      -- the digit is not before the point, and the point is not before the digit
      rcases append_cons_cases (hrun'.symm.trans hrun) with ⟨-, rfl⟩ | ⟨c, rfl⟩ | ⟨c, rfl⟩
      · cases hdigit
      · rw [List.countP_append, List.countP_cons_of_pos hdigit] at hfits
        omega
      · rw [List.count_append, List.count_cons_self] at hpoints'
        omega
    | pointTooMany _ hpoint =>
      rw [hrun, List.count_append, List.count_cons_self] at hpoint
      omega
  · rintro ⟨hfault, rfl⟩
    cases h with
    | secondPoint hrun hpoints hfits => exact ⟨_, _, hrun, rfl, hpoints, hfits⟩
    | whole _ | digitTooMany _ _ _ _ | pointTooMany _ _ => cases hfault

theorem tooManyDigits_iff (h : Taken run lexeme fault)
    (hlength : run.length = run.countP isDigit + run.count '.') :
    fault = some .tooManyDigits ↔ ¬ RunFits run ∧ ¬ ∃ column, SecondPoint run column := by
  rw [← h.fault_eq_none_iff hlength]
  simp only [h.secondPoint_iff]
  cases h <;> simp

/-- Where there is a digit too many, it is the last that is taken. -/
theorem length_of_digitTooMany (h : Taken run lexeme fault)
    (hfault : fault = some .tooManyDigits) {column : Nat} (hcolumn : DigitTooMany run column) :
    lexeme.length = column + 1 := by
  obtain ⟨before, digit, after, hrun, rfl, hdigit, hfull⟩ := hcolumn
  cases h with
  | @digitTooMany before' digit' after' hrun' hdigit' _ hfull' =>
    have hsame := eq_of_countP_eq (hrun'.symm.trans hrun) hdigit' hdigit
      (hfull'.trans hfull.symm)
    rw [hsame, List.length_append, List.length_singleton]
  | pointTooMany hfull' _ =>
    rw [hrun, List.countP_append, List.countP_cons_of_pos hdigit] at hfull'
    omega
  | whole _ | secondPoint _ _ _ => cases hfault

/-- Otherwise the run is twenty digits and a point, and is taken whole. -/
theorem digitTooMany_or_whole (h : Taken run lexeme fault)
    (hfault : fault = some .tooManyDigits) :
    (∃ column, DigitTooMany run column) ∨
      run.countP isDigit = 20 ∧ run.count '.' = 1 ∧ lexeme = run := by
  cases h with
  | digitTooMany hrun hdigit _ hfull => exact .inl ⟨_, _, _, _, hrun, rfl, hdigit, hfull⟩
  | pointTooMany hfull hpoint => exact .inr ⟨hfull, hpoint, rfl⟩
  | whole _ | secondPoint _ _ _ => cases hfault

end Taken

/-! ## Numbers at a place of a line -/

/-- Where the scan of a number that begins at this offset leaves the line. -/
def numeralStop (line : Text) (offset : Nat) : Nat :=
  ((Cursor.ofLine line offset).moveTo (scanNumeral (line.drop offset)).rest).position

theorem numeralStop_eq (line : Text) (offset : Nat) :
    numeralStop line offset = offset + (scanNumeral (line.drop offset)).lexeme.length := by
  have hwhole := congrArg List.length (scanNumeral_append (line.drop offset))
  rw [List.length_append] at hwhole
  simp only [numeralStop, Cursor.ofLine, Cursor.moveTo]
  omega

/-- What the scan of a number finds at a place of a line, by the run that stands there. -/
structure NumeralRead (line : Text) (offset : Nat) (run : Text) (scan : NumeralScan) : Prop where
  succeeds : scan.fault = none ↔ RunFits run
  whole : scan.fault = none → scan.lexeme = run ∧ numeralStop line offset = offset + run.length ∧
    (scan.hasDigit = true ↔ ∃ c ∈ run, isDigit c = true)
  secondPoint : scan.fault = some .multipleDecimalPoints ↔ ∃ column, SecondPoint run column
  secondPointPlace : ∀ column, SecondPoint run column → numeralStop line offset = offset + column
  tooManyDigits : scan.fault = some .tooManyDigits ↔
    ¬ RunFits run ∧ ¬ ∃ column, SecondPoint run column
  digitPlace : scan.fault = some .tooManyDigits → ∀ column, DigitTooMany run column →
    numeralStop line offset = offset + column + 1
  endPlace : scan.fault = some .tooManyDigits → (¬ ∃ column, DigitTooMany run column) →
    run.countP isDigit = 20 ∧ run.count '.' = 1 ∧ numeralStop line offset = offset + run.length

theorem numeralRead (line : Text) (offset : Nat) :
    NumeralRead line offset (numeralRun (line.drop offset)) (scanNumeral (line.drop offset)) := by
  have htaken := taken_scanNumeral (line.drop offset)
  have hstop := numeralStop_eq line offset
  have hlength := length_of_numeralChars (@isNumeralChar_of_mem_numeralRun (line.drop offset))
  refine ⟨htaken.fault_eq_none_iff hlength, ?_, ?_, ?_, htaken.tooManyDigits_iff hlength, ?_, ?_⟩
  · intro hfault
    rw [hstop, NumeralScan.hasDigit, htaken.lexeme_eq hfault]
    exact ⟨rfl, rfl, List.any_eq_true⟩
  · simp only [htaken.secondPoint_iff, exists_and_left, exists_eq', and_true]
  · intro column hcolumn
    rw [hstop, ((htaken.secondPoint_iff column).mp hcolumn).2]
  · intro hfault column hcolumn
    rw [hstop, htaken.length_of_digitTooMany hfault hcolumn, Nat.add_assoc]
  · intro hfault hnone
    obtain ⟨hfull, hpoint, hlexeme⟩ := (htaken.digitTooMany_or_whole hfault).resolve_left hnone
    exact ⟨hfull, hpoint, by rw [hstop, hlexeme]⟩

/-! ## Exponents -/

/-- The run is empty or a lone point. -/
structure LacksDigit (run : Text) : Prop where
  digits : ∀ c ∈ run, isDigit c = false
  points : run.count '.' ≤ 1

/-- A run of digits and points with what is left behind it, after a sign or none. -/
structure SignedRun (sign : Option Sign) (run rest : Text) : Prop where
  unsigned : sign = none → Stops isSignChar (run ++ rest)
  chars : ∀ c ∈ run, isNumeralChar c = true
  ends : Stops isNumeralChar rest

/-- A term begins with a number that has a digit, `^` is directly behind it, and the run of digits
and points there, behind a sign perhaps, is the given one. -/
inductive BeforeExponent : Text → Text → Prop
  | mk {sign gap number power run rest} : Blanks gap → IsNumeral number →
      SignedRun power run rest →
      BeforeExponent
        (signText sign ++ (gap ++ (number ++ '^' :: (signText power ++ (run ++ rest))))) run

namespace SignedRun

variable {power : Option Sign} {rest : Text}

theorem scanNumeral_eq (h : SignedRun power run rest) (hfits : RunFits run) :
    scanNumeral (run ++ rest) = ⟨run, rest, none⟩ :=
  scanNumeral_append_eq hfits.length (fun c hc => by simpa [isNumeralChar] using h.chars c hc)
    hfits.points h.ends

theorem scanExponent_of_lacksDigit (h : SignedRun power run rest) (hnone : LacksDigit run) :
    (scanExponent (signText power ++ (run ++ rest))).1 = .error .missingExponent := by
  have hlength := length_of_numeralChars h.chars
  have hcount : run.countP isDigit = 0 := by
    rw [List.countP_eq_zero]
    exact fun c hc => by simp [hnone.digits c hc]
  have hpoints := hnone.points
  have hscan := h.scanNumeral_eq ⟨by omega, hpoints⟩
  have hdigit : run.any isDigit = false := by simpa using hnone.digits
  simp [scanExponent, scanSign_signText_append h.unsigned, hscan, NumeralScan.hasDigit, hdigit]

theorem scanExponent_of_illegal (h : SignedRun power run rest) (hnot : ¬ IsExponent run)
    (hdigits : ¬ LacksDigit run) :
    (scanExponent (signText power ++ (run ++ rest))).1 = .error .illegalExponent := by
  by_cases hfits : RunFits run
  · have hdigit : run.any isDigit = true :=
      eq_true_of_ne_false fun hnone => hdigits ⟨by simpa using hnone, hfits.points⟩
    have hform : (maxExponentLength < run.length || !run.all isDigit) = true := by
      by_cases hshort : run.length ≤ 2
      · have hall : run.all isDigit = false := by
          refine eq_false_of_ne_true fun hall => hnot ⟨?_, hshort, List.all_eq_true.mp hall⟩
          rintro rfl
          cases hdigit
        simp [hall]
      · have hlong : maxExponentLength < run.length := Nat.not_le.mp hshort
        simp [hlong]
    simp only [scanExponent, scanSign_signText_append h.unsigned, h.scanNumeral_eq hfits,
      NumeralScan.hasDigit, hdigit, hform]
    rfl
  · have htaken := taken_scanNumeral (run ++ rest)
    rw [numeralRun_append h.chars h.ends] at htaken
    have hfault : (scanNumeral (run ++ rest)).fault.isSome = true := by
      rw [Option.isSome_iff_ne_none]
      exact fun hnone => hfits
        ((htaken.fault_eq_none_iff (length_of_numeralChars h.chars)).mp hnone)
    simp only [scanExponent, scanSign_signText_append h.unsigned, hfault]
    rfl

end SignedRun

theorem scanLiteral_power {number : Text} (h : IsNumeral number) (behind : Text) :
    scanLiteral (number ++ '^' :: behind) =
      ((scanExponent behind).1.map fun e => some ⟨number, some e⟩, (scanExponent behind).2) := by
  have hdigit : number.any isDigit = true := List.any_eq_true.mpr h.digit
  have hstop : Stops isNumeralChar ('^' :: behind) := stops_cons.mpr rfl
  simp [scanLiteral, h.scanNumeral hstop, NumeralScan.hasDigit, hdigit]

/-- A number with an exponent is enough for a term, and nothing else can be wrong with it. -/
theorem Term.scan_power {sign : Option Sign} {gap number : Text} (hgap : Blanks gap)
    (hnumber : IsNumeral number) (behind : Text) :
    (∀ e, (scanExponent behind).1 = .ok e → ∃ t,
      (scan (signText sign ++ (gap ++ (number ++ '^' :: behind)))).1 = .ok t) ∧
    ∀ fault, (scanExponent behind).1 = .error fault →
      (scan (signText sign ++ (gap ++ (number ++ '^' :: behind)))).1 = .error fault := by
  have hsign : scanSign (signText sign ++ (gap ++ (number ++ '^' :: behind))) =
      (sign, gap ++ (number ++ '^' :: behind)) :=
    scanSign_before_operand sign
      (hgap.stops blank_apart_operator (hnumber.stops_append literal_apart_operator _))
  have hspace : skipBlanks (gap ++ (number ++ '^' :: behind)) = number ++ '^' :: behind :=
    skipBlanks_append hgap (hnumber.stops_append blank_apart_literal.symm _)
  constructor
  · intro e he
    obtain ⟨t, ht⟩ : ∃ t, ofParts? sign (some ⟨number, some e⟩)
        (scanName (skipBlanks (scanExponent behind).2)).1 = some t := by
      cases (scanName (skipBlanks (scanExponent behind).2)).1 <;> exact ⟨_, rfl⟩
    refine ⟨t, ?_⟩
    simp [scan, hsign, hspace, scanLiteral_power hnumber, he, Except.map, ht]
  · intro fault hfault
    simp [scan, hsign, hspace, scanLiteral_power hnumber, hfault, Except.map]

/-- What taking a term makes of its exponent, by the run that stands there. -/
structure ExponentRead (builder : Builder) (step : Step) (run : Text) : Prop where
  accepted : step.accepted = true ↔ IsExponent run
  kept : step.accepted = true → step.builder.draft.status = builder.draft.status
  missing : step.accepted = false ∧ step.builder.draft.status = .missingExponent ↔ LacksDigit run
  illegal : step.accepted = false ∧ step.builder.draft.status = .illegalExponent ↔
    ¬ IsExponent run ∧ ¬ LacksDigit run

theorem IsExponent.not_lacksDigit (h : IsExponent run) : ¬ LacksDigit run := by
  intro hnone
  obtain ⟨c, hc, hdigit⟩ := h.numeral.digit
  rw [hnone.digits c hc] at hdigit
  cases hdigit

theorem Builder.takeTerm_of_scan (builder : Builder) (c : Cursor) :
    (∀ t, (Term.scan c.rest).1 = .ok t → (builder.takeTerm c).accepted = true ∧
      (builder.takeTerm c).builder.draft.status = builder.draft.status) ∧
    ∀ fault, (Term.scan c.rest).1 = .error fault → (builder.takeTerm c).accepted = false ∧
      (builder.takeTerm c).builder.draft.status = fault := by
  constructor
  · intro t ht
    simp [takeTerm, ht, addTerm]
  · intro fault hfault
    simp [takeTerm, hfault, report, Draft.report]

theorem exponentRead (builder : Builder) {c : Cursor} (h : BeforeExponent c.rest run) :
    ExponentRead builder (builder.takeTerm c) run := by
  obtain ⟨haccepted, hrefused⟩ := builder.takeTerm_of_scan c
  generalize c.rest = text at h haccepted hrefused
  obtain @⟨sign, gap, number, power, run, rest, hgap, hnumber, hrun⟩ := h
  obtain ⟨hok, herror⟩ := @Term.scan_power sign gap number hgap hnumber
    (signText power ++ (run ++ rest))
  by_cases hexponent : IsExponent run
  · have hscan := congrArg Prod.fst (@scanExponent_append_eq power _ _ hexponent hrun.ends)
    obtain ⟨t, ht⟩ := hok _ hscan
    obtain ⟨htaken, hstatus⟩ := haccepted t ht
    have hdigit := hexponent.not_lacksDigit
    constructor <;> simp [htaken, hstatus, hexponent, hdigit]
  · by_cases hdigit : LacksDigit run
    · obtain ⟨htaken, hstatus⟩ := hrefused _ (herror _ (hrun.scanExponent_of_lacksDigit hdigit))
      constructor <;> simp [htaken, hstatus, hexponent, hdigit]
    · obtain ⟨htaken, hstatus⟩ :=
        hrefused _ (herror _ (hrun.scanExponent_of_illegal hexponent hdigit))
      constructor <;> simp [htaken, hstatus, hexponent, hdigit]

/-- **What is read of a number, and of its exponent.** Wherever a number may begin, the run of
digits and points there is taken whole exactly if it fits; otherwise the second point is refused
where it stands, or the digit that is one too many is the last that is taken, or there are twenty
digits and a point. Behind `^` a run of one or two digits is taken, an empty run or a lone point is
a missing exponent, and any other is an illegal one. -/
theorem numeral_and_exponent_read (line : Text) (offset : Nat) :
    NumeralRead line offset (numeralRun (line.drop offset)) (scanNumeral (line.drop offset)) ∧
      ∀ (builder : Builder) (run : Text), BeforeExponent (line.drop offset) run →
        ExponentRead builder (builder.takeTerm (Cursor.ofLine line offset)) run :=
  ⟨numeralRead line offset, fun builder _ h => exponentRead builder h⟩

/-- A lone point behind the sign of an exponent, in a builder that reported something before. -/
theorem numeral_and_exponent_read_lonePoint :
    BeforeExponent (("7 = -12.5^-. x" : Text).drop 4) "." ∧
      ExponentRead (Builder.report {} .illegalExponent 3)
        ((Builder.report {} .illegalExponent 3).takeTerm (Cursor.ofLine "7 = -12.5^-. x" 4))
        "." := by
  have hnumber : IsNumeral (scanNumeral "12.5").lexeme := isNumeral_of_hasDigit rfl rfl
  have hrun : SignedRun (some .minus) "." " x" :=
    ⟨nofun, List.all_eq_true.mp rfl, stops_cons.mpr rfl⟩
  have hbefore : BeforeExponent (("7 = -12.5^-. x" : Text).drop 4) "." :=
    @BeforeExponent.mk (some .minus) [] "12.5" (some .minus) "." " x" nofun hnumber hrun
  exact ⟨hbefore, (numeral_and_exponent_read _ _).2 _ _ hbefore⟩

end EquationPad
