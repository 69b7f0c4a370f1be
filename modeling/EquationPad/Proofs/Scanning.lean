import EquationPad.Proofs.Grammar

/-! The scanners take exactly the pieces of the grammar. What a scanner takes is such
a piece, and a piece is taken whole if what follows cannot prolong it. After a term
that is the case at the end of the text and before an operator, which is all that
may follow a term in an equation. -/

namespace EquationPad

/-! ## Classes of characters

Blanks, the characters of a literal, those of a name and those that start an operator
are four classes without a common member. -/

def isNumeralChar (c : Char) : Bool := isDigit c || c = '.'

/-- What may prolong a number. -/
def isLiteralChar (c : Char) : Bool := isNumeralChar c || c = '^'

def isSignChar (c : Char) : Bool := c = '+' || c = '-'

def isOperatorChar (c : Char) : Bool := isSignChar c || c = '='

theorem isBlank_iff {c : Char} :
    isBlank c = true ↔ c.toNat = 32 ∨ 9 ≤ c.toNat ∧ c.toNat ≤ 13 := by
  simp [isBlank, Char.le_def, UInt32.le_iff_toNat_le, Char.ext_iff, ← UInt32.toNat_inj]

theorem isLiteralChar_iff {c : Char} : isLiteralChar c = true ↔
    (48 ≤ c.toNat ∧ c.toNat ≤ 57 ∨ c.toNat = 46) ∨ c.toNat = 94 := by
  simp [isLiteralChar, isNumeralChar, isDigit, Char.le_def, UInt32.le_iff_toNat_le,
    Char.ext_iff, ← UInt32.toNat_inj]

theorem isNameChar_iff {c : Char} : isNameChar c = true ↔
    97 ≤ c.toNat ∧ c.toNat ≤ 122 ∨ 65 ≤ c.toNat ∧ c.toNat ≤ 90 ∨ c.toNat = 95 := by
  simp [isNameChar, Char.le_def, UInt32.le_iff_toNat_le, Char.ext_iff, ← UInt32.toNat_inj,
    or_assoc]

theorem isOperatorChar_iff {c : Char} :
    isOperatorChar c = true ↔ (c.toNat = 43 ∨ c.toNat = 45) ∨ c.toNat = 61 := by
  simp [isOperatorChar, isSignChar, Char.ext_iff, ← UInt32.toNat_inj]

def Apart (p q : Char → Bool) : Prop := ∀ c, p c = true → q c = false

theorem Apart.symm {p q : Char → Bool} (h : Apart p q) : Apart q p := by
  intro c hq
  cases hp : p c with
  | false => rfl
  | true => rw [h c hp] at hq; cases hq

theorem blank_apart_literal : Apart isBlank isLiteralChar := by
  intro c h
  rw [isBlank_iff] at h
  rw [← Bool.not_eq_true, isLiteralChar_iff]
  omega

theorem blank_apart_name : Apart isBlank isNameChar := by
  intro c h
  rw [isBlank_iff] at h
  rw [← Bool.not_eq_true, isNameChar_iff]
  omega

theorem blank_apart_operator : Apart isBlank isOperatorChar := by
  intro c h
  rw [isBlank_iff] at h
  rw [← Bool.not_eq_true, isOperatorChar_iff]
  omega

theorem literal_apart_name : Apart isLiteralChar isNameChar := by
  intro c h
  rw [isLiteralChar_iff] at h
  rw [← Bool.not_eq_true, isNameChar_iff]
  omega

theorem literal_apart_operator : Apart isLiteralChar isOperatorChar := by
  intro c h
  rw [isLiteralChar_iff] at h
  rw [← Bool.not_eq_true, isOperatorChar_iff]
  omega

theorem name_apart_operator : Apart isNameChar isOperatorChar := by
  intro c h
  rw [isNameChar_iff] at h
  rw [← Bool.not_eq_true, isOperatorChar_iff]
  omega

theorem isLiteralChar_of_isNumeralChar {c : Char} (h : isNumeralChar c = true) :
    isLiteralChar c = true := by simp [isLiteralChar, h]

theorem isNumeralChar_eq_false {c : Char} (h : isLiteralChar c = false) :
    isNumeralChar c = false := (Bool.or_eq_false_iff.mp h).1

theorem isSignChar_eq_false {c : Char} (h : isOperatorChar c = false) : isSignChar c = false :=
  (Bool.or_eq_false_iff.mp h).1

/-! ## Where a scan stops -/

/-- The text is at its end, or goes on with a character outside the class. -/
def Stops (p : Char → Bool) (text : Text) : Prop := ∀ c ∈ text.head?, p c = false

/-- Where a term may end. -/
def AfterTerm (text : Text) : Prop := ∀ c ∈ text.head?, isOperatorChar c = true

theorem stops_nil (p : Char → Bool) : Stops p [] := by simp [Stops]

@[simp] theorem stops_cons {p : Char → Bool} {c : Char} {text : Text} :
    Stops p (c :: text) ↔ p c = false := by simp [Stops]

theorem Stops.mono {p q : Char → Bool} {text : Text} (h : Stops p text)
    (hpq : ∀ c, p c = false → q c = false) : Stops q text := fun c hc => hpq c (h c hc)

theorem Stops.append {p : Char → Bool} {front text : Text} (hf : ∀ c ∈ front, p c = false)
    (h : Stops p text) : Stops p (front ++ text) := by
  cases front with
  | nil => exact h
  | cons c front => exact stops_cons.mpr (hf c (by simp))

theorem Stops.of_append {p : Char → Bool} {front rest : Text} (h : Stops p (front ++ rest)) :
    Stops p front := by
  cases front with
  | nil => exact stops_nil p
  | cons c front => exact h

theorem AfterTerm.of_append {front rest : Text} (h : AfterTerm (front ++ rest)) :
    AfterTerm front := by
  cases front with
  | nil => simp [AfterTerm]
  | cons c front => exact h

theorem AfterTerm.stops {p : Char → Bool} {text : Text} (h : AfterTerm text)
    (hp : Apart isOperatorChar p) : Stops p text := fun c hc => hp c (h c hc)

theorem takeWhile_append {p : Char → Bool} {front text : Text} (hf : ∀ c ∈ front, p c = true)
    (h : Stops p text) : (front ++ text).takeWhile p = front := by
  rw [List.takeWhile_append_of_pos hf]
  cases text with
  | nil => simp
  | cons c text => simp [stops_cons.mp h]

theorem dropWhile_append {p : Char → Bool} {front text : Text} (hf : ∀ c ∈ front, p c = true)
    (h : Stops p text) : (front ++ text).dropWhile p = text := by
  rw [List.dropWhile_append_of_pos hf]
  cases text with
  | nil => rfl
  | cons c text => simp [stops_cons.mp h]

theorem stops_dropWhile (p : Char → Bool) (text : Text) : Stops p (text.dropWhile p) := by
  induction text with
  | nil => exact stops_nil p
  | cons c text ih =>
    rw [List.dropWhile_cons]
    split
    · exact ih
    · rename_i hc
      exact stops_cons.mpr (by simpa using hc)

/-! ## Blanks -/

theorem blanks_nil : Blanks [] := by simp [Blanks]

theorem Blanks.append {b₁ b₂ : Text} (h₁ : Blanks b₁) (h₂ : Blanks b₂) : Blanks (b₁ ++ b₂) := by
  intro c hc
  rcases List.mem_append.mp hc with hc | hc
  · exact h₁ c hc
  · exact h₂ c hc

theorem Blanks.cons_space {b : Text} (h : Blanks b) : Blanks (' ' :: b) := by
  intro c hc
  rcases List.mem_cons.mp hc with rfl | hc
  · rfl
  · exact h c hc

theorem Blanks.append_space {b : Text} (h : Blanks b) : Blanks (b ++ [' ']) :=
  h.append blanks_nil.cons_space

theorem Blanks.stops {p : Char → Bool} {b text : Text} (hb : Blanks b) (hp : Apart isBlank p)
    (h : Stops p text) : Stops p (b ++ text) := h.append fun c hc => hp c (hb c hc)

theorem skipBlanks_append {b text : Text} (hb : Blanks b) (h : Stops isBlank text) :
    skipBlanks (b ++ text) = text := dropWhile_append hb h

theorem skipBlanks_eq_self {text : Text} (h : Stops isBlank text) : skipBlanks text = text :=
  skipBlanks_append blanks_nil h

theorem skipBlanks_blanks_append {b text : Text} (hb : Blanks b) :
    skipBlanks (b ++ text) = skipBlanks text := List.dropWhile_append_of_pos hb

theorem stops_skipBlanks (text : Text) : Stops isBlank (skipBlanks text) :=
  stops_dropWhile isBlank text

theorem skipBlanks_skipBlanks (text : Text) : skipBlanks (skipBlanks text) = skipBlanks text :=
  skipBlanks_eq_self (stops_skipBlanks text)

/-- A text is what `skipBlanks` leaves of it with blanks in front. -/
theorem exists_blanks_append (text : Text) : ∃ b, Blanks b ∧ text = b ++ skipBlanks text := by
  refine ⟨text.takeWhile isBlank, ?_, List.takeWhile_append_dropWhile.symm⟩
  exact fun c hc => (List.all_eq_true.mp (List.all_takeWhile)) c hc

theorem skipBlanks_eq_nil_iff {text : Text} : skipBlanks text = [] ↔ Blanks text := by
  constructor
  · intro h
    obtain ⟨b, hb, htext⟩ := exists_blanks_append text
    rw [htext, h, List.append_nil]
    exact hb
  · intro h
    simpa using skipBlanks_append h (stops_nil isBlank)

theorem Blanks.reverse {b : Text} (h : Blanks b) : Blanks b.reverse :=
  fun c hc => h c (List.mem_reverse.mp hc)

/-- A text is what `trimRight` leaves of it with blanks behind. -/
theorem exists_append_blanks (text : Text) : ∃ b, Blanks b ∧ text = trimRight text ++ b := by
  obtain ⟨b, hb, h⟩ := exists_blanks_append text.reverse
  refine ⟨b.reverse, hb.reverse, ?_⟩
  rw [trimRight, ← List.reverse_append]
  exact List.reverse_eq_iff.mp h

theorem trimRight_eq_nil_iff {text : Text} : trimRight text = [] ↔ Blanks text := by
  rw [trimRight, List.reverse_eq_nil_iff]
  refine (@skipBlanks_eq_nil_iff text.reverse).trans ⟨fun h => ?_, Blanks.reverse⟩
  simpa using h.reverse

theorem trimRight_append {front text : Text} (h : trimRight text ≠ []) :
    trimRight (front ++ text) = front ++ trimRight text := by
  rw [trimRight, List.reverse_append, List.dropWhile_append, if_neg, List.reverse_append,
    List.reverse_reverse, trimRight]
  simpa [trimRight, List.reverse_eq_nil_iff] using h

theorem trimRight_append_blanks (text : Text) {b : Text} (hb : Blanks b) :
    trimRight (text ++ b) = trimRight text := by
  rw [trimRight, List.reverse_append, List.dropWhile_append_of_pos hb.reverse, trimRight]

/-- Nothing is cut off before a text that holds no blanks. -/
theorem trimRight_solid_append {word : Text} (hword : ∀ c ∈ word, isBlank c = false) (text : Text) :
    trimRight (word ++ text) = word ++ trimRight text := by
  by_cases hnil : trimRight text = []
  · have hstop : Stops isBlank word.reverse := by
      simpa using (stops_nil isBlank).append fun c hc => hword c (List.mem_reverse.mp hc)
    have hkept : trimRight word = word := by
      rw [trimRight]
      exact List.reverse_eq_iff.mpr (skipBlanks_eq_self hstop)
    rw [trimRight_append_blanks word (trimRight_eq_nil_iff.mp hnil), hkept, hnil, List.append_nil]
  · exact trimRight_append hnil

/-- Blanks in front stay, unless there is nothing else. -/
theorem exists_trimRight_blanks_append {b : Text} (hb : Blanks b) (text : Text) :
    ∃ b', Blanks b' ∧ trimRight (b ++ text) = b' ++ trimRight text := by
  by_cases hnil : trimRight text = []
  · have hall : Blanks (b ++ text) := hb.append (trimRight_eq_nil_iff.mp hnil)
    exact ⟨[], blanks_nil, by rw [hnil, trimRight_eq_nil_iff.mpr hall]; rfl⟩
  · exact ⟨b, hb, trimRight_append hnil⟩

theorem skipBlanks_trimRight_eq_nil_iff {text : Text} :
    skipBlanks (trimRight text) = [] ↔ trimRight text = [] := by
  obtain ⟨b, hb, htext⟩ := exists_append_blanks text
  rw [skipBlanks_eq_nil_iff, trimRight_eq_nil_iff]
  refine ⟨fun h => by rw [htext]; exact h.append hb, fun h c hc => h c ?_⟩
  rw [htext]
  exact List.mem_append_left b hc

/-! ## Signs -/

theorem signText_solid (sign : Option Sign) : ∀ c ∈ signText sign, isBlank c = false := by
  match sign with
  | none | some .plus | some .minus => simp [signText, isBlank]

theorem scanSign_signText_append {sign : Option Sign} {rest : Text}
    (h : sign = none → Stops isSignChar rest) : scanSign (signText sign ++ rest) = (sign, rest) := by
  match sign with
  | some .plus => rfl
  | some .minus => rfl
  | none =>
    cases rest with
    | nil => rfl
    | cons c rest =>
      have hc : c ≠ '+' ∧ c ≠ '-' := by simpa [isSignChar] using stops_cons.mp (h rfl)
      simp [signText, scanSign, hc.1, hc.2]

theorem scanSign_before_operand (sign : Option Sign) {rest : Text}
    (h : Stops isOperatorChar rest) : scanSign (signText sign ++ rest) = (sign, rest) :=
  scanSign_signText_append fun _ => h.mono fun _ => isSignChar_eq_false

theorem stops_of_scanSign {text : Text} (h : (scanSign text).1 = none) : Stops isSignChar text := by
  unfold scanSign at h
  split at h
  · cases h
  · cases h
  · rename_i hplus hminus
    cases text with
    | nil => exact stops_nil _
    | cons c text =>
      have hp : c ≠ '+' := by rintro rfl; exact hplus _ rfl
      have hm : c ≠ '-' := by rintro rfl; exact hminus _ rfl
      simp [isSignChar, hp, hm]

theorem signText_append_scanSign (text : Text) :
    signText (scanSign text).1 ++ (scanSign text).2 = text := by
  unfold scanSign
  split <;> rfl

/-! ## Numbers -/

theorem scanNumeralFrom_of_fault_eq_none {digits : Nat} {point : Bool} {text : Text}
    (h : (scanNumeralFrom digits point text).fault = none) :
    (∀ c ∈ (scanNumeralFrom digits point text).lexeme, isDigit c = true ∨ c = '.') ∧
      (scanNumeralFrom digits point text).lexeme.count '.' ≤ if point then 0 else 1 := by
  fun_induction scanNumeralFrom digits point text with
  | case1 => simp
  | case2 digits point c rest hc _ ih =>
    obtain ⟨hchars, hpoints⟩ := ih h
    have hpoint : c ≠ '.' := by rintro rfl; cases hc
    exact ⟨by simpa [NumeralScan.cons, hc] using hchars,
      by simpa [NumeralScan.cons, hpoint] using hpoints⟩
  | case3 => cases h
  | case4 => cases h
  | case5 digits point rest hpoint _ ih =>
    obtain ⟨hchars, hpoints⟩ := ih h
    have none_left : point = false := by simpa using hpoint
    exact ⟨by simpa [NumeralScan.cons] using hchars,
      by simpa [NumeralScan.cons, none_left] using hpoints⟩
  | case6 => simp

theorem scanNumeralFrom_append_eq {front rest : Text} (hrest : Stops isNumeralChar rest)
    (hchars : ∀ c ∈ front, isDigit c = true ∨ c = '.') :
    ∀ (digits : Nat) (point : Bool), digits + front.length ≤ maxNumeralLength →
      front.count '.' ≤ (if point then 0 else 1) →
      scanNumeralFrom digits point (front ++ rest) = ⟨front, rest, none⟩ := by
  induction front with
  | nil =>
    intro digits point _ _
    cases rest with
    | nil => rfl
    | cons c rest =>
      obtain ⟨hdigit, hpoint⟩ := Bool.or_eq_false_iff.mp (stops_cons.mp hrest)
      simp [scanNumeralFrom, hdigit, of_decide_eq_false hpoint]
  | cons c front ih =>
    intro digits point hfits hpoints
    have ih := ih fun c hc => hchars c (List.mem_cons_of_mem _ hc)
    rw [List.length_cons] at hfits
    rcases hchars c (by simp) with hc | rfl
    · have hpoint : c ≠ '.' := by rintro rfl; cases hc
      have room : digits < maxNumeralLength := by omega
      have := ih (digits + 1) point (by omega) (by simpa [hpoint] using hpoints)
      simp [scanNumeralFrom, hc, room, this, NumeralScan.cons]
    · cases point with
      | true => simp at hpoints
      | false =>
        have := ih digits true (by omega) (by simpa using hpoints)
        simp [scanNumeralFrom, this, NumeralScan.cons, show isDigit '.' = false from rfl]

/-- What is scanned without fault, a digit or not. -/
theorem scanNumeral_of_fault_eq_none {text : Text} (h : (scanNumeral text).fault = none) :
    (scanNumeral text).lexeme.length ≤ 20 ∧
      (∀ c ∈ (scanNumeral text).lexeme, isDigit c = true ∨ c = '.') ∧
      (scanNumeral text).lexeme.count '.' ≤ 1 := by
  unfold scanNumeral at h ⊢
  dsimp only at h ⊢
  split at h
  · cases h
  · rename_i hfits
    rw [if_neg hfits]
    obtain ⟨hchars, hpoints⟩ := scanNumeralFrom_of_fault_eq_none h
    refine ⟨?_, hchars, by simpa using hpoints⟩
    rw [h, Option.isNone_none, Bool.true_and, decide_eq_true_eq] at hfits
    exact Nat.not_lt.mp hfits

theorem scanNumeral_append_eq {front rest : Text} (hfits : front.length ≤ 20)
    (hchars : ∀ c ∈ front, isDigit c = true ∨ c = '.') (hpoints : front.count '.' ≤ 1)
    (hrest : Stops isNumeralChar rest) :
    scanNumeral (front ++ rest) = ⟨front, rest, none⟩ := by
  have scanned := scanNumeralFrom_append_eq hrest hchars 0 false
    (by simpa [maxNumeralLength] using hfits) (by simpa using hpoints)
  have room : ¬ maxNumeralLength < front.length := by simpa [maxNumeralLength] using hfits
  simp [scanNumeral, scanned, room]

theorem IsNumeral.scanNumeral {n rest : Text} (h : IsNumeral n) (hrest : Stops isNumeralChar rest) :
    scanNumeral (n ++ rest) = ⟨n, rest, none⟩ :=
  scanNumeral_append_eq h.fits h.chars h.points hrest

theorem isNumeral_of_hasDigit {text : Text} (h : (scanNumeral text).fault = none)
    (hdigit : (scanNumeral text).hasDigit = true) : IsNumeral (scanNumeral text).lexeme := by
  obtain ⟨hfits, hchars, hpoints⟩ := scanNumeral_of_fault_eq_none h
  exact ⟨hfits, hchars, hpoints, List.any_eq_true.mp hdigit⟩

/-- Without a digit there is room for one point only. -/
theorem lexeme_of_not_hasDigit {text : Text} (h : (scanNumeral text).fault = none)
    (hdigit : (scanNumeral text).hasDigit = false) :
    (scanNumeral text).lexeme = [] ∨ (scanNumeral text).lexeme = ['.'] := by
  obtain ⟨_, hchars, hpoints⟩ := scanNumeral_of_fault_eq_none h
  have onlyPoints : ∀ c ∈ (scanNumeral text).lexeme, c = '.' := by
    intro c hc
    have := List.any_eq_false.mp hdigit c hc
    exact (hchars c hc).resolve_left this
  rw [List.eq_replicate_of_mem onlyPoints] at hpoints ⊢
  rw [List.count_replicate_self] at hpoints
  rcases Nat.le_one_iff_eq_zero_or_eq_one.mp hpoints with hlength | hlength
  · exact .inl (by rw [hlength]; rfl)
  · exact .inr (by rw [hlength]; rfl)

/-! ## Literals -/

theorem IsExponent.numeral {digits : Text} (h : IsExponent digits) : IsNumeral digits where
  fits := Nat.le_trans h.fits (by decide)
  chars c hc := .inl (h.digits c hc)
  points := by
    have hnone : '.' ∉ digits := fun hc => by cases h.digits _ hc
    simp [List.count_eq_zero_of_not_mem hnone]
  digit := by
    obtain ⟨c, hc⟩ := List.exists_mem_of_ne_nil _ h.nonempty
    exact ⟨c, hc, h.digits c hc⟩

/-- A numeral starts with a digit or a point. -/
theorem IsNumeral.stops_append {n : Text} (h : IsNumeral n) {p : Char → Bool}
    (hp : Apart isLiteralChar p) (rest : Text) : Stops p (n ++ rest) := by
  obtain ⟨c, hc, -⟩ := h.digit
  cases n with
  | nil => cases hc
  | cons c n =>
    have hchar : isNumeralChar c = true := by
      simpa [isNumeralChar] using h.chars c (by simp)
    exact stops_cons.mpr (hp c (isLiteralChar_of_isNumeralChar hchar))

theorem scanExponent_append_eq {sign : Option Sign} {digits rest : Text} (h : IsExponent digits)
    (hrest : Stops isNumeralChar rest) :
    scanExponent (signText sign ++ (digits ++ rest)) = (.ok ⟨isMinus sign, digits⟩, rest) := by
  have unsigned := scanSign_before_operand sign
    (h.numeral.stops_append literal_apart_operator rest)
  have hdigit : digits.any isDigit = true := List.any_eq_true.mpr h.numeral.digit
  have hshort : ¬ maxExponentLength < digits.length := by
    simpa [maxExponentLength] using h.fits
  have hall : digits.all isDigit = true := List.all_eq_true.mpr h.digits
  simp [scanExponent, unsigned, h.numeral.scanNumeral hrest, NumeralScan.hasDigit, hdigit,
    hshort, hall]

theorem exponent_of_scanExponent {text rest : Text} {e : Exponent}
    (h : scanExponent text = (.ok e, rest)) :
    ∃ sign digits, IsExponent digits ∧ e = ⟨isMinus sign, digits⟩ ∧
      text = signText sign ++ (digits ++ rest) := by
  have hsign := signText_append_scanSign text
  have hwhole := scanNumeral_append (scanSign text).2
  unfold scanExponent at h
  simp only [Prod.mk.injEq] at h
  obtain ⟨hresult, hrest⟩ := h
  split at hresult
  · cases hresult
  · split at hresult
    · cases hresult
    · rename_i hdigit
      split at hresult
      · cases hresult
      · rename_i hform
        simp only [Bool.or_eq_true, not_or, decide_eq_true_eq, Bool.not_eq_true',
          Bool.not_eq_false] at hform
        obtain ⟨hshort, hall⟩ := hform
        refine ⟨(scanSign text).1, (scanNumeral (scanSign text).2).lexeme, ⟨?_, ?_, ?_⟩, ?_, ?_⟩
        · intro empty
          simp [NumeralScan.hasDigit, empty] at hdigit
        · exact Nat.not_lt.mp hshort
        · exact List.all_eq_true.mp hall
        · exact (Except.ok.inj hresult).symm
        · rw [← hrest, hwhole, hsign]

theorem scanLiteral_append_eq {number : Literal} {n rest : Text} (h : LiteralText number n)
    (hrest : Stops isLiteralChar rest) : scanLiteral (n ++ rest) = (.ok (some number), rest) := by
  have hnumeral : Stops isNumeralChar rest := hrest.mono fun _ => isNumeralChar_eq_false
  cases h with
  | plain hm =>
    have hdigit : n.any isDigit = true := List.any_eq_true.mpr hm.digit
    unfold scanLiteral
    rw [hm.scanNumeral hnumeral]
    cases rest with
    | nil => simp [NumeralScan.hasDigit, hdigit]
    | cons c rest =>
      have hc : c ≠ '^' := by
        rintro rfl
        cases stops_cons.mp hrest
      simp [NumeralScan.hasDigit, hdigit, hc]
  | @power mantissa digits sign hm hd =>
    have hdigit : mantissa.any isDigit = true := List.any_eq_true.mpr hm.digit
    have hstop : Stops isNumeralChar ('^' :: (signText sign ++ (digits ++ rest))) := by
      simp [isNumeralChar, isDigit]
    simp [scanLiteral, hm.scanNumeral hstop, NumeralScan.hasDigit, hdigit,
      scanExponent_append_eq hd hnumeral, Except.map]

theorem literal_of_scanLiteral {text rest : Text} {number : Literal}
    (h : scanLiteral text = (.ok (some number), rest)) :
    ∃ n, LiteralText number n ∧ text = n ++ rest := by
  have hwhole := scanNumeral_append text
  unfold scanLiteral at h
  dsimp only at h
  split at h
  · cases h
  · rename_i hfault
    split at h
    · cases h
    · rename_i hdigit
      have hm := isNumeral_of_hasDigit hfault (by simpa using hdigit)
      split at h
      · rename_i after hafter
        cases he : scanExponent after with
        | mk result rest' =>
          rw [he] at h
          cases result with
          | error fault => simp [Except.map] at h
          | ok e =>
            simp only [Except.map, Prod.mk.injEq, Except.ok.injEq, Option.some.injEq] at h
            obtain ⟨rfl, rfl⟩ := h
            obtain ⟨sign, digits, hd, rfl, rfl⟩ := exponent_of_scanExponent he
            rw [hafter] at hwhole
            exact ⟨_, .power sign hm hd, by simpa using hwhole.symm⟩
      · simp only [Prod.mk.injEq, Except.ok.injEq, Option.some.injEq] at h
        obtain ⟨rfl, rfl⟩ := h
        exact ⟨_, .plain hm, hwhole.symm⟩

/-- In the place of a number there may be nothing or a lone point. -/
theorem scanLiteral_point_append {point rest : Text} (hpoint : point = [] ∨ point = ['.'])
    (hrest : Stops isNumeralChar rest) : scanLiteral (point ++ rest) = (.ok none, rest) := by
  have hscan : scanNumeral (point ++ rest) = ⟨point, rest, none⟩ := by
    apply scanNumeral_append_eq _ _ _ hrest <;> rcases hpoint with rfl | rfl <;> simp
  have hdigit : point.any isDigit = false := by rcases hpoint with rfl | rfl <;> rfl
  simp [scanLiteral, hscan, NumeralScan.hasDigit, hdigit]

theorem point_of_scanLiteral {text rest : Text} (h : scanLiteral text = (.ok none, rest)) :
    ∃ point, (point = [] ∨ point = ['.']) ∧ text = point ++ rest := by
  have hwhole := scanNumeral_append text
  unfold scanLiteral at h
  dsimp only at h
  split at h
  · cases h
  · rename_i hfault
    split at h
    · rename_i hdigit
      simp only [Prod.mk.injEq, true_and] at h
      subst h
      exact ⟨_, lexeme_of_not_hasDigit hfault (by simpa using hdigit), hwhole.symm⟩
    · split at h
      · simp only [Prod.mk.injEq] at h
        obtain ⟨hnone, -⟩ := h
        revert hnone
        cases (scanExponent _).1 <;> simp [Except.map]
      · cases h

theorem LiteralText.stops_append {number : Literal} {n : Text} (h : LiteralText number n)
    {p : Char → Bool} (hp : Apart isLiteralChar p) (rest : Text) : Stops p (n ++ rest) := by
  cases h with
  | plain hm => exact hm.stops_append hp rest
  | power sign hm hd =>
    rw [List.append_assoc]
    exact hm.stops_append hp _

theorem LiteralText.solid {number : Literal} {n : Text} (h : LiteralText number n) :
    n ≠ [] ∧ ∀ c ∈ n, isBlank c = false := by
  have hnumeral : ∀ {m : Text}, IsNumeral m → m ≠ [] ∧ ∀ c ∈ m, isBlank c = false := by
    intro m hm
    obtain ⟨d, hd, -⟩ := hm.digit
    refine ⟨List.ne_nil_of_mem hd, fun c hc => ?_⟩
    have hchar : isNumeralChar c = true := by simpa [isNumeralChar] using hm.chars c hc
    exact blank_apart_literal.symm c (isLiteralChar_of_isNumeralChar hchar)
  cases h with
  | plain hm => exact hnumeral hm
  | @power m digits sign hm hd =>
    refine ⟨List.append_ne_nil_of_left_ne_nil (hnumeral hm).1 _, ?_⟩
    intro c hc
    simp only [List.mem_append, List.mem_cons] at hc
    rcases hc with hc | rfl | hc | hc
    · exact (hnumeral hm).2 c hc
    · rfl
    · exact signText_solid sign c hc
    · exact (hnumeral hd.numeral).2 c hc

/-! ## Names -/

theorem scanName_append_eq {name rest : Text} (h : ∀ c ∈ name, isNameChar c = true)
    (hrest : Stops isNameChar rest) : scanName (name ++ rest) = (name, rest) :=
  Prod.ext (takeWhile_append h hrest) (dropWhile_append h hrest)

theorem IsName.stops_append {name : Text} (h : IsName name) {p : Char → Bool}
    (hp : Apart isNameChar p) (rest : Text) : Stops p (name ++ rest) := by
  cases name with
  | nil => exact absurd rfl h.nonempty
  | cons c name => exact stops_cons.mpr (hp c (h.chars c (by simp)))

theorem IsName.solid {name : Text} (h : IsName name) : ∀ c ∈ name, isBlank c = false :=
  fun c hc => blank_apart_name.symm c (h.chars c hc)

/-! ## Terms -/

namespace Term

/-- The scan of a term from the scans of its parts. -/
theorem scan_of_parts {text r₁ r₂ r₃ name : Text} {sign : Option Sign} {number : Option Literal}
    {t : Term} (hsign : scanSign text = (sign, r₁))
    (hnumber : scanLiteral (skipBlanks r₁) = (.ok number, r₂))
    (hname : scanName (skipBlanks r₂) = (name, r₃)) (ht : ofParts? sign number name = some t) :
    scan text = (.ok t, skipBlanks r₃) := by
  simp [scan, hsign, hnumber, hname, ht]

theorem ofParts?_name {sign : Option Sign} {number : Option Literal} {name : Text}
    (h : name ≠ []) : ofParts? sign number name = some (unknown sign number name) := by
  cases name with
  | nil => exact absurd rfl h
  | cons c name => cases number <;> rfl

/-- A written term is scanned as a whole, whatever operator follows it. -/
theorem scan_append_eq {t : Term} {s rest : Text} (h : TermText t s) (hrest : AfterTerm rest) :
    scan (s ++ rest) = (.ok t, rest) := by
  have noBlank : Stops isBlank rest := hrest.stops blank_apart_operator.symm
  have noName : Stops isNameChar rest := hrest.stops name_apart_operator.symm
  have noLiteral : Stops isLiteralChar rest := hrest.stops literal_apart_operator.symm
  cases h with
  | @constant sign number b₁ n b₂ hb₁ hn hb₂ =>
    have start : Stops isOperatorChar (b₁ ++ (n ++ (b₂ ++ rest))) :=
      hb₁.stops blank_apart_operator (hn.stops_append literal_apart_operator _)
    have afterBlanks : skipBlanks (b₁ ++ (n ++ (b₂ ++ rest))) = n ++ (b₂ ++ rest) :=
      skipBlanks_append hb₁ (hn.stops_append blank_apart_literal.symm _)
    have afterNumber : scanLiteral (n ++ (b₂ ++ rest)) = (.ok (some number), b₂ ++ rest) :=
      scanLiteral_append_eq hn (hb₂.stops blank_apart_literal noLiteral)
    have noNameLeft : scanName rest = ([], rest) :=
      @scanName_append_eq [] rest (by simp) noName
    have scanned := scan_of_parts (scanSign_before_operand sign start)
      (by rw [afterBlanks, afterNumber])
      (by rw [skipBlanks_append hb₂ noBlank, noNameLeft])
      (show ofParts? sign (some number) [] = some (constant sign number) from rfl)
    simpa [skipBlanks_eq_self noBlank] using scanned
  | @scaled sign number b₁ n b₂ name b₃ hb₁ hn hb₂ hname hb₃ =>
    have start : Stops isOperatorChar (b₁ ++ (n ++ (b₂ ++ (name ++ (b₃ ++ rest))))) :=
      hb₁.stops blank_apart_operator (hn.stops_append literal_apart_operator _)
    have afterBlanks : skipBlanks (b₁ ++ (n ++ (b₂ ++ (name ++ (b₃ ++ rest))))) =
        n ++ (b₂ ++ (name ++ (b₃ ++ rest))) :=
      skipBlanks_append hb₁ (hn.stops_append blank_apart_literal.symm _)
    have afterNumber : scanLiteral (n ++ (b₂ ++ (name ++ (b₃ ++ rest)))) =
        (.ok (some number), b₂ ++ (name ++ (b₃ ++ rest))) :=
      scanLiteral_append_eq hn
        (hb₂.stops blank_apart_literal (hname.stops_append literal_apart_name.symm _))
    have afterSpace : skipBlanks (b₂ ++ (name ++ (b₃ ++ rest))) = name ++ (b₃ ++ rest) :=
      skipBlanks_append hb₂ (hname.stops_append blank_apart_name.symm _)
    have afterName : scanName (name ++ (b₃ ++ rest)) = (name, b₃ ++ rest) :=
      scanName_append_eq hname.chars (hb₃.stops blank_apart_name noName)
    have scanned := scan_of_parts (scanSign_before_operand sign start)
      (by rw [afterBlanks, afterNumber]) (by rw [afterSpace, afterName])
      (ofParts?_name hname.nonempty)
    simpa [skipBlanks_append hb₃ noBlank] using scanned
  | @named sign b₁ point b₂ name b₃ hb₁ hpoint hb₂ hname hb₃ =>
    have atName : Stops isLiteralChar (b₂ ++ (name ++ (b₃ ++ rest))) :=
      hb₂.stops blank_apart_literal (hname.stops_append literal_apart_name.symm _)
    have afterName : scanName (name ++ (b₃ ++ rest)) = (name, b₃ ++ rest) :=
      scanName_append_eq hname.chars (hb₃.stops blank_apart_name noName)
    have afterSpace : skipBlanks (b₂ ++ (name ++ (b₃ ++ rest))) = name ++ (b₃ ++ rest) :=
      skipBlanks_append hb₂ (hname.stops_append blank_apart_name.symm _)
    have start : Stops isOperatorChar (b₁ ++ (point ++ (b₂ ++ (name ++ (b₃ ++ rest))))) := by
      refine hb₁.stops blank_apart_operator (Stops.append ?_ (hb₂.stops blank_apart_operator
        (hname.stops_append name_apart_operator _)))
      rcases hpoint with rfl | rfl <;> simp [isOperatorChar, isSignChar]
    -- with no point, the blanks before the name are skipped before the number is looked for
    have afterNumber : ∃ r₂, scanLiteral (skipBlanks (b₁ ++ (point ++ (b₂ ++ (name ++
        (b₃ ++ rest)))))) = (.ok none, r₂) ∧ skipBlanks r₂ = name ++ (b₃ ++ rest) := by
      rcases hpoint with rfl | rfl
      · have noNumber := hname.stops_append literal_apart_name.symm (b₃ ++ rest)
        refine ⟨name ++ (b₃ ++ rest), ?_, ?_⟩
        · rw [skipBlanks_blanks_append hb₁, List.nil_append, afterSpace]
          exact scanLiteral_point_append (.inl rfl) (noNumber.mono fun _ => isNumeralChar_eq_false)
        · exact skipBlanks_eq_self (hname.stops_append blank_apart_name.symm _)
      · refine ⟨b₂ ++ (name ++ (b₃ ++ rest)), ?_, afterSpace⟩
        have atPoint : Stops isBlank (['.'] ++ (b₂ ++ (name ++ (b₃ ++ rest)))) :=
          stops_cons.mpr rfl
        rw [skipBlanks_append hb₁ atPoint]
        exact scanLiteral_point_append (.inr rfl) (atName.mono fun _ => isNumeralChar_eq_false)
    obtain ⟨r₂, hnumber, hspace⟩ := afterNumber
    have scanned := scan_of_parts (scanSign_before_operand sign start)
      hnumber (by rw [hspace, afterName]) (ofParts?_name hname.nonempty)
    simpa [skipBlanks_append hb₃ noBlank] using scanned

/-- The parts of a scanned term, with the blanks between them. -/
theorem parts_of_scan {t : Term} {text rest : Text} (h : scan text = (.ok t, rest)) :
    ∃ sign number name b₁ r₁ b₂ b₃, text = signText sign ++ (b₁ ++ r₁) ∧
      scanLiteral r₁ = (.ok number, b₂ ++ (name ++ (b₃ ++ rest))) ∧
      (∀ c ∈ name, isNameChar c = true) ∧ ofParts? sign number name = some t ∧
      Blanks b₁ ∧ Blanks b₂ ∧ Blanks b₃ := by
  obtain ⟨b₁, hb₁, hspace₁⟩ := exists_blanks_append (scanSign text).2
  unfold scan at h
  dsimp only at h
  split at h
  · cases h
  · rename_i number r₂ hnumber
    obtain ⟨b₂, hb₂, hspace₂⟩ := exists_blanks_append r₂
    obtain ⟨b₃, hb₃, hspace₃⟩ := exists_blanks_append (scanName (skipBlanks r₂)).2
    split at h
    · rename_i term hparts
      simp only [Prod.mk.injEq, Except.ok.injEq] at h
      obtain ⟨rfl, rfl⟩ := h
      refine ⟨_, number, _, b₁, skipBlanks (scanSign text).2, b₂, b₃, ?_, ?_, ?_, hparts, hb₁, hb₂, hb₃⟩
      · rw [← hspace₁, signText_append_scanSign]
      · rw [← hspace₃, scanName_append, ← hspace₂, hnumber]
      · exact fun c hc => (List.all_eq_true.mp (List.all_takeWhile)) c hc
    · cases h

/-- What is scanned as a term is a written term. -/
theorem text_of_scan {t : Term} {text rest : Text} (h : scan text = (.ok t, rest)) :
    ∃ s, TermText t s ∧ text = s ++ rest := by
  obtain ⟨sign, number, name, b₁, r₁, b₂, b₃, rfl, hnumber, hchars, hparts, hb₁, hb₂, hb₃⟩ :=
    parts_of_scan h
  by_cases hempty : name = []
  · subst hempty
    cases number with
    | none => cases hparts
    | some number =>
      cases hparts
      obtain ⟨n, hn, rfl⟩ := literal_of_scanLiteral hnumber
      exact ⟨_, .constant hb₁ hn (hb₂.append hb₃), by simp [List.append_assoc]⟩
  · rw [ofParts?_name hempty] at hparts
    cases hparts
    cases number with
    | none =>
      obtain ⟨point, hpoint, rfl⟩ := point_of_scanLiteral hnumber
      exact ⟨_, .named hb₁ hpoint hb₂ ⟨hempty, hchars⟩ hb₃, by simp [List.append_assoc]⟩
    | some number =>
      obtain ⟨n, hn, rfl⟩ := literal_of_scanLiteral hnumber
      exact ⟨_, .scaled hb₁ hn hb₂ ⟨hempty, hchars⟩ hb₃, by simp [List.append_assoc]⟩

end Term

/-! ## Faults -/

/-- What can be wrong with a token by itself. -/
def tokenFaults : List Status :=
  [.noTermEncountered, .multipleDecimalPoints, .tooManyDigits, .missingExponent, .illegalExponent]

theorem isSuccess_of_mem_tokenFaults {fault : Status} (h : fault ∈ tokenFaults) :
    fault.isSuccess = false := by
  have hall : ∀ status ∈ tokenFaults, status.isSuccess = false := by decide
  exact hall fault h

/-- What can be wrong with a number. -/
def numberFaults : List Status :=
  [.multipleDecimalPoints, .tooManyDigits, .missingExponent, .illegalExponent]

theorem fault_mem_of_scanNumeralFrom {digits : Nat} {point : Bool} {text : Text} {fault : Status}
    (h : (scanNumeralFrom digits point text).fault = some fault) : fault ∈ numberFaults := by
  fun_induction scanNumeralFrom digits point text with
  | case1 => cases h
  | case2 _ _ _ _ _ _ ih => exact ih h
  | case3 => cases h; decide
  | case4 => cases h; decide
  | case5 _ _ _ _ _ ih => exact ih h
  | case6 => cases h

theorem fault_mem_of_scanNumeral {text : Text} {fault : Status}
    (h : (scanNumeral text).fault = some fault) : fault ∈ numberFaults := by
  unfold scanNumeral at h
  dsimp only at h
  split at h
  · cases h
    decide
  · exact fault_mem_of_scanNumeralFrom h

theorem fault_mem_of_scanExponent {text : Text} {fault : Status}
    (h : (scanExponent text).1 = .error fault) : fault ∈ numberFaults := by
  unfold scanExponent at h
  dsimp only at h
  split at h
  · cases h; decide
  · split at h
    · cases h; decide
    · split at h
      · cases h; decide
      · cases h

theorem fault_mem_of_scanLiteral {text rest : Text} {fault : Status}
    (h : scanLiteral text = (.error fault, rest)) : fault ∈ numberFaults := by
  unfold scanLiteral at h
  dsimp only at h
  split at h
  · rename_i numeralFault hfault
    cases h
    exact fault_mem_of_scanNumeral hfault
  · split at h
    · cases h
    · split at h
      · rename_i after _
        cases hexponent : (scanExponent after).1 with
        | error exponentFault =>
          rw [hexponent] at h
          cases h
          exact fault_mem_of_scanExponent hexponent
        | ok e => rw [hexponent] at h; cases h
      · cases h

theorem Term.fault_mem_of_scan {text rest : Text} {fault : Status}
    (h : scan text = (.error fault, rest)) : fault ∈ tokenFaults := by
  unfold scan at h
  dsimp only at h
  split at h
  · rename_i hliteral
    cases h
    exact List.mem_cons_of_mem _ (fault_mem_of_scanLiteral hliteral)
  · split at h
    · cases h
    · cases h
      decide

end EquationPad
