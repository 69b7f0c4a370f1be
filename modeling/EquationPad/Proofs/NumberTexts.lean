import EquationPad.Report
import EquationPad.Proofs.FreshStart
import EquationPad.Proofs.Rounding

/-! What the text of a number says. A layout only places the digits of the rounded decimal, so what
is read back from its text is that decimal, in no more digits than asked for. For a double the
decimal that is rounded is the number its bits stand for, in the standard library's own reading of
them. A workspace always asks for one digit at least, so this holds of every value it prints. -/

namespace EquationPad

namespace Decimal

/-! ## Digits -/

theorem isDigit_showNat (n : Nat) : ∀ c ∈ showNat n, isDigit c = true :=
  fun _ hc => Nat.isDigit_of_mem_toDigits (by decide) (by decide) hc

theorem showNat_ne_nil (n : Nat) : showNat n ≠ [] := Nat.toDigits_ne_nil

theorem isDigit_zeros (k : Nat) : ∀ c ∈ List.replicate k '0', isDigit c = true := by
  intro c hc
  rw [List.eq_of_mem_replicate hc]
  rfl

theorem digitsValue_showNat (n : Nat) : digitsValue (showNat n) = n :=
  Nat.ofDigitChars_ten_toDigits

theorem digitsValue_zeros (k : Nat) : digitsValue (List.replicate k '0') = 0 := by
  rw [digitsValue, Nat.ofDigitChars_replicate_zero, Nat.mul_zero]

theorem digitsValue_append_zeros (digits : Text) (k : Nat) :
    digitsValue (digits ++ List.replicate k '0') = digitsValue digits * 10 ^ k := by
  rw [digitsValue_append, digitsValue_zeros, List.length_replicate, Nat.add_zero]

theorem digitsValue_zeros_append (digits : Text) (k : Nat) :
    digitsValue (List.replicate k '0' ++ digits) = digitsValue digits := by
  rw [digitsValue_append, digitsValue_zeros, Nat.zero_mul, Nat.zero_add]

/-! ## Reading back -/

/-- What may follow the digits, with the power of ten that it stands for: nothing, or a letter, a
sign and at least two digits. -/
inductive TailText : Int → Text → Prop
  | nothing : TailText 0 []
  | plus {digits} : (∀ c ∈ digits, isDigit c = true) → 2 ≤ digits.length →
      TailText (digitsValue digits) ('e' :: '+' :: digits)
  | minus {digits} : (∀ c ∈ digits, isDigit c = true) → 2 ≤ digits.length →
      TailText (-(digitsValue digits : Int)) ('e' :: '-' :: digits)

/-- The text is the decimal: `read?` reads its digits and leaves the power of ten, whose letter is
another one than in a line, and nothing else. -/
inductive ReadsAs : Text → Decimal → Prop
  | intro {text tail : Text} {m : Decimal} {power : Int} : read? text = some (m, tail) →
      TailText power tail → ReadsAs text ⟨m.digits, m.exponent + power⟩

variable {precision places : Nat} {power : Int} {digits mantissa tail : Text}

theorem TailText.stops (h : TailText power tail) : Stops isNumeralChar tail := by
  cases h with
  | nothing => exact stops_nil _
  | plus _ _ => exact stops_cons.mpr rfl
  | minus _ _ => exact stops_cons.mpr rfl

theorem TailText.readExponent (h : TailText power tail) : readExponent tail = some (0, tail) := by
  cases h with
  | nothing => rfl
  | plus _ _ => rfl
  | minus _ _ => rfl

theorem read?_of_mantissaText (h : MantissaText digits places mantissa)
    (hdigits : ∀ c ∈ digits, isDigit c = true) (hne : digits ≠ [])
    (hstop : Stops isNumeralChar tail) {rest : Text}
    (hpower : Decimal.readExponent tail = some (power, rest)) :
    read? (mantissa ++ tail) = some (⟨digitsValue digits, power - places⟩, rest) := by
  have hempty : digits.isEmpty = false := List.isEmpty_eq_false_iff.mpr hne
  cases h with
  | whole => simp [read?, readMantissa_whole hdigits hstop, hempty, hpower]
  | @point front behind hsplit =>
    subst hsplit
    obtain ⟨hfront, hbehind⟩ := List.forall_mem_append.mp hdigits
    simp only [read?, readMantissa_point hfront hbehind hstop, hempty, hpower]
    rfl

theorem readsAs_of_mantissaText (h : MantissaText digits places mantissa)
    (hdigits : ∀ c ∈ digits, isDigit c = true) (hne : digits ≠ []) (htail : TailText power tail) :
    ReadsAs (mantissa ++ tail) ⟨digitsValue digits, power - places⟩ := by
  have hread := read?_of_mantissaText h hdigits hne htail.stops htail.readExponent
  have hback := ReadsAs.intro hread htail
  rwa [show 0 - (places : Int) + power = power - places by omega] at hback

/-- Every decimal that is converted to a double has a text that is read as this decimal. -/
theorem read?_showNat (d : Decimal) :
    read? (showNat d.digits ++ 'E' :: showInt d.exponent) = some (d, []) := by
  have hpower : Decimal.readExponent ('E' :: showInt d.exponent) = some (d.exponent, []) := by
    cases d.exponent with
    | ofNat n =>
      have hvalue : Exponent.power ⟨false, showNat n⟩ = n :=
        congrArg Int.ofNat (digitsValue_showNat n)
      have hread := readExponent_digits (showNat_ne_nil n) (isDigit_showNat n) false
      rwa [hvalue] at hread
    | negSucc n =>
      have hvalue : Exponent.power ⟨true, showNat (n + 1)⟩ = .negSucc n :=
        congrArg (fun m : Nat => -(m : Int)) (digitsValue_showNat (n + 1))
      have hread := readExponent_digits (showNat_ne_nil (n + 1)) (isDigit_showNat (n + 1)) true
      rwa [hvalue] at hread
  have hread := read?_of_mantissaText .whole (isDigit_showNat d.digits) (showNat_ne_nil d.digits)
    (stops_cons.mpr rfl) hpower
  rwa [digitsValue_showNat, Nat.cast_zero, sub_zero] at hread

/-! ## Places -/

/-- The number that has the given digits, the first of them at the given power of ten. -/
def placed (digits : Text) (power : Int) : ℚ :=
  digitsValue digits * 10 ^ (power + 1 - digits.length)

/-- Zeros behind the digits change nothing. -/
theorem placed_append_zeros (digits : Text) (k : Nat) (power : Int) :
    placed (digits ++ List.replicate k '0') power = placed digits power := by
  have hsplit : power + 1 - digits.length =
      k + (power + 1 - (digits ++ List.replicate k '0').length) := by
    rw [List.length_append, List.length_replicate]
    omega
  rw [placed, placed, hsplit, zpow_add₀ (by norm_num), zpow_natCast, digitsValue_append_zeros]
  push_cast
  ring

theorem placed_showNat (d : Decimal) : placed (showNat d.digits) d.leadingPower = d.exact := by
  have hpower : d.leadingPower + 1 - (showNat d.digits).length = d.exponent := by
    rw [leadingPower]
    omega
  rw [placed, hpower, digitsValue_showNat, exact]

theorem exists_zeros (digits : Text) :
    ∃ k, digits = dropTrailingZeros digits ++ List.replicate k '0' := by
  have hzeros : ∀ c ∈ digits.reverse.takeWhile (· = '0'), c = '0' := fun c hc => by
    simpa using List.mem_takeWhile_imp hc
  have hsplit := congrArg List.reverse
    (List.takeWhile_append_dropWhile (p := (· = '0')) (l := digits.reverse))
  rw [List.reverse_append, List.reverse_reverse, List.eq_replicate_of_mem hzeros,
    List.reverse_replicate] at hsplit
  exact ⟨_, hsplit.symm⟩

/-! ## Layouts -/

/-- What is read back from the text is `value`, and it has no more digits than `precision`. -/
def Says (precision : Nat) (value : ℚ) (text : Text) : Prop :=
  ∃ d, ReadsAs text d ∧ d.digits < 10 ^ precision ∧ d.exact = value

theorem says_of_mantissaText (h : MantissaText digits places mantissa)
    (hdigits : ∀ c ∈ digits, isDigit c = true) (hne : digits ≠ [])
    (hlow : digitsValue digits < 10 ^ precision) (htail : TailText power tail)
    {value : ℚ} (hvalue : digitsValue digits * 10 ^ (power - places) = value) :
    Says precision value (mantissa ++ tail) :=
  ⟨_, readsAs_of_mantissaText h hdigits hne htail, hlow, hvalue⟩

theorem mantissaText_fractionText (front behind : Text) :
    MantissaText (front ++ behind) behind.length (front ++ fractionText behind) := by
  cases behind with
  | nil => exact .whole
  | cons c behind => exact .point rfl

theorem tailText_exponentText (power : Int) : TailText power (exponentText power) := by
  have hdigits : ∀ c ∈ List.replicate (2 - (showNat power.natAbs).length) '0' ++
      showNat power.natAbs, isDigit c = true :=
    List.forall_mem_append.mpr ⟨isDigit_zeros _, isDigit_showNat _⟩
  have hlength : 2 ≤ (List.replicate (2 - (showNat power.natAbs).length) '0' ++
      showNat power.natAbs).length := by
    rw [List.length_append, List.length_replicate]
    omega
  have hvalue : digitsValue (List.replicate (2 - (showNat power.natAbs).length) '0' ++
      showNat power.natAbs) = power.natAbs := by
    rw [digitsValue_zeros_append, digitsValue_showNat]
  unfold exponentText
  dsimp only
  split
  · have htail := TailText.minus hdigits hlength
    rwa [hvalue, show -(power.natAbs : Int) = power by omega] at htail
  · have htail := TailText.plus hdigits hlength
    rwa [hvalue, show (power.natAbs : Int) = power by omega] at htail

theorem digitsValue_lt_of_length_le (hdigits : ∀ c ∈ digits, isDigit c = true)
    (hlength : digits.length ≤ precision) : digitsValue digits < 10 ^ precision :=
  (digitsValue_lt hdigits).trans_le (Nat.pow_le_pow_right (by decide) hlength)

theorem says_positional_ofNat {p : Nat} (hdigits : ∀ c ∈ digits, isDigit c = true)
    (hlength : digits.length ≤ precision) (hp : p < precision) :
    Says precision (placed digits p) (positional digits (.ofNat p)) := by
  -- either zeros fill up the digits before the point, or there are digits behind it
  rcases Nat.le_total digits.length (p + 1) with hshort | hlong
  · have htext : positional digits (.ofNat p) =
        digits ++ List.replicate (p + 1 - digits.length) '0' ++ [] := by
      simp [positional, List.take_of_length_le hshort, List.drop_of_length_le hshort, fractionText]
    have hwritten : (digits ++ List.replicate (p + 1 - digits.length) '0').length = p + 1 := by
      rw [List.length_append, List.length_replicate]
      omega
    have hall := List.forall_mem_append.mpr ⟨hdigits, isDigit_zeros (p + 1 - digits.length)⟩
    rw [htext, ← placed_append_zeros digits (p + 1 - digits.length)]
    refine says_of_mantissaText .whole hall (List.ne_nil_of_length_pos (by omega))
      (digitsValue_lt_of_length_le hall (by omega)) .nothing ?_
    rw [placed, hwritten]
    congr 2
    omega
  · have htext : positional digits (.ofNat p) =
        digits.take (p + 1) ++ fractionText (digits.drop (p + 1)) ++ [] := by
      simp [positional, hlong]
    have hmantissa := mantissaText_fractionText (digits.take (p + 1)) (digits.drop (p + 1))
    rw [List.take_append_drop] at hmantissa
    rw [htext]
    refine says_of_mantissaText hmantissa hdigits (List.ne_nil_of_length_pos (by omega))
      (digitsValue_lt_of_length_le hdigits hlength) .nothing ?_
    rw [placed, List.length_drop]
    congr 2
    omega

theorem says_positional_negSucc {zeros : Nat} (hdigits : ∀ c ∈ digits, isDigit c = true)
    (hlength : digits.length ≤ precision) :
    Says precision (placed digits (.negSucc zeros)) (positional digits (.negSucc zeros)) := by
  have htext : positional digits (.negSucc zeros) =
      ['0'] ++ '.' :: (List.replicate zeros '0' ++ digits) ++ [] := by
    simp [positional]
  have hall : ∀ c ∈ ['0'] ++ (List.replicate zeros '0' ++ digits), isDigit c = true :=
    List.forall_mem_append.mpr
      ⟨isDigit_zeros 1, List.forall_mem_append.mpr ⟨isDigit_zeros zeros, hdigits⟩⟩
  have hvalue : digitsValue (['0'] ++ (List.replicate zeros '0' ++ digits)) =
      digitsValue digits := by
    rw [show ['0'] = List.replicate 1 '0' from rfl, digitsValue_zeros_append,
      digitsValue_zeros_append]
  rw [htext]
  refine says_of_mantissaText (.point rfl) hall (by simp) ?_ .nothing ?_
  · rw [hvalue]
    exact digitsValue_lt_of_length_le hdigits hlength
  · rw [hvalue, placed, List.length_append, List.length_replicate]
    congr 2
    omega

theorem says_scientific (hdigits : ∀ c ∈ digits, isDigit c = true) (hne : digits ≠ [])
    (hlength : digits.length ≤ precision) (power : Int) :
    Says precision (placed digits power) (scientific digits power) := by
  have hmantissa := mantissaText_fractionText (digits.take 1) (digits.drop 1)
  rw [List.take_append_drop] at hmantissa
  refine says_of_mantissaText hmantissa hdigits hne
    (digitsValue_lt_of_length_le hdigits hlength) (tailText_exponentText power) ?_
  have hpos := List.length_pos_iff.mpr hne
  rw [placed, List.length_drop]
  congr 2
  omega

/-! ## Layouts of rounded decimals -/

/-- The text says what the decimal is when rounded to `precision` digits. -/
def Tells (precision : Nat) (d : Decimal) (text : Text) : Prop :=
  ∃ rounded, RoundsTo precision d rounded ∧ Says precision rounded.exact text

/-- A power of ten has one digit more than fits, and that is a zero. -/
theorem showNat_ten_pow (hp : 0 < precision) :
    showNat (10 ^ precision) = showNat (10 ^ (precision - 1)) ++ ['0'] := by
  obtain ⟨k, rfl⟩ : ∃ k, precision = k + 1 := ⟨precision - 1, by omega⟩
  have hsplit : 10 ^ (k + 1) = 10 ^ k * 10 := pow_succ 10 k
  have hbase : 10 ≤ 10 ^ (k + 1) := Nat.le_self_pow (by omega) 10
  rw [showNat, Nat.toDigits_of_base_le (by decide) hbase, hsplit, Nat.mul_div_cancel _ (by decide),
    Nat.mul_mod_left]
  rfl

/-- The digits that do not fit are zeros behind those that do. -/
theorem showNat_eq_append_zeros (hp : 0 < precision) {n : Nat} (hn : n ≤ 10 ^ precision) :
    ∃ digits k, showNat n = digits ++ List.replicate k '0' ∧ digits.length ≤ precision ∧
      digits ≠ [] := by
  rcases Nat.lt_or_eq_of_le hn with hlt | rfl
  · exact ⟨showNat n, 0, (List.append_nil _).symm, (lt_ten_pow_iff hp).mp hlt, showNat_ne_nil n⟩
  · have hlow : 10 ^ (precision - 1) < 10 ^ precision :=
      Nat.pow_lt_pow_right (by decide) (by omega)
    exact ⟨showNat (10 ^ (precision - 1)), 1, showNat_ten_pow hp, (lt_ten_pow_iff hp).mp hlow,
      showNat_ne_nil _⟩

theorem isDigit_dropTrailingZeros (h : ∀ c ∈ digits, isDigit c = true) :
    ∀ c ∈ dropTrailingZeros digits, isDigit c = true := by
  obtain ⟨k, hk⟩ := exists_zeros digits
  rw [hk] at h
  exact (List.forall_mem_append.mp h).1

theorem placed_dropTrailingZeros (digits : Text) (power : Int) :
    placed (dropTrailingZeros digits) power = placed digits power := by
  obtain ⟨k, hk⟩ := exists_zeros digits
  conv_rhs => rw [hk, placed_append_zeros]

theorem dropTrailingZeros_append_zeros (digits : Text) (k : Nat) :
    dropTrailingZeros (digits ++ List.replicate k '0') = dropTrailingZeros digits := by
  have hzeros : ∀ c ∈ List.replicate k '0', decide (c = '0') = true := fun c hc => by
    simpa using List.eq_of_mem_replicate hc
  rw [dropTrailingZeros, List.reverse_append, List.reverse_replicate,
    List.dropWhile_append_of_pos hzeros, dropTrailingZeros]

theorem length_dropTrailingZeros_le (digits : Text) :
    (dropTrailingZeros digits).length ≤ digits.length := by
  obtain ⟨k, hk⟩ := exists_zeros digits
  conv_rhs => rw [hk, List.length_append]
  exact Nat.le_add_right _ _

/-- The digits that a number keeps when its last zeros are dropped. -/
theorem length_significant_le (hp : 0 < precision) {n : Nat} (hn : n ≤ 10 ^ precision) :
    (dropTrailingZeros (showNat n)).length ≤ precision := by
  obtain ⟨digits, k, hdigits, hlength, -⟩ := showNat_eq_append_zeros hp hn
  rw [hdigits, dropTrailingZeros_append_zeros]
  exact (length_dropTrailingZeros_le digits).trans hlength

theorem eq_zero_of_dropTrailingZeros {n : Nat} (h : dropTrailingZeros (showNat n) = []) :
    n = 0 := by
  obtain ⟨k, hk⟩ := exists_zeros (showNat n)
  rw [h, List.nil_append] at hk
  rw [← digitsValue_showNat n, hk, digitsValue_zeros]

theorem digits_eq_zero_of_round (hp : 0 < precision) {d : Decimal}
    (h : (d.round precision).digits = 0) : d.digits = 0 := by
  rcases Nat.lt_or_ge d.digits (10 ^ precision) with hfew | hmany
  · rwa [round_of_lt hp hfew] at h
  · have hpos : 0 < 10 ^ (precision - 1) := by positivity
    have hfull := le_digits_round hp hmany
    omega

/-- **The general layout says the rounded number.** Zero has to come without a power of ten. -/
theorem tells_general (hp : 0 < precision) {d : Decimal} (hzero : d.digits = 0 → d.exponent = 0) :
    Tells precision d (general precision d) := by
  refine ⟨d.round precision, roundsTo_round hp d, ?_⟩
  have hall := isDigit_dropTrailingZeros (isDigit_showNat (d.round precision).digits)
  have hlength := length_significant_le hp (digits_round_le hp d)
  rw [← placed_showNat, ← placed_dropTrailingZeros]
  unfold general
  dsimp only
  split
  · rename_i hpower
    cases hcase : (d.round precision).leadingPower with
    | ofNat power =>
      rw [hcase] at hpower
      exact says_positional_ofNat hall hlength (Int.ofNat_lt.mp hpower.2)
    | negSucc zeros => exact says_positional_negSucc hall hlength
  · rename_i hpower
    refine says_scientific hall ?_ hlength _
    -- zero is written with one digit before the point
    intro hempty
    have hdigits := digits_eq_zero_of_round hp (eq_zero_of_dropTrailingZeros hempty)
    have hround : d.round precision = d := round_of_lt hp (by rw [hdigits]; positivity)
    apply hpower
    rw [hround, leadingPower, hdigits, hzero hdigits]
    exact ⟨by decide, by simpa [showNat] using hp⟩

/-- A tie goes to the even digit, and the zero behind it is dropped. -/
example : general 6 ⟨1234995, -3⟩ = "1235" := by rfl

/-- **The scientific layout says the rounded number.** The digit before the point is one more than
those asked for behind it. -/
theorem tells_scientificPlaces (places : Nat) (d : Decimal) :
    Tells (places + 1) d (scientificPlaces places d) := by
  have hp : 0 < places + 1 := Nat.succ_pos places
  refine ⟨d.round (places + 1), roundsTo_round hp d, ?_⟩
  obtain ⟨digits, k, hdigits, hlength, hne⟩ := showNat_eq_append_zeros hp (digits_round_le hp d)
  have hwritten : (showNat (d.round (places + 1)).digits ++
      List.replicate (places + 1) '0').take (places + 1) =
        digits ++ List.replicate (places + 1 - digits.length) '0' := by
    rw [hdigits, List.append_assoc, List.replicate_append_replicate, List.take_append,
      List.take_of_length_le hlength, List.take_replicate, Nat.min_eq_left (by omega)]
  have hall : ∀ c ∈ digits ++ List.replicate (places + 1 - digits.length) '0',
      isDigit c = true := by
    refine List.forall_mem_append.mpr ⟨?_, isDigit_zeros _⟩
    have hshown := isDigit_showNat (d.round (places + 1)).digits
    rw [hdigits] at hshown
    exact (List.forall_mem_append.mp hshown).1
  unfold scientificPlaces
  dsimp only
  rw [hwritten, ← placed_showNat, hdigits, placed_append_zeros,
    ← placed_append_zeros digits (places + 1 - digits.length)]
  refine says_scientific hall (List.append_ne_nil_of_left_ne_nil hne _) ?_ _
  rw [List.length_append, List.length_replicate]
  omega

end Decimal

/-! ## Doubles -/

section
open Float.Model Float.Model.UnpackedFloat

def isNegative : UnpackedFloat.Sign → Bool
  | .negative => true
  | .positive => false

/-- A value of a double beside what the standard library takes the double apart to. -/
inductive Unpacks : UnpackedFloat → DoubleValue → Prop
  | notANumber : Unpacks .notANumber .notANumber
  | infinity (sign : UnpackedFloat.Sign) : Unpacks (.infinity sign) (.infinite (isNegative sign))
  | zero (sign : UnpackedFloat.Sign) (exponent : Int) :
      Unpacks (.zero sign) (.finite (isNegative sign) 0 exponent)
  | finite (sign : UnpackedFloat.Sign) {significand : Nat} (exponent : Int)
      (hpos : 0 < significand) :
      Unpacks (.finite sign significand exponent hpos)
        (.finite (isNegative sign) significand exponent)

variable (b : BitVec 64)

theorem toNat_unpackMantissa :
    (@unpackMantissa Format.binary64 b).toNat = b.toNat % 0x10000000000000 :=
  BitVec.extractLsb_toNat 51 0 b

theorem unpackMantissa_eq_iff (v : BitVec 52) :
    @unpackMantissa Format.binary64 b = v ↔ b.toNat % 0x10000000000000 = v.toNat := by
  rw [← toNat_unpackMantissa, BitVec.toNat_eq]

theorem toNat_unpackExponent :
    (@unpackExponent Format.binary64 b).toNat = (b.toNat >>> 52) % 0x800 :=
  BitVec.extractLsb_toNat 62 52 b

theorem unpackExponent_eq_iff (v : BitVec 11) :
    @unpackExponent Format.binary64 b = v ↔ (b.toNat >>> 52) % 0x800 = v.toNat := by
  rw [← toNat_unpackExponent, BitVec.toNat_eq]

theorem isNegative_unpackSign :
    isNegative (Sign.ofBitVec (@unpackSign Format.binary64 b)) =
      decide (b.toNat >>> 63 = 1) := by
  have hbound : b.toNat >>> 63 < 2 := by
    rw [Nat.shiftRight_eq_div_pow]
    exact Nat.div_lt_of_lt_mul b.isLt
  have hbit : (@unpackSign Format.binary64 b).toNat = b.toNat >>> 63 :=
    (BitVec.extractLsb_toNat 63 63 b).trans (Nat.mod_eq_of_lt hbound)
  have hzero : @unpackSign Format.binary64 b = 0#1 ↔ b.toNat >>> 63 = 0 := by
    rw [← hbit, BitVec.toNat_eq]
    rfl
  unfold Sign.ofBitVec
  split
  · rename_i h
    rw [hzero.mp h]
    rfl
  · rename_i h
    have hone : b.toNat >>> 63 = 1 := by
      have hne := mt hzero.mpr h
      omega
    rw [hone]
    rfl

theorem Unpacks.finite_of_eq {sign : UnpackedFloat.Sign} {m n : Nat} {e f : Int} {hpos : 0 < m}
    (hm : m = n) (he : e = f) :
    Unpacks (.finite sign m e hpos) (.finite (isNegative sign) n f) := by
  subst hm he
  exact .finite sign e hpos

/-- **The bits are read as the standard library reads them.** -/
theorem unpacks_decodeDouble (x : Float) : Unpacks x.toModel.unpack (decodeDouble x) := by
  have hbits : x.toBits.toNat = x.toModel.toBits.toBitVec.toNat := rfl
  unfold Float.Model.unpack UnpackedFloat.unpack decodeDouble
  dsimp only
  rw [hbits]
  generalize x.toModel.toBits.toBitVec = b
  have hones : @unpackExponent Format.binary64 b = -1#_ ↔ (b.toNat >>> 52) % 0x800 = 2047 :=
    unpackExponent_eq_iff b _
  have hzeros : @unpackExponent Format.binary64 b = 0#_ ↔ (b.toNat >>> 52) % 0x800 = 0 :=
    unpackExponent_eq_iff b _
  have hnothing : @unpackMantissa Format.binary64 b = 0#_ ↔ b.toNat % 0x10000000000000 = 0 :=
    unpackMantissa_eq_iff b _
  have hbias : ((Format.binary64.exponentBias : Nat) : Int) + (52 : Nat) = 1075 := rfl
  rw [← isNegative_unpackSign]
  by_cases hall : (b.toNat >>> 52) % 0x800 = 2047
  · rw [if_pos (hones.mpr hall), if_pos hall]
    by_cases hfraction : b.toNat % 0x10000000000000 = 0
    · rw [if_pos (hnothing.mpr hfraction), if_pos hfraction]
      exact .infinity _
    · rw [if_neg (mt hnothing.mp hfraction), if_neg hfraction]
      exact .notANumber
  · rw [if_neg (mt hones.mp hall), if_neg hall]
    by_cases hnone : (b.toNat >>> 52) % 0x800 = 0
    · rw [if_pos (hzeros.mpr hnone), if_pos hnone]
      by_cases hfraction : b.toNat % 0x10000000000000 = 0
      · rw [dif_pos (hnothing.mpr hfraction), hfraction]
        exact .zero _ _
      · rw [dif_neg (mt hnothing.mp hfraction)]
        refine .finite_of_eq (toNat_unpackMantissa b) ?_
        rw [toNat_unpackExponent, hnone, hbias]
        rfl
    · rw [if_neg (mt hzeros.mp hnone), if_neg hnone]
      refine .finite_of_eq ?_ ?_
      · -- the bit in front of the fraction is not stored
        have hlow : (@unpackMantissa Format.binary64 b).toNat < 2 ^ 52 := BitVec.isLt _
        rw [BitVec.toNat_append, ← Nat.shiftLeft_add_eq_or_of_lt hlow, toNat_unpackMantissa]
        rfl
      · rw [toNat_unpackExponent, hbias]
end

namespace Decimal

/-- Five tenths are a half. -/
theorem exact_ofBinary (significand : Nat) (exponent : Int) :
    (ofBinary significand exponent).exact = significand * 2 ^ exponent := by
  unfold ofBinary
  split
  · rename_i hzero
    rw [hzero, exact, Nat.cast_zero, zero_mul, zero_mul]
  · cases exponent with
    | ofNat e => simp [exact, Nat.shiftLeft_eq]
    | negSucc e =>
      have hten : (10 : ℚ) ^ (e + 1) = 5 ^ (e + 1) * 2 ^ (e + 1) := by
        rw [← mul_pow]
        norm_num
      show ((significand * 5 ^ (e + 1) : Nat) : ℚ) * 10 ^ (-(e + 1 : Nat) : Int) =
        significand * 2 ^ (-(e + 1 : Nat) : Int)
      rw [zpow_neg, zpow_neg, zpow_natCast, zpow_natCast, hten]
      push_cast
      field_simp

theorem exponent_ofBinary {significand : Nat} {exponent : Int}
    (h : (ofBinary significand exponent).digits = 0) :
    (ofBinary significand exponent).exponent = 0 := by
  unfold ofBinary at h ⊢
  split
  · rfl
  · rename_i hne
    cases exponent with
    | ofNat e => rfl
    | negSucc e => simp [hne] at h

end Decimal

variable {precision significand : Nat} {exponent : Int} {negative : Bool} {x : Float}

/-- The text is a number with its sign. What is read back has no more digits than `precision` and
is off by half a unit in the last of so many digits at most. -/
def SignedText (precision : Nat) (negative : Bool) (value : ℚ) (text : Text) : Prop :=
  ∃ (magnitude : Text) (d : Decimal),
    text = (if negative then '-' :: magnitude else magnitude) ∧ Decimal.ReadsAs magnitude d ∧
      d.digits < 10 ^ precision ∧ |d.exact - value| ≤ value * 10 ^ (1 - precision : Int) / 2

/-- **The text of a double says the double,** if its layout says the decimal that it is given. -/
theorem showDouble_tells {layout : Decimal → Text}
    (hlayout : ∀ d : Decimal, (d.digits = 0 → d.exponent = 0) → d.Tells precision (layout d))
    (hx : decodeDouble x = .finite negative significand exponent) :
    SignedText precision negative (significand * 2 ^ exponent) (showDouble layout x) := by
  obtain ⟨rounded, hrounds, d, hreads, hdigits, hexact⟩ :=
    hlayout (Decimal.ofBinary significand exponent) Decimal.exponent_ofBinary
  refine ⟨layout (Decimal.ofBinary significand exponent), d, ?_, hreads, hdigits, ?_⟩
  · rw [showDouble, hx]
  · rw [hexact, ← Decimal.exact_ofBinary]
    exact hrounds.relative

theorem showGeneral_tells (hp : 0 < precision)
    (hx : decodeDouble x = .finite negative significand exponent) :
    SignedText precision negative (significand * 2 ^ exponent) (showGeneral precision x) :=
  showDouble_tells (fun _ => Decimal.tells_general hp) hx

theorem showScientific_tells (places : Nat)
    (hx : decodeDouble x = .finite negative significand exponent) :
    SignedText (places + 1) negative (significand * 2 ^ exponent) (showScientific places x) :=
  showDouble_tells (fun d _ => Decimal.tells_scientificPlaces places d) hx

/-! ## Printed values -/

theorem Operation.precision_pos_setup {setup : Setup} (operation : Operation)
    (h : 0 < setup.settings.precision) : 0 < (operation.setup setup).settings.precision := by
  cases operation with
  | setPrecision precision =>
    show 0 < (if 0 < precision then _ else setup).settings.precision
    split
    · rename_i hpositive
      exact Int.pos_iff_toNat_pos.mp hpositive
    · exact h
  | startAnew =>
    show 0 < defaultPrecision
    decide
  | _ => exact h

namespace Workspace

theorem precision_pos_run (operations : List Operation) :
    0 < (run operations).settings.precision := by
  show 0 < (run operations).setup.settings.precision
  rw [setup_run]
  induction operations using List.reverseRecOn with
  | nil => decide
  | append_singleton operations operation ih =>
    rw [List.foldl_append]
    exact operation.precision_pos_setup ih

/-- **A printed value says the double** whose line it is, whatever was done before. -/
theorem valueLine_run (operations : List Operation) (name : Text)
    (hx : decodeDouble x = .finite negative significand exponent) :
    ∃ text, (run operations).valueLine name x = name ++ " = " ++ text ++ "\n" ∧
      SignedText (run operations).settings.precision negative (significand * 2 ^ exponent) text :=
  ⟨_, rfl, showGeneral_tells (precision_pos_run operations) hx⟩

end Workspace

end EquationPad
