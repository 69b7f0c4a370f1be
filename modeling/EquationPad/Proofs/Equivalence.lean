import Mathlib
import EquationPad.Proofs.Numbering

/-! When two systems are the same to the program. It compares tables with as many rows as either
system has stored, and beyond these both read as zero, so systems are equivalent if their names
have the same columns and everything read from them compares equal. How it came to be stored does
not matter. -/

namespace EquationPad

/-! ## Comparing doubles -/

variable {x y z : Float}

/-- The doubles are equal to the program. The two zeros are; what is no number equals nothing. -/
def ComparesEqual (x y : Float) : Prop := (x == y) = true

/-- Only what is no number differs from itself. -/
theorem comparesEqual_self_iff : ComparesEqual x x ↔ x.isNaN = false := by
  rw [ComparesEqual, Float.beq_self_iff, Float.isNaN_eq_decide_eq_nan, decide_eq_false_iff_not]

theorem ComparesEqual.symm (h : ComparesEqual x y) : ComparesEqual y x := BEq.symm h

theorem ComparesEqual.trans (h : ComparesEqual x y) (h' : ComparesEqual y z) :
    ComparesEqual x z := BEq.trans h h'

/-- No comparison tells the doubles apart: they are equal, or neither is a number. -/
def Indistinct (x y : Float) : Prop := ComparesEqual x y ∨ x.isNaN = true ∧ y.isNaN = true

theorem indistinct_refl (x : Float) : Indistinct x x := by
  cases hx : x.isNaN with
  | true => exact .inr ⟨hx, hx⟩
  | false => exact .inl (comparesEqual_self_iff.mpr hx)

theorem Indistinct.symm (h : Indistinct x y) : Indistinct y x := h.imp ComparesEqual.symm And.symm

theorem Indistinct.trans_comparesEqual (h : Indistinct x y) (h' : ComparesEqual y z) :
    ComparesEqual x z := by
  rcases h with heq | ⟨-, hnan⟩
  · exact heq.trans h'
  · have hnumber := comparesEqual_self_iff.mp (h'.trans h'.symm)
    rw [hnan] at hnumber
    cases hnumber

/-! ## Comparing tables -/

theorem map_beq_map {α β : Type} [BEq β] {f g : α → β} {xs : List α} :
    (xs.map f == xs.map g) = true ↔ ∀ x ∈ xs, (f x == g x) = true := by
  induction xs with
  | nil => simp
  | cons x xs ih =>
    rw [List.map_cons, List.map_cons, List.cons_beq_cons, Bool.and_eq_true, ih,
      List.forall_mem_cons]

namespace LinearSystem

variable {p q r : LinearSystem}

/-- The number of rows in which two systems are compared. -/
def comparedRows (p q : LinearSystem) : Nat :=
  max (max p.rows q.rows) (max p.constantRows q.constantRows)

/-- Names have the same columns, and what is read is related in every place that has a row and a
column, whatever is stored. -/
structure Pointwise (related : Float → Float → Prop) (p q : LinearSystem) : Prop where
  columns : ∀ name, p.findVariable? name = q.findVariable? name
  coefficients : ∀ row column : Nat, column < p.variableCount →
    related (p.coefficient row column) (q.coefficient row column)
  constants : ∀ row : Nat, related (p.constant row) (q.constant row)

/-- Nothing that can be compared is not a number. -/
structure HoldsNumbers (p : LinearSystem) : Prop where
  coefficients : ∀ row column : Nat, column < p.variableCount →
    (p.coefficient row column).isNaN = false
  constants : ∀ row : Nat, (p.constant row).isNaN = false

theorem names_eq_iff (hp : Sound p) (hq : Sound q) :
    p.names = q.names ↔ ∀ name, p.findVariable? name = q.findVariable? name := by
  constructor
  · intro hnames name
    rw [findVariable?_eq_idxOf?, findVariable?_eq_idxOf?, hnames]
  · intro hfind
    refine List.ext_getElem? fun column => Option.ext fun name => ?_
    rw [← findVariable?_eq_some_iff hp.nodup, ← findVariable?_eq_some_iff hq.nodup, hfind]

theorem variableCount_of_names (h : p.names = q.names) : p.variableCount = q.variableCount :=
  p.length_names.symm.trans ((congrArg List.length h).trans q.length_names)

/-- Beyond the rows that are compared both systems read as zero. -/
theorem coefficient_beyond {row column : Nat} (h : comparedRows p q ≤ row) :
    ComparesEqual (p.coefficient row column) (q.coefficient row column) := by
  unfold comparedRows at h
  rw [p.coefficient_outside (by omega), q.coefficient_outside (by omega)]
  rfl

theorem constant_beyond {row : Nat} (h : comparedRows p q ≤ row) :
    ComparesEqual (p.constant row) (q.constant row) := by
  unfold comparedRows at h
  rw [p.constant_outside (by omega), q.constant_outside (by omega)]
  rfl

theorem denseCoefficients_beq_iff (hp : Sound p) (hq : Sound q) (hnames : p.names = q.names)
    (n : Nat) : (p.denseCoefficients n == q.denseCoefficients n) = true ↔
      ∀ row < n, ∀ column < p.variableCount,
        ComparesEqual (p.coefficient row column) (q.coefficient row column) := by
  rw [hp.denseCoefficients_eq, hq.denseCoefficients_eq, variableCount_of_names hnames, map_beq_map]
  simp only [map_beq_map, List.mem_range, ComparesEqual]

theorem denseConstants_beq_iff (hp : Sound p) (hq : Sound q) (n : Nat) :
    (p.denseConstants n == q.denseConstants n) = true ↔
      ∀ row < n, ComparesEqual (p.constant row) (q.constant row) := by
  rw [hp.denseConstants_eq, hq.denseConstants_eq, map_beq_map]
  simp only [List.mem_range, ComparesEqual]

theorem isEquivalent_iff (p q : LinearSystem) : p.isEquivalent q = true ↔ p.names = q.names ∧
    (p.denseCoefficients (comparedRows p q) == q.denseCoefficients (comparedRows p q)) = true ∧
      (p.denseConstants (comparedRows p q) == q.denseConstants (comparedRows p q)) = true := by
  have hnames : p.unknowns.pairs = q.unknowns.pairs ↔ p.names = q.names := p.unknowns.pairs_eq_iff
  rw [isEquivalent, Bool.and_eq_true, Bool.and_eq_true, decide_eq_true_iff, and_assoc, hnames]
  rfl

/-- Rows that are not compared make no difference. -/
theorem isEquivalent_iff_pointwise (hp : Sound p) (hq : Sound q) :
    p.isEquivalent q = true ↔ Pointwise ComparesEqual p q := by
  rw [isEquivalent_iff, denseConstants_beq_iff hp hq]
  constructor
  · rintro ⟨hnames, hcoefficients, hconstants⟩
    rw [denseCoefficients_beq_iff hp hq hnames] at hcoefficients
    refine ⟨(names_eq_iff hp hq).mp hnames, ?_, ?_⟩
    -- the tables end at a row that depends on the pair; beyond it both read as zero
    · intro row column hcolumn
      rcases Nat.lt_or_ge row (comparedRows p q) with hrow | hrow
      · exact hcoefficients row hrow column hcolumn
      · exact coefficient_beyond hrow
    · intro row
      rcases Nat.lt_or_ge row (comparedRows p q) with hrow | hrow
      · exact hconstants row hrow
      · exact constant_beyond hrow
  · intro h
    have hnames := (names_eq_iff hp hq).mpr h.columns
    rw [denseCoefficients_beq_iff hp hq hnames]
    exact ⟨hnames, fun row _ => h.coefficients row, fun row _ => h.constants row⟩

/-! ## Equivalence -/

theorem Pointwise.symm {related : Float → Float → Prop} (hp : Sound p) (hq : Sound q)
    (hrelated : ∀ x y, related x y → related y x) (h : Pointwise related p q) :
    Pointwise related q p where
  columns name := (h.columns name).symm
  coefficients row column hcolumn := by
    have hcount := variableCount_of_names ((names_eq_iff hp hq).mpr h.columns)
    exact hrelated _ _ (h.coefficients row column (hcount ▸ hcolumn))
  constants row := hrelated _ _ (h.constants row)

theorem Pointwise.comp {related related' related'' : Float → Float → Prop} (hp : Sound p)
    (hq : Sound q) (hrelated : ∀ x y z, related x y → related' y z → related'' x z)
    (h : Pointwise related p q) (h' : Pointwise related' q r) : Pointwise related'' p r where
  columns name := (h.columns name).trans (h'.columns name)
  coefficients row column hcolumn := by
    have hcount := variableCount_of_names ((names_eq_iff hp hq).mpr h.columns)
    exact hrelated _ _ _ (h.coefficients row column hcolumn)
      (h'.coefficients row column (hcount ▸ hcolumn))
  constants row := hrelated _ _ _ (h.constants row) (h'.constants row)

theorem LooksLike.pointwise (h : LooksLike p q) : Pointwise Indistinct p q where
  columns name := by rw [findVariable?_eq_idxOf?, findVariable?_eq_idxOf?, h.names]
  coefficients row column _ := by
    have hread : p.coefficient row column = q.coefficient row column :=
      h.read (.coefficient row column)
    exact hread ▸ indistinct_refl _
  constants row := by
    have hread : p.constant row = q.constant row := h.read (.constant row)
    exact hread ▸ indistinct_refl _

theorem pointwise_self_iff : Pointwise ComparesEqual p p ↔ p.HoldsNumbers := by
  constructor
  · intro h
    exact ⟨fun row column hcolumn => comparesEqual_self_iff.mp (h.coefficients row column hcolumn),
      fun row => comparesEqual_self_iff.mp (h.constants row)⟩
  · intro h
    exact ⟨fun _ => rfl,
      fun row column hcolumn => comparesEqual_self_iff.mpr (h.coefficients row column hcolumn),
      fun row => comparesEqual_self_iff.mpr (h.constants row)⟩

/-- A system in the place of one that reads the same gets the same answer. -/
theorem isEquivalent_of_indistinct (hp : Sound p) (hq : Sound q) (hr : Sound r)
    (h : Pointwise Indistinct p q) : p.isEquivalent r = q.isEquivalent r := by
  rw [Bool.eq_iff_iff, isEquivalent_iff_pointwise hp hr, isEquivalent_iff_pointwise hq hr]
  have hstep : ∀ x y z, Indistinct x y → ComparesEqual y z → ComparesEqual x z :=
    fun _ _ _ => Indistinct.trans_comparesEqual
  constructor
  · exact (h.symm hp hq fun _ _ => Indistinct.symm).comp hq hp hstep
  · exact h.comp hp hq hstep

/-- How systems compare with each other. -/
structure Compares (p q r : LinearSystem) : Prop where
  pointwise : p.isEquivalent q = true ↔ Pointwise ComparesEqual p q
  unseen : Pointwise Indistinct p q → p.isEquivalent r = q.isEquivalent r
  refl : p.isEquivalent p = true ↔ p.HoldsNumbers
  symm : p.isEquivalent q = q.isEquivalent p
  trans : p.isEquivalent q = true → q.isEquivalent r = true → p.isEquivalent r = true

theorem compares_of_sound (hp : Sound p) (hq : Sound q) (hr : Sound r) : Compares p q r where
  pointwise := isEquivalent_iff_pointwise hp hq
  unseen := isEquivalent_of_indistinct hp hq hr
  refl := (isEquivalent_iff_pointwise hp hp).trans pointwise_self_iff
  symm := by
    rw [Bool.eq_iff_iff, isEquivalent_iff_pointwise hp hq, isEquivalent_iff_pointwise hq hp]
    exact ⟨fun h => h.symm hp hq fun _ _ h => h.symm, fun h => h.symm hq hp fun _ _ h => h.symm⟩
  trans hpq hqr := by
    rw [isEquivalent_iff_pointwise hp hq] at hpq
    rw [isEquivalent_iff_pointwise hq hr] at hqr
    rw [isEquivalent_iff_pointwise hp hr]
    exact hpq.comp hp hq (fun _ _ _ h h' => h.trans h') hqr

/-- **Equivalent systems are those that read the same.** Two systems are equivalent if and only if
names have the same columns and everything that can be read of a variable or a constant compares
equal, in whatever rows. So nothing counts that cannot be read, such as how far the storage has
grown or what was stored and has cancelled out, nor the order of additions in different places.
Systems that hold numbers only are equivalent to themselves, and equivalence goes both ways and
carries over. -/
theorem compares_after (calls calls' calls'' : List Call) :
    Compares (after calls) (after calls') (after calls'') ∧
      ∀ a b place place' v w later,
        a.addition? = some (place, v) → b.addition? = some (place', w) → place ≠ place' →
          (after (calls ++ a :: b :: later)).isEquivalent (after calls') =
            (after (calls ++ b :: a :: later)).isEquivalent (after calls') := by
  refine ⟨compares_of_sound (sound_after _) (sound_after _) (sound_after _), ?_⟩
  intro a b place place' v w later ha hb hne
  exact isEquivalent_of_indistinct (sound_after _) (sound_after _) (sound_after _)
    (looksLike_swap calls later ha hb hne).pointwise

/-- A coefficient that has cancelled out and a row of zeros count for nothing. -/
example :
    (after [.variableIndex "x", .addCoefficient 2 0 1.5, .addCoefficient 2 0 (-1.5),
      .addConstant 7 0.0]).isEquivalent (after [.variableIndex "x"]) = true := by decide

end LinearSystem

end EquationPad
