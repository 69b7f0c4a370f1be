import EquationPad.Proofs.Simulation
import EquationPad.Proofs.Storage

/-! The builders that reading lines leads to. As long as no term of an equation has been
accepted its row is empty and no sign is pending, whatever lines were refused before,
so an equation starts from nothing. -/

namespace EquationPad

/-! ## Stored rows -/

namespace LinearSystem

/-- Names have one column each, and what is stored lies in the first `limit` rows and
within the dimensions. -/
structure Fits (limit : Nat) (system : LinearSystem) : Prop where
  nodup : system.names.Nodup
  coefficients : ∀ e ∈ system.coefficients.entries,
    e.1.1 < limit ∧ e.1.1 < system.rows ∧ e.1.2 < system.columns
  constants : ∀ e ∈ system.constants.entries, e.1 < limit ∧ e.1 < system.constantRows

variable {system : LinearSystem} {limit row : Nat}

theorem Fits.mono {larger : Nat} (h : Fits limit system) (hle : limit ≤ larger) :
    Fits larger system where
  nodup := h.nodup
  coefficients e he := ⟨Nat.lt_of_lt_of_le (h.coefficients e he).1 hle, (h.coefficients e he).2⟩
  constants e he := ⟨Nat.lt_of_lt_of_le (h.constants e he).1 hle, (h.constants e he).2⟩

theorem Fits.variableIndex (h : Fits limit system) (name : Text) :
    Fits limit (system.variableIndex name).2 := by
  obtain ⟨unknowns, hunknowns, -, -, hnodup⟩ := system.variableIndex_spec name
  rw [hunknowns]
  exact ⟨hnodup h.nodup, h.coefficients, h.constants⟩

theorem Fits.addCoefficient (h : Fits limit system) (hrow : row < limit) (column : Nat)
    (value : Float) : Fits limit (system.addCoefficient row column value) where
  nodup := h.nodup
  coefficients e he := by
    simp only [LinearSystem.addCoefficient] at he ⊢
    rcases Tally.key_of_mem_addTo he with hkey | ⟨e', he', hkey⟩
    · rw [hkey]
      dsimp only
      omega
    · have hold := h.coefficients e' he'
      rw [hkey] at hold
      omega
  constants := h.constants

theorem Fits.addConstant (h : Fits limit system) (hrow : row < limit) (value : Float) :
    Fits limit (system.addConstant row value) where
  nodup := h.nodup
  coefficients := h.coefficients
  constants e he := by
    simp only [LinearSystem.addConstant] at he ⊢
    rcases Tally.key_of_mem_addTo he with hkey | ⟨e', he', hkey⟩
    · rw [hkey]
      omega
    · have hold := h.constants e' he'
      rw [hkey] at hold
      omega

theorem Fits.contribute (h : Fits (row + 1) system) (c : Contribution) :
    Fits (row + 1) (system.contribute row c) := by
  cases c with
  | coefficient negative factor name =>
    exact (h.variableIndex name).addCoefficient (Nat.lt_succ_self row) _ _
  | constant negative number => exact h.addConstant (Nat.lt_succ_self row) _

theorem Fits.foldl_contribute (h : Fits (row + 1) system) (cs : List Contribution) :
    Fits (row + 1) (cs.foldl (LinearSystem.contribute row) system) := by
  induction cs generalizing system with
  | nil => exact h
  | cons c cs ih => exact ih (h.contribute c)

/-- A place outside the dimensions has nothing stored, so it need not be told apart. -/
theorem Fits.coefficient_eq (h : Fits limit system) (row column : Nat) :
    system.coefficient row column = system.coefficients.get (row, column) := by
  show (if row < system.rows ∧ column < system.columns then _ else _) = _
  split
  · rfl
  · rename_i hout
    exact (Tally.get_eq_zero (fun key => key.1 < system.rows ∧ key.2 < system.columns)
      (fun e he => (h.coefficients e he).2) hout).symm

theorem Fits.constant_eq (h : Fits limit system) (row : Nat) :
    system.constant row = system.constants.get row := by
  show (if row < system.constantRows then _ else _) = _
  split
  · rfl
  · rename_i hout
    exact (Tally.get_eq_zero (· < system.constantRows)
      (fun e he => (h.constants e he).2) hout).symm

theorem Fits.coefficients_eq_zero (h : Fits row system) (column : Nat) :
    system.coefficients.get (row, column) = 0.0 :=
  Tally.get_eq_zero (fun key => key.1 < row) (fun e he => (h.coefficients e he).1)
    (Nat.lt_irrefl row)

theorem Fits.constants_eq_zero (h : Fits row system) : system.constants.get row = 0.0 :=
  Tally.get_eq_zero (· < row) (fun e he => (h.constants e he).1) (Nat.lt_irrefl row)

end LinearSystem

/-! ## Builders -/

namespace Builder

/-- What reading lines from the start leads to; the count is the caller's. -/
def Reachable (builder : Builder) : Prop :=
  ∃ (count : Int) (lines : List Text), builder = feedAll { count } lines

/-- Whether a term of the equation was accepted. -/
def isBegun (builder : Builder) : Bool := builder.draft.leftTerm || builder.draft.rightTerm

/-- Before its first term an equation has nothing in its row and nothing pending. -/
structure Tidy (builder : Builder) : Prop where
  fits : builder.system.Fits (builder.draft.row + 1)
  expected : builder.isBegun = false → builder.draft.expected = .term
  equalSeen : builder.isBegun = false → builder.draft.equalSeen = false
  negative : builder.isBegun = false → builder.draft.negative = false
  empty : builder.isBegun = false → builder.system.Fits builder.draft.row

theorem tidy_start (count : Int) : Tidy { count } where
  fits := ⟨List.nodup_nil, by simp, by simp⟩
  expected _ := rfl
  equalSeen _ := rfl
  negative _ := rfl
  empty _ := ⟨List.nodup_nil, by simp, by simp⟩

variable {builder : Builder}

/-- An invariant of reading has nothing to say of an equation that has a term. -/
theorem Tidy.of_begun (hfits : builder.system.Fits (builder.draft.row + 1))
    (hbegun : builder.isBegun = true) : Tidy builder where
  fits := hfits
  expected h := by rw [hbegun] at h; cases h
  equalSeen h := by rw [hbegun] at h; cases h
  negative h := by rw [hbegun] at h; cases h
  empty h := by rw [hbegun] at h; cases h

theorem Tidy.isBegun_accept (h : Tidy builder) {token : Token}
    (hkind : token.kind = builder.draft.expected) : (builder.accept token).isBegun = true := by
  cases token with
  | term t =>
    cases hseen : builder.draft.equalSeen <;>
      simp [isBegun, Builder.accept, addTerm, expect, hseen]
  | operator o =>
    -- an operator is due only after a term
    show builder.isBegun = true
    by_contra hnot
    have hterm := h.expected (by simpa using hnot)
    rw [← hkind] at hterm
    cases hterm

theorem Tidy.accept (h : Tidy builder) {token : Token}
    (hkind : token.kind = builder.draft.expected) : Tidy (builder.accept token) := by
  refine .of_begun ?_ (h.isBegun_accept hkind)
  rw [row_accept]
  cases token with
  | term t =>
    rw [system_accept_term]
    exact h.fits.contribute _
  | operator o => exact h.fits

/-- An equation is begun with its first token. -/
theorem Tidy.isBegun_acceptAll (h : Tidy builder) {tokens : List Token} {text : Text}
    (hspells : Spells builder.draft.expected tokens text) (hne : tokens ≠ []) :
    (builder.acceptAll tokens).isBegun = true := by
  induction tokens generalizing builder text with
  | nil => exact absurd rfl hne
  | cons token tokens ih =>
    cases hspells with
    | @cons _ _ _ _ rest hkind _ hrest =>
      cases tokens with
      | nil => exact h.isBegun_accept hkind
      | cons next tokens =>
        have hnext : Spells (builder.accept token).draft.expected (next :: tokens) rest := by
          rw [expected_accept, hkind]
          exact hrest
        exact ih (h.accept hkind) hnext (by simp)

theorem isOpen_of_isBegun (h : builder.isBegun = true) : builder.draft.isOpen = true := by
  rw [isBegun, Bool.or_eq_true] at h
  rcases h with hleft | hright
  · simp [Draft.isOpen, hleft]
  · simp [Draft.isOpen, hright]

theorem isBegun_of_isOpen (h : builder.draft.isOpen = false) : builder.isBegun = false := by
  rw [← Bool.not_eq_true]
  intro hbegun
  rw [isOpen_of_isBegun hbegun] at h
  cases h

theorem Tidy.report (h : Tidy builder) (status : Status) (position : Int) :
    Tidy (builder.report status position) := ⟨h.fits, h.expected, h.equalSeen, h.negative, h.empty⟩

theorem Tidy.begun (h : Tidy builder) (text : Text) : Tidy (builder.begun text) :=
  ⟨h.fits, h.expected, h.equalSeen, h.negative, h.empty⟩

theorem Tidy.dropSign (h : Tidy builder) : Tidy builder.dropSign :=
  ⟨h.fits, h.expected, h.equalSeen, fun _ => rfl, h.empty⟩

theorem Tidy.complete (h : Tidy builder) : Tidy builder.complete where
  fits := h.fits.mono (Nat.le_succ _)
  expected _ := rfl
  equalSeen _ := rfl
  negative _ := rfl
  empty _ := h.fits

theorem kept_tidy : Kept Tidy where
  report status position h := h.report status position
  begun text h := h.begun text
  accept h hkind := h.accept hkind
  dropSign h _ := h.dropSign
  complete h _ := h.complete

theorem Tidy.feed (h : Tidy builder) (line : Text) : Tidy (builder.feed line) :=
  kept_tidy.feed h line

theorem Tidy.feedAll (h : Tidy builder) (lines : List Text) : Tidy (builder.feedAll lines) :=
  kept_tidy.feedAll h lines

theorem Reachable.tidy (h : Reachable builder) : Tidy builder := by
  obtain ⟨count, lines, rfl⟩ := h
  exact (tidy_start count).feedAll lines

/-- Rows and completed equations are counted alike. -/
theorem kept_count : Kept fun builder => builder.count = builder.draft.row where
  report _ _ h := h
  begun _ h := h
  accept h _ := by rw [count_accept, row_accept, h]
  dropSign h _ := h
  complete _ _ := rfl

/-- Where no equation is open, what tokens add is what they mean on their own. -/
theorem Tidy.system_acceptAll (h : Tidy builder) (hclosed : builder.draft.isOpen = false)
    (tokens : List Token) : (builder.acceptAll tokens).system =
      (contributions tokens).foldl (LinearSystem.contribute builder.draft.row) builder.system := by
  have hempty := isBegun_of_isOpen hclosed
  rw [Builder.system_acceptAll, h.equalSeen hempty, h.negative hempty, contributions]

end Builder

end EquationPad
