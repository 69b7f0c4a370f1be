import EquationPad.Proofs.Reachability

/-! How far the storage of a system reaches, and what reading more of a document leaves
alone. There is a column for each variable and no row beyond the equation being read; that
row is not there before its equation has a term. Adding to it changes no row before it and
moves no column. -/

namespace EquationPad

namespace LinearSystem

variable {system : LinearSystem} {limit row : Nat}

/-! ## Dimensions -/

/-- There are columns for the variables, and at most `limit` rows. -/
structure Spans (limit : Nat) (system : LinearSystem) : Prop extends Fits limit system where
  rows : system.rows ≤ limit
  columns : system.columns = system.variableCount
  constantRows : system.constantRows ≤ limit

theorem spans_empty (limit : Nat) : Spans limit {} :=
  ⟨⟨List.nodup_nil, by simp, by simp⟩, Nat.zero_le _, rfl, Nat.zero_le _⟩

theorem Spans.mono {larger : Nat} (h : Spans limit system) (hle : limit ≤ larger) :
    Spans larger system :=
  ⟨h.toFits.mono hle, h.rows.trans hle, h.columns, h.constantRows.trans hle⟩

theorem variableCount_variableIndex (system : LinearSystem) (name : Text) :
    (system.variableIndex name).2.variableCount =
      max system.variableCount ((system.variableIndex name).1 + 1) := by
  unfold variableIndex
  cases hfind : system.findVariable? name with
  | none => simp [variableCount]
  | some column =>
    rw [findVariable?_eq_idxOf?] at hfind
    obtain ⟨hlt, -⟩ := List.idxOf?_eq_some_iff.mp hfind
    rw [length_names] at hlt
    exact (Nat.max_eq_left hlt).symm

theorem Spans.contribute (h : Spans (row + 1) system) (c : Contribution) :
    Spans (row + 1) (system.contribute row c) := by
  refine ⟨h.toFits.contribute c, ?_, ?_, ?_⟩
  · cases c with
    | coefficient negative factor name =>
      obtain ⟨unknowns, hunknowns, -⟩ := system.variableIndex_spec name
      simp only [LinearSystem.contribute, addCoefficient, hunknowns]
      exact Nat.max_le.mpr ⟨h.rows, Nat.le_refl _⟩
    | constant negative number => exact h.rows
  · cases c with
    | coefficient negative factor name =>
      obtain ⟨unknowns, hunknowns, -⟩ := system.variableIndex_spec name
      have hcolumns : (system.variableIndex name).2.columns = system.columns := by rw [hunknowns]
      show max (system.variableIndex name).2.columns ((system.variableIndex name).1 + 1) =
        (system.variableIndex name).2.variableCount
      rw [hcolumns, h.columns, variableCount_variableIndex]
    | constant negative number => exact h.columns
  · cases c with
    | coefficient negative factor name =>
      obtain ⟨unknowns, hunknowns, -⟩ := system.variableIndex_spec name
      simpa only [LinearSystem.contribute, addCoefficient, hunknowns] using h.constantRows
    | constant negative number => exact Nat.max_le.mpr ⟨h.constantRows, Nat.le_refl _⟩

/-! ## What stays -/

/-- Rows before `limit` hold what they held, and names keep their columns. -/
structure Extends (limit : Nat) (before after : LinearSystem) : Prop where
  names : before.names <+: after.names
  coefficients : ∀ r < limit, ∀ column : Nat,
    after.coefficients.get (r, column) = before.coefficients.get (r, column)
  constants : ∀ r < limit, after.constants.get r = before.constants.get r

theorem Extends.refl (limit : Nat) (system : LinearSystem) : Extends limit system system :=
  ⟨List.prefix_rfl, fun _ _ _ => rfl, fun _ _ => rfl⟩

theorem coefficients_contribute_of_ne {r : Nat} (h : r ≠ row) (c : Contribution) (column : Nat) :
    (system.contribute row c).coefficients.get (r, column) =
      system.coefficients.get (r, column) := by
  cases c with
  | coefficient negative factor name =>
    obtain ⟨unknowns, hunknowns, -⟩ := system.variableIndex_spec name
    simp only [contribute, addCoefficient, hunknowns, Tally.get_add]
    refine if_neg ?_
    intro heq
    exact h (Prod.mk.inj heq).1.symm
  | constant negative number => rfl

theorem constants_contribute_of_ne {r : Nat} (h : r ≠ row) (c : Contribution) :
    (system.contribute row c).constants.get r = system.constants.get r := by
  cases c with
  | coefficient negative factor name =>
    obtain ⟨unknowns, hunknowns, -⟩ := system.variableIndex_spec name
    simp only [contribute, addCoefficient, hunknowns]
  | constant negative number =>
    simp only [contribute, addConstant, Tally.get_add]
    exact if_neg (Ne.symm h)

theorem Extends.contribute {before : LinearSystem} (h : Extends limit before system)
    (hrow : limit ≤ row) (c : Contribution) : Extends limit before (system.contribute row c) where
  names := h.names.trans (names_contribute system row c).1
  coefficients r hr column := by
    rw [coefficients_contribute_of_ne (by omega), h.coefficients r hr]
  constants r hr := by
    rw [constants_contribute_of_ne (by omega), h.constants r hr]

/-- The same as seen from outside: by place, and by name. -/
structure Frozen (limit : Nat) (before after : LinearSystem) : Prop where
  coefficient : ∀ row column : Int, row < limit →
    after.coefficient row column = before.coefficient row column
  constant : ∀ row : Int, row < limit → after.constant row = before.constant row
  columns : ∀ name column, before.findVariable? name = some column →
    after.findVariable? name = some column

theorem Extends.frozen {before after : LinearSystem} {l l' : Nat} (h : Extends limit before after)
    (hbefore : Fits l before) (hafter : Fits l' after) : Frozen limit before after where
  coefficient row column hrow := by
    match row, column with
    | .ofNat r, .ofNat c =>
      have hr : r < limit := by simpa using hrow
      have heq := h.coefficients r hr c
      rwa [← hbefore.coefficient_eq, ← hafter.coefficient_eq] at heq
    | .ofNat _, .negSucc _ => rfl
    | .negSucc _, _ => rfl
  constant row hrow := by
    match row with
    | .ofNat r =>
      have hr : r < limit := by simpa using hrow
      have heq := h.constants r hr
      rwa [← hbefore.constant_eq, ← hafter.constant_eq] at heq
    | .negSucc _ => rfl
  columns name column hfind := by
    obtain ⟨more, hmore⟩ := h.names
    rw [findVariable?_eq_idxOf?, List.idxOf?] at hfind ⊢
    rw [← hmore, List.findIdx?_append, hfind]
    rfl

end LinearSystem

/-! ## Builders -/

namespace Builder

/-- The dimensions go with the equation being read. -/
structure Sized (builder : Builder) : Prop where
  tidy : Tidy builder
  spans : builder.system.Spans (builder.draft.row + 1)
  empty : builder.isBegun = false → builder.system.Spans builder.draft.row

theorem sized_start (count : Int) : Sized { count } :=
  ⟨tidy_start count, LinearSystem.spans_empty _, fun _ => LinearSystem.spans_empty _⟩

theorem kept_sized : Kept Sized where
  report status position h := ⟨h.tidy.report status position, h.spans, h.empty⟩
  begun text h := ⟨h.tidy.begun text, h.spans, h.empty⟩
  accept {builder token} h hkind := by
    refine ⟨h.tidy.accept hkind, ?_, ?_⟩
    · rw [row_accept]
      cases token with
      | term t =>
        rw [system_accept_term]
        exact h.spans.contribute _
      | operator o => exact h.spans
    · intro hempty
      rw [h.tidy.isBegun_accept hkind] at hempty
      cases hempty
  dropSign h _ := ⟨h.tidy.dropSign, h.spans, h.empty⟩
  complete h _ := ⟨h.tidy.complete, h.spans.mono (Nat.le_succ _), fun _ => h.spans⟩

/-- Reading leaves the rows before `limit` alone once they are complete. -/
theorem kept_extends (limit : Nat) (before : LinearSystem) :
    Kept fun builder => limit ≤ builder.draft.row ∧ before.Extends limit builder.system where
  report _ _ h := h
  begun _ h := h
  accept {builder token} h _ := by
    refine ⟨by rw [row_accept]; exact h.1, ?_⟩
    cases token with
    | term t =>
      rw [system_accept_term]
      exact h.2.contribute h.1 _
    | operator o => exact h.2
  dropSign h _ := h
  complete h _ := ⟨h.1.trans (Nat.le_succ _), h.2⟩

theorem extends_feed (builder : Builder) (line : Text) :
    builder.system.Extends builder.draft.row (builder.feed line).system :=
  ((kept_extends _ _).feed ⟨Nat.le_refl _, .refl _ _⟩ line).2

end Builder

end EquationPad
