import EquationPad.Proofs.Dimensions

/-! A system as it is seen by row and name. Where a name has its column depends on the
names before it, so two systems can only be compared by name. A name without a column
reads as zero, and so does its later column before it is given out, so a new name needs no
case of its own. -/

namespace EquationPad.LinearSystem

open Contribution (amounts)

/-- The coefficient of a variable, zero if the system does not know it. -/
def coefficientOf (system : LinearSystem) (row : Int) (name : Text) : Float :=
  match system.findVariable? name with
  | some column => system.coefficient row column
  | none => 0.0

/-- The number kept for a variable, or the constant. -/
def value (system : LinearSystem) (row : Int) : Option Text → Float
  | some name => system.coefficientOf row name
  | none => system.constant row

variable {system : LinearSystem} {limit row : Nat}

/-! ## Names -/

theorem findVariable?_of_getElem? (hnodup : system.names.Nodup) {column : Nat} {v : Text}
    (hcolumn : system.names[column]? = some v) : system.findVariable? v = some column := by
  obtain ⟨hlt, hname⟩ := List.getElem?_eq_some_iff.mp hcolumn
  rw [findVariable?_eq_idxOf?]
  refine List.idxOf?_eq_some_iff.mpr ⟨hlt, hname, ?_⟩
  intro j hj heq
  have hsame : system.names[j]? = system.names[column]? := by
    rw [hcolumn, List.getElem?_eq_getElem (by omega), heq]
  have := (List.getElem?_inj (by omega) hnodup).mp hsame
  omega

theorem names_variableIndex (system : LinearSystem) (name : Text) :
    (system.variableIndex name).2.names =
      system.names ++ [name].filter fun name => name ∉ system.names := by
  unfold variableIndex
  cases hfind : system.findVariable? name with
  | some column =>
    have hmem : name ∈ system.names := by
      by_contra hnew
      rw [findVariable?_eq_none_iff.mpr hnew] at hfind
      cases hfind
    simp [hmem]
  | none =>
    have hnew : name ∉ system.names := findVariable?_eq_none_iff.mp hfind
    have hnames := system.unknowns.names_add name
    simp only [hnew, not_false_eq_true, decide_true, List.filter_cons_of_pos, List.filter_nil]
    exact hnames

theorem names_contribute_eq (system : LinearSystem) (row : Nat) (c : Contribution) :
    (system.contribute row c).names = system.names ++
      (c.unknown?.toList.filter fun name => name ∉ system.names) := by
  cases c with
  | coefficient negative factor name => exact system.names_variableIndex name
  | constant negative number => simp [contribute, Contribution.unknown?]

/-! ## Values -/

theorem coefficientOf_of_not_mem {v : Text} (h : v ∉ system.names) (row : Int) :
    system.coefficientOf row v = 0.0 := by
  rw [coefficientOf, findVariable?_eq_none_iff.mpr h]

/-- The number of a name is where its column is, or will be. -/
theorem coefficientOf_eq_get (h : Spans limit system) {names : List Text}
    (hgrown : system.names <+: names) (hnodup : names.Nodup) {column : Nat} {v : Text}
    (hcolumn : names[column]? = some v) (row : Nat) :
    system.coefficientOf row v = system.coefficients.get (row, column) := by
  obtain ⟨more, rfl⟩ := hgrown
  by_cases hlt : column < system.names.length
  · rw [List.getElem?_append_left hlt] at hcolumn
    rw [coefficientOf, findVariable?_of_getElem? h.nodup hcolumn]
    exact h.coefficient_eq row column
  · have hnew : v ∉ system.names := by
      intro hold
      obtain ⟨j, hj, hname⟩ := List.mem_iff_getElem.mp hold
      have hsame : (system.names ++ more)[j]? = (system.names ++ more)[column]? := by
        rw [hcolumn, List.getElem?_append_left hj, List.getElem?_eq_getElem hj, hname]
      have := (List.getElem?_inj (by rw [List.length_append]; omega) hnodup).mp hsame
      omega
    have hout : ¬ column < system.columns := by rwa [h.columns, ← length_names]
    rw [coefficientOf_of_not_mem hnew]
    exact (Tally.get_eq_zero (fun key => key.2 < system.columns)
      (fun e he => (h.coefficients e he).2.2) hout).symm

theorem Spans.foldl_contribute (h : Spans (row + 1) system) (cs : List Contribution) :
    Spans (row + 1) (cs.foldl (LinearSystem.contribute row) system) := by
  induction cs generalizing system with
  | nil => exact h
  | cons c cs ih => exact ih (h.contribute c)

theorem coefficients_foldl_contribute_of_ne {r : Nat} (h : r ≠ row) (cs : List Contribution)
    (column : Nat) :
    (cs.foldl (contribute row) system).coefficients.get (r, column) =
      system.coefficients.get (r, column) := by
  induction cs generalizing system with
  | nil => rfl
  | cons c cs ih => rw [List.foldl_cons, ih, coefficients_contribute_of_ne h]

theorem constants_foldl_contribute_of_ne {r : Nat} (h : r ≠ row) (cs : List Contribution) :
    (cs.foldl (contribute row) system).constants.get r = system.constants.get r := by
  induction cs generalizing system with
  | nil => rfl
  | cons c cs ih => rw [List.foldl_cons, ih, constants_contribute_of_ne h]

theorem coefficientOf_foldl_contribute (h : Spans (row + 1) system) (cs : List Contribution)
    (r : Nat) (v : Text) :
    (cs.foldl (contribute row) system).coefficientOf r v =
      if r = row then (amounts readDouble (some v) cs).foldl (· + ·) (system.coefficientOf r v)
      else system.coefficientOf r v := by
  have hafter := h.foldl_contribute cs
  have hgrown := (names_foldl_contribute cs system row).1
  by_cases hv : v ∈ (cs.foldl (contribute row) system).names
  · obtain ⟨column, hcolumn⟩ := List.mem_iff_getElem?.mp hv
    rw [coefficientOf_eq_get hafter List.prefix_rfl hafter.nodup hcolumn,
      coefficientOf_eq_get h hgrown hafter.nodup hcolumn]
    split
    · rename_i hr
      rw [hr, coefficients_foldl_contribute hafter.nodup hcolumn]
    · rename_i hr
      exact coefficients_foldl_contribute_of_ne hr cs column
  · have hnone : amounts readDouble (some v) cs = [] := by
      rw [amounts, List.map_eq_nil_iff, List.filter_eq_nil_iff]
      intro c hc hname
      exact hv (mem_names_foldl_contribute hc (of_decide_eq_true hname) system row)
    rw [coefficientOf_of_not_mem hv, coefficientOf_of_not_mem (fun hold => hv (hgrown.subset hold)),
      hnone]
    exact (ite_self 0.0).symm

theorem constant_foldl_contribute (h : Spans (row + 1) system) (cs : List Contribution) (r : Nat) :
    (cs.foldl (contribute row) system).constant r =
      if r = row then (amounts readDouble none cs).foldl (· + ·) (system.constant r)
      else system.constant r := by
  rw [(h.foldl_contribute cs).constant_eq, h.constant_eq]
  split
  · rename_i hr
    rw [hr, constants_foldl_contribute]
  · rename_i hr
    exact constants_foldl_contribute_of_ne hr cs

/-- Contributions are added under their names, in their row, and nowhere else. -/
theorem value_foldl_contribute (h : Spans (row + 1) system) (cs : List Contribution) (r : Nat)
    (place : Option Text) :
    (cs.foldl (contribute row) system).value r place =
      if r = row then (amounts readDouble place cs).foldl (· + ·) (system.value r place)
      else system.value r place := by
  cases place with
  | some v => exact coefficientOf_foldl_contribute h cs r v
  | none => exact constant_foldl_contribute h cs r

/-- Beyond the last row there is nothing. -/
theorem Spans.value_eq_zero (h : Spans limit system) {r : Nat} (hr : limit ≤ r)
    (place : Option Text) : system.value r place = 0.0 := by
  have hrows := h.rows
  have hconstants := h.constantRows
  cases place with
  | some v =>
    show system.coefficientOf r v = 0.0
    unfold coefficientOf
    split
    · exact if_neg (by omega)
    · rfl
  | none => exact if_neg (by omega)

theorem value_negSucc (system : LinearSystem) (r : Nat) (place : Option Text) :
    system.value (.negSucc r) place = 0.0 := by
  cases place with
  | some v =>
    show system.coefficientOf (.negSucc r) v = 0.0
    unfold coefficientOf
    split <;> rfl
  | none => rfl

end EquationPad.LinearSystem
