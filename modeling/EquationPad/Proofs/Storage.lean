import EquationPad.Proofs.Contributions

/-! What the stored numbers are made of. Adding in one place changes no other place, so
a stored number is the sum, from the left, of what was added there. Names keep their
columns once they have them, and a row that nothing was added to starts at zero. -/

namespace EquationPad

namespace Tally

variable {κ : Type} [DecidableEq κ] {key : κ}

theorem sumOf_of_not_mem {entries : List (κ × Float)} (h : ∀ e ∈ entries, e.1 ≠ key) :
    sumOf key entries = 0.0 := by
  induction entries with
  | nil => rfl
  | cons e entries ih =>
    rw [sumOf, if_neg (h e (by simp))]
    exact ih fun e' he' => h e' (by simp [he'])

/-- A key unlike all that were added to reads as zero. -/
theorem get_eq_zero (P : κ → Prop) {tally : Tally κ} (h : ∀ e ∈ tally.entries, P e.1)
    (hkey : ¬ P key) : tally.get key = 0.0 := by
  refine sumOf_of_not_mem ?_
  intro e he heq
  exact hkey (heq ▸ h e he)

theorem key_of_mem_addTo {value : Float} {entries : List (κ × Float)} {e : κ × Float}
    (h : e ∈ addTo key value entries) : e.1 = key ∨ ∃ e' ∈ entries, e'.1 = e.1 := by
  induction entries with
  | nil =>
    left
    rw [List.mem_singleton.mp h]
  | cons first entries ih =>
    obtain ⟨k, sum⟩ := first
    rw [addTo] at h
    by_cases hk : k = key
    · rw [if_pos hk] at h
      rcases List.mem_cons.mp h with rfl | hrest
      · exact .inl hk
      · exact .inr ⟨e, by simp [hrest], rfl⟩
    · rw [if_neg hk] at h
      rcases List.mem_cons.mp h with rfl | hrest
      · exact .inr ⟨(k, sum), by simp, rfl⟩
      · rcases ih hrest with hkey | ⟨e', he', heq⟩
        · exact .inl hkey
        · exact .inr ⟨e', by simp [he'], heq⟩

end Tally

namespace LinearSystem

/-! ## Columns -/

/-- A name is given a column at the end or has one already. -/
theorem variableIndex_spec (system : LinearSystem) (name : Text) :
    ∃ unknowns, (system.variableIndex name).2 = { system with unknowns } ∧
      system.names <+: unknowns.names ∧
      unknowns.names[(system.variableIndex name).1]? = some name ∧
      (system.names.Nodup → unknowns.names.Nodup) := by
  unfold variableIndex
  cases hfind : system.findVariable? name with
  | some column =>
    refine ⟨system.unknowns, rfl, List.prefix_rfl, ?_, id⟩
    rw [findVariable?_eq_idxOf?] at hfind
    obtain ⟨hlt, hname, -⟩ := List.idxOf?_eq_some_iff.mp hfind
    exact List.getElem?_eq_some_iff.mpr ⟨hlt, hname⟩
  | none =>
    have hnew : name ∉ system.names := findVariable?_eq_none_iff.mp hfind
    have hnames := system.unknowns.names_add name
    refine ⟨system.unknowns.add name, rfl, ?_, ?_, ?_⟩
    · rw [hnames]
      exact List.prefix_append _ _
    · rw [hnames, variableCount, ← Columns.length_names, List.getElem?_concat_length]
    · intro hnodup
      rw [hnames]
      refine List.nodup_append.mpr ⟨hnodup, by simp, ?_⟩
      intro old hold new hname heq
      rw [List.mem_singleton.mp hname] at heq
      exact hnew (heq ▸ hold)

variable {system : LinearSystem} {row : Nat} {c : Contribution}

theorem names_contribute (system : LinearSystem) (row : Nat) (c : Contribution) :
    system.names <+: (system.contribute row c).names ∧
      (system.names.Nodup → (system.contribute row c).names.Nodup) := by
  cases c with
  | coefficient negative factor name =>
    obtain ⟨unknowns, hunknowns, hgrown, -, hnodup⟩ := system.variableIndex_spec name
    simpa [contribute, hunknowns, addCoefficient, names] using And.intro hgrown hnodup
  | constant negative number => exact ⟨List.prefix_rfl, id⟩

theorem names_foldl_contribute (cs : List Contribution) (system : LinearSystem) (row : Nat) :
    system.names <+: (cs.foldl (contribute row) system).names ∧
      (system.names.Nodup → (cs.foldl (contribute row) system).names.Nodup) := by
  induction cs generalizing system with
  | nil => exact ⟨List.prefix_rfl, id⟩
  | cons c cs ih =>
    obtain ⟨hgrown, hnodup⟩ := names_contribute system row c
    obtain ⟨hgrown', hnodup'⟩ := ih (system.contribute row c)
    exact ⟨hgrown.trans hgrown', fun h => hnodup' (hnodup h)⟩

theorem mem_names_foldl_contribute {cs : List Contribution} {name : Text} (hc : c ∈ cs)
    (hname : c.unknown? = some name) (system : LinearSystem) (row : Nat) :
    name ∈ (cs.foldl (contribute row) system).names := by
  induction cs generalizing system with
  | nil => cases hc
  | cons first cs ih =>
    rcases List.mem_cons.mp hc with rfl | hrest
    · refine (names_foldl_contribute cs (system.contribute row c) row).1.subset ?_
      cases c with
      | coefficient negative factor name' =>
        obtain rfl := Option.some.inj hname
        obtain ⟨unknowns, hunknowns, -, hcolumn, -⟩ := system.variableIndex_spec name'
        simpa [contribute, hunknowns, addCoefficient, names] using List.mem_of_getElem? hcolumn
      | constant negative number => cases hname
    · exact ih hrest (system.contribute row first)

/-! ## Sums -/

theorem coefficients_contribute {names : List Text} {column : Nat} {v : Text}
    (hgrown : (system.contribute row c).names <+: names) (hnodup : names.Nodup)
    (hcolumn : names[column]? = some v) :
    (system.contribute row c).coefficients.get (row, column) =
      if c.unknown? = some v then
        system.coefficients.get (row, column) + c.amount readDouble
      else system.coefficients.get (row, column) := by
  cases c with
  | coefficient negative factor name =>
    obtain ⟨unknowns, hunknowns, -, hname, -⟩ := system.variableIndex_spec name
    have hstored : (system.contribute row (.coefficient negative factor name)).coefficients =
        system.coefficients.add (row, (system.variableIndex name).1)
          (Contribution.amount readDouble (.coefficient negative factor name)) := by
      simp [contribute, addCoefficient, hunknowns]
    have hlonger : unknowns.names <+: names := by
      simpa [contribute, hunknowns, addCoefficient, LinearSystem.names] using hgrown
    have hlater : names[(system.variableIndex name).1]? = some name := by
      obtain ⟨more, rfl⟩ := hlonger
      rw [List.getElem?_append_left (List.getElem?_eq_some_iff.mp hname).1]
      exact hname
    have hsame : (row, (system.variableIndex name).1) = (row, column) ↔ some name = some v := by
      constructor
      · intro heq
        rw [← hlater, ← hcolumn, (Prod.mk.inj heq).2]
      · intro heq
        have hlt : (system.variableIndex name).1 < names.length :=
          (List.getElem?_eq_some_iff.mp hlater).1
        have hcolumns :=
          (List.getElem?_inj hlt hnodup).mp (hlater.trans (heq.trans hcolumn.symm))
        rw [hcolumns]
    rw [hstored, Tally.get_add]
    by_cases heq : (row, (system.variableIndex name).1) = (row, column)
    · rw [if_pos heq, heq]
      exact (if_pos (hsame.mp heq)).symm
    · rw [if_neg heq]
      exact (if_neg (mt hsame.mpr heq)).symm
  | constant negative number => rfl

theorem constants_contribute :
    (system.contribute row c).constants.get row =
      if c.unknown? = none then system.constants.get row + c.amount readDouble
      else system.constants.get row := by
  cases c with
  | coefficient negative factor name =>
    obtain ⟨unknowns, hunknowns, -⟩ := system.variableIndex_spec name
    simp [contribute, addCoefficient, hunknowns, Contribution.unknown?]
  | constant negative number =>
    simp [contribute, addConstant, Tally.get_add, Contribution.unknown?]

open Contribution (amounts)

/-- What is added in one place one by one is added there in one sum. -/
theorem get_foldl_contribute {names : List Text} {place : Option Text}
    {get : LinearSystem → Float}
    (hstep : ∀ (system : LinearSystem) (c : Contribution), (system.contribute row c).names <+: names →
      get (system.contribute row c) =
        if c.unknown? = place then get system + c.amount readDouble else get system)
    {cs : List Contribution} (hnames : (cs.foldl (contribute row) system).names <+: names) :
    get (cs.foldl (contribute row) system) =
      (amounts readDouble place cs).foldl (· + ·) (get system) := by
  induction cs generalizing system with
  | nil => rfl
  | cons c cs ih =>
    have hgrown := (names_foldl_contribute cs (system.contribute row c) row).1
    rw [List.foldl_cons] at hnames ⊢
    rw [ih hnames, hstep system c (hgrown.trans hnames), amounts, amounts]
    by_cases hc : c.unknown? = place
    · simp [hc]
    · simp [hc]

theorem coefficients_foldl_contribute {cs : List Contribution} {column : Nat} {v : Text}
    (hnodup : (cs.foldl (contribute row) system).names.Nodup)
    (hcolumn : (cs.foldl (contribute row) system).names[column]? = some v) :
    (cs.foldl (contribute row) system).coefficients.get (row, column) =
      (amounts readDouble (some v) cs).foldl (· + ·) (system.coefficients.get (row, column)) :=
  @get_foldl_contribute system row _ _ (fun system => system.coefficients.get (row, column))
    (fun _ _ hgrown => coefficients_contribute hgrown hnodup hcolumn) cs List.prefix_rfl

theorem constants_foldl_contribute {cs : List Contribution} :
    (cs.foldl (contribute row) system).constants.get row =
      (amounts readDouble none cs).foldl (· + ·) (system.constants.get row) :=
  @get_foldl_contribute system row _ _ (fun system => system.constants.get row)
    (fun _ _ _ => constants_contribute) cs List.prefix_rfl

end LinearSystem

end EquationPad
