import EquationPad.Proofs.Calls

/-! The columns of the names. A name gets the column behind those given out before and keeps it, so
names and columns belong to each other one to one, and the names by column can be put down from
the pairs in whatever order these are kept. -/

namespace EquationPad

namespace LinearSystem

variable {system : LinearSystem} {name : Text} {column : Nat}

theorem findVariable?_eq_some_iff (h : system.names.Nodup) :
    system.findVariable? name = some column ↔ system.names[column]? = some name := by
  constructor
  · intro hfind
    rw [findVariable?_eq_idxOf?] at hfind
    obtain ⟨hlt, hname, -⟩ := List.idxOf?_eq_some_iff.mp hfind
    exact List.getElem?_eq_some_iff.mpr ⟨hlt, hname⟩
  · exact findVariable?_of_getElem? h

/-- A name that is looked up and one that is to have a column get the same column. -/
theorem variableIndex_of_findVariable? (h : system.findVariable? name = some column) :
    (system.variableIndex name).1 = column := by
  rw [variableIndex, h]

theorem Sound.nodup (h : Sound system) : system.names.Nodup := by
  obtain ⟨limit, hfits⟩ := h.fits
  exact hfits.nodup

/-! ## Growth -/

theorem names_after_append (calls : List Call) {later : List Call}
    (h : ∀ c ∈ later, c.isClear = false) :
    (after calls).names <+: (after (calls ++ later)).names := by
  induction later using List.reverseRecOn with
  | nil => rw [List.append_nil]
  | append_singleton later c ih =>
    rw [← List.append_assoc, after_concat, names_call (h c (by simp))]
    exact (ih fun c hc => h c (List.mem_append_left _ hc)).trans (List.prefix_append _ _)

/-- What a system answers about a name that has a column. -/
structure Keeps (name : Text) (column : Nat) (system : LinearSystem) : Prop where
  found : system.findVariable? name = some column
  index : (system.variableIndex name).1 = column

theorem keeps_after_append {calls : List Call}
    (hname : (after calls).names[column]? = some name) {later : List Call}
    (h : ∀ c ∈ later, c.isClear = false) : Keeps name column (after (calls ++ later)) := by
  obtain ⟨more, hmore⟩ := names_after_append calls h
  have hstill : (after (calls ++ later)).names[column]? = some name := by
    rw [← hmore, List.getElem?_append_left (List.getElem?_eq_some_iff.mp hname).1]
    exact hname
  have hfound := (findVariable?_eq_some_iff (sound_after (calls ++ later)).nodup).mpr hstill
  exact ⟨hfound, variableIndex_of_findVariable? hfound⟩

/-! ## Numbering -/

/-- The names that calls lead to and their columns. -/
structure Numbered (calls : List Call) (system : LinearSystem) : Prop where
  names : system.names = (calls.filterMap Call.name?).eraseDups
  nodup : system.names.Nodup
  found : ∀ name column,
    system.findVariable? name = some column ↔ system.names[column]? = some name
  missing : ∀ name, system.findVariable? name = none ↔ Call.variableIndex name ∉ calls
  rebuilt : ∀ pairs : List (Text × Nat),
    (∀ name column, (name, column) ∈ pairs ↔ system.findVariable? name = some column) →
      namesFrom pairs system.variableCount = system.names

theorem mem_filterMap_name? {calls : List Call} :
    name ∈ calls.filterMap Call.name? ↔ Call.variableIndex name ∈ calls := by
  rw [List.mem_filterMap]
  constructor
  · rintro ⟨c, hc, hname⟩
    cases c with
    | variableIndex name' => exact Option.some.inj hname ▸ hc
    | _ => cases hname
  · intro hc
    exact ⟨.variableIndex name, hc, rfl⟩

/-- **Names and columns belong to each other.** After any calls the names are those that were given
a column since everything was last removed, each once and in the order in which they first came,
and a name is found in the column where it stands and nowhere else. A column once given out is
the answer for its name until everything is removed. -/
theorem numbered_after (calls : List Call) :
    Numbered (Call.sinceClear calls) (after calls) ∧
      ∀ name later, (∀ c ∈ later, Call.isClear c = false) →
        Keeps name ((after calls).variableIndex name).1
            (after (calls ++ .variableIndex name :: later)) ∧
          ∀ column, (after calls).findVariable? name = some column →
            Keeps name column (after (calls ++ later)) := by
  have hnodup := (sound_after calls).nodup
  refine ⟨⟨names_after calls, hnodup, fun _ _ => findVariable?_eq_some_iff hnodup, ?_, ?_⟩, ?_⟩
  · intro name
    rw [findVariable?_eq_none_iff, names_after, List.mem_eraseDups, mem_filterMap_name?]
  · intro pairs hpairs
    rw [← length_names]
    refine Columns.namesFrom_eq fun name column => ?_
    rw [hpairs, findVariable?_eq_some_iff hnodup]
  · intro name later hlater
    constructor
    · rw [List.append_cons]
      refine keeps_after_append ?_ hlater
      obtain ⟨unknowns, hunknowns, -, hname, -⟩ := (after calls).variableIndex_spec name
      rw [after_concat, call, hunknowns]
      exact hname
    · intro column hfound
      exact keeps_after_append ((findVariable?_eq_some_iff hnodup).mp hfound) hlater

end LinearSystem

end EquationPad
