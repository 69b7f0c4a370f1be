import EquationPad.Text

/-! The columns of the variables. A name is kept with its column, and a name that comes anew gets
the column that is next, so the columns given out are always those below the number of names. The
names by column are put down from the pairs, each in the place of its column. -/

namespace EquationPad

structure Columns where
  /-- Each name with its column. -/
  pairs : List (Text × Nat)
  numbered : pairs.map Prod.snd = List.range pairs.length

/-- The names put down one by one, each in the place of its column. -/
def namesFrom (pairs : List (Text × Nat)) (count : Nat) : List Text :=
  pairs.foldl (fun names pair => names.set pair.2 pair.1) (List.replicate count [])

namespace Columns

def empty : Columns := ⟨[], rfl⟩

def count (columns : Columns) : Nat := columns.pairs.length

def find? (columns : Columns) (name : Text) : Option Nat := columns.pairs.lookup name

/-- Gives a name the column that is next. -/
def add (columns : Columns) (name : Text) : Columns where
  pairs := columns.pairs ++ [(name, columns.count)]
  numbered := by simp [columns.numbered, count, List.range_succ]

/-- The names by column. -/
def names (columns : Columns) : List Text := namesFrom columns.pairs columns.count

@[simp] theorem count_add (columns : Columns) (name : Text) :
    (columns.add name).count = columns.count + 1 := by simp [add, count]

/-! ## Names by column -/

/-- A column has its name once that was put down, since no pair puts another one there. -/
theorem getElem?_foldl_set {names : List Text} {pairs : List (Text × Nat)}
    (hpairs : ∀ pair ∈ pairs, names[pair.2]? = some pair.1) {start : List Text}
    (hlength : start.length = names.length) {column : Nat}
    (h : start[column]? = names[column]? ∨ ∃ pair ∈ pairs, pair.2 = column) :
    (pairs.foldl (fun names pair => names.set pair.2 pair.1) start)[column]? = names[column]? := by
  induction pairs generalizing start with
  | nil => exact h.resolve_right (by simp)
  | cons pair pairs ih =>
    have hpair := hpairs pair List.mem_cons_self
    have hlt : pair.2 < start.length := hlength ▸ (List.getElem?_eq_some_iff.mp hpair).1
    refine ih (fun p hp => hpairs p (List.mem_cons_of_mem _ hp)) (by simpa using hlength) ?_
    by_cases hhere : pair.2 = column
    · left
      rw [← hhere, List.getElem?_set_self hlt, hpair]
    · rw [List.getElem?_set_ne hhere]
      rcases h with hstart | ⟨p, hp, hcolumn⟩
      · exact .inl hstart
      · rcases List.mem_cons.mp hp with rfl | hrest
        · exact absurd hcolumn hhere
        · exact .inr ⟨p, hrest, hcolumn⟩

/-- If the pairs are those of a list and its places, it is put down again, in whatever order they
come. -/
theorem namesFrom_eq {names : List Text} {pairs : List (Text × Nat)}
    (h : ∀ name column, (name, column) ∈ pairs ↔ names[column]? = some name) :
    namesFrom pairs names.length = names := by
  refine List.ext_getElem? fun column => ?_
  refine getElem?_foldl_set (fun pair hpair => (h pair.1 pair.2).mp hpair) (by simp) ?_
  cases hcolumn : names[column]? with
  | none =>
    left
    have hout : names.length ≤ column := List.getElem?_eq_none_iff.mp hcolumn
    simpa using hout
  | some name => exact .inr ⟨(name, column), (h name column).mpr hcolumn, rfl⟩

variable (columns : Columns)

/-- The column of a pair is its place. -/
theorem pairs_eq_zipIdx : columns.pairs = (columns.pairs.map Prod.fst).zipIdx := by
  rw [List.zipIdx_eq_zip_range', ← List.range_eq_range', List.length_map, ← columns.numbered,
    ← List.unzip_fst, ← List.unzip_snd, List.zip_unzip]

theorem mem_pairs_iff {name : Text} {column : Nat} :
    (name, column) ∈ columns.pairs ↔ (columns.pairs.map Prod.fst)[column]? = some name := by
  rw [columns.pairs_eq_zipIdx, List.mk_mem_zipIdx_iff_getElem?]
  simp

theorem names_eq_map : columns.names = columns.pairs.map Prod.fst := by
  have hput := namesFrom_eq fun name column => @mem_pairs_iff columns name column
  rwa [List.length_map] at hput

@[simp] theorem length_names : columns.names.length = columns.count := by
  rw [names_eq_map, List.length_map, count]

@[simp] theorem names_add (name : Text) : (columns.add name).names = columns.names ++ [name] := by
  rw [names_eq_map, names_eq_map, add, List.map_append]
  rfl

theorem pairs_eq_iff {columns' : Columns} :
    columns.pairs = columns'.pairs ↔ columns.names = columns'.names := by
  rw [names_eq_map, names_eq_map]
  constructor
  · intro h
    rw [h]
  · intro h
    rw [columns.pairs_eq_zipIdx, h, ← columns'.pairs_eq_zipIdx]

theorem lookup_zipIdx (name : Text) (names : List Text) (k : Nat) :
    (names.zipIdx k).lookup name = (names.idxOf? name).map (· + k) := by
  induction names generalizing k with
  | nil => rfl
  | cons first names ih =>
    rw [List.zipIdx_cons, List.lookup_cons, List.idxOf?_cons, ih]
    by_cases hfirst : first = name
    · simp [hfirst]
    · have hother : (name == first) = false := by simpa using Ne.symm hfirst
      simp [hfirst, hother, Function.comp_def, Nat.add_assoc, Nat.add_comm 1 k]

/-- A name is found in the first place where it stands. -/
theorem find?_eq_idxOf? (name : Text) : columns.find? name = columns.names.idxOf? name := by
  rw [names_eq_map, find?, pairs_eq_zipIdx, lookup_zipIdx]
  simp

end Columns

end EquationPad
