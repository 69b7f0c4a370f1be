import EquationPad.Proofs.Tables

/-! What a system holds after any calls. However its storage has grown, it reads like a table in
which the values were added up since everything was last removed: one sum for each place, zero
where nothing was added, and nothing else depends on the order of the calls but the order of the
values in one place. -/

namespace EquationPad

/-! ## Calls -/

/-- What can be asked of a system, apart from what only reads it. -/
inductive Call where
  | variableIndex (name : Text)
  /-- Looks a name up and gives it no column. -/
  | findVariable (name : Text)
  | addCoefficient (row column : Nat) (value : Float)
  | addConstant (row : Nat) (value : Float)
  | clear

/-- A place of the table. Places before the first row or column can be read too. -/
inductive Place where
  | coefficient (row column : Int)
  | constant (row : Int)
  deriving DecidableEq

namespace Call

def isClear : Call → Bool
  | clear => true
  | _ => false

/-- What the call adds, and where. -/
def addition? : Call → Option (Place × Float)
  | addCoefficient row column value => some (.coefficient row column, value)
  | addConstant row value => some (.constant row, value)
  | _ => none

/-- The value that the call adds at a place. -/
def valueAt? (place : Place) (c : Call) : Option Float :=
  match c.addition? with
  | some (p, value) => if p = place then some value else none
  | none => none

def coefficientPlace? : Call → Option (Nat × Nat)
  | addCoefficient row column _ => some (row, column)
  | _ => none

def constantRow? : Call → Option Nat
  | addConstant row _ => some row
  | _ => none

/-- The name that the call gives a column, unless it has one. -/
def name? : Call → Option Text
  | variableIndex name => some name
  | _ => none

/-- The calls after the last one that removes everything. -/
def sinceClear (calls : List Call) : List Call :=
  (calls.reverse.takeWhile fun c => !c.isClear).reverse

/-- The values added at a place, in the order of the calls. -/
def valuesAt (place : Place) (calls : List Call) : List Float := calls.filterMap (valueAt? place)

/-- The number of rows or columns up to the last of some. -/
def extent (indices : List Nat) : Nat := (indices.map (· + 1)).foldl max 0

theorem sinceClear_concat (calls : List Call) (c : Call) :
    sinceClear (calls ++ [c]) = if c.isClear then [] else sinceClear calls ++ [c] := by
  unfold sinceClear
  rw [List.reverse_append, List.reverse_singleton, List.singleton_append, List.takeWhile_cons]
  cases c.isClear <;> simp

theorem sinceClear_append_of_none (calls : List Call) {more : List Call}
    (h : ∀ c ∈ more, c.isClear = false) :
    sinceClear (calls ++ more) = sinceClear calls ++ more := by
  induction more using List.reverseRecOn with
  | nil => simp
  | append_singleton more c ih =>
    rw [← List.append_assoc, sinceClear_concat, h c (by simp),
      ih fun c hc => h c (List.mem_append_left _ hc)]
    simp

/-- What comes before the last removal does not matter. -/
theorem sinceClear_append_of_some (calls : List Call) {more : List Call}
    (h : ∃ c ∈ more, c.isClear = true) : sinceClear (calls ++ more) = sinceClear more := by
  induction more using List.reverseRecOn with
  | nil => simp at h
  | append_singleton more c ih =>
    rw [← List.append_assoc, sinceClear_concat, sinceClear_concat]
    cases hc : c.isClear with
    | true => rfl
    | false =>
      obtain ⟨d, hd, hclear⟩ := h
      have hd' : d ∈ more := by
        rcases List.mem_append.mp hd with hold | hnew
        · exact hold
        · rw [List.mem_singleton.mp hnew, hc] at hclear
          cases hclear
      simp only [Bool.false_eq_true, if_false]
      rw [ih ⟨d, hd', hclear⟩]

theorem filterMap_concat {α : Type} (f : Call → Option α) (calls : List Call) (c : Call) :
    (calls ++ [c]).filterMap f = calls.filterMap f ++ (f c).toList := by
  rw [List.filterMap_append, List.filterMap_cons]
  cases f c <;> rfl

theorem extent_append (indices more : List Nat) :
    extent (indices ++ more) = (more.map (· + 1)).foldl max (extent indices) := by
  rw [extent, List.map_append, List.foldl_append, extent]

theorem extent_perm {indices indices' : List Nat} (h : indices.Perm indices') :
    extent indices = extent indices' := by
  have : RightCommutative (max : Nat → Nat → Nat) := ⟨fun a b c => by omega⟩
  exact (h.map _).foldl_eq 0

theorem isClear_of_addition? {c : Call} {p : Place × Float} (h : c.addition? = some p) :
    c.isClear = false ∧ c.name? = none := by
  cases c with
  | addCoefficient row column value => exact ⟨rfl, rfl⟩
  | addConstant row value => exact ⟨rfl, rfl⟩
  | _ => cases h

/-- Two calls that remove nothing change places, unless they are forgotten. -/
theorem sinceClear_swap (calls later : List Call) {a b : Call} (ha : a.isClear = false)
    (hb : b.isClear = false) :
    sinceClear (calls ++ a :: b :: later) = sinceClear (calls ++ b :: a :: later) ∨
      ∃ front, sinceClear (calls ++ a :: b :: later) = front ++ a :: b :: later ∧
        sinceClear (calls ++ b :: a :: later) = front ++ b :: a :: later := by
  by_cases hlater : ∃ c ∈ later, c.isClear = true
  · left
    -- both calls are forgotten
    have hforget : ∀ x y : Call, sinceClear (calls ++ x :: y :: later) = sinceClear later := by
      intro x y
      rw [List.append_cons, List.append_cons, sinceClear_append_of_some _ hlater]
    rw [hforget, hforget]
  · right
    have hkept : ∀ c ∈ later, c.isClear = false := by simpa using hlater
    refine ⟨sinceClear calls, sinceClear_append_of_none _ ?_, sinceClear_append_of_none _ ?_⟩ <;>
      simpa [ha, hb] using hkept

theorem filterMap_swap {α : Type} (f : Call → Option α) (front later : List Call) {a b : Call}
    (h : f a = none ∨ f b = none) :
    (front ++ a :: b :: later).filterMap f = (front ++ b :: a :: later).filterMap f := by
  rw [List.filterMap_append, List.filterMap_append, List.filterMap_cons, List.filterMap_cons,
    List.filterMap_cons, List.filterMap_cons]
  rcases h with h | h <;> rw [h]

end Call

namespace LinearSystem

def call (system : LinearSystem) : Call → LinearSystem
  | .variableIndex name => (system.variableIndex name).2
  | .findVariable _ => system
  | .addCoefficient row column value => system.addCoefficient row column value
  | .addConstant row value => system.addConstant row value
  | .clear => system.clear

/-- The system after calls on an empty one. -/
def after (calls : List Call) : LinearSystem := calls.foldl call {}

def read (system : LinearSystem) : Place → Float
  | .coefficient row column => system.coefficient row column
  | .constant row => system.constant row

theorem after_concat (calls : List Call) (c : Call) :
    after (calls ++ [c]) = (after calls).call c := by
  simp [after]

@[simp] theorem rows_variableIndex (system : LinearSystem) (name : Text) :
    (system.variableIndex name).2.rows = system.rows := by
  obtain ⟨unknowns, hunknowns, -⟩ := system.variableIndex_spec name
  rw [hunknowns]

@[simp] theorem columns_variableIndex (system : LinearSystem) (name : Text) :
    (system.variableIndex name).2.columns = system.columns := by
  obtain ⟨unknowns, hunknowns, -⟩ := system.variableIndex_spec name
  rw [hunknowns]

@[simp] theorem constantRows_variableIndex (system : LinearSystem) (name : Text) :
    (system.variableIndex name).2.constantRows = system.constantRows := by
  obtain ⟨unknowns, hunknowns, -⟩ := system.variableIndex_spec name
  rw [hunknowns]

/-! ## What calls keep -/

/-- What is stored lies within the dimensions, each place at most once. -/
structure Sound (system : LinearSystem) : Prop where
  fits : ∃ limit, system.Fits limit
  distinct : system.Distinct

variable {system : LinearSystem}

theorem sound_empty : Sound {} := ⟨⟨0, List.nodup_nil, by simp, by simp⟩, distinct_empty⟩

theorem Sound.call (h : Sound system) (c : Call) : Sound (system.call c) := by
  obtain ⟨⟨limit, hfits⟩, hdistinct⟩ := h
  cases c with
  | variableIndex name =>
    obtain ⟨unknowns, hunknowns, -⟩ := system.variableIndex_spec name
    refine ⟨⟨limit, hfits.variableIndex name⟩, ?_⟩
    show (system.variableIndex name).2.Distinct
    rw [hunknowns]
    exact ⟨hdistinct.coefficients, hdistinct.constants⟩
  | findVariable name => exact ⟨⟨limit, hfits⟩, hdistinct⟩
  | addCoefficient row column value =>
    exact ⟨⟨_, (hfits.mono (Nat.le_max_left limit (row + 1))).addCoefficient
      (Nat.le_max_right _ _) column value⟩, hdistinct.coefficients.add _ _, hdistinct.constants⟩
  | addConstant row value =>
    exact ⟨⟨_, (hfits.mono (Nat.le_max_left limit (row + 1))).addConstant
      (Nat.le_max_right _ _) value⟩, hdistinct.coefficients, hdistinct.constants.add _ _⟩
  | clear => exact sound_empty

theorem sound_after (calls : List Call) : Sound (after calls) := by
  induction calls using List.reverseRecOn with
  | nil => exact sound_empty
  | append_singleton calls c ih =>
    rw [after_concat]
    exact ih.call c

theorem Sound.coefficient_eq (h : Sound system) (row column : Nat) :
    system.coefficient row column = system.coefficients.get (row, column) := by
  obtain ⟨limit, hfits⟩ := h.fits
  exact hfits.coefficient_eq row column

theorem Sound.constant_eq (h : Sound system) (row : Nat) :
    system.constant row = system.constants.get row := by
  obtain ⟨limit, hfits⟩ := h.fits
  exact hfits.constant_eq row

/-- A coefficient that is added is added in its place and nowhere else. -/
theorem Sound.read_addCoefficient (h : Sound system) (row column : Nat) (value : Float)
    (place : Place) :
    (system.addCoefficient row column value).read place =
      if .coefficient row column = place then system.read place + value else system.read place := by
  have hafter : Sound (system.addCoefficient row column value) :=
    h.call (.addCoefficient row column value)
  match place with
  | .constant r => rfl
  | .coefficient (.negSucc r) c => rfl
  | .coefficient (.ofNat r) (.negSucc c) =>
    exact (if_neg fun heq => Int.noConfusion (Place.coefficient.inj heq).2).symm
  | .coefficient (.ofNat r) (.ofNat c) =>
    have hread := hafter.coefficient_eq r c
    have hread' := h.coefficient_eq r c
    simp only [read] at hread hread' ⊢
    rw [show Int.ofNat r = (r : Int) from rfl, show Int.ofNat c = (c : Int) from rfl, hread, hread']
    simp only [addCoefficient, Tally.get_add, Prod.mk.injEq, Place.coefficient.injEq, Nat.cast_inj]
    split
    · rename_i heq
      rw [heq.1, heq.2]
    · rfl

theorem Sound.read_addConstant (h : Sound system) (row : Nat) (value : Float) (place : Place) :
    (system.addConstant row value).read place =
      if .constant row = place then system.read place + value else system.read place := by
  have hafter : Sound (system.addConstant row value) := h.call (.addConstant row value)
  match place with
  | .coefficient r c => rfl
  | .constant (.negSucc r) => rfl
  | .constant (.ofNat r) =>
    have hread := hafter.constant_eq r
    have hread' := h.constant_eq r
    simp only [read] at hread hread' ⊢
    rw [show Int.ofNat r = (r : Int) from rfl, hread, hread']
    simp only [addConstant, Tally.get_add, Place.constant.injEq, Nat.cast_inj]
    split
    · rename_i heq
      rw [heq]
    · rfl

/-- A call that removes nothing changes what is read by the value it adds there. -/
theorem Sound.read_call (h : Sound system) {c : Call} (hclear : c.isClear = false) (place : Place) :
    (system.call c).read place =
      (c.valueAt? place).elim (system.read place) (system.read place + ·) := by
  cases c with
  | variableIndex name =>
    obtain ⟨unknowns, hunknowns, -⟩ := system.variableIndex_spec name
    show (system.variableIndex name).2.read place = system.read place
    rw [hunknowns]
    cases place <;> rfl
  | findVariable name => rfl
  | addCoefficient row column value =>
    rw [LinearSystem.call, h.read_addCoefficient]
    simp only [Call.valueAt?, Call.addition?]
    split <;> rfl
  | addConstant row value =>
    rw [LinearSystem.call, h.read_addConstant]
    simp only [Call.valueAt?, Call.addition?]
    split <;> rfl
  | clear => cases hclear

/-- What is true of nothing and kept by each call that removes nothing is true of a system and the
calls since everything was last removed. -/
theorem after_induction {P : List Call → LinearSystem → Prop} (empty : P [] {})
    (step : ∀ calls system c, Sound system → c.isClear = false → P calls system →
      P (calls ++ [c]) (system.call c)) (calls : List Call) :
    P (Call.sinceClear calls) (after calls) := by
  induction calls using List.reverseRecOn with
  | nil => exact empty
  | append_singleton calls c ih =>
    rw [after_concat, Call.sinceClear_concat]
    cases hclear : c.isClear with
    | true =>
      cases c with
      | clear => exact empty
      | _ => cases hclear
    | false => exact step _ _ c (sound_after calls) hclear ih

open Call (valuesAt extent)

/-- The sums and dimensions that calls lead to. -/
structure Tabulates (calls : List Call) (system : LinearSystem) : Prop where
  read : ∀ place, system.read place = (valuesAt place calls).foldl (· + ·) 0.0
  rows : system.rows = extent ((calls.filterMap Call.coefficientPlace?).map Prod.fst)
  columns : system.columns = extent ((calls.filterMap Call.coefficientPlace?).map Prod.snd)
  constantRows : system.constantRows = extent (calls.filterMap Call.constantRow?)

theorem read_empty (place : Place) : ({} : LinearSystem).read place = 0.0 := by
  match place with
  | .coefficient (.ofNat r) (.ofNat c) => exact sound_empty.coefficient_eq r c
  | .coefficient (.ofNat r) (.negSucc c) => rfl
  | .coefficient (.negSucc r) c => rfl
  | .constant (.ofNat r) => exact sound_empty.constant_eq r
  | .constant (.negSucc r) => rfl

theorem Tabulates.call {calls : List Call} (h : Tabulates calls system) (hsound : Sound system)
    {c : Call} (hclear : c.isClear = false) : Tabulates (calls ++ [c]) (system.call c) where
  read place := by
    rw [hsound.read_call hclear, h.read, valuesAt, valuesAt, Call.filterMap_concat,
      List.foldl_append]
    cases c.valueAt? place <;> rfl
  rows := by
    rw [Call.filterMap_concat, List.map_append, Call.extent_append, ← h.rows]
    cases c with
    | clear => cases hclear
    | _ => simp [LinearSystem.call, addCoefficient, addConstant, Call.coefficientPlace?]
  columns := by
    rw [Call.filterMap_concat, List.map_append, Call.extent_append, ← h.columns]
    cases c with
    | clear => cases hclear
    | _ => simp [LinearSystem.call, addCoefficient, addConstant, Call.coefficientPlace?]
  constantRows := by
    rw [Call.filterMap_concat, Call.extent_append, ← h.constantRows]
    cases c with
    | clear => cases hclear
    | _ => simp [LinearSystem.call, addCoefficient, addConstant, Call.constantRow?]

theorem tabulates_after (calls : List Call) : Tabulates (Call.sinceClear calls) (after calls) :=
  after_induction ⟨read_empty, rfl, rfl, rfl⟩
    (fun _ _ _ hsound hclear h => h.call hsound hclear) calls

/-! ## Reading the table -/

/-- What a system shows of the calls since everything was last removed. -/
structure Shows (calls : List Call) (system : LinearSystem) : Prop where
  coefficient : ∀ row column : Int,
    system.coefficient row column = (valuesAt (.coefficient row column) calls).foldl (· + ·) 0.0
  constant : ∀ row : Int, system.constant row = (valuesAt (.constant row) calls).foldl (· + ·) 0.0
  outside : ∀ row column : Int, row < 0 ∨ column < 0 ∨ system.rows ≤ row ∨ system.columns ≤ column →
    system.coefficient row column = 0.0
  outsideConstants : ∀ row : Int, row < 0 ∨ system.constantRows ≤ row → system.constant row = 0.0
  rows : system.rows = extent ((calls.filterMap Call.coefficientPlace?).map Prod.fst)
  columns : system.columns = extent ((calls.filterMap Call.coefficientPlace?).map Prod.snd)
  constantRows : system.constantRows = extent (calls.filterMap Call.constantRow?)
  denseCoefficients : ∀ n : Nat, system.denseCoefficients n = (List.range n).map fun row : Nat =>
    (List.range system.variableCount).map fun column : Nat => system.coefficient row column
  denseConstants : ∀ n : Nat,
    system.denseConstants n = (List.range n).map fun row : Nat => system.constant row

/-- Two systems with the same names, dimensions and sums. -/
structure LooksLike (p q : LinearSystem) : Prop where
  names : p.names = q.names
  rows : p.rows = q.rows
  columns : p.columns = q.columns
  constantRows : p.constantRows = q.constantRows
  read : ∀ place, p.read place = q.read place

theorem coefficient_outside (system : LinearSystem) {row column : Int}
    (h : row < 0 ∨ column < 0 ∨ system.rows ≤ row ∨ system.columns ≤ column) :
    system.coefficient row column = 0.0 := by
  match row, column with
  | .ofNat r, .ofNat c =>
    have hout : ¬ (r < system.rows ∧ c < system.columns) := by
      simp only [Int.ofNat_eq_natCast] at h
      omega
    exact if_neg hout
  | .ofNat _, .negSucc _ => rfl
  | .negSucc _, _ => rfl

theorem constant_outside (system : LinearSystem) {row : Int}
    (h : row < 0 ∨ system.constantRows ≤ row) : system.constant row = 0.0 := by
  match row with
  | .ofNat r =>
    have hout : ¬ r < system.constantRows := by
      simp only [Int.ofNat_eq_natCast] at h
      omega
    exact if_neg hout
  | .negSucc _ => rfl

theorem Sound.denseCoefficients_eq (h : Sound system) (n : Nat) :
    system.denseCoefficients n = (List.range n).map fun row : Nat =>
      (List.range system.variableCount).map fun column : Nat => system.coefficient row column := by
  rw [LinearSystem.denseCoefficients_eq h.distinct, table]
  simp only [h.coefficient_eq]

theorem Sound.denseConstants_eq (h : Sound system) (n : Nat) :
    system.denseConstants n = (List.range n).map fun row : Nat => system.constant row := by
  rw [LinearSystem.denseConstants_eq h.distinct]
  simp only [h.constant_eq]

theorem Tabulates.shows {calls : List Call} (h : Tabulates calls system) (hsound : Sound system) :
    Shows calls system where
  coefficient row column := h.read (.coefficient row column)
  constant row := h.read (.constant row)
  outside _ _ hout := system.coefficient_outside hout
  outsideConstants _ hout := system.constant_outside hout
  rows := h.rows
  columns := h.columns
  constantRows := h.constantRows
  denseCoefficients := hsound.denseCoefficients_eq
  denseConstants := hsound.denseConstants_eq

/-! ## Names -/

theorem names_call {c : Call} (hclear : c.isClear = false) : (system.call c).names =
    system.names ++ c.name?.toList.filter fun name => name ∉ system.names := by
  cases c with
  | variableIndex name => exact system.names_variableIndex name
  | clear => cases hclear
  | _ => simp [LinearSystem.call, Call.name?]

theorem eraseDups_append_toList (names : List Text) (name? : Option Text) :
    (names ++ name?.toList).eraseDups =
      names.eraseDups ++ name?.toList.filter fun name => name ∉ names.eraseDups := by
  rw [List.eraseDups_append]
  congr 1
  cases name? with
  | none => rfl
  | some name => by_cases hmem : name ∈ names <;> simp [List.removeAll, hmem, List.eraseDups_cons]

/-- Each name once, in the order in which they first came. -/
theorem names_after (calls : List Call) :
    (after calls).names = ((Call.sinceClear calls).filterMap Call.name?).eraseDups := by
  refine @after_induction (fun calls system =>
    system.names = (calls.filterMap Call.name?).eraseDups) rfl ?_ calls
  intro calls system c _ hclear h
  rw [names_call hclear, Call.filterMap_concat, eraseDups_append_toList, h]

/-! ## The order of calls -/

/-- Calls that name the same variables and add the same values in each place, in the same order,
lead to systems that look the same. -/
theorem looksLike_after {calls calls' : List Call}
    (hperm : (Call.sinceClear calls).Perm (Call.sinceClear calls'))
    (hnames : (Call.sinceClear calls).filterMap Call.name? =
      (Call.sinceClear calls').filterMap Call.name?)
    (hvalues : ∀ place, valuesAt place (Call.sinceClear calls) =
      valuesAt place (Call.sinceClear calls')) : LooksLike (after calls) (after calls') := by
  have h := tabulates_after calls
  have h' := tabulates_after calls'
  refine ⟨?_, ?_, ?_, ?_, ?_⟩
  · rw [names_after, names_after, hnames]
  · rw [h.rows, h'.rows]
    exact Call.extent_perm ((hperm.filterMap _).map _)
  · rw [h.columns, h'.columns]
    exact Call.extent_perm ((hperm.filterMap _).map _)
  · rw [h.constantRows, h'.constantRows]
    exact Call.extent_perm (hperm.filterMap _)
  · intro place
    rw [h.read, h'.read, hvalues]

/-- Two additions in different places can change places among the calls. -/
theorem looksLike_swap (calls later : List Call) {a b : Call} {p q : Place} {v w : Float}
    (ha : a.addition? = some (p, v)) (hb : b.addition? = some (q, w)) (hne : p ≠ q) :
    LooksLike (after (calls ++ a :: b :: later)) (after (calls ++ b :: a :: later)) := by
  obtain ⟨hkept, hname⟩ := Call.isClear_of_addition? ha
  obtain ⟨hkept', -⟩ := Call.isClear_of_addition? hb
  rcases Call.sinceClear_swap calls later hkept hkept' with hsame | ⟨front, hfront, hfront'⟩
  · exact looksLike_after (hsame ▸ .refl _) (by rw [hsame]) fun _ => by rw [hsame]
  · refine looksLike_after ?_ ?_ ?_ <;> rw [hfront, hfront']
    · exact (List.Perm.swap b a later).append_left front
    · exact Call.filterMap_swap _ _ _ (.inl hname)
    · intro place
      -- at most one of the two adds in this place
      refine Call.filterMap_swap _ _ _ ?_
      by_cases hp : p = place
      · right
        have hq : q ≠ place := fun hq => hne (hp.trans hq.symm)
        simp [Call.valueAt?, hb, hq]
      · left
        simp [Call.valueAt?, ha, hp]

/-- **The storage is a table of sums.** After any calls a system reads like a table in which the
values were added up, from the left, since everything was last removed. Its dimensions reach to
the last row and column that were added to, and the copies for a solver hold what is read. A call
that adds nothing in a place leaves it alone, however the storage grows, and additions in different
places can be made in either order. -/
theorem shows_after (calls : List Call) :
    Shows (Call.sinceClear calls) (after calls) ∧
      (∀ c place, c.isClear = false → c.valueAt? place = none →
        (after (calls ++ [c])).read place = (after calls).read place) ∧
      ∀ a b p q v w later, a.addition? = some (p, v) → b.addition? = some (q, w) → p ≠ q →
        LooksLike (after (calls ++ a :: b :: later)) (after (calls ++ b :: a :: later)) := by
  have hsound := sound_after calls
  refine ⟨(tabulates_after calls).shows hsound, ?_, ?_⟩
  · intro c place hclear hnone
    rw [after_concat, hsound.read_call hclear, hnone]
    rfl
  · intro a b p q v w later ha hb hne
    exact looksLike_swap calls later ha hb hne

end LinearSystem

end EquationPad
