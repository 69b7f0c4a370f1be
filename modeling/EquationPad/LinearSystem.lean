import EquationPad.Columns
import EquationPad.Tally

/-! A system of linear equations under construction: coefficients by equation and
variable, constants by equation, and the variables in order of first use. Nothing
is ever removed but everything at once. The dimensions grow with the positions
that are added to; a position outside them reads as zero. -/

namespace EquationPad

structure LinearSystem where
  unknowns : Columns := .empty
  rows : Nat := 0
  columns : Nat := 0
  coefficients : Tally (Nat × Nat) := {}
  constantRows : Nat := 0
  constants : Tally Nat := {}

namespace LinearSystem

def variableCount (system : LinearSystem) : Nat := system.unknowns.count

/-! ## Variables -/

/-- The names of the variables by column. -/
def names (system : LinearSystem) : List Text := system.unknowns.names

def findVariable? (system : LinearSystem) (name : Text) : Option Nat := system.unknowns.find? name

/-- The column of a name. A new name takes the next column. -/
def variableIndex (system : LinearSystem) (name : Text) : Nat × LinearSystem :=
  match system.findVariable? name with
  | some index => (index, system)
  | none => (system.variableCount, { system with unknowns := system.unknowns.add name })

@[simp] theorem names_empty : ({} : LinearSystem).names = [] := rfl

@[simp] theorem length_names (system : LinearSystem) :
    system.names.length = system.variableCount := system.unknowns.length_names

theorem findVariable?_eq_idxOf? (system : LinearSystem) (name : Text) :
    system.findVariable? name = system.names.idxOf? name := system.unknowns.find?_eq_idxOf? name

theorem findVariable?_eq_none_iff {system : LinearSystem} {name : Text} :
    system.findVariable? name = none ↔ name ∉ system.names := by
  rw [findVariable?_eq_idxOf?, List.idxOf?_eq_none_iff]

/-! ## Adding -/

def addCoefficient (system : LinearSystem) (row column : Nat) (value : Float) : LinearSystem :=
  { system with
    rows := max system.rows (row + 1)
    columns := max system.columns (column + 1)
    coefficients := system.coefficients.add (row, column) value }

def addConstant (system : LinearSystem) (row : Nat) (value : Float) : LinearSystem :=
  { system with
    constantRows := max system.constantRows (row + 1)
    constants := system.constants.add row value }

@[simp] theorem names_addCoefficient (system : LinearSystem) (row column : Nat) (value : Float) :
    (system.addCoefficient row column value).names = system.names := rfl

@[simp] theorem names_addConstant (system : LinearSystem) (row : Nat) (value : Float) :
    (system.addConstant row value).names = system.names := rfl

/-- Removes all equations and variables. -/
def clear (system : LinearSystem) : LinearSystem :=
  let noCoefficients := { system with rows := 0, columns := 0, coefficients := {} }
  let noConstants := { noCoefficients with constantRows := 0, constants := {} }
  { noConstants with unknowns := .empty }

/-- Nothing of the system is left. -/
theorem clear_eq (system : LinearSystem) : system.clear = {} := rfl

/-! ## Reading -/

def coefficient (system : LinearSystem) : Int → Int → Float
  | .ofNat row, .ofNat column =>
    if row < system.rows ∧ column < system.columns then system.coefficients.get (row, column)
    else 0.0
  | _, _ => 0.0

def constant (system : LinearSystem) : Int → Float
  | .ofNat row => if row < system.constantRows then system.constants.get row else 0.0
  | .negSucc _ => 0.0

/-- The first `n` equations, each with a coefficient for every variable. -/
def denseCoefficients (system : LinearSystem) (n : Nat) : List (List Float) :=
  system.coefficients.entries.foldl
    (fun table ((row, column), sum) => table.modify row (·.set column sum))
    (List.replicate n (List.replicate system.variableCount 0.0))

/-- The constants of the first `n` equations. -/
def denseConstants (system : LinearSystem) (n : Nat) : List Float :=
  system.constants.entries.foldl (fun table (row, sum) => table.set row sum)
    (List.replicate n 0.0)

/-- The coefficients that are not zero, by row and then by column. -/
def nonzeroCoefficients (system : LinearSystem) : List ((Nat × Nat) × Float) :=
  system.coefficients.nonzero fun (r, c) (r', c') => r < r' || (r = r' && c ≤ c')

/-- The constants that are not zero, by row. -/
def nonzeroConstants (system : LinearSystem) : List (Nat × Float) :=
  system.constants.nonzero fun r r' => r ≤ r'

/-- The same variables in the same columns, and the same values in every row that
either system has. -/
def isEquivalent (p q : LinearSystem) : Bool :=
  let n := max (max p.rows q.rows) (max p.constantRows q.constantRows)
  p.unknowns.pairs = q.unknowns.pairs && p.denseCoefficients n == q.denseCoefficients n &&
    p.denseConstants n == q.denseConstants n

end LinearSystem

end EquationPad
