import EquationPad.Double
import EquationPad.Solver

/-! The solver a workspace starts with: dense Gaussian elimination. The system must
have as many equations as variables. Its rank is taken from the pivots of an
elimination that picks the largest entry left; the solution, the determinant and
the condition number come from one that picks the largest entry of a column. The
reciprocal condition number is that of the norm by columns, from the inverse.

How it gets to its values is its own business: another elimination picks other pivots, rounds
elsewhere and estimates the condition number that is computed here. No theorem rests on the
values. What is proved of workspaces holds for every solver, and of this one only that it refuses
the counts that a workspace refuses, and no others. -/

namespace EquationPad.Elimination

/-! ## Rank -/

/-- The place of the largest value, the first of several. -/
def largestIndex : List Float → Nat
  | [] => 0
  | x :: rest =>
    let next := largestIndex rest
    if x < rest.getD next x then next + 1 else 0

def subtractMultiple (factor : Float) (pivotRow row : List Float) : List Float :=
  List.zipWith (fun p x => x - factor * p) pivotRow row

/-- The sizes of at most `n` pivots, each the largest entry of what is left. -/
def fullPivots : Nat → List (List Float) → List Float
  | 0, _ => []
  | n + 1, table =>
    let sizes := table.map fun row => row.map Float.abs
    let row := largestIndex (sizes.map fun r => r.getD (largestIndex r) 0.0)
    let column := largestIndex (sizes.getD row [])
    let pivotRow := table.getD row []
    let pivot := pivotRow.getD column 0.0
    if pivot == 0.0 then []
    else
      let left := (table.eraseIdx row).map fun r =>
        (subtractMultiple (r.getD column 0.0 / pivot) pivotRow r).eraseIdx column
      pivot.abs :: fullPivots n left

/-- The number of pivots that are not negligible beside the largest. -/
def rank (threshold : Float) (table : List (List Float)) : Nat :=
  let pivots := fullPivots table.length table
  let limit := threshold * pivots.foldl max 0.0
  (pivots.filter (limit < ·)).length

/-! ## Solution -/

/-- An equation with one right side for each of several systems. -/
structure Row where
  coefficients : List Float
  sides : List Float

/-- Moves the row with the largest first coefficient to the front, and says whether
that changed the order. -/
def pivotFirst (rows : List Row) : Option (Bool × Row × List Row) :=
  let place := largestIndex (rows.map fun r => (r.coefficients.headD 0.0).abs)
  match rows, rows[place]? with
  | first :: others, some pivot =>
    some (place ≠ 0, pivot, if place = 0 then others else others.set (place - 1) first)
  | _, _ => none

/-- Upper triangular rows, each without the zeros before its pivot, and the determinant. -/
def triangulate : Nat → List Row → List Row × Float
  | 0, _ => ([], 1.0)
  | n + 1, rows =>
    match pivotFirst rows with
    | none => ([], 1.0)
    | some (exchanged, pivotRow, others) =>
      let pivot := pivotRow.coefficients.headD 0.0
      let (upper, determinant) := triangulate n (others.map fun r =>
        let factor := r.coefficients.headD 0.0 / pivot
        ⟨(subtractMultiple factor pivotRow.coefficients r.coefficients).tail,
          subtractMultiple factor pivotRow.sides r.sides⟩)
      (pivotRow :: upper, (if exchanged then -pivot else pivot) * determinant)

/-- The unknowns of triangular rows, each with a value for every system. -/
def substituteBack : List Row → List (List Float)
  | [] => []
  | row :: rest =>
    let later := substituteBack rest
    let known := List.zipWith (fun c xs => (c, xs)) row.coefficients.tail later
    let sides := known.foldl (fun sides (c, xs) => subtractMultiple c xs sides) row.sides
    sides.map (· / row.coefficients.headD 0.0) :: later

/-- The largest sum of the sizes in one column. -/
def columnNorm (table : List (List Float)) : Float :=
  let sums := table.foldl (fun sums row => List.zipWith (fun s x => s + x.abs) sums row)
    (List.replicate table.length 0.0)
  sums.foldl max 0.0

def unitTable (n : Nat) : List (List Float) :=
  (List.range n).map fun i => (List.range n).map fun j => if i = j then 1.0 else 0.0

/-- The solution and the inverse side by side. -/
structure Factors where
  values : List Float
  inverse : List (List Float)
  determinant : Float

def factorize (table : List (List Float)) (constants : List Float) : Factors :=
  let sides := List.zipWith (· :: ·) constants (unitTable table.length)
  let (upper, determinant) := triangulate table.length (List.zipWith Row.mk table sides)
  let solved := substituteBack upper
  { values := solved.map (·.headD 0.0), inverse := solved.map List.tail, determinant }

def reciprocalCondition (table inverse : List (List Float)) : Float :=
  let norm := columnNorm table
  if norm == 0.0 then 0.0 else 1.0 / columnNorm inverse / norm

/-! ## The solver -/

/-- Solves a system that has as many equations as variables. -/
def solveSquare (system : LinearSystem) (tolerances : Tolerances) (solution : Solution) : Answer :=
  let n := system.variableCount
  let table := system.denseCoefficients n
  let unsolved := { solution with solved := false, rcond := 0.0 }
  let independent := rank tolerances.singular table
  if independent < n then
    { status := .singular, solution := unsolved
      log := ("[LUSolver] rank " : Text) ++ showNat independent ++ " of " ++ showNat n ++ "\n" }
  else
    let factors := factorize table (system.denseConstants n)
    let rcond := reciprocalCondition table factors.inverse
    let log := ("[LUSolver] n=" : Text) ++ showNat n ++ " det=" ++ showGeneral 6 factors.determinant
      ++ " rcond=" ++ showGeneral 6 rcond ++ "\n"
    if rcond < tolerances.illConditioned then
      { status := .illConditioned, solution := { unsolved with rcond }, log }
    else if !factors.values.all Float.isFinite then
      { status := .singular, solution := { unsolved with rcond }, log }
    else { status := .success, solution := { solved := true, rcond, values := factors.values }, log }

/-- Elimination as a solver. A system that is not square is refused. -/
def solver : Solver where
  name := "LUSolver"
  solve system count tolerances solution :=
    let refused (status : Status) : Answer :=
      { status, solution := { solution with solved := false, rcond := 0.0 } }
    if count = 0 then refused .noEquations
    else if count ≠ system.variableCount then
      refused (if count < system.variableCount then .tooFewEquations else .tooManyEquations)
    else solveSquare system tolerances solution

end EquationPad.Elimination
