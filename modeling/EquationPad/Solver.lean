import EquationPad.LinearSystem
import EquationPad.Status

/-! Solvers as values, so that a workspace can be given another one. A solver is
shown the system and the number of equations; it answers with a status and with
what is then known of the solution. Diagnostics are always part of the answer, and
whether anyone sees them is not the solver's business. -/

namespace EquationPad

def defaultSingular : Float := 1e-12

def defaultIllConditioned : Float := 1e-14

/-- Limits below which a system counts as singular or as ill-conditioned. -/
structure Tolerances where
  singular : Float := defaultSingular
  illConditioned : Float := defaultIllConditioned

/-- The state of the solution. The values are meant only if it is solved. -/
structure Solution where
  solved : Bool := false
  /-- The reciprocal of the condition number, or an estimate of it. -/
  rcond : Float := 0.0
  /-- One value for each variable, by column. -/
  values : List Float := []

structure Answer where
  status : Status
  solution : Solution
  log : Text := []

/-- A solver is a function of what it is shown. It keeps nothing from one system to the next, looks
at no settings but the tolerances, changes nothing but by its answer, and always answers. One that
learns from what it has solved is another solver each time. -/
structure Solver where
  name : Text
  /-- Solves the first `count` equations; the solution so far may be kept or replaced. -/
  solve : (system : LinearSystem) → (count : Int) → Tolerances → Solution → Answer

namespace Solver

/-- A solver that answers every system alike, for trying out what comes after it.
The values are repeated as often as there are equations. -/
def scripted (name : Text) (status : Status) (solved : Bool) (rcond : Float)
    (values : List Float) : Solver where
  name
  solve _ count _ _ :=
    let value i := values.getD (i % values.length) 0.0
    { status, solution := { solved, rcond, values := (List.range count.toNat).map value } }

end Solver

end EquationPad
