import EquationPad.Text

/-! The outcome of an operation. Each status has a number, by which callers and
solvers name it. A solver may answer with a number of its own; such a status is
`custom`, and its number is none of the assigned ones, so that a status and its
number determine each other. -/

namespace EquationPad

/-- The numbers with a fixed meaning. -/
def assignedCodes : List Int :=
  [0, 1, 10, 11, 12, 13, 14, 15, 16, 20, 21, 22, 23, 30, 31, 32, 40, 41, 50]

inductive Status where
  | success
  /-- Success on a line that holds nothing. -/
  | blankLine
  | illegalEquation
  | noEqualSign
  | multipleEqualSigns
  | noTermBeforeEqualSign
  | noTermAfterEqualSign
  | noTermEncountered
  | noVariable
  | multipleDecimalPoints
  | tooManyDigits
  | missingExponent
  | illegalExponent
  | noEquations
  | tooFewEquations
  | tooManyEquations
  | singular
  | illConditioned
  | documentNotFound
  | custom (code : Int) (unassigned : code ∉ assignedCodes)
  deriving DecidableEq

namespace Status

def code : Status → Int
  | success => 0
  | blankLine => 1
  | illegalEquation => 10
  | noEqualSign => 11
  | multipleEqualSigns => 12
  | noTermBeforeEqualSign => 13
  | noTermAfterEqualSign => 14
  | noTermEncountered => 15
  | noVariable => 16
  | multipleDecimalPoints => 20
  | tooManyDigits => 21
  | missingExponent => 22
  | illegalExponent => 23
  | noEquations => 30
  | tooFewEquations => 31
  | tooManyEquations => 32
  | singular => 40
  | illConditioned => 41
  | documentNotFound => 50
  | custom code _ => code

/-- The statuses with a number of their own, in the order of `assignedCodes`. -/
def assigned : List Status :=
  [success, blankLine, illegalEquation, noEqualSign, multipleEqualSigns,
    noTermBeforeEqualSign, noTermAfterEqualSign, noTermEncountered, noVariable,
    multipleDecimalPoints, tooManyDigits, missingExponent, illegalExponent,
    noEquations, tooFewEquations, tooManyEquations, singular, illConditioned,
    documentNotFound]

theorem map_code_assigned : assigned.map code = assignedCodes := rfl

def ofCode (n : Int) : Status :=
  match h : assigned.find? (·.code = n) with
  | some status => status
  | none => custom n (by
      rw [← map_code_assigned, List.mem_map]
      rintro ⟨status, hmem, hcode⟩
      exact absurd hcode (by simpa using List.find?_eq_none.mp h status hmem))

@[simp] theorem code_ofCode (n : Int) : (ofCode n).code = n := by
  unfold ofCode
  split
  · rename_i status h
    simpa using List.find?_some h
  · rfl

@[simp] theorem ofCode_code (s : Status) : ofCode s.code = s := by
  cases s with
  | custom n unassigned =>
    unfold ofCode
    split
    · rename_i status h
      have found := List.find?_some h
      have hcode : status.code = n := of_decide_eq_true found
      exact absurd (hcode ▸ List.mem_map_of_mem (List.mem_of_find?_eq_some h)) unassigned
    · rfl
  | _ => rfl

theorem code_injective {s t : Status} (h : s.code = t.code) : s = t := by
  rw [← ofCode_code s, h, ofCode_code]

/-- A blank line is no failure. -/
def isSuccess : Status → Bool
  | success | blankLine => true
  | _ => false

def message : Status → Text
  | success | blankLine => "Success"
  | illegalEquation => "Illegal equation"
  | noEqualSign => "No equal sign in equation"
  | multipleEqualSigns => "More than one equal sign in equation"
  | noTermBeforeEqualSign => "No term before the equal sign"
  | noTermAfterEqualSign => "No term after the equal sign"
  | noTermEncountered => "Expected a number or a variable"
  | noVariable => "No variable in equation"
  | multipleDecimalPoints => "More than one decimal point in number"
  | tooManyDigits => "Too many digits in number"
  | missingExponent => "Missing exponent after '^'"
  | illegalExponent => "Illegal exponent"
  | noEquations => "No equations to solve"
  | tooFewEquations => "Too few equations for the number of variables"
  | tooManyEquations => "Too many equations for the number of variables"
  | singular => "The system of equations is singular"
  | illConditioned => "The system of equations is ill-conditioned"
  | documentNotFound => "Document not found"
  | custom _ _ => "Unknown error"

end Status

end EquationPad
