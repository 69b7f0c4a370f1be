/-! Running sums under keys. A key never added to reads as zero, and each addition
is one addition of doubles to what the key read before, so the sum under a key is
the sum of its values from the left, starting at zero. -/

namespace EquationPad

/-- The sums in the order in which their keys first occurred. -/
structure Tally (κ : Type) where
  entries : List (κ × Float) := []

namespace Tally

variable {κ : Type} [DecidableEq κ]

def sumOf (key : κ) : List (κ × Float) → Float
  | [] => 0.0
  | (k, sum) :: rest => if k = key then sum else sumOf key rest

def addTo (key : κ) (value : Float) : List (κ × Float) → List (κ × Float)
  | [] => [(key, 0.0 + value)]
  | (k, sum) :: rest =>
    if k = key then (k, sum + value) :: rest else (k, sum) :: addTo key value rest

def get (tally : Tally κ) (key : κ) : Float := sumOf key tally.entries

def add (tally : Tally κ) (key : κ) (value : Float) : Tally κ :=
  ⟨addTo key value tally.entries⟩

@[simp] theorem get_empty (key : κ) : (⟨[]⟩ : Tally κ).get key = 0.0 := rfl

theorem sumOf_addTo_self (key : κ) (value : Float) (entries : List (κ × Float)) :
    sumOf key (addTo key value entries) = sumOf key entries + value := by
  fun_induction addTo key value entries <;> simp_all [sumOf]

theorem sumOf_addTo_of_ne {key other : κ} (h : key ≠ other) (value : Float)
    (entries : List (κ × Float)) :
    sumOf other (addTo key value entries) = sumOf other entries := by
  fun_induction addTo key value entries <;> simp_all [sumOf]

theorem get_add (tally : Tally κ) (key other : κ) (value : Float) :
    (tally.add key value).get other =
      if key = other then tally.get key + value else tally.get other := by
  split
  · rename_i h
    exact h ▸ sumOf_addTo_self key value tally.entries
  · exact sumOf_addTo_of_ne ‹_› value tally.entries

/-- The sums that are not zero, sorted by key. A sum that is no number is not zero. -/
def nonzero (tally : Tally κ) (le : κ → κ → Bool) : List (κ × Float) :=
  (tally.entries.filter fun (_, sum) => sum != 0.0).mergeSort fun a b => le a.1 b.1

end Tally

end EquationPad
