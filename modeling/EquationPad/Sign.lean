import EquationPad.Text

/-! Plus and minus, as they stand before a term, as an operator between terms,
after an equal sign and in an exponent. -/

namespace EquationPad

inductive Sign where
  | plus
  | minus
  deriving DecidableEq

/-- The sign at the start of a text, if there is one, and what follows it. -/
def scanSign : Text → Option Sign × Text
  | '+' :: rest => (some .plus, rest)
  | '-' :: rest => (some .minus, rest)
  | text => (none, text)

/-- An absent sign counts as plus. -/
def isMinus (sign : Option Sign) : Bool := sign = some .minus

theorem scanSign_suffix (text : Text) : (scanSign text).2 <:+ text := by
  unfold scanSign
  split
  · exact List.suffix_cons _ _
  · exact List.suffix_cons _ _
  · exact List.suffix_rfl

theorem length_scanSign_lt {text : Text} (h : (scanSign text).1.isSome) :
    (scanSign text).2.length < text.length := by
  unfold scanSign at h ⊢
  split <;> simp_all

end EquationPad
