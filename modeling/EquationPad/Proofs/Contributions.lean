import EquationPad.Proofs.LineReading
import EquationPad.Proofs.Numbers

/-! What the terms of an equation add to the system. Each term contributes one number,
and the sign of that number is put together from three: the sign of the operator before
the term, the sign of the term itself, and the side on which the term stands. A
contribution keeps the number as it is written, so that it can be read as a double, as
the system does, and exactly. -/

namespace EquationPad

def signed {α : Type} [Neg α] (negative : Bool) (x : α) : α := if negative then -x else x

/-- A term without a number counts once. -/
def readExact : Option Literal → ℚ
  | none => 1
  | some number => number.exact

def readDouble : Option Literal → Float
  | none => 1.0
  | some number => number.value

/-! ## Contributions -/

inductive Contribution where
  | coefficient (negative : Bool) (factor : Option Literal) (name : Text)
  /-- Constants are kept on the right side, so the number is subtracted. -/
  | constant (negative : Bool) (number : Literal)

namespace Contribution

def ofTerm (negative : Bool) : Term → Contribution
  | .constant sign number => .constant (negative ^^ isMinus sign) number
  | .unknown sign factor name => .coefficient (negative ^^ isMinus sign) factor name

/-- The variable whose coefficient is added to, if it is not the constant. -/
def unknown? : Contribution → Option Text
  | coefficient _ _ name => some name
  | constant _ _ => none

/-- The number that was written, if there was one. -/
def number? : Contribution → Option Literal
  | coefficient _ factor _ => factor
  | constant _ number => some number

variable {α : Type} [Neg α]

/-- The number that is added, given how numbers are read. -/
def amount (read : Option Literal → α) : Contribution → α
  | coefficient negative factor _ => signed negative (read factor)
  | constant negative number => -signed negative (read (some number))

/-- The numbers added in one place, in order. -/
def amounts (read : Option Literal → α) (place : Option Text) (cs : List Contribution) : List α :=
  (cs.filter fun c => c.unknown? = place).map (amount read)

theorem amounts_append (read : Option Literal → α) (place : Option Text)
    (cs more : List Contribution) :
    amounts read place (cs ++ more) = amounts read place cs ++ amounts read place more := by
  simp [amounts]

end Contribution

/-- The contributions of tokens after which an equal sign or a minus sign is still in force. -/
def contributionsFrom (equalSeen negative : Bool) : List Token → List Contribution
  | [] => []
  | .term t :: rest => .ofTerm (equalSeen ^^ negative) t :: contributionsFrom equalSeen negative rest
  | .operator o :: rest => contributionsFrom (equalSeen || o.isEquals) o.isNegative rest

/-- The contributions of an equation. -/
def contributions (tokens : List Token) : List Contribution := contributionsFrom false false tokens

/-- Adds a contribution to a row, as a double. -/
def LinearSystem.contribute (row : Nat) (system : LinearSystem) (c : Contribution) : LinearSystem :=
  match c with
  | .coefficient _ _ name =>
    let (column, system) := system.variableIndex name
    system.addCoefficient row column (c.amount readDouble)
  | .constant _ _ => system.addConstant row (c.amount readDouble)

/-! ## What accepted tokens add -/

namespace Builder

variable (builder : Builder)

theorem system_accept_term (t : Term) :
    (builder.accept (.term t)).system = builder.system.contribute builder.draft.row
      (.ofTerm (builder.draft.equalSeen ^^ builder.draft.negative) t) := by
  cases t with
  | constant sign number => rfl
  | unknown sign factor name => cases factor <;> rfl

theorem system_acceptAll (tokens : List Token) :
    (builder.acceptAll tokens).system =
      (contributionsFrom builder.draft.equalSeen builder.draft.negative tokens).foldl
        (LinearSystem.contribute builder.draft.row) builder.system := by
  induction tokens generalizing builder with
  | nil => rfl
  | cons token tokens ih =>
    rw [acceptAll_cons, ih, row_accept]
    cases token with
    | term t =>
      rw [system_accept_term, contributionsFrom, List.foldl_cons]
      rfl
    | operator o => rfl

end Builder

/-- Where an operator is due, the one before is no longer in force. -/
theorem Spells.contributionsFrom_eq {tokens : List Token} {text : Text}
    (h : Spells .operator tokens text) (equalSeen negative negative' : Bool) :
    contributionsFrom equalSeen negative tokens = contributionsFrom equalSeen negative' tokens := by
  cases h with
  | nil => rfl
  | @cons _ token _ _ _ hkind _ _ =>
    cases token with
    | term t => cases hkind
    | operator o => rfl

/-- A sign counts the same for the equal sign before a term and for the term. -/
theorem Regroups.contributionsFrom_eq {tokens tokens' : List Token} (h : Regroups tokens tokens')
    {kind : TokenKind} {text : Text} (hspells : Spells kind tokens text)
    (equalSeen negative : Bool) :
    contributionsFrom equalSeen negative tokens = contributionsFrom equalSeen negative tokens' := by
  induction h generalizing kind text equalSeen negative with
  | nil => rfl
  | cons token _ ih =>
    cases hspells with
    | cons _ _ hrest =>
      cases token with
      | term t => rw [contributionsFrom, contributionsFrom, ih hrest]
      | operator o => exact ih hrest _ _
  | @sign tokens tokens' s t _ ih =>
    cases hspells with
    | cons hkind _ hterm =>
      subst hkind
      cases hterm with
      | @cons _ _ _ _ rest _ _ hrest =>
        change Spells .operator tokens rest at hrest
        have hsign : ∀ seen : Bool,
            Contribution.ofTerm (seen ^^ false) (t.withSign (some s)) =
              Contribution.ofTerm (seen ^^ isMinus (some s)) (t.withSign none) := by
          intro seen
          cases t <;> cases s <;> cases seen <;> rfl
        have hlater := hrest.contributionsFrom_eq (equalSeen || true) false (isMinus (some s))
        simp only [contributionsFrom, Operator.isEquals, Operator.isNegative]
        rw [← ih hrest, ← hlater, ← hsign]
        rfl

theorem TermText.literal_of_number? {t : Term} {text : Text} (h : TermText t text) {negative : Bool}
    {number : Literal} (hnumber : (Contribution.ofTerm negative t).number? = some number) :
    ∃ n, LiteralText number n := by
  cases h with
  | constant _ hn _ =>
    obtain rfl := Option.some.inj hnumber
    exact ⟨_, hn⟩
  | scaled _ hn _ _ _ =>
    obtain rfl := Option.some.inj hnumber
    exact ⟨_, hn⟩
  | named _ _ _ _ _ => cases hnumber

/-- The numbers of contributions are written in the text. -/
theorem Spells.literal_of_number? {kind : TokenKind} {tokens : List Token} {text : Text}
    (h : Spells kind tokens text) {equalSeen negative : Bool} {c : Contribution}
    (hc : c ∈ contributionsFrom equalSeen negative tokens) {number : Literal}
    (hnumber : c.number? = some number) : ∃ n, LiteralText number n := by
  induction h generalizing equalSeen negative with
  | nil => cases hc
  | @cons _ token tokens _ _ _ hpiece _ ih =>
    cases token with
    | term t =>
      rcases List.mem_cons.mp hc with rfl | hrest
      · exact TermText.literal_of_number? hpiece hnumber
      · exact ih hrest
    | operator o => exact ih hc

end EquationPad
