import EquationPad.Builder

/-! What equations look like, said of their text alone. No scanner is mentioned: a
text is an equation if it can be cut into pieces of the right form in some way, and
there may be several. A sign right after an equal sign, for instance, belongs to the
equal sign or to the term that follows. -/

namespace EquationPad

/-! ## Pieces of a token -/

def Blanks (text : Text) : Prop := ∀ c ∈ text, isBlank c = true

instance (text : Text) : Decidable (Blanks text) :=
  decidable_of_iff (text.all isBlank = true) List.all_eq_true

/-- Up to twenty digits and points, with a digit and at most one point among them. -/
structure IsNumeral (text : Text) : Prop where
  fits : text.length ≤ 20
  chars : ∀ c ∈ text, isDigit c = true ∨ c = '.'
  points : text.count '.' ≤ 1
  digit : ∃ c ∈ text, isDigit c = true

/-- One or two digits. -/
structure IsExponent (text : Text) : Prop where
  nonempty : text ≠ []
  fits : text.length ≤ 2
  digits : ∀ c ∈ text, isDigit c = true

structure IsName (text : Text) : Prop where
  nonempty : text ≠ []
  chars : ∀ c ∈ text, isNameChar c = true

def signText : Option Sign → Text
  | none => []
  | some .plus => ['+']
  | some .minus => ['-']

/-- A number, and directly after it perhaps `^` with a power of ten. -/
inductive LiteralText : Literal → Text → Prop
  | plain {mantissa} : IsNumeral mantissa → LiteralText ⟨mantissa, none⟩ mantissa
  | power {mantissa digits} (sign : Option Sign) : IsNumeral mantissa → IsExponent digits →
      LiteralText ⟨mantissa, some ⟨isMinus sign, digits⟩⟩
        (mantissa ++ '^' :: (signText sign ++ digits))

/-! ## Tokens -/

/-- Blanks may stand after the sign, after the number and after the name. A point
without digits may stand in the place of the number if a name follows. -/
inductive TermText : Term → Text → Prop
  | constant {sign number b₁ n b₂} : Blanks b₁ → LiteralText number n → Blanks b₂ →
      TermText (.constant sign number) (signText sign ++ (b₁ ++ (n ++ b₂)))
  | scaled {sign number b₁ n b₂ name b₃} : Blanks b₁ → LiteralText number n → Blanks b₂ →
      IsName name → Blanks b₃ →
      TermText (.unknown sign (some number) name)
        (signText sign ++ (b₁ ++ (n ++ (b₂ ++ (name ++ b₃)))))
  | named {sign b₁ point b₂ name b₃} : Blanks b₁ → point = [] ∨ point = ['.'] → Blanks b₂ →
      IsName name → Blanks b₃ →
      TermText (.unknown sign none name)
        (signText sign ++ (b₁ ++ (point ++ (b₂ ++ (name ++ b₃)))))

/-- The operator without the blanks after it. -/
def Operator.text : Operator → Text
  | .additive sign => signText (some sign)
  | .equals sign => '=' :: signText sign

inductive Token where
  | term (term : Term)
  | operator (operator : Operator)
  deriving DecidableEq

namespace Token

def kind : Token → TokenKind
  | term _ => .term
  | operator _ => .operator

def isEquals : Token → Bool
  | term _ => false
  | operator o => o.isEquals

def Written : Token → Text → Prop
  | term t, text => TermText t text
  | operator o, text => ∃ b, Blanks b ∧ text = o.text ++ b

end Token

/-- Terms and operators alternate. -/
def TokenKind.other : TokenKind → TokenKind
  | .term => .operator
  | .operator => .term

/-! ## Equations -/

/-- The tokens, of which the first has the given kind, written one after the other. -/
inductive Spells : TokenKind → List Token → Text → Prop
  | nil {kind} : Spells kind [] []
  | cons {kind token tokens piece rest} : token.kind = kind → token.Written piece →
      Spells kind.other tokens rest → Spells kind (token :: tokens) (piece ++ rest)

/-- The kind of token that must come after some tokens; the first kind if there are none. -/
def kindAfter : TokenKind → List Token → TokenKind
  | kind, [] => kind
  | _, token :: tokens => kindAfter token.kind.other tokens

def EndsOnTerm (tokens : List Token) : Prop := ∃ t, tokens.getLast? = some (.term t)

/-- At most one equal sign, and none if there was one already. -/
def EqualsFit (equalSeen : Bool) (tokens : List Token) : Prop :=
  tokens.countP Token.isEquals ≤ if equalSeen then 0 else 1

/-- A way to read a text as an equation, or as the rest of one: tokens in alternation
up to a term. -/
structure Reads (kind : TokenKind) (equalSeen : Bool) (tokens : List Token) (text : Text) :
    Prop where
  spells : Spells kind tokens text
  endsOnTerm : EndsOnTerm tokens
  equalsFit : EqualsFit equalSeen tokens

end EquationPad
