import EquationPad.Proofs.Scanning

/-! The tokens of a text, cut greedily and in alternation. Cutting stops at the end or
before the first piece that is no token of the kind that must come next; a second
equal sign is no such token either. Whatever is cut off is spelled by its tokens and
would be cut into them without what is left, and a text that is spelled by tokens in
any way is cut up completely, into the same tokens up to the sign after an equal sign. -/

namespace EquationPad

namespace Operator

theorem scan?_eq_some_iff {o : Operator} {text rest : Text} :
    scan? text = some (o, rest) ↔
      text = o.text ++ rest ∧ (o = .equals none → Stops isSignChar rest) := by
  constructor
  · intro h
    unfold scan? at h
    split at h
    · rename_i after
      simp only [Option.some.injEq, Prod.mk.injEq] at h
      obtain ⟨rfl, rfl⟩ := h
      refine ⟨by rw [Operator.text, List.cons_append, signText_append_scanSign], ?_⟩
      intro hnone
      simp only [Operator.equals.injEq] at hnone
      have hwhole := signText_append_scanSign after
      rw [hnone, signText, List.nil_append] at hwhole
      rw [hwhole]
      exact stops_of_scanSign hnone
    · split at h
      · rename_i sign after hsign
        simp only [Option.some.injEq, Prod.mk.injEq] at h
        obtain ⟨rfl, rfl⟩ := h
        have whole := signText_append_scanSign text
        rw [hsign] at whole
        exact ⟨whole.symm, by simp⟩
      · cases h
  · intro h
    obtain ⟨rfl, hsign⟩ := h
    cases o with
    | additive sign => cases sign <;> rfl
    | equals sign =>
      have scanned : scanSign (signText sign ++ rest) = (sign, rest) :=
        scanSign_signText_append fun hnone => hsign (by rw [hnone])
      simp [Operator.text, scan?, scanned]

theorem stops_of_scan?_eq_none {text : Text} (h : scan? text = none) :
    Stops isOperatorChar text := by
  unfold scan? at h
  split at h
  · cases h
  · rename_i hequals
    split at h
    · cases h
    · rename_i hsign
      have hstops : Stops isSignChar text := stops_of_scanSign (by rw [hsign])
      cases text with
      | nil => exact stops_nil _
      | cons c text =>
        have hc : c ≠ '=' := by rintro rfl; exact hequals _ rfl
        simpa [isOperatorChar, hc] using hstops

/-- An operator starts with a character of its own. -/
theorem stops_text_append (o : Operator) {p : Char → Bool} (hp : Apart isOperatorChar p)
    (rest : Text) : Stops p (o.text ++ rest) := by
  match o with
  | .additive .plus => exact stops_cons.mpr (hp _ rfl)
  | .additive .minus => exact stops_cons.mpr (hp _ rfl)
  | .equals _ => exact stops_cons.mpr (hp _ rfl)

theorem solid_text (o : Operator) : ∀ c ∈ o.text, isBlank c = false := by
  cases o with
  | additive sign => exact signText_solid (some sign)
  | equals sign => exact List.forall_mem_cons.mpr ⟨rfl, signText_solid sign⟩

theorem afterTerm_text_append (o : Operator) (rest : Text) : AfterTerm (o.text ++ rest) := by
  match o with
  | .additive .plus => simp [AfterTerm, Operator.text, signText, isOperatorChar, isSignChar]
  | .additive .minus => simp [AfterTerm, Operator.text, signText, isOperatorChar, isSignChar]
  | .equals _ => simp [AfterTerm, Operator.text, isOperatorChar]

theorem scan?_of_stops {text : Text} (h : Stops isOperatorChar text) :
    scan? text = none := by
  cases hscan : scan? text with
  | none => rfl
  | some found =>
    obtain ⟨o, rest⟩ := found
    obtain ⟨rfl, -⟩ := scan?_eq_some_iff.mp hscan
    obtain ⟨c, hc⟩ : ∃ c, (o.text ++ rest).head? = some c := by
      match o with
      | .additive .plus | .additive .minus | .equals _ => exact ⟨_, rfl⟩
    have hstop := h c hc
    rw [o.afterTerm_text_append rest c hc] at hstop
    cases hstop

end Operator

/-! ## One token -/

/-- The token of the given kind at the start of a text, and what follows it. -/
def nextToken? (kind : TokenKind) (equalSeen : Bool) (text : Text) : Option (Token × Text) :=
  match kind with
  | .term =>
    match Term.scan text with
    | (.ok t, rest) => some (.term t, rest)
    | (.error _, _) => none
  | .operator =>
    match Operator.scan? text with
    | some (o, rest) => if o.isEquals && equalSeen then none else some (.operator o, rest)
    | none => none

theorem nextToken?_term_eq_some_iff {equalSeen : Bool} {text rest : Text} {token : Token} :
    nextToken? .term equalSeen text = some (token, rest) ↔
      ∃ t, Term.scan text = (.ok t, rest) ∧ token = .term t := by
  unfold nextToken?
  dsimp only
  split
  · rename_i t after h
    simp only [h, Option.some.injEq, Prod.mk.injEq, Except.ok.injEq]
    constructor
    · intro h
      obtain ⟨rfl, rfl⟩ := h
      exact ⟨t, ⟨rfl, rfl⟩, rfl⟩
    · intro h
      obtain ⟨_, ⟨rfl, rfl⟩, rfl⟩ := h
      exact ⟨rfl, rfl⟩
  · rename_i h
    simp [h]

theorem nextToken?_operator_eq_some_iff {equalSeen : Bool} {text rest : Text} {token : Token} :
    nextToken? .operator equalSeen text = some (token, rest) ↔
      ∃ o, Operator.scan? text = some (o, rest) ∧ token = .operator o ∧
        (o.isEquals && equalSeen) = false := by
  unfold nextToken?
  dsimp only
  split
  · rename_i o after h
    split
    · rename_i hsecond
      simp only [h, Option.some.injEq, Prod.mk.injEq, reduceCtorEq, false_iff]
      intro h
      obtain ⟨_, ⟨rfl, rfl⟩, -, hfirst⟩ := h
      rw [hsecond] at hfirst
      cases hfirst
    · rename_i hfirst
      simp only [h, Option.some.injEq, Prod.mk.injEq]
      constructor
      · intro h
        obtain ⟨rfl, rfl⟩ := h
        exact ⟨o, ⟨rfl, rfl⟩, rfl, by simpa using hfirst⟩
      · intro h
        obtain ⟨_, ⟨rfl, rfl⟩, rfl, -⟩ := h
        exact ⟨rfl, rfl⟩
  · rename_i h
    simp [h]

theorem length_nextToken?_lt {kind : TokenKind} {equalSeen : Bool} {text rest : Text}
    {token : Token} (h : nextToken? kind equalSeen text = some (token, rest)) :
    rest.length < text.length := by
  cases kind with
  | term =>
    obtain ⟨t, ht, -⟩ := nextToken?_term_eq_some_iff.mp h
    have := @Term.length_scan_lt text t (by rw [ht])
    rwa [ht] at this
  | operator =>
    obtain ⟨o, ho, -⟩ := nextToken?_operator_eq_some_iff.mp h
    exact Operator.length_scan?_lt ho

theorem kind_nextToken? {kind : TokenKind} {equalSeen : Bool} {text rest : Text}
    {token : Token} (h : nextToken? kind equalSeen text = some (token, rest)) :
    token.kind = kind := by
  cases kind with
  | term =>
    obtain ⟨t, -, rfl⟩ := nextToken?_term_eq_some_iff.mp h
    rfl
  | operator =>
    obtain ⟨o, -, rfl, -⟩ := nextToken?_operator_eq_some_iff.mp h
    rfl

/-! ## All tokens -/

/-- The tokens at the start of a text, the first of the given kind, and what is left
where no further one is found. -/
def lex (kind : TokenKind) (equalSeen : Bool) (text : Text) : List Token × Text :=
  match _h : nextToken? kind equalSeen (skipBlanks text) with
  | none => ([], skipBlanks text)
  | some (token, rest) =>
    let (tokens, left) := lex kind.other (equalSeen || token.isEquals) rest
    (token :: tokens, left)
termination_by text.length
decreasing_by exact Nat.lt_of_lt_of_le (length_nextToken?_lt ‹_›) (length_skipBlanks_le text)

theorem lex_of_none {kind : TokenKind} {equalSeen : Bool} {text : Text}
    (h : nextToken? kind equalSeen (skipBlanks text) = none) :
    lex kind equalSeen text = ([], skipBlanks text) := by
  unfold lex
  split
  · rfl
  · rename_i hsome
    rw [h] at hsome
    cases hsome

theorem lex_of_some {kind : TokenKind} {equalSeen : Bool} {text rest : Text} {token : Token}
    (h : nextToken? kind equalSeen (skipBlanks text) = some (token, rest)) :
    lex kind equalSeen text =
      (token :: (lex kind.other (equalSeen || token.isEquals) rest).1,
        (lex kind.other (equalSeen || token.isEquals) rest).2) := by
  rw [lex]
  split
  · rename_i hnone
    rw [h] at hnone
    cases hnone
  · rename_i token' rest' hsome
    rw [h] at hsome
    cases hsome
    rfl

theorem lex_blanks_append {kind : TokenKind} {equalSeen : Bool} {b text : Text}
    (hb : Blanks b) : lex kind equalSeen (b ++ text) = lex kind equalSeen text := by
  cases h : nextToken? kind equalSeen (skipBlanks text) with
  | none => rw [lex_of_none h, lex_of_none (by rwa [skipBlanks_blanks_append hb]),
      skipBlanks_blanks_append hb]
  | some found => rw [lex_of_some h, lex_of_some (by rwa [skipBlanks_blanks_append hb])]

theorem lex_skipBlanks (kind : TokenKind) (equalSeen : Bool) (text : Text) :
    lex kind equalSeen (skipBlanks text) = lex kind equalSeen text := by
  obtain ⟨b, hb, htext⟩ := exists_blanks_append text
  rw [htext, lex_blanks_append hb, skipBlanks_blanks_append hb, skipBlanks_skipBlanks]

/-- What is left starts with no token that could come next, and with no blank. -/
theorem nextToken?_lex_left (kind : TokenKind) (equalSeen : Bool) (text : Text) :
    nextToken? (kindAfter kind (lex kind equalSeen text).1)
        (equalSeen || (lex kind equalSeen text).1.any Token.isEquals)
        (lex kind equalSeen text).2 = none ∧
      Stops isBlank (lex kind equalSeen text).2 := by
  fun_induction lex kind equalSeen text with
  | case1 kind equalSeen text h => exact ⟨by simpa [kindAfter] using h, stops_skipBlanks text⟩
  | case2 kind equalSeen text token rest h tokens left hlex ih =>
    rw [hlex] at ih
    simpa [kindAfter, kind_nextToken? h, Bool.or_assoc] using ih

/-! ## Written tokens -/

/-- A written term ends with a number or a name and blanks, and these blanks can be exchanged. -/
theorem TermText.ending {t : Term} {piece : Text} (h : TermText t piece) :
    ∃ front word b, piece = front ++ (word ++ b) ∧ Blanks b ∧
      (word ≠ [] ∧ ∀ c ∈ word, isBlank c = false) ∧
      ∀ b', Blanks b' → TermText t (front ++ (word ++ b')) := by
  cases h with
  | @constant sign number b₁ n b₂ hb₁ hn hb₂ =>
    refine ⟨signText sign ++ b₁, n, b₂, by simp, hb₂, hn.solid, fun b' hb' => ?_⟩
    simpa [List.append_assoc] using TermText.constant hb₁ hn hb'
  | @scaled sign number b₁ n b₂ name b₃ hb₁ hn hb₂ hname hb₃ =>
    refine ⟨signText sign ++ (b₁ ++ (n ++ b₂)), name, b₃, by simp, hb₃,
      ⟨hname.nonempty, hname.solid⟩, fun b' hb' => ?_⟩
    simpa [List.append_assoc] using TermText.scaled hb₁ hn hb₂ hname hb'
  | @named sign b₁ point b₂ name b₃ hb₁ hpoint hb₂ hname hb₃ =>
    refine ⟨signText sign ++ (b₁ ++ (point ++ b₂)), name, b₃, by simp, hb₃,
      ⟨hname.nonempty, hname.solid⟩, fun b' hb' => ?_⟩
    simpa [List.append_assoc] using TermText.named hb₁ hpoint hb₂ hname hb'

theorem TermText.append_blanks {t : Term} {piece b : Text} (h : TermText t piece)
    (hb : Blanks b) : TermText t (piece ++ b) := by
  obtain ⟨front, word, b', rfl, hb', -, hswap⟩ := h.ending
  rw [List.append_assoc, List.append_assoc]
  exact hswap _ (hb'.append hb)

/-- Of a term only blanks at its end are cut off. -/
theorem TermText.trimRight_append {t : Term} {piece : Text} (h : TermText t piece) (rest : Text) :
    ∃ piece', TermText t piece' ∧ trimRight (piece ++ rest) = piece' ++ trimRight rest := by
  obtain ⟨front, word, b, rfl, hb, ⟨hne, hword⟩, hswap⟩ := h.ending
  obtain ⟨b', hb', htrim⟩ := exists_trimRight_blanks_append hb rest
  have hsolid := trimRight_solid_append hword (b ++ rest)
  refine ⟨_, hswap b' hb', ?_⟩
  rw [List.append_assoc, List.append_assoc, EquationPad.trimRight_append (by simp [hsolid, hne]),
    hsolid, htrim]
  simp

theorem Token.Written.append_blanks {token : Token} {piece b : Text} (h : token.Written piece)
    (hb : Blanks b) : token.Written (piece ++ b) := by
  cases token with
  | term t => exact TermText.append_blanks h hb
  | operator o =>
    obtain ⟨b', hb', rfl⟩ := h
    exact ⟨b' ++ b, hb'.append hb, List.append_assoc ..⟩

/-! ## Equal signs -/

theorem equalsFit_nil (equalSeen : Bool) : EqualsFit equalSeen [] := by simp [EqualsFit]

theorem equalsFit_cons {equalSeen : Bool} {token : Token} {tokens : List Token} :
    EqualsFit equalSeen (token :: tokens) ↔
      (token.isEquals && equalSeen) = false ∧ EqualsFit (equalSeen || token.isEquals) tokens := by
  cases equalSeen <;> cases h : token.isEquals <;> simp [EqualsFit, h]

theorem equalsFit_lex (kind : TokenKind) (equalSeen : Bool) (text : Text) :
    EqualsFit equalSeen (lex kind equalSeen text).1 := by
  fun_induction lex kind equalSeen text with
  | case1 kind equalSeen text _ => exact equalsFit_nil equalSeen
  | case2 kind equalSeen text token rest h tokens left hlex ih =>
    rw [hlex] at ih
    refine equalsFit_cons.mpr ⟨?_, ih⟩
    cases kind with
    | term =>
      obtain ⟨t, -, rfl⟩ := nextToken?_term_eq_some_iff.mp h
      rfl
    | operator =>
      obtain ⟨o, -, rfl, hfirst⟩ := nextToken?_operator_eq_some_iff.mp h
      exact hfirst

/-! ## Spelled texts are cut up completely -/

namespace Term

def sign : Term → Option Sign
  | constant sign _ => sign
  | unknown sign _ _ => sign

def withSign (sign : Option Sign) : Term → Term
  | constant _ number => constant sign number
  | unknown _ factor name => unknown sign factor name

end Term

/-- The same tokens, but that the sign of a term right after an equal sign may have
gone over to the equal sign. -/
inductive Regroups : List Token → List Token → Prop
  | nil : Regroups [] []
  | cons {tokens tokens'} (token : Token) : Regroups tokens tokens' →
      Regroups (token :: tokens) (token :: tokens')
  | sign {tokens tokens'} (sign : Sign) (t : Term) : Regroups tokens tokens' →
      Regroups (.operator (.equals none) :: .term (t.withSign (some sign)) :: tokens)
        (.operator (.equals (some sign)) :: .term (t.withSign none) :: tokens')

@[simp] theorem Term.withSign_sign (t : Term) : t.withSign t.sign = t := by cases t <;> rfl

/-- A written term is its sign, blanks and a core; the sign and the blanks can be
exchanged, and the core starts with no blank and with no operator. -/
theorem TermText.core {t : Term} {piece : Text} (h : TermText t piece) :
    ∃ b core, Blanks b ∧ piece = signText t.sign ++ (b ++ core) ∧
      (∀ sign b', Blanks b' → TermText (t.withSign sign) (signText sign ++ (b' ++ core))) ∧
      (∀ rest, Stops isBlank (core ++ rest)) ∧ ∀ rest, Stops isOperatorChar (core ++ rest) := by
  cases h with
  | @constant sign number b₁ n b₂ hb₁ hn hb₂ =>
    refine ⟨b₁, n ++ b₂, hb₁, rfl, fun _ _ hb' => .constant hb' hn hb₂, ?_, ?_⟩ <;> intro rest
    · rw [List.append_assoc]
      exact hn.stops_append blank_apart_literal.symm _
    · rw [List.append_assoc]
      exact hn.stops_append literal_apart_operator _
  | @scaled sign number b₁ n b₂ name b₃ hb₁ hn hb₂ hname hb₃ =>
    refine ⟨b₁, n ++ (b₂ ++ (name ++ b₃)), hb₁, rfl,
      fun _ _ hb' => .scaled hb' hn hb₂ hname hb₃, ?_, ?_⟩ <;> intro rest
    · rw [List.append_assoc]
      exact hn.stops_append blank_apart_literal.symm _
    · rw [List.append_assoc]
      exact hn.stops_append literal_apart_operator _
  | @named sign b₁ point b₂ name b₃ hb₁ hpoint hb₂ hname hb₃ =>
    rcases hpoint with rfl | rfl
    · refine ⟨b₁ ++ b₂, name ++ b₃, hb₁.append hb₂, by simp [Term.sign, List.append_assoc],
        fun _ _ hb' => .named hb' (.inl rfl) blanks_nil hname hb₃, ?_, ?_⟩ <;> intro rest
      · rw [List.append_assoc]
        exact hname.stops_append blank_apart_name.symm _
      · rw [List.append_assoc]
        exact hname.stops_append name_apart_operator _
    · exact ⟨b₁, ['.'] ++ (b₂ ++ (name ++ b₃)), hb₁, rfl,
        fun _ _ hb' => .named hb' (.inr rfl) hb₂ hname hb₃, fun _ => stops_cons.mpr rfl,
        fun _ => stops_cons.mpr rfl⟩

theorem lex_nil (kind : TokenKind) (equalSeen : Bool) : lex kind equalSeen [] = ([], []) :=
  lex_of_none (by cases kind <;> rfl)

theorem lex_term_append {t : Term} {piece rest : Text} (equalSeen : Bool)
    (h : TermText t piece) (hrest : AfterTerm rest) :
    lex .term equalSeen (piece ++ rest) =
      (.term t :: (lex .operator equalSeen rest).1, (lex .operator equalSeen rest).2) := by
  obtain ⟨b, core, hb, rfl, hswap, hblank, -⟩ := h.core
  -- without a sign the blanks in front are skipped before the term is scanned
  have hscan : ∃ piece', TermText t piece' ∧
      skipBlanks ((signText t.sign ++ (b ++ core)) ++ rest) = piece' ++ rest := by
    cases hsign : t.sign with
    | none =>
      refine ⟨core, ?_, ?_⟩
      · have := hswap none [] blanks_nil
        rwa [← hsign, Term.withSign_sign, hsign] at this
      · rw [signText, List.nil_append, List.append_assoc, skipBlanks_append hb (hblank rest)]
    | some sign =>
      refine ⟨_, by rwa [hsign] at h, skipBlanks_eq_self ?_⟩
      cases sign <;> exact stops_cons.mpr rfl
  obtain ⟨piece', hpiece', hskip⟩ := hscan
  have hnext : nextToken? .term equalSeen
      (skipBlanks ((signText t.sign ++ (b ++ core)) ++ rest)) = some (.term t, rest) := by
    rw [hskip]
    exact nextToken?_term_eq_some_iff.mpr ⟨t, Term.scan_append_eq hpiece' hrest, rfl⟩
  rw [lex_of_some hnext]
  simp [TokenKind.other, Token.isEquals]

theorem lex_operator_append {o : Operator} {rest : Text} {equalSeen : Bool}
    (hfirst : (o.isEquals && equalSeen) = false)
    (hsign : o = .equals none → Stops isSignChar rest) :
    lex .operator equalSeen (o.text ++ rest) =
      (.operator o :: (lex .term (equalSeen || o.isEquals) rest).1,
        (lex .term (equalSeen || o.isEquals) rest).2) := by
  have hskip : skipBlanks (o.text ++ rest) = o.text ++ rest :=
    skipBlanks_eq_self (o.stops_text_append blank_apart_operator.symm rest)
  have hnext : nextToken? .operator equalSeen (skipBlanks (o.text ++ rest)) =
      some (.operator o, rest) := by
    rw [hskip]
    exact nextToken?_operator_eq_some_iff.mpr
      ⟨o, Operator.scan?_eq_some_iff.mpr ⟨rfl, hsign⟩, rfl, hfirst⟩
  rw [lex_of_some hnext]
  rfl

theorem Spells.afterTerm {tokens : List Token} {text : Text} (h : Spells .operator tokens text) :
    AfterTerm text := by
  cases h with
  | nil => simp [AfterTerm]
  | @cons _ token _ piece rest hkind hpiece _ =>
    cases token with
    | term t => cases hkind
    | operator o =>
      obtain ⟨b, -, rfl⟩ := hpiece
      rw [List.append_assoc]
      exact o.afterTerm_text_append _

/-- Where a term is due, a sign can stand only as the sign of that term. -/
theorem Spells.sign_cases {tokens : List Token} {text : Text} (h : Spells .term tokens text) :
    Stops isSignChar text ∨ ∃ sign, ∃ t : Term, ∃ tokens' piece rest,
      tokens = .term (t.withSign (some sign)) :: tokens' ∧
      text = signText (some sign) ++ (piece ++ rest) ∧
      TermText (t.withSign none) piece ∧ Spells .operator tokens' rest := by
  cases h with
  | nil => exact .inl (stops_nil _)
  | @cons _ token tokens' piece rest hkind hpiece hrest =>
    cases token with
    | operator o => cases hkind
    | term t =>
      obtain ⟨b, core, hb, rfl, hswap, -, hoperator⟩ := TermText.core hpiece
      cases hsign : t.sign with
      | none =>
        left
        rw [signText, List.nil_append, List.append_assoc]
        exact (hb.stops blank_apart_operator (hoperator rest)).mono fun _ => isSignChar_eq_false
      | some sign =>
        right
        refine ⟨sign, t, tokens', b ++ core, rest, ?_, ?_, hswap none b hb, hrest⟩
        · rw [← hsign, Term.withSign_sign]
        · simp [List.append_assoc]

/-- **A text that can be spelled is cut up completely.** The greedy cut may only differ
in taking the sign of a term for a part of the equal sign before it. -/
theorem lex_of_spells {kind : TokenKind} {tokens : List Token} {text : Text}
    {equalSeen : Bool} (h : Spells kind tokens text) (hfit : EqualsFit equalSeen tokens) :
    ∃ tokens', lex kind equalSeen text = (tokens', []) ∧ Regroups tokens tokens' := by
  cases h with
  | nil => exact ⟨[], lex_nil kind equalSeen, .nil⟩
  | @cons _ token tokens piece rest hkind hpiece hrest =>
    obtain ⟨hfirst, hfit⟩ := equalsFit_cons.mp hfit
    subst hkind
    cases token with
    | term t =>
      rw [Token.isEquals, Bool.or_false] at hfit
      obtain ⟨tokens', hlex, hsame⟩ := lex_of_spells hrest hfit
      refine ⟨.term t :: tokens', ?_, .cons _ hsame⟩
      rw [Token.kind, lex_term_append equalSeen hpiece hrest.afterTerm]
      rw [Token.kind, TokenKind.other] at hlex
      rw [hlex]
    | operator o =>
      obtain ⟨b, hb, rfl⟩ := hpiece
      rw [Token.kind, TokenKind.other] at hrest
      rw [List.append_assoc, Token.kind]
      by_cases hstop : o = .equals none → Stops isSignChar (b ++ rest)
      · obtain ⟨tokens', hlex, hsame⟩ := lex_of_spells hrest hfit
        refine ⟨.operator o :: tokens', ?_, .cons _ hsame⟩
        rw [lex_operator_append hfirst hstop, lex_blanks_append hb]
        rw [Token.isEquals] at hlex
        rw [hlex]
      · -- an equal sign, and directly after it the sign of a term
        obtain ⟨rfl, hglued⟩ := Classical.not_imp.mp hstop
        have hempty : b = [] := by
          cases b with
          | nil => rfl
          | cons c b =>
            have hc : isBlank c = true := hb c (by simp)
            exact absurd (stops_cons.mpr (isSignChar_eq_false (blank_apart_operator c hc))) hglued
        subst hempty
        rcases hrest.sign_cases with hstops | ⟨sign, t, tokens', piece, rest', rfl, rfl, ht, hrest'⟩
        · exact absurd hstops hglued
        · have hfit' := (equalsFit_cons.mp hfit).2
          rw [Token.isEquals, Bool.or_false] at hfit'
          obtain ⟨tokens'', hlex, hsame⟩ := lex_of_spells hrest' hfit'
          refine ⟨_, ?_, .sign sign t hsame⟩
          have hop := @lex_operator_append (.equals (some sign)) (piece ++ rest') equalSeen
            hfirst (by simp)
          have hterm := lex_term_append (equalSeen || true) ht hrest'.afterTerm
          simp only [Operator.text, Operator.isEquals, Token.isEquals] at hop hlex
          simp only [Operator.text, signText, List.nil_append, List.cons_append] at hop ⊢
          rw [hop, hterm, hlex]
termination_by tokens.length

/-! ## Cut tokens spell the text -/

theorem lex_trimRight_blanks_append (kind : TokenKind) (equalSeen : Bool) {b : Text}
    (hb : Blanks b) (text : Text) :
    lex kind equalSeen (trimRight (b ++ text)) = lex kind equalSeen (trimRight text) := by
  obtain ⟨b', hb', htrim⟩ := exists_trimRight_blanks_append hb text
  rw [htrim, lex_blanks_append hb']

/-- **What is cut into tokens does not depend on what is left.** Without it the text is cut into
the same tokens, even if the blanks before it go as well. -/
theorem lex_front (kind : TokenKind) (equalSeen : Bool) (text : Text) :
    ∃ s, Spells kind (lex kind equalSeen text).1 s ∧
      skipBlanks text = s ++ (lex kind equalSeen text).2 ∧
      lex kind equalSeen (trimRight s) = ((lex kind equalSeen text).1, []) := by
  fun_induction lex kind equalSeen text with
  | case1 kind equalSeen text _ => exact ⟨[], .nil, rfl, lex_nil kind equalSeen⟩
  | case2 kind equalSeen text token rest h tokens left hlex ih =>
    rw [hlex] at ih
    obtain ⟨s, hs, hleft, hfront⟩ := ih
    obtain ⟨b, hb, hrest⟩ := exists_blanks_append rest
    rw [hleft] at hrest
    cases kind with
    | term =>
      obtain ⟨t, ht, rfl⟩ := nextToken?_term_eq_some_iff.mp h
      obtain ⟨piece, hpiece, htext⟩ := Term.text_of_scan ht
      have hpiece := hpiece.append_blanks hb
      refine ⟨(piece ++ b) ++ s, .cons rfl hpiece hs, by simp [htext, hrest], ?_⟩
      obtain ⟨piece', hpiece', htrim⟩ := hpiece.trimRight_append s
      obtain ⟨b', -, hwhole⟩ := exists_append_blanks s
      have hafter : AfterTerm (trimRight s) := .of_append (hwhole ▸ Spells.afterTerm hs)
      rw [htrim, lex_term_append equalSeen hpiece' hafter]
      simp only [Token.isEquals, Bool.or_false, TokenKind.other] at hfront
      rw [hfront]
    | operator =>
      obtain ⟨o, ho, rfl, hfirst⟩ := nextToken?_operator_eq_some_iff.mp h
      obtain ⟨htext, hsign⟩ := Operator.scan?_eq_some_iff.mp ho
      refine ⟨(o.text ++ b) ++ s, .cons rfl ⟨b, hb, rfl⟩ hs, by simp [htext, hrest], ?_⟩
      -- the blanks after the operator are not its own, so that a sign may follow it only directly
      obtain ⟨b', -, hwhole⟩ := exists_append_blanks (b ++ s)
      have hstops : o = .equals none → Stops isSignChar (trimRight (b ++ s)) := by
        intro hnone
        have hstop := hsign hnone
        rw [hrest, ← List.append_assoc, hwhole, List.append_assoc] at hstop
        exact hstop.of_append
      rw [List.append_assoc, trimRight_solid_append o.solid_text, lex_operator_append hfirst hstops,
        lex_trimRight_blanks_append _ _ hb]
      simp only [Token.isEquals, TokenKind.other] at hfront
      rw [hfront]

theorem spells_lex (kind : TokenKind) (equalSeen : Bool) (text : Text) :
    ∃ s, Spells kind (lex kind equalSeen text).1 s ∧
      skipBlanks text = s ++ (lex kind equalSeen text).2 := by
  obtain ⟨s, hs, hwhole, -⟩ := lex_front kind equalSeen text
  exact ⟨s, hs, hwhole⟩

/-! ## The last token -/

theorem kindAfter_append (kind : TokenKind) (t₁ t₂ : List Token) :
    kindAfter kind (t₁ ++ t₂) = kindAfter (kindAfter kind t₁) t₂ := by
  induction t₁ generalizing kind with
  | nil => rfl
  | cons token t₁ ih => exact ih _

/-- What is due after tokens tells the kind of the last one. -/
theorem lastKind_iff (kind last : TokenKind) (tokens : List Token) :
    (∃ token, tokens.getLast? = some token ∧ token.kind = last) ↔
      tokens ≠ [] ∧ kindAfter kind tokens = last.other := by
  cases hlast : tokens.getLast? with
  | none => simp [List.getLast?_eq_none_iff.mp hlast]
  | some token =>
    obtain ⟨front, rfl⟩ := List.getLast?_eq_some_iff.mp hlast
    rw [kindAfter_append, kindAfter, kindAfter]
    cases last <;> cases token <;> simp [Token.kind, TokenKind.other]

theorem endsOnTerm_iff (kind : TokenKind) (tokens : List Token) :
    EndsOnTerm tokens ↔ tokens ≠ [] ∧ kindAfter kind tokens = .operator := by
  refine Iff.trans ?_ (lastKind_iff kind .term tokens)
  constructor
  · intro h
    obtain ⟨t, ht⟩ := h
    exact ⟨.term t, ht, rfl⟩
  · intro h
    obtain ⟨token, htoken, hkind⟩ := h
    cases token with
    | term t => exact ⟨t, htoken⟩
    | operator o => cases hkind

theorem lastOperator_iff (kind : TokenKind) (tokens : List Token) :
    (∃ o, tokens.getLast? = some (.operator o)) ↔
      tokens ≠ [] ∧ kindAfter kind tokens = .term := by
  refine Iff.trans ?_ (lastKind_iff kind .operator tokens)
  constructor
  · intro h
    obtain ⟨o, ho⟩ := h
    exact ⟨.operator o, ho, rfl⟩
  · intro h
    obtain ⟨token, htoken, hkind⟩ := h
    cases token with
    | term t => cases hkind
    | operator o => exact ⟨o, htoken⟩

theorem Regroups.eq_nil_iff {tokens tokens' : List Token} (h : Regroups tokens tokens') :
    tokens = [] ↔ tokens' = [] := by cases h <;> simp

theorem Regroups.kindAfter_eq {tokens tokens' : List Token} (h : Regroups tokens tokens')
    (kind : TokenKind) : kindAfter kind tokens = kindAfter kind tokens' := by
  induction h generalizing kind with
  | nil => rfl
  | cons token _ ih => exact ih _
  | sign _ t _ ih => exact ih _

theorem Regroups.endsOnTerm {tokens tokens' : List Token} (h : Regroups tokens tokens') :
    EndsOnTerm tokens ↔ EndsOnTerm tokens' := by
  rw [endsOnTerm_iff .term, endsOnTerm_iff .term, h.kindAfter_eq, Ne, h.eq_nil_iff]

/-- A text can be read as an equation exactly if it is cut up completely, up to a term. -/
theorem exists_reads_iff {kind : TokenKind} {equalSeen : Bool} {text : Text} :
    (∃ tokens, Reads kind equalSeen tokens (skipBlanks text)) ↔
      ∃ tokens, lex kind equalSeen text = (tokens, []) ∧ EndsOnTerm tokens := by
  constructor
  · intro hsome
    obtain ⟨tokens, h⟩ := hsome
    obtain ⟨tokens', hlex, hsame⟩ := lex_of_spells h.spells h.equalsFit
    rw [lex_skipBlanks] at hlex
    exact ⟨tokens', hlex, hsame.endsOnTerm.mp h.endsOnTerm⟩
  · intro hsome
    obtain ⟨tokens, hlex, hends⟩ := hsome
    obtain ⟨s, hs, hwhole⟩ := spells_lex kind equalSeen text
    have hfit := equalsFit_lex kind equalSeen text
    rw [hlex] at hs hwhole hfit
    rw [List.append_nil] at hwhole
    exact ⟨tokens, hwhole ▸ hs, hends, hfit⟩

/-! ## Going on after an operator -/

theorem Term.stops_of_scan {t : Term} {text rest : Text} (h : scan text = (.ok t, rest)) :
    Stops isBlank rest := by
  unfold scan at h
  dsimp only at h
  split at h
  · cases h
  · split at h
    · cases h
      exact stops_skipBlanks _
    · cases h

theorem afterTerm_of_lex {equalSeen : Bool} {text : Text} {token : Token} {tokens : List Token}
    {left : Text} (h : lex .operator equalSeen text = (token :: tokens, left))
    (htext : Stops isBlank text) : text ≠ [] ∧ AfterTerm text := by
  cases hnext : nextToken? .operator equalSeen (skipBlanks text) with
  | none => rw [lex_of_none hnext] at h; cases h
  | some found =>
    obtain ⟨token', rest⟩ := found
    obtain ⟨o, ho, -⟩ := nextToken?_operator_eq_some_iff.mp hnext
    rw [skipBlanks_eq_self htext] at ho
    rw [(Operator.scan?_eq_some_iff.mp ho).1]
    refine ⟨?_, o.afterTerm_text_append rest⟩
    match o with
    | .additive .plus | .additive .minus | .equals _ => simp [Operator.text, signText]

/-- **What follows an operator is cut on its own.** If a text is cut up completely and
a term is due after it, then going on with another text goes on with its tokens. The
other text must not start with a sign, which could belong to an equal sign. -/
theorem lex_append {kind : TokenKind} {equalSeen : Bool} {text more : Text}
    {tokens : List Token} (h : lex kind equalSeen text = (tokens, []))
    (hkind : kindAfter kind tokens = .term) (hmore : Stops isSignChar more) :
    lex kind equalSeen (text ++ more) =
      (tokens ++ (lex .term (equalSeen || tokens.any Token.isEquals) more).1,
        (lex .term (equalSeen || tokens.any Token.isEquals) more).2) := by
  obtain ⟨b, hb, htext⟩ := exists_blanks_append text
  rw [htext, List.append_assoc, lex_blanks_append hb]
  cases hnext : nextToken? kind equalSeen (skipBlanks text) with
  | none =>
    rw [lex_of_none hnext] at h
    simp only [Prod.mk.injEq] at h
    obtain ⟨rfl, hempty⟩ := h
    rw [kindAfter] at hkind
    simp [hempty, hkind]
  | some found =>
    obtain ⟨token, rest⟩ := found
    rw [lex_of_some hnext] at h
    have shorter := Nat.lt_of_lt_of_le (length_nextToken?_lt hnext) (length_skipBlanks_le text)
    simp only [Prod.mk.injEq] at h
    obtain ⟨rfl, hleft⟩ := h
    rw [kindAfter, kind_nextToken? hnext] at hkind
    have ih := @lex_append kind.other (equalSeen || token.isEquals) rest more _
      (Prod.ext rfl hleft) hkind hmore
    cases kind with
    | term =>
      obtain ⟨t, ht, rfl⟩ := nextToken?_term_eq_some_iff.mp hnext
      obtain ⟨piece, hpiece, hwhole⟩ := Term.text_of_scan ht
      -- a term is not the last token, so an operator follows it
      have hafter : AfterTerm (rest ++ more) := by
        cases hlex : lex .operator (equalSeen || (Token.term t).isEquals) rest with
        | mk tokens left =>
          cases tokens with
          | nil => rw [TokenKind.other, hlex] at hkind; cases hkind
          | cons token tokens =>
            obtain ⟨hne, hafter⟩ := afterTerm_of_lex hlex (Term.stops_of_scan ht)
            cases rest with
            | nil => exact absurd rfl hne
            | cons c rest => exact hafter
      rw [hwhole, List.append_assoc, lex_term_append equalSeen hpiece hafter]
      simp only [Token.isEquals, Bool.or_false, TokenKind.other] at ih ⊢
      rw [ih]
      simp [Token.isEquals]
    | operator =>
      obtain ⟨o, ho, rfl, hfirst⟩ := nextToken?_operator_eq_some_iff.mp hnext
      obtain ⟨hwhole, hsign⟩ := Operator.scan?_eq_some_iff.mp ho
      have hsign' : o = .equals none → Stops isSignChar (rest ++ more) := by
        intro hnone
        cases rest with
        | nil => exact hmore
        | cons c rest => exact hsign hnone
      rw [hwhole, List.append_assoc, lex_operator_append hfirst hsign']
      simp only [Token.isEquals, TokenKind.other] at ih ⊢
      rw [ih]
      simp [Token.isEquals, Bool.or_assoc]
termination_by text.length

end EquationPad
