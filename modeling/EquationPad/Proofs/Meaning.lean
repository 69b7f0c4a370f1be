import Mathlib.Algebra.BigOperators.Ring.Finset
import EquationPad.Proofs.Completion
import EquationPad.Proofs.Reachability

/-! What an equation means is what its row of the system means. An equation says that its
sides have the same value, and moving everything to the left, constants excepted, keeps
the difference of the sides. Nothing is claimed of the doubles but that they are the sums
of the same contributions. -/

namespace EquationPad

open Contribution (amounts)

/-! ## The sides of an equation -/

/-- A term with its own sign, for given values of the variables. -/
def Term.worth (ρ : Text → ℚ) : Term → ℚ
  | constant sign number => signed (isMinus sign) number.exact
  | unknown sign factor name => signed (isMinus sign) (readExact factor * ρ name)

/-- The sum of the terms of a side, each with the sign of the operator before it. -/
def sideValue (ρ : Text → ℚ) : List Token → ℚ
  | .term t :: rest => t.worth ρ + sideValue ρ rest
  | .operator o :: .term t :: rest => signed o.isNegative (t.worth ρ) + sideValue ρ rest
  | _ => 0

def leftSide (tokens : List Token) : List Token := tokens.takeWhile fun token => !token.isEquals

/-- The equal sign and what follows it; nothing if there is none. -/
def rightSide (tokens : List Token) : List Token := tokens.dropWhile fun token => !token.isEquals

/-! ## Contributions keep the difference -/

namespace Contribution

/-- What a contribution adds to the left side minus the constant. -/
def weight (ρ : Text → ℚ) (c : Contribution) : ℚ :=
  match c.unknown? with
  | some name => c.amount readExact * ρ name
  | none => -c.amount readExact

theorem weight_ofTerm (ρ : Text → ℚ) (negative : Bool) (t : Term) :
    weight ρ (ofTerm negative t) = signed negative (t.worth ρ) := by
  cases t with
  | constant sign number =>
    cases negative <;> cases h : isMinus sign <;>
      simp [weight, ofTerm, unknown?, amount, Term.worth, signed, readExact, h]
  | unknown sign factor name =>
    cases negative <;> cases h : isMinus sign <;>
      simp [weight, ofTerm, unknown?, amount, Term.worth, signed, h]

end Contribution

open Contribution (weight weight_ofTerm)

/-- Where an operator is due, tokens come in pairs of an operator and a term. -/
theorem Spells.pair_cases {tokens : List Token} {text : Text} (h : Spells .operator tokens text) :
    tokens = [] ∨ (∃ o, tokens = [.operator o]) ∨
      ∃ o t rest text', tokens = .operator o :: .term t :: rest ∧ Spells .operator rest text' := by
  cases h with
  | nil => exact .inl rfl
  | @cons _ token _ _ _ hkind _ hrest =>
    right
    cases token with
    | term t => cases hkind
    | operator o =>
      cases hrest with
      | nil => exact .inl ⟨o, rfl⟩
      | @cons _ token rest _ text' hkind _ hrest =>
        cases token with
        | term t => exact .inr ⟨o, t, rest, text', rfl, hrest⟩
        | operator o' => cases hkind

theorem signed_not (negative : Bool) (x : ℚ) : signed (!negative) x = -signed negative x := by
  cases negative <;> simp [signed]

/-- After the equal sign every term changes sides. -/
theorem weights_after_equals (ρ : Text → ℚ) {tokens : List Token} {text : Text}
    (h : Spells .operator tokens text) (negative : Bool) :
    ((contributionsFrom true negative tokens).map (weight ρ)).sum = -sideValue ρ tokens := by
  rcases h.pair_cases with rfl | ⟨o, rfl⟩ | ⟨o, t, rest, text', rfl, hrest⟩
  · simp [contributionsFrom, sideValue]
  · simp [contributionsFrom, sideValue]
  · have ih := weights_after_equals ρ hrest o.isNegative
    simp only [contributionsFrom, Bool.true_or, Bool.true_xor, List.map_cons, List.sum_cons, ih,
      weight_ofTerm, sideValue, signed_not]
    ring
termination_by tokens.length

theorem weights_before_equals (ρ : Text → ℚ) {tokens : List Token} {text : Text}
    (h : Spells .operator tokens text) (negative : Bool) :
    ((contributionsFrom false negative tokens).map (weight ρ)).sum =
      sideValue ρ (leftSide tokens) - sideValue ρ (rightSide tokens) := by
  rcases h.pair_cases with rfl | ⟨o, rfl⟩ | ⟨o, t, rest, text', rfl, hrest⟩
  · simp [contributionsFrom, sideValue, leftSide, rightSide]
  · cases hequals : o.isEquals <;>
      simp [contributionsFrom, sideValue, leftSide, rightSide, Token.isEquals, hequals]
  · by_cases hequals : o.isEquals = true
    · have hafter := weights_after_equals ρ hrest o.isNegative
      simp only [contributionsFrom, hequals, Bool.or_true, Bool.true_xor, List.map_cons,
        List.sum_cons, hafter, weight_ofTerm, signed_not]
      simp only [leftSide, rightSide, List.takeWhile_cons, List.dropWhile_cons, Token.isEquals,
        hequals, Bool.not_true, Bool.false_eq_true, if_false, sideValue]
      ring
    · have ih := weights_before_equals ρ hrest o.isNegative
      rw [Bool.not_eq_true] at hequals
      simp only [contributionsFrom, hequals, Bool.or_false, Bool.false_xor, List.map_cons,
        List.sum_cons, ih, weight_ofTerm]
      simp only [leftSide, rightSide, List.takeWhile_cons, List.dropWhile_cons, Token.isEquals,
        hequals, Bool.not_false, if_true, sideValue]
      ring
termination_by tokens.length

/-- The contributions of an equation have the difference of its sides for their sum. -/
theorem weights_contributions (ρ : Text → ℚ) {tokens : List Token} {text : Text}
    (h : Spells .term tokens text) :
    ((contributions tokens).map (weight ρ)).sum =
      sideValue ρ (leftSide tokens) - sideValue ρ (rightSide tokens) := by
  cases h with
  | nil => simp [contributions, contributionsFrom, sideValue, leftSide, rightSide]
  | @cons _ token rest _ _ hkind _ hrest =>
    cases token with
    | operator o => cases hkind
    | term t =>
      have hlater := weights_before_equals ρ hrest false
      simp only [contributions, contributionsFrom, Bool.false_xor, List.map_cons, List.sum_cons,
        hlater, weight_ofTerm]
      simp only [leftSide, rightSide, List.takeWhile_cons, List.dropWhile_cons, Token.isEquals,
        Bool.not_false, if_true, sideValue, signed, Bool.false_eq_true, if_false]
      ring

/-! ## Contributions by place -/

theorem sum_weights (ρ : Text → ℚ) {names : Finset Text} {cs : List Contribution}
    (h : ∀ c ∈ cs, ∀ v, c.unknown? = some v → v ∈ names) :
    ∑ v ∈ names, (amounts readExact (some v) cs).sum * ρ v - (amounts readExact none cs).sum =
      (cs.map (weight ρ)).sum := by
  induction cs with
  | nil => simp [amounts]
  | cons c cs ih =>
    have ih := ih fun c' hc' => h c' (by simp [hc'])
    have hcons : ∀ place, (amounts readExact place (c :: cs)).sum =
        (if c.unknown? = place then c.amount readExact else 0) +
          (amounts readExact place cs).sum := by
      intro place
      by_cases hplace : c.unknown? = place <;> simp [amounts, hplace]
    rw [List.map_cons, List.sum_cons, ← ih, hcons none]
    simp only [hcons, add_mul, Finset.sum_add_distrib]
    cases hc : c.unknown? with
    | none => simp [Contribution.weight, hc]; ring
    | some name =>
      have hname : name ∈ names := h c (by simp) name hc
      simp [Contribution.weight, hc, hname, ite_mul]
      ring

/-! ## Equations -/

/-- The row stands for the equation with these tokens. -/
structure Represents (row : Nat) (before after : LinearSystem) (tokens : List Token) : Prop where
  emitted : after = (contributions tokens).foldl (LinearSystem.contribute row) before
  nodup : after.names.Nodup
  /-- Read and added exactly, the contributions say what the equation says. -/
  exact : ∀ ρ : Text → ℚ,
    ∑ v ∈ after.names.toFinset, (amounts readExact (some v) (contributions tokens)).sum * ρ v -
        (amounts readExact none (contributions tokens)).sum =
      sideValue ρ (leftSide tokens) - sideValue ρ (rightSide tokens)
  /-- What is stored are the sums of the same contributions in doubles, from the left. -/
  coefficient : ∀ (column : Nat) v, after.names[column]? = some v →
    after.coefficient row column =
      (amounts readDouble (some v) (contributions tokens)).foldl (· + ·) 0.0
  constant : after.constant row =
    (amounts readDouble none (contributions tokens)).foldl (· + ·) 0.0
  /-- The double of a number is its exact value, rounded once. -/
  rounded : ∀ c ∈ contributions tokens, ∀ number, c.number? = some number →
    ∃ d : Decimal, d.exact = number.exact ∧ number.value = d.toFloat

theorem represents_contributions {row : Nat} {system : LinearSystem} {tokens : List Token}
    {text : Text} (hfits : system.Fits row) (hspells : Spells .term tokens text) :
    Represents row system ((contributions tokens).foldl (LinearSystem.contribute row) system)
      tokens := by
  have hfits' := (hfits.mono (Nat.le_succ row)).foldl_contribute (contributions tokens)
  refine ⟨rfl, hfits'.nodup, ?_, ?_, ?_, ?_⟩
  · intro ρ
    rw [sum_weights ρ, weights_contributions ρ hspells]
    intro c hc v hv
    exact List.mem_toFinset.mpr (LinearSystem.mem_names_foldl_contribute hc hv system row)
  · intro column v hcolumn
    rw [hfits'.coefficient_eq, LinearSystem.coefficients_foldl_contribute hfits'.nodup hcolumn,
      hfits.coefficients_eq_zero]
  · rw [hfits'.constant_eq, LinearSystem.constants_foldl_contribute, hfits.constants_eq_zero]
  · intro c hc number hnumber
    obtain ⟨n, hn⟩ := hspells.literal_of_number? hc hnumber
    exact hn.value_eq

namespace Builder

/-- **Reading keeps the meaning of an equation.** Where no equation is open, lines that
leave the equation open after an operator and a last line that completes it are one
equation once they are joined, and the next row stands for it, in whatever way its text
is cut into terms and operators. -/
theorem represents_feed {builder : Builder} {lines : List Text} {last : Text}
    (hreachable : Reachable builder) (hclosed : builder.draft.isOpen = false)
    (hlines : Continues builder lines)
    (hlast : Completed (builder.feedAll lines) ((builder.feedAll lines).feed last)) :
    (∃ tokens, Reads .term false tokens (trimmed (joined (lines ++ [last])))) ∧
    ∀ tokens, Reads .term false tokens (trimmed (joined (lines ++ [last]))) →
      Represents builder.draft.row builder.system ((builder.feedAll lines).feed last).system
        tokens := by
  have htidy := hreachable.tidy
  have hempty := isBegun_of_isOpen hclosed
  have hexpected := htidy.expected hempty
  have hseen := htidy.equalSeen hempty
  have hline : ¬ Blanks last := by
    intro hblank
    have hstatus := hlast.status
    rw [feed_of_blank hblank] at hstatus
    cases hstatus
  -- the lines are read like one
  obtain ⟨shift, hagree⟩ := feedAll_joined hlines hline
  have hrow : (builder.feed (joined (lines ++ [last]))).draft.row = builder.draft.row + 1 := by
    rw [← hlines.row, ← hlast.row, ← hagree.draft]
  rcases completed_or_kept builder (joined (lines ++ [last])) with ⟨-, tokens, hcut, hends⟩ | hkept
  swap
  · omega
  have hkind := ((endsOnTerm_iff builder.draft.expected tokens).mp hends).2
  have hsystem : ((builder.feedAll lines).feed last).system =
      (contributions tokens).foldl (LinearSystem.contribute builder.draft.row) builder.system := by
    rw [← hagree.system, feed_of_whole (not_blanks_joined hline lines) hcut, if_pos hkind]
    rw [acceptAll_begun]
    exact htidy.system_acceptAll hclosed tokens
  rw [cut, hexpected, hseen] at hcut
  refine ⟨exists_reads_iff.mpr ⟨tokens, hcut, hends⟩, ?_⟩
  intro tokens' hreads
  obtain ⟨tokens'', hlex, hsame⟩ := lex_of_spells hreads.spells hreads.equalsFit
  rw [trimmed, lex_skipBlanks, hcut] at hlex
  obtain rfl := (Prod.mk.inj hlex).1
  have hcontributions : contributions tokens' = contributions tokens :=
    hsame.contributionsFrom_eq hreads.spells false false
  rw [hsystem, ← hcontributions]
  exact represents_contributions (htidy.empty hempty) hreads.spells

/-- The second equation of a pad, with a minus sign before the line break and one before
the constant. -/
theorem represents_feed_secondEquation :
    Reachable (feedAll {} ["x = 1"]) ∧ (feedAll {} ["x = 1"]).draft.isOpen = false ∧
      Continues (feedAll {} ["x = 1"]) ["2x -", " "] ∧
      Completed (feedAll {} ["x = 1", "2x -", " "]) (feedAll {} ["x = 1", "2x -", " ", "y =-3"]) ∧
      (∃ tokens, Reads .term false tokens (trimmed (joined ["2x -", " ", "y =-3"]))) ∧
      ∀ tokens, Reads .term false tokens (trimmed (joined ["2x -", " ", "y =-3"])) →
        Represents 1 (feedAll {} ["x = 1"]).system
          (feedAll {} ["x = 1", "2x -", " ", "y =-3"]).system tokens := by
  have hreachable : Reachable (feedAll {} ["x = 1"]) := ⟨0, ["x = 1"], rfl⟩
  have hclosed : (feedAll {} ["x = 1"]).draft.isOpen = false := by decide +kernel
  have hlines : Continues (feedAll {} ["x = 1"]) ["2x -", " "] :=
    ⟨.inr (by constructor <;> decide +kernel), .inl (by decide +kernel), trivial⟩
  have hlast : Completed (feedAll {} ["x = 1", "2x -", " "])
      (feedAll {} ["x = 1", "2x -", " ", "y =-3"]) := by constructor <;> decide +kernel
  have hrow : (feedAll {} ["x = 1"]).draft.row = 1 := by decide +kernel
  have hmeaning := @represents_feed _ ["2x -", " "] "y =-3" hreachable hclosed hlines hlast
  rw [hrow] at hmeaning
  exact ⟨hreachable, hclosed, hlines, hlast, hmeaning⟩

end Builder

end EquationPad
