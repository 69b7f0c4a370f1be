import EquationPad.Proofs.Lookup
import EquationPad.Proofs.Rows
import EquationPad.Report

/-! The texts that show a solution, line by line. Neither a name nor a number holds a newline,
so every value has a line of its own, with the name that its column has. -/

namespace EquationPad

/-! ## Lines -/

theorem breakLines_cons {c : Char} (hc : c ≠ '\n') {text line : Text} {more : List Text}
    (h : breakLines text = line :: more) : breakLines (c :: text) = (c :: line) :: more := by
  rw [breakLines, if_neg hc, h]

theorem breakLines_of_newline_notMem {line : Text} (h : '\n' ∉ line) (rest : Text) :
    breakLines (line ++ '\n' :: rest) = line :: breakLines rest := by
  induction line with
  | nil => simp [breakLines]
  | cons c line ih =>
    obtain ⟨hc, hline⟩ := List.ne_and_not_mem_of_not_mem_cons h
    exact breakLines_cons (Ne.symm hc) (ih hline)

/-- What comes behind a newline is broken on its own. -/
theorem breakLines_append_newline (front rest : Text) :
    breakLines (front ++ '\n' :: rest) = breakLines (front ++ ['\n']) ++ breakLines rest := by
  induction front with
  | nil => simp [breakLines]
  | cons c front ih =>
    by_cases hc : c = '\n'
    · subst hc
      simp only [List.cons_append, breakLines, if_true, ih]
    · obtain ⟨line, more, hfront⟩ : ∃ line more, breakLines (front ++ ['\n']) = line :: more := by
        cases front with
        | nil => exact ⟨_, _, rfl⟩
        | cons d front =>
          rw [List.cons_append, breakLines]
          split
          · exact ⟨_, _, rfl⟩
          · split <;> exact ⟨_, _, rfl⟩
      rw [hfront] at ih
      rw [List.cons_append, List.cons_append, breakLines_cons hc ih, breakLines_cons hc hfront]
      rfl

theorem breakLines_flatMap {lines : List Text} (h : ∀ line ∈ lines, '\n' ∉ line) (rest : Text) :
    breakLines (lines.flatMap (fun line => line ++ ['\n']) ++ rest) = lines ++ breakLines rest := by
  induction lines with
  | nil => rfl
  | cons line lines ih =>
    have hmore := ih fun l hl => h l (List.mem_cons_of_mem _ hl)
    rw [List.flatMap_cons, List.append_assoc, List.append_assoc, List.singleton_append,
      breakLines_of_newline_notMem (h line List.mem_cons_self), hmore]
    rfl

/-! ## Numbers -/

theorem newline_notMem_showNat (n : Nat) : '\n' ∉ showNat n := by
  intro hmem
  have hdigit := Nat.isDigit_of_mem_toDigits (by decide) (by decide) hmem
  exact absurd hdigit (by decide)

namespace Decimal

theorem newline_notMem_fractionText {digits : Text} (h : '\n' ∉ digits) :
    '\n' ∉ fractionText digits := by
  cases digits with
  | nil => exact h
  | cons c digits => simpa [fractionText] using h

theorem newline_notMem_exponentText (power : Int) : '\n' ∉ exponentText power := by
  have hdigits := newline_notMem_showNat power.natAbs
  unfold exponentText
  split <;> simp [hdigits]

theorem newline_notMem_positional {digits : Text} (h : '\n' ∉ digits) (power : Int) :
    '\n' ∉ positional digits power := by
  cases power with
  | ofNat power =>
    have htake : '\n' ∉ digits.take (power + 1) := fun hmem => h (List.mem_of_mem_take hmem)
    have hdrop : '\n' ∉ digits.drop (power + 1) := fun hmem => h (List.mem_of_mem_drop hmem)
    simp [positional, htake, newline_notMem_fractionText hdrop]
  | negSucc zeros => simp [positional, h]

theorem newline_notMem_scientific {digits : Text} (h : '\n' ∉ digits) (power : Int) :
    '\n' ∉ scientific digits power := by
  have htake : '\n' ∉ digits.take 1 := fun hmem => h (List.mem_of_mem_take hmem)
  have hdrop : '\n' ∉ digits.drop 1 := fun hmem => h (List.mem_of_mem_drop hmem)
  simp only [scientific, List.mem_append, not_or]
  exact ⟨⟨htake, newline_notMem_fractionText hdrop⟩, newline_notMem_exponentText power⟩

theorem newline_notMem_general (precision : Nat) (d : Decimal) :
    '\n' ∉ general precision d := by
  have hdigits : '\n' ∉ dropTrailingZeros (showNat (d.round precision).digits) := by
    intro hmem
    rw [dropTrailingZeros, List.mem_reverse] at hmem
    exact newline_notMem_showNat _ (List.mem_reverse.mp ((List.dropWhile_sublist _).mem hmem))
  unfold general
  dsimp only
  split
  · exact newline_notMem_positional hdigits _
  · exact newline_notMem_scientific hdigits _

end Decimal

theorem newline_notMem_showGeneral (precision : Nat) (x : Float) :
    '\n' ∉ showGeneral precision x := by
  unfold showGeneral showDouble
  dsimp only
  split
  · decide
  · split <;> decide
  · split
    · simp [Decimal.newline_notMem_general]
    · exact Decimal.newline_notMem_general _ _

/-! ## Names -/

theorem TermText.isName_of_unknown? {t : Term} {text : Text} (h : TermText t text)
    {negative : Bool} {name : Text} (hname : (Contribution.ofTerm negative t).unknown? = some name) :
    IsName name := by
  cases h with
  | constant _ _ _ => cases hname
  | scaled _ _ _ hn _ =>
    obtain rfl := Option.some.inj hname
    exact hn
  | named _ _ _ hn _ =>
    obtain rfl := Option.some.inj hname
    exact hn

theorem Spells.isName_of_unknown? {kind : TokenKind} {tokens : List Token} {text : Text}
    (h : Spells kind tokens text) {equalSeen negative : Bool} {c : Contribution}
    (hc : c ∈ contributionsFrom equalSeen negative tokens) {name : Text}
    (hname : c.unknown? = some name) : IsName name := by
  induction h generalizing equalSeen negative with
  | nil => cases hc
  | @cons _ token tokens _ _ _ hpiece _ ih =>
    cases token with
    | term t =>
      rcases List.mem_cons.mp hc with rfl | hrest
      · exact TermText.isName_of_unknown? hpiece hname
      · exact ih hrest
    | operator o => exact ih hc

theorem LinearSystem.mem_names_or_of_foldl {cs : List Contribution} {system : LinearSystem}
    {row : Nat} {name : Text} (h : name ∈ (cs.foldl (contribute row) system).names) :
    name ∈ system.names ∨ ∃ c ∈ cs, c.unknown? = some name := by
  induction cs generalizing system with
  | nil => exact .inl h
  | cons c cs ih =>
    rcases ih h with hold | ⟨c', hc', hname⟩
    · rw [names_contribute_eq, List.mem_append, List.mem_filter] at hold
      rcases hold with hold | ⟨hnew, -⟩
      · exact .inl hold
      · exact .inr ⟨c, List.mem_cons_self, Option.mem_toList.mp hnew⟩
    · exact .inr ⟨c', List.mem_cons_of_mem _ hc', hname⟩

/-- The names of a system are names as they can be written. -/
theorem Builder.isName_feedAll (lines : List Text) :
    ∀ name ∈ (feedAll {} lines).system.names, IsName name := by
  induction lines using List.reverseRecOn with
  | nil => intro name hname; cases hname
  | append_singleton lines line ih =>
    intro name hname
    rw [feedAll_concat, system_feed] at hname
    obtain ⟨s, hs⟩ := spells_cut (feedAll {} lines) line
    rcases LinearSystem.mem_names_or_of_foldl hname with hold | ⟨c, hc, hnew⟩
    · exact ih name hold
    · exact hs.isName_of_unknown? hc hnew

theorem IsName.newline_notMem {name : Text} (h : IsName name) : '\n' ∉ name := fun hmem =>
  absurd (h.chars _ hmem) (by decide)

theorem newline_notMem_padRight {text : Text} (h : '\n' ∉ text) (width : Nat) :
    '\n' ∉ padRight width text := by
  simp [padRight, h]

/-! ## Texts -/

namespace Workspace

/-- A line for each value, behind its name as `label` writes it. -/
def valueRows (ws : Workspace) (label : Text → Text) : List Text :=
  List.zipWith (fun name x => label name ++ " = " ++ showGeneral ws.settings.precision x)
    ws.solvedNames ws.solution.values

variable {ws : Workspace} {label : Text → Text}

theorem flatMap_valueRows (ws : Workspace) (label : Text → Text) :
    (ws.valueRows label).flatMap (fun line => line ++ ['\n']) =
      ws.assignments.flatMap fun (name, x) => ws.valueLine (label name) x := by
  rw [valueRows, ← List.map_uncurry_zip_eq_zipWith, List.flatMap_map]
  rfl

theorem newline_notMem_valueRows (h : ∀ name ∈ ws.solvedNames, '\n' ∉ label name) :
    ∀ row ∈ ws.valueRows label, '\n' ∉ row := by
  intro row hrow
  rw [valueRows, ← List.map_uncurry_zip_eq_zipWith] at hrow
  obtain ⟨⟨name, x⟩, hmem, rfl⟩ := List.mem_map.mp hrow
  have hname := h name (List.of_mem_zip hmem).1
  have hvalue := newline_notMem_showGeneral ws.settings.precision x
  simp [hname, hvalue]

/-- The solution has a line for each value. -/
theorem breakLines_solutionText (hsolved : ws.solution.solved = true)
    (hnames : ∀ name ∈ ws.solvedNames, '\n' ∉ name) :
    breakLines ws.solutionText = ws.valueRows id := by
  have hlines := breakLines_flatMap (@newline_notMem_valueRows ws id hnames) []
  rw [flatMap_valueRows, List.append_nil] at hlines
  rw [solutionText, if_pos hsolved]
  exact hlines.trans (List.append_nil _)

/-- The results in detail have a line for each value, with the name in its column. -/
theorem breakLines_detailedText (hnames : ∀ name ∈ ws.solvedNames, '\n' ∉ name) :
    ∃ header, breakLines ws.detailedText = header ++ "Solution:".toList ::
      (ws.valueRows (fun name => ' ' :: ' ' :: padRight 20 name) ++
        [[], "========================================".toList, []]) := by
  have hlabels : ∀ name ∈ ws.solvedNames, '\n' ∉ ' ' :: ' ' :: padRight 20 name := by
    intro name hname
    simp [newline_notMem_padRight (hnames name hname)]
  have hlines := breakLines_flatMap (newline_notMem_valueRows hlabels)
    "\n========================================\n\n"
  have hfooter : breakLines "\n========================================\n\n" =
      [[], "========================================".toList, []] := by decide +kernel
  rw [flatMap_valueRows, hfooter] at hlines
  have hsplit : ∀ front values : Text,
      breakLines (front ++ "\nSolution:\n" ++ values ++ "\n" ++
          "========================================\n" ++ "\n") =
        breakLines (front ++ ['\n']) ++ "Solution:".toList ::
          breakLines (values ++ "\n========================================\n\n") := by
    intro front values
    have htext : front ++ "\nSolution:\n" ++ values ++ "\n" ++
          "========================================\n" ++ "\n" =
        front ++ '\n' :: ("Solution:" ++
          '\n' :: (values ++ "\n========================================\n\n")) := by simp
    rw [htext, breakLines_append_newline, @breakLines_of_newline_notMem "Solution:" (by decide)]
  have hindent : ∀ name x, ' ' :: ' ' :: ws.valueLine (padRight 20 name) x =
      ws.valueLine (' ' :: ' ' :: padRight 20 name) x := fun _ _ => rfl
  unfold detailedText
  simp only [hindent, hsplit, hlines]
  exact ⟨_, rfl⟩

end Workspace

end EquationPad
