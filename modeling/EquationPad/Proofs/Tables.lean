import EquationPad.Proofs.Lookup
import EquationPad.Proofs.Rows

/-! The tables that a solver works on. They are filled from the stored sums one by one, and
a sum whose place is outside the table is left out. As no place is stored twice, each place
of the table holds the sum stored for it, in whatever order the sums come. So once lines
were read, a row of the table holds what the tokens accepted for that row add up to. -/

namespace EquationPad

/-! ## Stored sums -/

namespace Tally

variable {κ : Type} [DecidableEq κ]

/-- No key has two sums. -/
def Distinct (tally : Tally κ) : Prop := (tally.entries.map Prod.fst).Nodup

theorem nodup_keys_addTo {key : κ} {value : Float} {entries : List (κ × Float)}
    (h : (entries.map Prod.fst).Nodup) : ((addTo key value entries).map Prod.fst).Nodup := by
  induction entries with
  | nil => simp [addTo]
  | cons first entries ih =>
    obtain ⟨k, sum⟩ := first
    rw [List.map_cons, List.nodup_cons] at h
    rw [addTo]
    by_cases hk : k = key
    · rw [if_pos hk, List.map_cons]
      exact List.nodup_cons.mpr h
    · rw [if_neg hk, List.map_cons]
      refine List.nodup_cons.mpr ⟨?_, ih h.2⟩
      intro hmem
      obtain ⟨e, he, heq⟩ := List.mem_map.mp hmem
      rcases key_of_mem_addTo he with hkey | ⟨e', he', heq'⟩
      · exact hk (heq.symm.trans hkey)
      · exact h.1 (List.mem_map.mpr ⟨e', he', heq'.trans heq⟩)

theorem Distinct.add {tally : Tally κ} (h : tally.Distinct) (key : κ) (value : Float) :
    (tally.add key value).Distinct := nodup_keys_addTo h

/-- The function with another value under the key of an entry. -/
def overwrite (f : κ → Float) (e : κ × Float) : κ → Float :=
  fun key => if e.1 = key then e.2 else f key

theorem foldl_overwrite {entries : List (κ × Float)} (h : (entries.map Prod.fst).Nodup)
    (f : κ → Float) (key : κ) :
    entries.foldl overwrite f key =
      if key ∈ entries.map Prod.fst then sumOf key entries else f key := by
  induction entries generalizing f with
  | nil => rfl
  | cons first entries ih =>
    obtain ⟨k, sum⟩ := first
    rw [List.map_cons, List.nodup_cons] at h
    rw [List.foldl_cons, ih h.2, sumOf, List.map_cons]
    by_cases hk : k = key
    · subst hk
      rw [if_neg h.1, if_pos List.mem_cons_self, if_pos rfl, overwrite, if_pos rfl]
    · have hmem : key ∈ k :: entries.map Prod.fst ↔ key ∈ entries.map Prod.fst := by
        simp [Ne.symm hk]
      simp only [hmem, if_neg hk, overwrite]

/-- Overwriting with each sum in turn leaves the sums. -/
theorem Distinct.foldl_overwrite {tally : Tally κ} (h : tally.Distinct) (key : κ) :
    tally.entries.foldl overwrite (fun _ => 0.0) key = tally.get key := by
  rw [Tally.foldl_overwrite h]
  split
  · rfl
  · rename_i hnot
    refine (sumOf_of_not_mem ?_).symm
    intro e he heq
    exact hnot (heq ▸ List.mem_map_of_mem he)

end Tally

namespace LinearSystem

/-! ## Tables -/

/-- The values of a function on places counted from zero. -/
theorem set_map_range (n : Nat) (f : Nat → Float) (e : Nat × Float) :
    ((List.range n).map f).set e.1 e.2 = (List.range n).map (Tally.overwrite f e) := by
  refine List.ext_getElem (by simp) ?_
  intro i hi _
  simp [List.getElem_set, Tally.overwrite]

/-- The same for places by row and column. -/
def table (n m : Nat) (f : Nat × Nat → Float) : List (List Float) :=
  (List.range n).map fun row => (List.range m).map fun column => f (row, column)

theorem modify_table (n m : Nat) (f : Nat × Nat → Float) (e : (Nat × Nat) × Float) :
    (table n m f).modify e.1.1 (·.set e.1.2 e.2) = table n m (Tally.overwrite f e) := by
  refine List.ext_getElem (by simp [table]) ?_
  intro row hrow _
  simp only [table, List.getElem_modify, List.getElem_map, List.getElem_range, Tally.overwrite,
    Prod.ext_iff]
  by_cases heq : e.1.1 = row
  · rw [if_pos heq, set_map_range m (fun column => f (row, column)) (e.1.2, e.2)]
    simp only [heq, true_and]
    rfl
  · simp [heq]

variable {system : LinearSystem}

/-- No place is stored twice. -/
structure Distinct (system : LinearSystem) : Prop where
  coefficients : system.coefficients.Distinct
  constants : system.constants.Distinct

theorem distinct_empty : Distinct {} := ⟨List.nodup_nil, List.nodup_nil⟩

theorem Distinct.contribute (h : system.Distinct) (row : Nat) (c : Contribution) :
    (system.contribute row c).Distinct := by
  cases c with
  | coefficient negative factor name =>
    obtain ⟨unknowns, hunknowns, -⟩ := system.variableIndex_spec name
    simp only [LinearSystem.contribute, addCoefficient, hunknowns]
    exact ⟨h.coefficients.add _ _, h.constants⟩
  | constant negative number => exact ⟨h.coefficients, h.constants.add _ _⟩

/-- The constants by row. -/
theorem denseConstants_eq (h : system.Distinct) (n : Nat) :
    system.denseConstants n = (List.range n).map system.constants.get := by
  have hzero : List.replicate n (0.0 : Float) = (List.range n).map fun _ => 0.0 := by simp
  have hfill : system.denseConstants n =
      (List.range n).map (system.constants.entries.foldl Tally.overwrite fun _ => 0.0) := by
    rw [denseConstants, hzero]
    exact List.foldl_hom (fun f => (List.range n).map f) (set_map_range n)
  rw [hfill]
  exact List.map_congr_left fun row _ => h.constants.foldl_overwrite row

theorem denseCoefficients_eq (h : system.Distinct) (n : Nat) :
    system.denseCoefficients n = table n system.variableCount system.coefficients.get := by
  have hzero : List.replicate n (List.replicate system.variableCount (0.0 : Float)) =
      table n system.variableCount fun _ => 0.0 := by simp [table]
  have hfill : system.denseCoefficients n = table n system.variableCount
      (system.coefficients.entries.foldl Tally.overwrite fun _ => 0.0) := by
    rw [denseCoefficients, hzero]
    exact List.foldl_hom (table n system.variableCount) (modify_table n system.variableCount)
  rw [hfill]
  exact congrArg (table n system.variableCount) (funext h.coefficients.foldl_overwrite)

/-- The coefficients by row, and by name in the order of the columns. -/
theorem denseCoefficients_eq_coefficientOf {limit : Nat} (h : system.Distinct)
    (hspans : Spans limit system) (n : Nat) :
    system.denseCoefficients n =
      (List.range n).map fun row : Nat => system.names.map (system.coefficientOf row) := by
  rw [denseCoefficients_eq h]
  refine List.map_congr_left ?_
  intro row _
  refine List.ext_getElem (by simp [variableCount]) ?_
  intro column hcolumn hcolumn'
  rw [List.length_map] at hcolumn'
  rw [List.getElem_map, List.getElem_map, List.getElem_range]
  exact (coefficientOf_eq_get hspans List.prefix_rfl hspans.nodup
    (List.getElem?_eq_getElem hcolumn') row).symm

end LinearSystem

/-! ## After reading -/

/-- What the tokens of an equation add up to in one place. -/
def total (place : Option Text) (tokens : List Token) : Float :=
  (Contribution.amounts readDouble place (contributions tokens)).foldl (· + ·) 0.0

namespace Builder

theorem kept_distinct : Kept fun builder => builder.system.Distinct where
  report _ _ h := h
  begun _ h := h
  accept {builder token} h _ := by
    cases token with
    | term t =>
      rw [system_accept_term]
      exact h.contribute _ _
    | operator o => exact h
  dropSign h _ := h
  complete h _ := h

/-- The next line adds to its row what its tokens mean behind those read before. -/
theorem ReadRows.contributions_concat {start : Builder} {lines : List Text}
    (h : ReadRows start lines) (line : Text) :
    contributions (start.tokensOf (start.feedAll lines).draft.row (lines ++ [line])) =
      contributions (start.tokensOf (start.feedAll lines).draft.row lines) ++
        contributionsFrom (start.feedAll lines).draft.equalSeen
          (start.feedAll lines).draft.negative ((start.feedAll lines).cut line).1 := by
  rw [tokensOf_concat_self, contributions, contributionsFrom_append, Bool.false_or,
    ← h.describes.equalSeen, contributions]
  congr 1
  cases hkind : (start.feedAll lines).draft.expected with
  | term => rw [h.describes.negative hkind]
  | operator =>
    -- the sign that is still pending is forgotten by the operator that is due
    obtain ⟨s, hs⟩ := spells_cut (start.feedAll lines) line
    rw [hkind] at hs
    exact hs.contributionsFrom_eq _ _ _

theorem value_feedAll (lines : List Text) (row : Nat) (place : Option Text) :
    (feedAll {} lines).system.value row place = total place (tokensOf {} row lines) := by
  induction lines using List.reverseRecOn with
  | nil => exact (LinearSystem.spans_empty 0).value_eq_zero (Nat.zero_le _) place
  | append_singleton lines line ih =>
    have hrows := @readRows_feedAll {} describes_empty lines
    have hspans := (kept_sized.feedAll (sized_start 0) lines).spans
    rw [feedAll_concat, system_feed, LinearSystem.value_foldl_contribute hspans, ih]
    by_cases hrow : row = (feedAll {} lines).draft.row
    · subst hrow
      rw [if_pos rfl, total, total, hrows.contributions_concat, Contribution.amounts_append,
        List.foldl_append]
    · rw [if_neg hrow, tokensOf_concat_of_ne (Ne.symm hrow)]

/-- Every variable that a row was given a number for has a column. -/
theorem mem_names_feedAll {lines : List Text} {row : Nat} {c : Contribution}
    (hc : c ∈ contributions (tokensOf {} row lines)) {name : Text}
    (hname : c.unknown? = some name) : name ∈ (feedAll {} lines).system.names := by
  induction lines using List.reverseRecOn with
  | nil => cases hc
  | append_singleton lines line ih =>
    have hrows := @readRows_feedAll {} describes_empty lines
    rw [feedAll_concat, system_feed]
    have hgrown := (LinearSystem.names_foldl_contribute (contributionsFrom
      (feedAll {} lines).draft.equalSeen (feedAll {} lines).draft.negative
      ((feedAll {} lines).cut line).1) (feedAll {} lines).system (feedAll {} lines).draft.row).1
    by_cases hrow : row = (feedAll {} lines).draft.row
    · subst hrow
      rw [hrows.contributions_concat] at hc
      rcases List.mem_append.mp hc with hold | hnew
      · exact hgrown.subset (ih hold)
      · exact LinearSystem.mem_names_foldl_contribute hnew hname _ _
    · rw [tokensOf_concat_of_ne (Ne.symm hrow)] at hc
      exact hgrown.subset (ih hc)

/-- A table has a row of totals for each equation. -/
theorem denseCoefficients_feedAll (lines : List Text) (n : Nat) :
    (feedAll {} lines).system.denseCoefficients n =
      (List.range n).map fun row => (feedAll {} lines).system.names.map fun name =>
        total (some name) (tokensOf {} row lines) := by
  rw [LinearSystem.denseCoefficients_eq_coefficientOf
    (kept_distinct.feedAll LinearSystem.distinct_empty lines)
    (kept_sized.feedAll (sized_start 0) lines).spans]
  refine List.map_congr_left fun row _ => List.map_congr_left fun name _ => ?_
  exact value_feedAll lines row (some name)

theorem denseConstants_feedAll (lines : List Text) (n : Nat) :
    (feedAll {} lines).system.denseConstants n =
      (List.range n).map fun row => total none (tokensOf {} row lines) := by
  rw [LinearSystem.denseConstants_eq (kept_distinct.feedAll LinearSystem.distinct_empty lines)]
  refine List.map_congr_left fun row _ => ?_
  rw [← (kept_sized.feedAll (sized_start 0) lines).spans.constant_eq]
  exact value_feedAll lines row none

end Builder

end EquationPad
