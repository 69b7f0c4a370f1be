import Mathlib.Data.List.Forall2
import EquationPad.Proofs.LineFaults
import EquationPad.Proofs.Words

/-! How a line is used up. Every part of a token may be absent, and the blanks between tokens may be
read with one token or with the next, so that no scanner by itself takes the line any further. But
a token is accepted only for something that it holds, and the line ends with a character that is
not blank. So each iteration of the loop takes at least one such character, the end of the line is
never met behind blanks, and the tokens stand side by side on the line with only blanks in between.
None of this depends on what the builder holds. -/

namespace EquationPad

/-! ## Places of one line -/

namespace Cursor

/-- The second place is on the line of the first, there or behind it. -/
structure Leads (c c' : Cursor) : Prop where
  suffix : c'.rest <:+ c.rest
  ends : c'.position + c'.rest.length = c.position + c.rest.length

variable {c c' c'' : Cursor}

theorem Leads.refl (c : Cursor) : c.Leads c := ⟨List.suffix_rfl, rfl⟩

theorem Leads.trans (h : c.Leads c') (h' : c'.Leads c'') : c.Leads c'' :=
  ⟨h'.suffix.trans h.suffix, h'.ends.trans h.ends⟩

theorem leads_moveTo {rest : Text} (h : rest <:+ c.rest) : c.Leads (c.moveTo rest) :=
  ⟨h, c.position_add_length_moveTo h⟩

theorem leads_skipBlanks (c : Cursor) : c.Leads c.skipBlanks := leads_moveTo (skipBlanks_suffix _)

theorem Leads.position_le (h : c.Leads c') : c.position ≤ c'.position := by
  have hends := h.ends
  have hlength := h.suffix.length_le
  omega

/-- What stands between the two places. -/
theorem Leads.exists_between (h : c.Leads c') :
    ∃ piece, c.rest = piece ++ c'.rest ∧ c'.position = c.position + piece.length := by
  obtain ⟨piece, hpiece⟩ := h.suffix
  have hends := h.ends
  rw [← hpiece, List.length_append] at hends
  exact ⟨piece, hpiece.symm, by omega⟩

/-- What stands on the line before the place. -/
theorem Leads.exists_front {line : Text} (h : (ofLine line 0).Leads c) :
    ∃ front, line = front ++ c.rest ∧ c.position = front.length := by
  obtain ⟨front, hrest, hposition⟩ := h.exists_between
  exact ⟨front, hrest, hposition.trans (Nat.zero_add _)⟩

theorem exists_blanks_between (c : Cursor) :
    ∃ b, Blanks b ∧ c.rest = b ++ c.skipBlanks.rest ∧
      c.skipBlanks.position = c.position + b.length := by
  obtain ⟨b, hb, hrest⟩ := exists_blanks_append c.rest
  have hends := (leads_skipBlanks c).ends
  rw [rest_skipBlanks, hrest, List.length_append, skipBlanks_blanks_append hb,
    skipBlanks_skipBlanks] at hends
  exact ⟨b, hb, hrest, by omega⟩

/-- The place is not before the offset, and beyond the end of the line only if the offset is. -/
structure Within (line : Text) (offset : Nat) (c : Cursor) : Prop where
  forward : offset ≤ c.position
  inside : c.position ≤ max offset line.length

theorem Leads.within {line : Text} {offset : Nat} (h : (ofLine line offset).Leads c) :
    Within line offset c := by
  have hends := h.ends
  have hlength : (ofLine line offset).rest.length = line.length - offset := List.length_drop
  exact ⟨h.position_le, by simp only [ofLine] at hends hlength; omega⟩

end Cursor

/-! ## Tokens on a line -/

theorem written_of_nextToken? {kind : TokenKind} {equalSeen : Bool} {text rest : Text}
    {token : Token} (h : nextToken? kind equalSeen text = some (token, rest)) :
    ∃ piece, token.Written piece ∧ text = piece ++ rest := by
  cases kind with
  | term =>
    obtain ⟨t, ht, rfl⟩ := nextToken?_term_eq_some_iff.mp h
    exact Term.text_of_scan ht
  | operator =>
    obtain ⟨o, ho, rfl, -⟩ := nextToken?_operator_eq_some_iff.mp h
    exact ⟨o.text, ⟨[], blanks_nil, (List.append_nil _).symm⟩, (Operator.scan?_eq_some_iff.mp ho).1⟩

/-- A part of a line, from its first column up to the one behind its last. -/
structure Span where
  first : Nat
  stop : Nat

def Span.Holds (span : Span) (offset : Nat) : Prop := span.first ≤ offset ∧ offset < span.stop

def Span.text (span : Span) (line : Text) : Text :=
  (line.drop span.first).take (span.stop - span.first)

/-- Up to the offset the text consists of the spans, in this order, and of blanks. -/
structure Tiled (text : Text) (spans : List Span) (upTo : Nat) : Prop where
  inside : upTo ≤ text.length
  inOrder : spans.Pairwise fun s t => s.stop ≤ t.first
  placed : ∀ span ∈ spans, span.first < span.stop ∧ span.stop ≤ upTo
  covered : ∀ offset, offset < upTo →
    (∃ span ∈ spans, span.Holds offset) ∨ ∃ d, text[offset]? = some d ∧ isBlank d = true

namespace Tiled

variable {text : Text} {spans : List Span} {upTo stop : Nat}

theorem nil (text : Text) : Tiled text [] 0 :=
  ⟨Nat.zero_le _, .nil, by simp, fun _ h => absurd h (Nat.not_lt_zero _)⟩

theorem blanks {front b rest : Text} (h : Tiled (front ++ (b ++ rest)) spans front.length)
    (hb : Blanks b) : Tiled (front ++ (b ++ rest)) spans (front.length + b.length) where
  inside := by simp only [List.length_append]; omega
  inOrder := h.inOrder
  placed span hspan := ⟨(h.placed span hspan).1, Nat.le_add_right_of_le (h.placed span hspan).2⟩
  covered offset hoffset := by
    by_cases hfront : offset < front.length
    · exact h.covered offset hfront
    · right
      have hlt : offset - front.length < b.length := by omega
      refine ⟨b[offset - front.length], ?_, hb _ (List.getElem_mem hlt)⟩
      rw [List.getElem?_append_right (Nat.not_lt.mp hfront), List.getElem?_append_left hlt,
        List.getElem?_eq_getElem hlt]

/-- The blanks at a place belong to no span. -/
theorem skipBlanks {c : Cursor} (h : Tiled text spans c.position)
    (hc : (Cursor.ofLine text 0).Leads c) : Tiled text spans c.skipBlanks.position := by
  obtain ⟨front, htext, hfront⟩ := hc.exists_front
  obtain ⟨b, hb, hrest, hposition⟩ := c.exists_blanks_between
  rw [hrest] at htext
  rw [hposition, hfront, htext]
  rw [hfront, htext] at h
  exact h.blanks hb

theorem concat (h : Tiled text spans upTo) (hlt : upTo < stop) (hin : stop ≤ text.length) :
    Tiled text (spans ++ [⟨upTo, stop⟩]) stop where
  inside := hin
  inOrder := by
    refine List.pairwise_append.mpr ⟨h.inOrder, List.pairwise_singleton _ _, ?_⟩
    intro s hs t ht
    rw [List.mem_singleton.mp ht]
    exact (h.placed s hs).2
  placed span hspan := by
    rcases List.mem_append.mp hspan with hspan | hspan
    · obtain ⟨hfirst, hstop⟩ := h.placed span hspan
      exact ⟨hfirst, by omega⟩
    · rw [List.mem_singleton.mp hspan]
      exact ⟨hlt, Nat.le_refl _⟩
  covered offset hoffset := by
    by_cases hbefore : offset < upTo
    · rcases h.covered offset hbefore with ⟨span, hspan, hholds⟩ | hblank
      · exact .inl ⟨span, List.mem_append_left _ hspan, hholds⟩
      · exact .inr hblank
    · exact .inl ⟨⟨upTo, stop⟩, by simp, Nat.not_lt.mp hbefore, hoffset⟩

end Tiled

namespace Builder

open Cursor

/-! ## Single tokens -/

theorem leads_takeTerm (b : Builder) (c : Cursor) : c.Leads (b.takeTerm c).cursor := by
  have hsuffix := Term.scan_suffix c.rest
  unfold takeTerm
  dsimp only
  split <;> exact leads_moveTo hsuffix

theorem leads_takeOperator (b : Builder) (c : Cursor) : c.Leads (b.takeOperator c).cursor := by
  unfold takeOperator
  dsimp only
  split
  · exact leads_skipBlanks c
  · rename_i o rest hscan
    have hsuffix : rest <:+ c.skipBlanks.rest := ⟨_, (Operator.scan?_eq_some_iff.mp hscan).1.symm⟩
    split
    · exact leads_skipBlanks c
    · exact (leads_skipBlanks c).trans (leads_moveTo hsuffix)

theorem cursor_blameTerm (step : Step) : (blameTerm step).cursor = step.cursor := by
  unfold blameTerm
  split <;> rfl

theorem cursor_blameStart (step : Step) : (blameStart step).cursor = step.cursor := by
  unfold blameStart
  dsimp only
  split <;> rfl

theorem leads_take (b : Builder) (c : Cursor) : c.Leads (b.take c).cursor := by
  unfold take
  split
  · dsimp only
    split
    · exact leads_takeTerm b c
    · rw [cursor_blameTerm]
      exact leads_takeTerm b c
  · dsimp only
    split
    · exact leads_takeOperator b c
    · rw [cursor_blameStart]
      exact leads_takeOperator b c

/-! ## The loop over a line -/

/-- One iteration of the loop: the blanks are skipped, and the token that is due is tried. -/
def iteration (b : Builder) (c : Cursor) : Step := b.take c.skipBlanks

/-- Where an iteration begins, with the builder there and the spans of the tokens accepted before.
An iteration is begun if the line is not at its end, and the next one if its token is accepted. -/
inductive Visits (builder : Builder) (line : Text) : List Span → Builder → Cursor → Prop
  | first : Visits builder line [] (builder.begun (trimRight line)) (firstPlace line)
  | next {spans b c} : Visits builder line spans b c → c.isAtEnd = false →
      (b.iteration c).accepted = true →
      Visits builder line (spans ++ [⟨c.skipBlanks.position, (b.iteration c).cursor.position⟩])
        (b.iteration c).builder (b.iteration c).cursor

variable {builder b : Builder} {line : Text} {spans : List Span} {c : Cursor}

theorem leads_iteration (b : Builder) (c : Cursor) : c.Leads (b.iteration c).cursor :=
  (leads_skipBlanks c).trans (leads_take b c.skipBlanks)

namespace Visits

theorem due (h : Visits builder line spans b c) : Due builder line b c.skipBlanks := by
  induction h with
  | first =>
    have hspace : (firstPlace line).skipBlanks = firstPlace line :=
      Cursor.skipBlanks_of_stops (stops_skipBlanks _)
    rw [hspace]
    exact .first
  | next _ _ haccepted ih => exact ih.next haccepted

theorem leads (h : Visits builder line spans b c) : (ofLine (trimRight line) 0).Leads c := by
  induction h with
  | first => exact leads_skipBlanks _
  | next _ _ _ ih => exact ih.trans (leads_iteration _ _)

/-- There are not only blanks left: the last character of the line is none. -/
theorem skipBlanks_isAtEnd (h : Visits builder line spans b c) (hend : c.isAtEnd = false) :
    c.skipBlanks.isAtEnd = false := by
  have htrimmed : Trimmed c.rest := (trimmed_trimRight line).suffix h.leads.suffix
  rw [isAtEnd, List.isEmpty_eq_false_iff] at hend ⊢
  intro hblank
  exact hend (htrimmed.eq_nil (words_eq_nil_iff.mpr (skipBlanks_eq_nil_iff.mp hblank)))

theorem readLine (h : Visits builder line spans b c) : builder.readLine line = b.run c := by
  rw [h.due.readLine, run_skipBlanks]

theorem token (h : Visits builder line spans b c) (haccepted : (b.iteration c).accepted = true) :
    ∃ token piece, token.Written piece ∧
      c.skipBlanks.rest = piece ++ (b.iteration c).cursor.rest ∧
      (b.iteration c).builder = b.accept token := by
  obtain ⟨token, rest, hnext⟩ :=
    nextToken?_of_accepted haccepted (stops_skipBlanks c.rest) h.due.ready.status
  obtain ⟨piece, hpiece, hrest⟩ := written_of_nextToken? hnext
  rw [iteration, take_of_some hnext (stops_skipBlanks c.rest)]
  exact ⟨token, piece, hpiece, hrest, rfl⟩

theorem lt_position (h : (b.iteration c).accepted = true) :
    c.skipBlanks.position < (b.iteration c).cursor.position := by
  have hlt := length_take_lt h
  have hends := (leads_take b c.skipBlanks).ends
  change _ < (b.take c.skipBlanks).cursor.position
  omega

theorem position_le (h : Visits builder line spans b c) :
    (b.iteration c).cursor.position ≤ (trimRight line).length := by
  have hinside := (h.leads.trans (leads_iteration b c)).within.inside
  rwa [Nat.zero_max] at hinside

theorem tiled (h : Visits builder line spans b c) : Tiled (trimRight line) spans c.position := by
  induction h with
  | first => exact (Tiled.nil (trimRight line)).skipBlanks (.refl _)
  | next h _ haccepted ih =>
    exact (ih.skipBlanks h.leads).concat (lt_position haccepted) h.position_le

/-- What stands in the span of an accepted token. -/
theorem text_span {piece : Text} (h : Visits builder line spans b c)
    (hrest : c.skipBlanks.rest = piece ++ (b.iteration c).cursor.rest) :
    Span.text ⟨c.skipBlanks.position, (b.iteration c).cursor.position⟩ (trimRight line) = piece := by
  obtain ⟨front, hline, hfront⟩ := (h.leads.trans (leads_skipBlanks c)).exists_front
  have hends := (leads_take b c.skipBlanks).ends
  rw [← iteration, hrest, List.length_append] at hends
  have hlength : (b.iteration c).cursor.position - c.skipBlanks.position = piece.length := by omega
  rw [hrest] at hline
  rw [Span.text, hlength, hfront, hline, List.drop_left, List.take_left]

theorem spelled (h : Visits builder line spans b c) :
    ∃ tokens, List.Forall₂ (fun token span => token.Written (span.text (trimRight line)))
        tokens spans ∧ b = (builder.begun (trimRight line)).acceptAll tokens := by
  induction h with
  | first => exact ⟨[], .nil, rfl⟩
  | next h _ haccepted ih =>
    obtain ⟨tokens, hwritten, hbuilder⟩ := ih
    obtain ⟨token, piece, hpiece, hrest, hstep⟩ := h.token haccepted
    refine ⟨tokens ++ [token], List.rel_append hwritten (.cons ?_ .nil), ?_⟩
    · rwa [h.text_span hrest]
    · rw [hstep, acceptAll_append, ← hbuilder]
      rfl

/-- At the first place that is not blank a token is taken or refused, so something is taken. -/
theorem advances (h : Visits builder line spans b c) (haccepted : (b.iteration c).accepted = true) :
    ∃ offset d, c.position ≤ offset ∧ offset < (b.iteration c).cursor.position ∧
      (trimRight line)[offset]? = some d ∧ isBlank d = false := by
  obtain ⟨front, hline, hfront⟩ := (h.leads.trans (leads_skipBlanks c)).exists_front
  have hshort := length_take_lt haccepted
  cases hrest : c.skipBlanks.rest with
  | nil =>
    rw [hrest] at hshort
    cases hshort
  | cons d rest =>
    have hstop := stops_skipBlanks c.rest
    rw [← Cursor.rest_skipBlanks, hrest] at hstop
    refine ⟨c.skipBlanks.position, d, (leads_skipBlanks c).position_le, lt_position haccepted, ?_,
      stops_cons.mp hstop⟩
    rw [hline, hrest, hfront, List.getElem?_append_right (Nat.le_refl _), Nat.sub_self]
    rfl

/-- The loop comes to an end: at the end of the line, or where a token is refused. -/
theorem last {spans : List Span} {b : Builder} {c : Cursor} (h : Visits builder line spans b c) :
    ∃ spans' b' c', Visits builder line spans' b' c' ∧
      (c'.isAtEnd = true ∨ c'.isAtEnd = false ∧ (b'.iteration c').accepted = false) := by
  cases hend : c.isAtEnd with
  | true => exact ⟨spans, b, c, h, .inl hend⟩
  | false =>
    cases haccepted : (b.iteration c).accepted with
    | false => exact ⟨spans, b, c, h, .inr ⟨hend, haccepted⟩⟩
    | true =>
      have hshort : (b.iteration c).cursor.rest.length < c.rest.length :=
        Nat.lt_of_lt_of_le (length_take_lt haccepted) (length_skipBlanks_le c.rest)
      exact (h.next hend haccepted).last
termination_by c.rest.length

end Visits

/-- Where the loop ends, with what it leaves. -/
inductive Ended (line : Text) (b : Builder) (c : Cursor) : Builder × Cursor → Prop
  | atEnd : c.isAtEnd = true → c.skipBlanks.position = (trimRight line).length →
      Ended line b c (b, c)
  | refused : c.isAtEnd = false → (b.iteration c).accepted = false →
      Ended line b c ((b.iteration c).builder, (b.iteration c).cursor)

theorem Visits.ended_of_atEnd (h : Visits builder line spans b c) (hend : c.isAtEnd = true) :
    Ended line b c (builder.readLine line) := by
  have hempty : c.rest = [] := List.isEmpty_iff.mp hend
  have hspace : c.skipBlanks = c := Cursor.skipBlanks_of_stops (hempty ▸ stops_nil isBlank)
  have hplace : c.skipBlanks.position = (trimRight line).length := by
    obtain ⟨front, hline, hfront⟩ := h.leads.exists_front
    rw [hspace, hfront, hline, hempty, List.append_nil]
  have hread : builder.readLine line = (b, c) := by
    rw [h.readLine, run_eq_ite, hspace]
    simp only [hend, if_true]
  rw [hread]
  exact .atEnd hend hplace

theorem Visits.ended_of_refused (h : Visits builder line spans b c) (hend : c.isAtEnd = false)
    (hrefused : (b.iteration c).accepted = false) :
    Ended line b c (builder.readLine line) := by
  have hread : builder.readLine line = ((b.iteration c).builder, (b.iteration c).cursor) := by
    rw [iteration] at hrefused
    rw [h.readLine, run_eq_ite]
    simp only [h.skipBlanks_isAtEnd hend, hrefused, Bool.false_eq_true, if_false, iteration]
  rw [hread]
  exact .refused hend hrefused

/-- What is known wherever an iteration begins. -/
structure OnTrack (builder : Builder) (line : Text) (spans : List Span) (b : Builder) (c : Cursor) :
    Prop where
  goesOn : builder.readLine line = b.run c
  notAtEnd : c.isAtEnd = false → c.skipBlanks.isAtEnd = false
  advances : (b.iteration c).accepted = true →
    ∃ offset d, c.position ≤ offset ∧ offset < (b.iteration c).cursor.position ∧
      (trimRight line)[offset]? = some d ∧ isBlank d = false
  inside : c.skipBlanks.position ≤ (trimRight line).length ∧
    (b.iteration c).cursor.position ≤ (trimRight line).length
  tiled : Tiled (trimRight line) spans c.skipBlanks.position
  spelled : ∃ tokens, List.Forall₂ (fun token span => token.Written (span.text (trimRight line)))
    tokens spans ∧ b = (builder.begun (trimRight line)).acceptAll tokens

theorem Visits.onTrack (h : Visits builder line spans b c) : OnTrack builder line spans b c where
  goesOn := h.readLine
  notAtEnd := h.skipBlanks_isAtEnd
  advances := h.advances
  inside := ⟨(h.tiled.skipBlanks h.leads).inside, h.position_le⟩
  tiled := h.tiled.skipBlanks h.leads
  spelled := h.spelled

/-- How a line is used up by the loop, and how far a single token can be taken on any line. -/
structure UsedUp (builder : Builder) (line : Text) : Prop where
  onTrack : ∀ spans b c, Visits builder line spans b c → OnTrack builder line spans b c
  ended : ∃ spans b c, Visits builder line spans b c ∧ Ended line b c (builder.readLine line)
  term : ∀ offset, Within line offset (builder.takeTerm (ofLine line offset)).cursor
  operator : ∀ offset, Within line offset (builder.takeOperator (ofLine line offset)).cursor

/-- **A line is used up token by token.** Each iteration of the loop that accepts a token goes on by
a character that is not blank, and no place is behind the last of these. The accepted tokens stand
on the line in their order and apart from each other, and up to the token that is refused, or to
the end of the line, there are only blanks beside them. A token that is tried anywhere on a line is
never left before that place nor beyond the end, and behind the end it is left where it was tried. -/
theorem usedUp_line (builder : Builder) (line : Text) : UsedUp builder line where
  onTrack _ _ _ h := h.onTrack
  ended := by
    obtain ⟨spans, b, c, h, hend | ⟨hend, hrefused⟩⟩ := (Visits.first : Visits builder line _ _ _).last
    · exact ⟨spans, b, c, h, h.ended_of_atEnd hend⟩
    · exact ⟨spans, b, c, h, h.ended_of_refused hend hrefused⟩
  term offset := (leads_takeTerm builder (ofLine line offset)).within
  operator offset := (leads_takeOperator builder (ofLine line offset)).within

end Builder

end EquationPad
