import EquationPad.Proofs.Scanning

/-! Texts that differ in their blanks only. What is left of a text without its blanks are its
words; two texts with the same words differ in how wide the gaps between the words are, and
in the blanks at their ends. They have the same characters that are not blank, and a place
next to such a character is the place next to it in the other text as well. -/

namespace EquationPad

/-! ## Words -/

/-- The longest pieces without a blank, in order. -/
def words (text : Text) : List Text := (text.splitOnP isBlank).filter fun word => word ≠ []

theorem words_nil : words [] = [] := by simp [words]

/-- A blank belongs to no word and parts the words around it. -/
theorem words_append_blank {c : Char} (hc : isBlank c = true) (front text : Text) :
    words (front ++ c :: text) = words front ++ words text := by
  simp only [words]
  rw [List.splitOnP_append_cons front text hc, List.filter_append]

theorem words_cons_blank {c : Char} (hc : isBlank c = true) (text : Text) :
    words (c :: text) = words text := by
  simpa [words_nil] using words_append_blank hc [] text

theorem words_blanks_append {b : Text} (hb : Blanks b) (text : Text) :
    words (b ++ text) = words text := by
  induction b with
  | nil => rfl
  | cons c b ih =>
    rw [List.cons_append, words_cons_blank (hb c (by simp)), ih fun d hd => hb d (by simp [hd])]

theorem words_append_blanks (text : Text) {b : Text} (hb : Blanks b) :
    words (text ++ b) = words text := by
  cases b with
  | nil => rw [List.append_nil]
  | cons c b =>
    have hrest := words_blanks_append (fun d hd => hb d (by simp [hd]) : Blanks b) []
    rw [List.append_nil, words_nil] at hrest
    rw [words_append_blank (hb c (by simp)), hrest, List.append_nil]

theorem words_skipBlanks (text : Text) : words (skipBlanks text) = words text := by
  obtain ⟨b, hb, htext⟩ := exists_blanks_append text
  rw [htext, words_blanks_append hb, skipBlanks_blanks_append hb, skipBlanks_skipBlanks]

theorem words_trimRight (text : Text) : words (trimRight text) = words text := by
  obtain ⟨b, hb, htext⟩ := exists_append_blanks text
  conv => rhs; rw [htext, words_append_blanks _ hb]

/-- A text that starts with no blank is its first word and the gap after it, with more words
behind. -/
theorem exists_word_append {text : Text} (hne : text ≠ []) (hstop : Stops isBlank text) :
    ∃ word more, text = word ++ more ∧ (∀ c ∈ word, isBlank c = false) ∧
      (∀ c ∈ more.head?, isBlank c = true) ∧ words text = word :: words more := by
  have hparts := (@List.takeWhile_append_dropWhile _ (fun c => !isBlank c) text).symm
  have hword : ∀ c ∈ text.takeWhile (fun c => !isBlank c), isBlank c = false := by
    intro c hc
    simpa using List.all_eq_true.mp (@List.all_takeWhile _ (fun c => !isBlank c) text) c hc
  have hgap : ∀ c ∈ (text.dropWhile fun c => !isBlank c).head?, isBlank c = true := by
    intro c hc
    simpa using stops_dropWhile (fun c => !isBlank c) text c hc
  refine ⟨_, _, hparts, hword, hgap, ?_⟩
  have hone : words (text.takeWhile fun c => !isBlank c) =
      [text.takeWhile fun c => !isBlank c] := by
    rw [words, List.splitOnP_eq_singleton hword]
    cases text with
    | nil => exact absurd rfl hne
    | cons c text => simp [stops_cons.mp hstop]
  cases hmore : text.dropWhile fun c => !isBlank c with
  | nil =>
    rw [hmore, List.append_nil] at hparts
    rw [words_nil, ← hone, ← hparts]
  | cons c more =>
    have hc := hgap c (by rw [hmore]; rfl)
    rw [hmore] at hparts
    conv => lhs; rw [hparts]
    rw [words_append_blank hc, hone, words_cons_blank hc]
    rfl

theorem words_eq_nil_iff {text : Text} : words text = [] ↔ Blanks text := by
  constructor
  · intro h
    by_cases hempty : skipBlanks text = []
    · exact skipBlanks_eq_nil_iff.mp hempty
    · obtain ⟨_, _, -, -, -, hwords⟩ := exists_word_append hempty (stops_skipBlanks text)
      rw [← words_skipBlanks, hwords] at h
      cases h
  · intro h
    simpa [words_nil] using words_blanks_append h []

/-- The first word and the gap after it. -/
theorem append_of_words {text word : Text} {ws : List Text} (h : words text = word :: ws) :
    ∃ more, skipBlanks text = word ++ more ∧ (∀ c ∈ word, isBlank c = false) ∧
      (∀ c ∈ more.head?, isBlank c = true) ∧ words more = ws := by
  have hne : skipBlanks text ≠ [] := by
    intro hnil
    rw [words_eq_nil_iff.mpr (skipBlanks_eq_nil_iff.mp hnil)] at h
    cases h
  obtain ⟨word', more, htext, hword, hgap, hwords⟩ :=
    exists_word_append hne (stops_skipBlanks text)
  rw [words_skipBlanks, h, List.cons.injEq] at hwords
  obtain ⟨rfl, hmore⟩ := hwords
  exact ⟨more, htext, hword, hgap, hmore.symm⟩

/-! ## Trimmed texts -/

/-- The text does not end on a blank. -/
def Trimmed (text : Text) : Prop := ∀ c ∈ text.getLast?, isBlank c = false

theorem trimmed_trimRight (text : Text) : Trimmed (trimRight text) := by
  intro c hc
  rw [trimRight, List.getLast?_reverse] at hc
  exact stops_skipBlanks text.reverse c hc

theorem Trimmed.suffix {text rest : Text} (h : Trimmed text) (hrest : rest <:+ text) :
    Trimmed rest := by
  obtain ⟨front, rfl⟩ := hrest
  intro c hc
  refine h c ?_
  rw [List.getLast?_append, Option.mem_def.mp hc]
  rfl

theorem Trimmed.eq_nil {text : Text} (h : Trimmed text) (hwords : words text = []) :
    text = [] := by
  have hblank := words_eq_nil_iff.mp hwords
  rcases List.eq_nil_or_concat text with hnil | ⟨front, c, hwhole⟩
  · exact hnil
  · have hlast := h c (by simp [hwhole])
    rw [hblank c (by simp [hwhole])] at hlast
    cases hlast

/-! ## Gaps -/

/-- The same text but for the widths of its gaps. -/
inductive Respaced : Text → Text → Prop
  | nil : Respaced [] []
  | char {c t t'} : isBlank c = false → Respaced t t' → Respaced (c :: t) (c :: t')
  | gap {b b' t t'} : Blanks b → b ≠ [] → Blanks b' → b' ≠ [] → Respaced t t' →
      Respaced (b ++ t) (b' ++ t')

theorem stops_blanks_append {p : Char → Bool} (hp : Apart isBlank p) {b : Text} (hb : Blanks b)
    (hne : b ≠ []) (text : Text) : Stops p (b ++ text) := by
  cases b with
  | nil => exact absurd rfl hne
  | cons c b => exact stops_cons.mpr (hp c (hb c (by simp)))

theorem not_stops_blanks_append {b : Text} (hb : Blanks b) (hne : b ≠ []) (text : Text) :
    ¬ Stops isBlank (b ++ text) := by
  cases b with
  | nil => exact absurd rfl hne
  | cons c b =>
    intro hstop
    have hc := hb c (by simp)
    rw [stops_cons.mp hstop] at hc
    cases hc

namespace Respaced

variable {t t' : Text}

theorem eq_nil_iff (h : Respaced t t') : t = [] ↔ t' = [] := by
  cases h with
  | nil => exact Iff.rfl
  | char _ _ => simp
  | gap _ hne _ hne' _ => simp [hne, hne']

theorem stops_iff (h : Respaced t t') : Stops isBlank t ↔ Stops isBlank t' := by
  cases h with
  | nil => exact Iff.rfl
  | char _ _ => simp
  | gap hb hne hb' hne' _ =>
    exact iff_of_false (not_stops_blanks_append hb hne _) (not_stops_blanks_append hb' hne' _)

theorem skipBlanks (h : Respaced t t') :
    Respaced (EquationPad.skipBlanks t) (EquationPad.skipBlanks t') := by
  induction h with
  | nil => exact .nil
  | char hc h _ =>
    rw [skipBlanks_eq_self (stops_cons.mpr hc), skipBlanks_eq_self (stops_cons.mpr hc)]
    exact .char hc h
  | gap hb _ hb' _ _ ih => rwa [skipBlanks_blanks_append hb, skipBlanks_blanks_append hb']

/-- Both texts start with the same character that is not blank, or neither starts with one. -/
theorem head_cases (h : Respaced t t') :
    (∃ c r r', t = c :: r ∧ t' = c :: r' ∧ isBlank c = false ∧ Respaced r r') ∨
      ∀ p, Apart isBlank p → Stops p t ∧ Stops p t' := by
  cases h with
  | nil => exact .inr fun p _ => ⟨stops_nil p, stops_nil p⟩
  | char hc h => exact .inl ⟨_, _, _, rfl, rfl, hc, h⟩
  | gap hb hne hb' hne' _ =>
    exact .inr fun p hp => ⟨stops_blanks_append hp hb hne _, stops_blanks_append hp hb' hne' _⟩

theorem stops {p : Char → Bool} (hp : Apart isBlank p) (h : Respaced t t') (hstop : Stops p t) :
    Stops p t' := by
  rcases h.head_cases with ⟨c, r, r', rfl, rfl, -, -⟩ | hnone
  · exact stops_cons.mpr (stops_cons.mp hstop)
  · exact (hnone p hp).2

/-- What starts with characters that are not blanks does so however it is spaced. -/
theorem of_append {word : Text} (hword : ∀ c ∈ word, isBlank c = false)
    (h : Respaced (word ++ t) t') : ∃ r', t' = word ++ r' ∧ Respaced t r' := by
  induction word generalizing t' with
  | nil => exact ⟨t', rfl, h⟩
  | cons c word ih =>
    rcases h.head_cases with ⟨_, _, r', heq, rfl, -, hrest⟩ | hnone
    · obtain ⟨rfl, rfl⟩ := List.cons.inj heq
      obtain ⟨r'', rfl, hr⟩ := ih (fun d hd => hword d (by simp [hd])) hrest
      exact ⟨r'', rfl, hr⟩
    · obtain ⟨hstop, -⟩ := hnone (fun d => !isBlank d) fun d hd => by simp [hd]
      have hc := stops_cons.mp hstop
      simp [hword c (by simp)] at hc

/-- A run of characters none of which is a blank. -/
theorem append_left {word : Text} (hword : ∀ c ∈ word, isBlank c = false) (h : Respaced t t') :
    Respaced (word ++ t) (word ++ t') := by
  induction word with
  | nil => exact h
  | cons c word ih =>
    exact .char (hword c (by simp)) (ih fun d hd => hword d (by simp [hd]))

/-- The longest run of a class without blanks. -/
theorem span {p : Char → Bool} (hp : Apart isBlank p) (h : Respaced t t') :
    t'.takeWhile p = t.takeWhile p ∧ Respaced (t.dropWhile p) (t'.dropWhile p) := by
  have hnone : ∀ {text : Text}, Stops p text →
      text.takeWhile p = [] ∧ text.dropWhile p = text := fun hstop =>
    ⟨takeWhile_append (List.forall_mem_nil _) hstop, dropWhile_append (List.forall_mem_nil _) hstop⟩
  induction h with
  | nil => exact ⟨rfl, .nil⟩
  | @char c t t' hc h ih =>
    cases hpc : p c with
    | true => simpa [hpc] using ih
    | false =>
      obtain ⟨htake, hdrop⟩ := hnone (stops_cons.mpr hpc : Stops p (c :: t))
      obtain ⟨htake', hdrop'⟩ := hnone (stops_cons.mpr hpc : Stops p (c :: t'))
      rw [htake, htake', hdrop, hdrop']
      exact ⟨rfl, .char hc h⟩
  | @gap b b' t t' hb hne hb' hne' h _ =>
    obtain ⟨htake, hdrop⟩ := hnone (stops_blanks_append hp hb hne t)
    obtain ⟨htake', hdrop'⟩ := hnone (stops_blanks_append hp hb' hne' t')
    rw [htake, htake', hdrop, hdrop']
    exact ⟨rfl, .gap hb hne hb' hne' h⟩

/-- Two texts that both start with a gap, if with anything. -/
theorem of_skipBlanks (h : Respaced (EquationPad.skipBlanks t) (EquationPad.skipBlanks t'))
    (hempty : t = [] ↔ t' = []) (ht : ∀ c ∈ t.head?, isBlank c = true)
    (ht' : ∀ c ∈ t'.head?, isBlank c = true) : Respaced t t' := by
  have hgap : ∀ {text : Text}, text ≠ [] → (∀ c ∈ text.head?, isBlank c = true) →
      ∃ b, Blanks b ∧ b ≠ [] ∧ text = b ++ EquationPad.skipBlanks text := by
    intro text hne hhead
    obtain ⟨b, hb, htext⟩ := exists_blanks_append text
    refine ⟨b, hb, ?_, htext⟩
    rintro rfl
    rw [List.nil_append] at htext
    have hstop := stops_skipBlanks text
    rw [← htext] at hstop
    obtain ⟨c, text, rfl⟩ := List.exists_cons_of_ne_nil hne
    have hc := hhead c rfl
    rw [stops_cons.mp hstop] at hc
    cases hc
  by_cases hnil : t = []
  · rw [hnil, hempty.mp hnil]
    exact .nil
  · obtain ⟨b, hb, hne, htext⟩ := hgap hnil ht
    obtain ⟨b', hb', hne', htext'⟩ := hgap (mt hempty.mpr hnil) ht'
    rw [htext, htext']
    exact .gap hb hne hb' hne' h

end Respaced

/-- Texts with the same words differ in their gaps, once the blanks at their ends are gone. -/
theorem respaced_of_words {t t' : Text} {ws : List Text} (ht : Trimmed t) (ht' : Trimmed t')
    (h : words t = ws) (h' : words t' = ws) : Respaced (skipBlanks t) (skipBlanks t') := by
  induction ws generalizing t t' with
  | nil =>
    rw [skipBlanks_eq_nil_iff.mpr (words_eq_nil_iff.mp h),
      skipBlanks_eq_nil_iff.mpr (words_eq_nil_iff.mp h')]
    exact .nil
  | cons word ws ih =>
    obtain ⟨more, htext, hword, hgap, hmore⟩ := append_of_words h
    obtain ⟨more', htext', -, hgap', hmore'⟩ := append_of_words h'
    have hleft := ht.suffix ((List.suffix_append word more).trans (htext ▸ skipBlanks_suffix t))
    have hleft' :=
      ht'.suffix ((List.suffix_append word more').trans (htext' ▸ skipBlanks_suffix t'))
    rw [htext, htext']
    refine .append_left hword ((ih hleft hleft' hmore hmore').of_skipBlanks ⟨?_, ?_⟩ hgap hgap')
    · intro hnil
      exact hleft'.eq_nil (by rw [hmore', ← hmore, hnil, words_nil])
    · intro hnil
      exact hleft.eq_nil (by rw [hmore, ← hmore', hnil, words_nil])

/-! ## Places -/

/-- The characters that are not blank. -/
def solid (text : Text) : Text := text.filter fun c => !isBlank c

theorem solid_append (front text : Text) : solid (front ++ text) = solid front ++ solid text :=
  List.filter_append ..

theorem solid_of_blanks {b : Text} (hb : Blanks b) : solid b = [] := by
  refine List.filter_eq_nil_iff.mpr ?_
  intro c hc
  simp [hb c hc]

theorem Respaced.solid_eq {t t' : Text} (h : Respaced t t') : solid t' = solid t := by
  induction h with
  | nil => rfl
  | char hc _ ih => simpa [solid, hc] using ih
  | gap hb _ hb' _ _ ih =>
    rw [solid_append, solid_append, solid_of_blanks hb, solid_of_blanks hb', ih]

/-- A place directly before or directly after a character that is not blank, and the place
before or after the same character in another text. The characters in front tell which
character it is. -/
inductive SamePlace (text text' : Text) : Int → Int → Prop
  | before {front rest front' rest' c} : text = front ++ c :: rest → text' = front' ++ c :: rest' →
      isBlank c = false → solid front' = solid front →
      SamePlace text text' front.length front'.length
  | after {front rest front' rest' c} : text = front ++ c :: rest → text' = front' ++ c :: rest' →
      isBlank c = false → solid front' = solid front →
      SamePlace text text' (front.length + 1) (front'.length + 1)

namespace SamePlace

variable {text text' rest rest' : Text}

theorem append {p p' : Int} (h : SamePlace text text' p p') (b b' : Text) :
    SamePlace (text ++ b) (text' ++ b') p p' := by
  cases h with
  | before htext htext' hc hfront =>
    exact .before (by rw [htext, List.append_assoc]; rfl) (by rw [htext', List.append_assoc]; rfl)
      hc hfront
  | after htext htext' hc hfront =>
    exact .after (by rw [htext, List.append_assoc]; rfl) (by rw [htext', List.append_assoc]; rfl)
      hc hfront

/-- Where what is left starts with no blank, the place is before its first character. -/
theorem of_stops (hsolid : solid text' = solid text) (hrest : rest <:+ text)
    (hrest' : rest' <:+ text') (hleft : solid rest' = solid rest) (hne : rest ≠ [])
    (hne' : rest' ≠ []) (hstop : Stops isBlank rest) (hstop' : Stops isBlank rest') :
    SamePlace text text' (text.length - rest.length : Nat) (text'.length - rest'.length : Nat) := by
  obtain ⟨front, rfl⟩ := hrest
  obtain ⟨front', rfl⟩ := hrest'
  rw [solid_append, solid_append, hleft] at hsolid
  have hfront := List.append_cancel_right hsolid
  cases rest with
  | nil => exact absurd rfl hne
  | cons c rest =>
    cases rest' with
    | nil => exact absurd rfl hne'
    | cons c' rest' =>
      have hc := stops_cons.mp hstop
      have hsame : c' = c ∧ solid rest' = solid rest := by
        simpa [solid, hc, stops_cons.mp hstop'] using hleft
      obtain ⟨rfl, -⟩ := hsame
      have hplace : SamePlace (front ++ c' :: rest) (front' ++ c' :: rest') front.length front'.length :=
        .before rfl rfl hc hfront
      simpa using hplace

/-- Where what was taken ends on no blank, the place is after its last character. -/
theorem of_taken {front front' : Text} {c c' : Char} (htext : text = front ++ c :: rest)
    (htext' : text' = front' ++ c' :: rest') (hc : isBlank c = false) (hc' : isBlank c' = false)
    (hsolid : solid text' = solid text) (hleft : solid rest' = solid rest) :
    SamePlace text text' (text.length - rest.length : Nat) (text'.length - rest'.length : Nat) := by
  have hfront : solid (front' ++ [c']) = solid (front ++ [c]) := by
    have hparts : text = (front ++ [c]) ++ rest := by simp [htext]
    have hparts' : text' = (front' ++ [c']) ++ rest' := by simp [htext']
    rw [hparts, hparts', solid_append (front' ++ [c']), solid_append (front ++ [c]), hleft]
      at hsolid
    exact List.append_cancel_right hsolid
  have hsame : solid front' = solid front ∧ c' = c := by
    simpa [solid, hc, hc'] using hfront
  obtain ⟨hbefore, rfl⟩ := hsame
  have hlength : ((text.length - rest.length : Nat) : Int) = front.length + 1 := by
    rw [htext, List.length_append, List.length_cons]
    omega
  have hlength' : ((text'.length - rest'.length : Nat) : Int) = front'.length + 1 := by
    rw [htext', List.length_append, List.length_cons]
    omega
  rw [hlength, hlength']
  exact .after htext htext' hc hbefore

end SamePlace

end EquationPad
