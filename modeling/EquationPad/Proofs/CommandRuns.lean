import EquationPad.CommandLine
import EquationPad.Proofs.Reporting
import EquationPad.Proofs.Submissions

/-! How a command ends that solves nothing. Arguments are written one after another, an option
with its value, and reading them stops at the first that asks for help or is wrong. If none does,
the last document counts, and what is said about it is what a new workspace says that is told
nothing but the document. The other options change nothing about that, however many there are and
wherever they stand; only the diagnostics are added if they are asked for. -/

namespace EquationPad

/-! ## Arguments -/

/-- An argument that reading goes on after, with its value if it has one. -/
inductive Argument where
  | detailed
  | verbose
  | quiet
  | precision (value : Text)
  | document (name : Text)
  deriving DecidableEq

namespace Argument

def text : Argument → List Text
  | detailed => ["--detailed"]
  | verbose => ["--verbose"]
  | quiet => ["--quiet"]
  | precision value => ["--precision", value]
  | document name => [name]

/-- A precision is positive, and a document is not written like an option. -/
def Fine : Argument → Prop
  | precision value => 0 < leadingInt value
  | document name => isOption name = false
  | detailed | verbose | quiet => True

def apply (options : Options) : Argument → Options
  | detailed => { options with printMode := 2 }
  | verbose => { options with verbose := true }
  | quiet => { options with printMode := 0 }
  | precision value => { options with precision := leadingInt value }
  | document name => { options with document := name }

def name? : Argument → Option Text
  | document name => some name
  | _ => none

end Argument

/-- The document that is named last, or standard input. -/
def lastDocument (items : List Argument) : Text :=
  ((items.filterMap Argument.name?).getLast?).getD "-"

/-- The arguments begin with some that are fine; the rest is left. -/
structure FineUpTo (arguments : List Text) (items : List Argument) (rest : List Text) : Prop where
  fine : ∀ item ∈ items, item.Fine
  written : arguments = items.flatMap Argument.text ++ rest

def helpOptions : List Text := ["--help", "-h"]

def knownOptions : List Text :=
  ["--help", "-h", "--detailed", "--verbose", "--quiet", "--precision"]

/-- The first argument is wrong, or its value is missing or wrong. -/
inductive Misuse : List Text → Prop
  | unknown {argument : Text} (rest : List Text) (hoption : isOption argument = true)
      (hunknown : argument ∉ knownOptions) : Misuse (argument :: rest)
  | noPrecision : Misuse ["--precision"]
  | notPositive {value : Text} (rest : List Text) (h : leadingInt value ≤ 0) :
      Misuse ("--precision".toList :: value :: rest)

/-- Help is asked for, and nothing before that is wrong. -/
def AsksHelp (arguments : List Text) : Prop :=
  ∃ items help rest, FineUpTo arguments items (help :: rest) ∧ help ∈ helpOptions

/-- Something is wrong, and help is not asked for before that. -/
def Misused (arguments : List Text) : Prop :=
  ∃ items rest, FineUpTo arguments items rest ∧ Misuse rest

section Reading

variable {options : Options} {arguments rest : List Text} {items : List Argument}

theorem ne_of_isOption {argument option : Text} (h : isOption argument = false)
    (hoption : isOption option = true) : argument ≠ option := by
  rintro rfl
  rw [h] at hoption
  cases hoption

theorem readArguments_text (options : Options) {item : Argument} (h : item.Fine)
    (rest : List Text) :
    readArguments options (item.text ++ rest) = readArguments (item.apply options) rest := by
  cases item with
  | detailed | verbose | quiet =>
    rw [Argument.text, List.singleton_append, readArguments.eq_def]
    rfl
  | precision value =>
    rw [Argument.text, List.cons_append, readArguments.eq_def]
    exact if_pos h
  | document name =>
    have hne : ∀ option, isOption option = true → name ≠ option := fun _ => ne_of_isOption h
    rw [Argument.text, List.singleton_append, readArguments.eq_def]
    dsimp only
    rw [if_neg (not_or.mpr ⟨hne _ rfl, hne _ rfl⟩), if_neg (hne _ rfl), if_neg (hne _ rfl),
      if_neg (hne _ rfl), if_neg (hne _ rfl), if_neg (Bool.not_eq_true _ ▸ h)]
    rfl

theorem readArguments_items (options : Options) (h : ∀ item ∈ items, item.Fine)
    (rest : List Text) :
    readArguments options (items.flatMap Argument.text ++ rest) =
      readArguments (items.foldl Argument.apply options) rest := by
  induction items generalizing options with
  | nil => rfl
  | cons item items ih =>
    rw [List.forall_mem_cons] at h
    rw [List.flatMap_cons, List.append_assoc, readArguments_text options h.1, ih _ h.2]
    rfl

theorem FineUpTo.cons {item : Argument} (hitem : item.Fine) (h : FineUpTo arguments items rest) :
    FineUpTo (item.text ++ arguments) (item :: items) rest where
  fine := List.forall_mem_cons.mpr ⟨hitem, h.fine⟩
  written := by rw [h.written, List.flatMap_cons, List.append_assoc]

theorem FineUpTo.readArguments_eq (h : FineUpTo arguments items rest) (options : Options) :
    readArguments options arguments =
      readArguments (items.foldl Argument.apply options) rest := by
  rw [h.written, readArguments_items options h.fine]

theorem FineUpTo.start (arguments : List Text) : FineUpTo arguments [] arguments where
  fine := nofun
  written := rfl

theorem AsksHelp.cons {item : Argument} (hitem : item.Fine) :
    AsksHelp arguments → AsksHelp (item.text ++ arguments)
  | ⟨items, help, rest, hread, hhelp⟩ => ⟨item :: items, help, rest, hread.cons hitem, hhelp⟩

theorem Misused.cons {item : Argument} (hitem : item.Fine) :
    Misused arguments → Misused (item.text ++ arguments)
  | ⟨items, rest, hread, hmisuse⟩ => ⟨item :: items, rest, hread.cons hitem, hmisuse⟩

/-- How reading may end. -/
def ReadingEnds (arguments : List Text) : Prop :=
  AsksHelp arguments ∨ Misused arguments ∨ ∃ items, FineUpTo arguments items []

theorem ReadingEnds.cons (item : Argument) (hitem : item.Fine) (h : ReadingEnds arguments) :
    ReadingEnds (item.text ++ arguments) :=
  h.imp (.cons hitem) (.imp (.cons hitem) fun ⟨items, hread⟩ => ⟨item :: items, hread.cons hitem⟩)

theorem Misuse.readingEnds (h : Misuse arguments) : ReadingEnds arguments :=
  .inr (.inl ⟨[], arguments, .start arguments, h⟩)

theorem readingEnds (options : Options) (arguments : List Text) : ReadingEnds arguments := by
  -- A precision takes its value with it, so that the value is never read as an argument.
  fun_induction readArguments options arguments with
  | case1 => exact .inr (.inr ⟨[], .start []⟩)
  | case2 options help rest hhelp =>
    exact .inl ⟨[], help, rest, .start _, by simpa [helpOptions] using hhelp⟩
  | case3 options rest _ ih => exact ih.cons .detailed trivial
  | case4 options rest _ _ ih => exact ih.cons .verbose trivial
  | case5 options rest _ _ _ ih => exact ih.cons .quiet trivial
  | case6 => exact Misuse.noPrecision.readingEnds
  | case7 options value rest hpositive _ _ _ _ ih => exact ih.cons (.precision value) hpositive
  | case8 options value rest hpositive =>
    exact (Misuse.notPositive rest (not_lt.mp hpositive)).readingEnds
  | case9 options argument rest hhelp hdetailed hverbose hquiet hprecision hoption =>
    refine (Misuse.unknown rest hoption ?_).readingEnds
    simp only [knownOptions, List.mem_cons, List.not_mem_nil, or_false]
    tauto
  | case10 options name rest _ _ _ _ _ hoption ih =>
    exact ih.cons (.document name) (Bool.eq_false_of_not_eq_true hoption)

end Reading

/-! ## Documents -/

namespace Workspace

/-- Reads standard input or a named document. -/
def readNamed (ws : Workspace) (name : Text) (content : Option Text) : Reply :=
  if name = "-".toList then ws.readText (content.getD []) else ws.openDocument name content

/-- Reads a document and solves it. -/
def attempt (ws : Workspace) (name : Text) (content : Option Text) : Reply :=
  (ws.readNamed name content).andThen solve

/-- A document answers the same whatever is reported of it. -/
theorem attempt_withReporting (ws : Workspace) (r : Reporting) (name : Text)
    (content : Option Text) :
    (ws.withReporting r).attempt name content =
      ((ws.withReporting .loud).attempt name content).withReporting
        { r with documentName := if name = "-".toList then r.documentName else name } := by
  have hread := fun lines => (shownApart_readDocument lines).andThen shownApart_solve
  unfold attempt readNamed
  by_cases hname : name = "-".toList
  · rw [if_pos hname, if_pos hname, if_pos hname]
    exact hread _ ws r
  · rw [if_neg hname, if_neg hname, if_neg hname]
    cases content with
    | none => exact Reply.eq_withReporting rfl rfl
    | some text =>
      -- The name is part of the reporting, so opening is reading under another reporting.
      have hnamed := hread (linesOf text) ws
      dsimp only at hnamed
      show ((ws.withReporting { r with documentName := name }).readDocument
          (linesOf text)).andThen solve =
        (((ws.withReporting { Reporting.loud with documentName := name }).readDocument
          (linesOf text)).andThen solve).withReporting _
      rw [hnamed, hnamed { Reporting.loud with documentName := name }]
      rfl

theorem attempt_new (name : Text) (content : Option Text) :
    ({} : Workspace).attempt name content =
      ((({} : Workspace).withReporting .loud).attempt name content).withReporting
        { documentName := if name = "-".toList then [] else name } :=
  attempt_withReporting {} {} name content

/-- If the solver is not asked, then there is no solution. -/
theorem status_solve_ne {ws : Workspace} (h : Operation.solve.submission? ws = none) :
    ws.solve.status ≠ .success := by
  rw [Operation.submission?] at h
  unfold solve
  split
  · rename_i hstatus
    rw [if_pos hstatus, submission?] at h
    split at h
    · cases h
    · rename_i hcounts
      unfold runSolver
      rw [if_neg hcounts]
      exact hcounts
  · rename_i hstatus
    intro hsuccess
    dsimp only at hsuccess
    exact hstatus (by rw [hsuccess]; rfl)

end Workspace

/-- What a verbose workspace says while it reads and solves a document. -/
def diagnostics (name : Text) (content : Option Text) : Text :=
  ((({} : Workspace).setVerbose true).attempt name content).log

/-- The line that reports why a document was not solved. -/
def errorLine (name : Text) (content : Option Text) : Text :=
  (({} : Workspace).attempt name content).workspace.errorText ++ "\n"

namespace Options

variable {options : Options} {content : Option Text}

theorem readNamed_eq (options : Options) (content : Option Text) :
    (if options.readsStandardInput then options.workspace.readText (content.getD [])
      else options.workspace.openDocument options.document content) =
      options.workspace.readNamed options.document content := by
  simp only [readsStandardInput, decide_eq_true_eq]
  rfl

theorem exists_reporting (options : Options) :
    ∃ precision, options.workspace = ({} : Workspace).withReporting
      { printMode := options.printMode, precision, verbose := options.verbose } := by
  unfold workspace
  cases options.precision with
  | none => exact ⟨_, rfl⟩
  | some precision =>
    by_cases hpositive : 0 < precision
    · exact ⟨_, if_pos hpositive⟩
    · exact ⟨_, if_neg hpositive⟩

theorem status_attempt (options : Options) (content : Option Text) :
    (options.workspace.attempt options.document content).status =
      (({} : Workspace).attempt options.document content).status := by
  obtain ⟨precision, hworkspace⟩ := options.exists_reporting
  rw [hworkspace, Workspace.attempt_withReporting, Workspace.attempt_new]
  rfl

theorem run_eq_report
    (h : (options.workspace.attempt options.document content).status ≠ .success) :
    options.run content =
      { exit := 1
        printout := {
          errors := (options.workspace.attempt options.document content).log ++
            (options.workspace.attempt options.document content).workspace.errorText ++
              "\n" } } := by
  unfold run
  rw [readNamed_eq]
  exact if_neg h

/-- Of the options, only the document and the wish for diagnostics can be told from what is
written if there is no solution. -/
theorem run_of_failed
    (h : (({} : Workspace).attempt options.document content).status ≠ .success) :
    options.run content =
      { exit := 1
        printout := {
          errors := (if options.verbose then diagnostics options.document content else []) ++
            errorLine options.document content } } := by
  obtain ⟨precision, hworkspace⟩ := options.exists_reporting
  have hreply := Workspace.attempt_withReporting {}
    { printMode := options.printMode, precision, verbose := options.verbose } options.document
    content
  rw [← hworkspace] at hreply
  rw [← status_attempt] at h
  rw [run_eq_report h, errorLine, hreply, Workspace.attempt_new, List.append_assoc]
  rfl

end Options

/-! ## Runs -/

/-- What there is to read under a name. -/
def contentAt (input : Text) (document : Text → Option Text) (name : Text) : Option Text :=
  if name = "-".toList then some input else document name

/-- What a request hands to the solver. -/
def Request.submission? (content : Text → Option Text) : Request → Option Submission
  | .solve options =>
    let read := options.workspace.readNamed options.document (content options.document)
    if read.status = .success then Operation.solve.submission? read.workspace else none
  | _ => none

variable {arguments rest : List Text} {items : List Argument} {input : Text}
  {document : Text → Option Text} {program : Text}

theorem runCommand_eq (arguments : List Text) (input : Text) (document : Text → Option Text)
    (program : Text) : runCommand arguments input document program =
      (readArguments {} arguments).run program fun options =>
        contentAt input document options.document := by
  simp only [runCommand, Options.readsStandardInput, decide_eq_true_eq]
  rfl

theorem document_foldl_apply (items : List Argument) (options : Options) :
    (items.foldl Argument.apply options).document =
      ((items.filterMap Argument.name?).getLast?).getD options.document := by
  induction items generalizing options with
  | nil => rfl
  | cons item items ih =>
    rw [List.foldl_cons, ih]
    cases item with
    | document name =>
      rw [List.filterMap_cons_some (show (Argument.document name).name? = some name from rfl),
        List.getLast?_cons]
      rfl
    | _ => rfl

theorem document_foldl_apply_nil (items : List Argument) :
    (items.foldl Argument.apply {}).document = lastDocument items :=
  document_foldl_apply items {}

theorem verbose_foldl_apply (items : List Argument) (options : Options) :
    (items.foldl Argument.apply options).verbose =
      (options.verbose || decide (.verbose ∈ items)) := by
  induction items generalizing options with
  | nil => simp
  | cons item items ih =>
    rw [List.foldl_cons, ih]
    cases item <;> simp [Argument.apply]

theorem status_attempt_ne {content : Text → Option Text} {options : Options}
    (h : (Request.solve options).submission? content = none) :
    (({} : Workspace).attempt options.document (content options.document)).status ≠ .success := by
  rw [Request.submission?] at h
  rw [← options.status_attempt, Workspace.attempt, Reply.andThen]
  split
  · rename_i hread
    rw [if_pos hread] at h
    exact Workspace.status_solve_ne h
  · rename_i hread
    exact hread

theorem AsksHelp.run (h : AsksHelp arguments) (input : Text) (document : Text → Option Text)
    (program : Text) : (runCommand arguments input document program).exit = 0 ∧
      (runCommand arguments input document program).printout.output = [] := by
  obtain ⟨items, help, rest, hread, hhelp⟩ := h
  have hrequest : ∀ options, readArguments options (help :: rest) = .help := by
    intro options
    rw [readArguments.eq_def]
    exact if_pos (by simpa [helpOptions] using hhelp)
  rw [runCommand_eq, hread.readArguments_eq, hrequest]
  exact ⟨rfl, rfl⟩

theorem Misuse.run (h : Misuse rest) (options : Options) (content : Options → Option Text) :
    ((readArguments options rest).run program content).exit = 2 ∧
      ((readArguments options rest).run program content).printout.output = [] := by
  cases h with
  | @unknown argument rest hoption hunknown =>
    simp only [knownOptions, List.mem_cons, List.not_mem_nil, or_false, not_or] at hunknown
    obtain ⟨hhelp, hh, hdetailed, hverbose, hquiet, hprecision⟩ := hunknown
    have hrequest : readArguments options (argument :: rest) = .unknownOption argument := by
      rw [readArguments.eq_def]
      dsimp only
      rw [if_neg (not_or.mpr ⟨hhelp, hh⟩), if_neg hdetailed, if_neg hverbose, if_neg hquiet,
        if_neg hprecision, if_pos hoption]
    rw [hrequest]
    exact ⟨rfl, rfl⟩
  | noPrecision =>
    rw [readArguments.eq_def]
    exact ⟨rfl, rfl⟩
  | @notPositive value rest hvalue =>
    have hrequest : readArguments options ("--precision".toList :: value :: rest) =
        .invalidPrecision value := by
      rw [readArguments.eq_def]
      exact if_neg (not_lt.mpr hvalue)
    rw [hrequest]
    exact ⟨rfl, rfl⟩

theorem Misused.run (h : Misused arguments) (input : Text) (document : Text → Option Text)
    (program : Text) : (runCommand arguments input document program).exit = 2 ∧
      (runCommand arguments input document program).printout.output = [] := by
  obtain ⟨items, rest, hread, hmisuse⟩ := h
  rw [runCommand_eq, hread.readArguments_eq]
  exact hmisuse.run _ _

theorem FineUpTo.readArguments_eq_solve (h : FineUpTo arguments items []) :
    readArguments {} arguments = .solve (items.foldl Argument.apply {}) := by
  rw [h.readArguments_eq, readArguments]

theorem FineUpTo.failed (h : FineUpTo arguments items [])
    (hnone : (readArguments {} arguments).submission? (contentAt input document) = none) :
    (({} : Workspace).attempt (lastDocument items)
      (contentAt input document (lastDocument items))).status ≠ .success := by
  rw [h.readArguments_eq_solve] at hnone
  rw [← document_foldl_apply_nil]
  exact status_attempt_ne hnone

/-- Arguments that are all fine lead to what is said about the last document. -/
theorem FineUpTo.run (h : FineUpTo arguments items [])
    (hfailed : (({} : Workspace).attempt (lastDocument items)
      (contentAt input document (lastDocument items))).status ≠ .success) (program : Text) :
    runCommand arguments input document program =
      { exit := 1
        printout := {
          errors :=
            (if .verbose ∈ items then
              diagnostics (lastDocument items) (contentAt input document (lastDocument items))
            else []) ++
              errorLine (lastDocument items)
                (contentAt input document (lastDocument items)) } } := by
  rw [← document_foldl_apply_nil] at hfailed
  rw [runCommand_eq, h.readArguments_eq_solve, Request.run, Options.run_of_failed hfailed,
    document_foldl_apply_nil, verbose_foldl_apply]
  simp only [Bool.false_or, decide_eq_true_eq]

/-- The three ways in which a run ends that hands nothing to the solver. -/
theorem ends_of_nothing_handed
    (h : (readArguments {} arguments).submission? (contentAt input document) = none) :
    (runCommand arguments input document program).printout.output = [] ∧
      ((AsksHelp arguments ∧ (runCommand arguments input document program).exit = 0) ∨
        (Misused arguments ∧ (runCommand arguments input document program).exit = 2) ∨
        ((∃ items, FineUpTo arguments items []) ∧
          (runCommand arguments input document program).exit = 1)) := by
  obtain hhelp | hmisused | ⟨items, hread⟩ := readingEnds {} arguments
  · have hrun := hhelp.run input document program
    exact ⟨hrun.2, .inl ⟨hhelp, hrun.1⟩⟩
  · have hrun := hmisused.run input document program
    exact ⟨hrun.2, .inr (.inl ⟨hmisused, hrun.1⟩)⟩
  · have hrun := hread.run (hread.failed h) program
    exact ⟨by rw [hrun], .inr (.inr ⟨⟨items, hread⟩, by rw [hrun]⟩)⟩

/-- **Few inputs decide a run that hands nothing to the solver.** It writes no output. It ends well
if help is asked for before anything is wrong, and as misused if something is wrong before help is
asked for. Otherwise it fails, and what it writes depends only on the document that is named last
and on whether diagnostics are asked for. -/
theorem runCommand_of_nothing_handed
    (h : (readArguments {} arguments).submission? (contentAt input document) = none) :
    (runCommand arguments input document program).printout.output = [] ∧
      ((runCommand arguments input document program).exit = 0 ↔ AsksHelp arguments) ∧
      ((runCommand arguments input document program).exit = 2 ↔ Misused arguments) ∧
      (¬ AsksHelp arguments → ¬ Misused arguments →
        (runCommand arguments input document program).exit = 1 ∧
          ∃ items, FineUpTo arguments items []) ∧
      ∀ items, FineUpTo arguments items [] →
        (runCommand arguments input document program).printout.errors =
          (if .verbose ∈ items then
            diagnostics (lastDocument items) (contentAt input document (lastDocument items))
          else []) ++
            errorLine (lastDocument items) (contentAt input document (lastDocument items)) ∧
        ∀ arguments' items' program', FineUpTo arguments' items' [] →
          lastDocument items' = lastDocument items → (.verbose ∈ items' ↔ .verbose ∈ items) →
            runCommand arguments' input document program' =
              runCommand arguments input document program := by
  obtain ⟨houtput, hends⟩ := ends_of_nothing_handed h
  refine ⟨houtput, ⟨fun hexit => ?_, fun hhelp => (hhelp.run input document program).1⟩,
    ⟨fun hexit => ?_, fun hmisused => (hmisused.run input document program).1⟩, ?_, ?_⟩
  · obtain ⟨hhelp, -⟩ | ⟨-, hexit'⟩ | ⟨-, hexit'⟩ := hends
    · exact hhelp
    all_goals omega
  · obtain ⟨-, hexit'⟩ | ⟨hmisused, -⟩ | ⟨-, hexit'⟩ := hends
    · omega
    · exact hmisused
    · omega
  · intro hhelp hmisused
    obtain ⟨hhelp', -⟩ | ⟨hmisused', -⟩ | ⟨hread, hexit⟩ := hends
    · exact absurd hhelp' hhelp
    · exact absurd hmisused' hmisused
    · exact ⟨hexit, hread⟩
  · intro items hread
    have hfailed := hread.failed h
    have hrun := hread.run hfailed program
    refine ⟨by rw [hrun], fun arguments' items' program' hread' hlast hverbose => ?_⟩
    rw [← hlast] at hfailed
    rw [hrun, hread'.run hfailed program', hlast]
    simp only [hverbose]

/-- The value of one option looks like a number only at its start, and the document that is named
first does not exist. -/
theorem runCommand_of_nothing_handed_lastOfTwo :
    (readArguments {} ["--quiet", "a.txt", "--precision", " 3x", "--verbose", "b.txt"]).submission?
        (contentAt [] fun name => if name = "b.txt".toList then some "1..2" else none) = none ∧
      FineUpTo ["--quiet", "a.txt", "--precision", " 3x", "--verbose", "b.txt"]
        [.quiet, .document "a.txt", .precision " 3x", .verbose, .document "b.txt"] [] ∧
      (runCommand ["--quiet", "a.txt", "--precision", " 3x", "--verbose", "b.txt"] []
        fun name => if name = "b.txt".toList then some "1..2" else none).printout.errors =
          ("[Parser] line 1, column 3: More than one decimal point in number\n" ++
            "b.txt: line 1, column 3: More than one decimal point in number\n").toList := by
  have hnone : (readArguments {}
      ["--quiet", "a.txt", "--precision", " 3x", "--verbose", "b.txt"]).submission?
        (contentAt [] fun name => if name = "b.txt".toList then some "1..2" else none) = none :=
    Option.isNone_iff_eq_none.mp (by decide +kernel)
  have hread : FineUpTo ["--quiet", "a.txt", "--precision", " 3x", "--verbose", "b.txt"]
      [.quiet, .document "a.txt", .precision " 3x", .verbose, .document "b.txt"] [] := by
    refine ⟨?_, rfl⟩
    simp only [List.forall_mem_cons]
    exact ⟨trivial, rfl, show 0 < leadingInt " 3x" by decide +kernel, trivial, rfl, nofun⟩
  obtain ⟨-, -, -, -, hproper⟩ :=
    @runCommand_of_nothing_handed _ _ _ programName hnone
  refine ⟨hnone, hread, ?_⟩
  rw [(hproper _ hread).1]
  decide +kernel

end EquationPad
