import EquationPad.Report
import EquationPad.Proofs.FreshStart

/-! Which document a message names. Only opening a document gives a name, and the name stays until
another document is opened or everything is started anew. So it is right as long as documents are
begun in these two ways. A document that is handed in without a name, or line by line after
starting over, is blamed on the one that was opened before it. -/

namespace EquationPad

namespace Operation

/-- Whether the operation says which document it is, or that it is none. -/
def names : Operation → Bool
  | .openDocument _ _ | .startAnew => true
  | .setPrintMode _ | .setPrecision _ | .setVerbose _ | .setTolerances _ | .install _
  | .feedLine _ | .readDocument _ | .readText _ | .checkCounts | .solve | .runSolver
  | .solveDocument _ | .startOver => false

theorem begins_of_names {operation : Operation} (h : operation.names = true) :
    operation.begins = true := by
  cases operation <;> first | rfl | cases h

/-- The last of some operations that is of a kind. -/
def last? (kind : Operation → Bool) (operations : List Operation) : Option Operation :=
  (operations.filter kind).getLast?

/-- The name given by an operation that opens a document. -/
def openedName : Option Operation → Text
  | some (.openDocument name _) => name
  | _ => []

variable {kind : Operation → Bool}

theorem last?_concat (operations : List Operation) (operation : Operation) :
    last? kind (operations ++ [operation]) =
      if kind operation then some operation else last? kind operations := by
  rw [last?, List.filter_append]
  by_cases hkind : kind operation = true
  · rw [List.filter_cons_of_pos hkind, if_pos hkind]
    exact List.getLast?_concat
  · rw [List.filter_cons_of_neg hkind, if_neg hkind, List.filter_nil, List.append_nil]
    rfl

/-- A narrower kind has the same last operation if that is of it. -/
theorem last?_eq {narrow : Operation → Bool} (hnarrow : ∀ o, narrow o = true → kind o = true)
    {operations : List Operation} (h : ∀ o ∈ last? kind operations, narrow o = true) :
    last? narrow operations = last? kind operations := by
  induction operations using List.reverseRecOn with
  | nil => rfl
  | append_singleton operations operation ih =>
    rw [last?_concat] at h ⊢
    rw [last?_concat]
    by_cases hkind : kind operation = true
    · rw [if_pos hkind] at h ⊢
      rw [if_pos (h operation rfl)]
    · rw [if_neg hkind] at h ⊢
      rw [if_neg fun hname => hkind (hnarrow operation hname), ih h]

theorem documentName_setup (operation : Operation) (setup : Setup) :
    (operation.setup setup).documentName =
      if operation.names then openedName (some operation) else setup.documentName := by
  cases operation with
  | setPrecision precision =>
    show (if 0 < precision then _ else _ : Setup).documentName = setup.documentName
    split <;> rfl
  | _ => rfl

end Operation

open Operation (last? openedName)

/-- How a message begins that names a document. -/
def documentLabel (name : Text) : Text := if name.isEmpty then [] else name ++ ": "

namespace Workspace

theorem errorText_eq (ws : Workspace) :
    ws.errorText = documentLabel ws.documentName ++ (ws.rename []).errorText := by
  rw [errorText, documentLabel, List.append_assoc]
  rfl

/-- The document has the name that was given last. -/
theorem documentName_run (operations : List Operation) :
    (run operations).documentName = openedName (last? Operation.names operations) := by
  have hsetup : (run operations).documentName =
      (operations.foldl Operation.setup {}).documentName :=
    congrArg Setup.documentName (setup_run operations)
  rw [hsetup]
  clear hsetup
  induction operations using List.reverseRecOn with
  | nil => rfl
  | append_singleton operations operation ih =>
    rw [List.foldl_concat, Operation.documentName_setup, Operation.last?_concat, ih]
    split <;> rfl

/-- **A message names the document that was opened last.** If documents were only opened, or
everything was started anew, since one was opened, then this is the document that was begun
last. -/
theorem errorText_names_opened (operations : List Operation) :
    (run operations).errorText =
        documentLabel (openedName (last? Operation.names operations)) ++
          ((run operations).rename []).errorText ∧
      ((∀ operation ∈ last? Operation.begins operations, operation.names = true) →
        (run operations).errorText =
          documentLabel (openedName (last? Operation.begins operations)) ++
            ((run operations).rename []).errorText) := by
  have hlabel := errorText_eq (run operations)
  rw [documentName_run] at hlabel
  refine ⟨hlabel, fun h => ?_⟩
  rwa [Operation.last?_eq (fun _ => Operation.begins_of_names) h] at hlabel

/-- Another document is opened after a text that has no name. -/
theorem errorText_names_opened_afterText :
    (∀ operation ∈ last? Operation.begins [.openDocument "old" none, .readText "x = 1",
        .openDocument "new" (some "1..2"), .setVerbose true], operation.names = true) ∧
      (run [.openDocument "old" none, .readText "x = 1", .openDocument "new" (some "1..2"),
        .setVerbose true]).errorText =
        "new: line 1, column 3: More than one decimal point in number".toList := by
  have hnames : ∀ operation ∈ last? Operation.begins [.openDocument "old" none, .readText "x = 1",
      .openDocument "new" (some "1..2"), .setVerbose true], operation.names = true := by
    rintro _ ⟨⟩
    rfl
  refine ⟨hnames, ?_⟩
  rw [(errorText_names_opened _).2 hnames]
  decide +kernel

/-- A text without a name is blamed on the document that was opened before it. -/
theorem readText_blames_opened :
    (run [.openDocument "old" (some "x = 1"), .readText "1..2"]).errorText =
        "old: line 1, column 3: More than one decimal point in number".toList ∧
      ¬ ∀ (operations : List Operation) (name : Text), name ≠ [] →
        (run operations).errorText = name ++ ": " ++ ((run operations).rename []).errorText →
          ∃ content, last? Operation.begins operations = some (.openDocument name content) := by
  have hblamed : (run [.openDocument "old" (some "x = 1"), .readText "1..2"]).errorText =
      "old: line 1, column 3: More than one decimal point in number".toList := by decide +kernel
  refine ⟨hblamed, fun hall => ?_⟩
  obtain ⟨content, hlast⟩ := hall [.openDocument "old" (some "x = 1"), .readText "1..2"] "old"
    (by decide) (by decide +kernel)
  cases hlast

end Workspace

end EquationPad
