import EquationPad.Main
import EquationPad.Proofs.Grammar
import EquationPad.Proofs.Scanning
import EquationPad.Proofs.Lexing
import EquationPad.Proofs.LineReading
import EquationPad.Proofs.Completion
import EquationPad.Proofs.LineBreaks
import EquationPad.Proofs.Simulation
import EquationPad.Proofs.Contributions
import EquationPad.Proofs.Reachability
import EquationPad.Proofs.Meaning
import EquationPad.Proofs.Portions
import EquationPad.Proofs.Documents
import EquationPad.Proofs.Dimensions
import EquationPad.Proofs.Operations
import EquationPad.Proofs.Rows
import EquationPad.Proofs.Lookup
import EquationPad.Proofs.Verdicts
import EquationPad.Proofs.Composition
import EquationPad.Proofs.Tables
import EquationPad.Proofs.Submissions
import EquationPad.Proofs.Words
import EquationPad.Proofs.Spacing
import EquationPad.Proofs.Replies
import EquationPad.Proofs.FreshStart
import EquationPad.Proofs.Printing
import EquationPad.Proofs.Solutions
import EquationPad.Proofs.Entrances
import EquationPad.Proofs.ErrorPlaces
import EquationPad.Proofs.BlankLines
import EquationPad.Proofs.AcceptedPrefix
import EquationPad.Proofs.LineFaults
import EquationPad.Proofs.Calls
import EquationPad.Proofs.Numbering
import EquationPad.Proofs.Equivalence
import EquationPad.Proofs.NumeralRuns
import EquationPad.Proofs.Reporting
import EquationPad.Proofs.DocumentNames
import EquationPad.Proofs.CommandRuns
import EquationPad.Proofs.NumberRange
import EquationPad.Proofs.Rounding
import EquationPad.Proofs.NumberTexts
import EquationPad.Proofs.Tiling
