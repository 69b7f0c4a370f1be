import EquationPad.Report

/-! The command line. Arguments are read from left to right until one asks for help
or is wrong; the last one that is no option names the document, and a lone minus
sign is standard input. Errors go to the error stream whatever the print mode. -/

namespace EquationPad

structure Options where
  document : Text := "-"
  /-- None for the precision that a workspace starts with. -/
  precision : Option Int := none
  printMode : Int := 1
  verbose : Bool := false

/-- What the arguments ask for. -/
inductive Request where
  | help
  | invalidPrecision (argument : Text)
  | unknownOption (argument : Text)
  | solve (options : Options)

/-- How a run ends and what it writes. -/
structure Run where
  exit : Nat
  printout : Printout := {}

/-- The name of the program, unless it is called by another. -/
def programName : Text := "lineq_solve"

/-- How the program is used, under the name by which it is called. -/
def usageText (program : Text) : Text :=
  "Usage: " ++ program ++ " [--precision N] [--detailed] [--verbose] [--quiet] [file|-]\n" ++
  "Reads equations such as\n" ++
  "    2x + 3y = 8\n" ++
  "    x - y = -1\n" ++
  "from the file (or standard input) and prints the solution.\n" ++
  "--quiet suppresses the solution; errors are always printed.\n"

/-- The integer at the start of a text, after blanks and a sign; zero if there is none.
It is held between the bounds of 64 bits, and its low 32 bits are the result. -/
def leadingInt (text : Text) : Int :=
  let (sign, rest) := scanSign (skipBlanks text)
  let magnitude : Int := digitsValue (rest.takeWhile isDigit)
  let value := if isMinus sign then -magnitude else magnitude
  (max (-0x8000000000000000) (min 0x7fffffffffffffff value)).bmod 0x100000000

/-- Starts with a minus sign, and is more than that. -/
def isOption (argument : Text) : Bool := argument.head? = some '-' && argument.length ≠ 1

/-- Reads the arguments that are left, given the options so far. -/
def readArguments (options : Options) : List Text → Request
  | [] => .solve options
  | argument :: rest =>
    if argument = "--help".toList ∨ argument = "-h".toList then .help
    else if argument = "--detailed".toList then readArguments { options with printMode := 2 } rest
    else if argument = "--verbose".toList then readArguments { options with verbose := true } rest
    else if argument = "--quiet".toList then readArguments { options with printMode := 0 } rest
    else if argument = "--precision".toList then
      match rest with
      | [] => .unknownOption argument
      | value :: rest =>
        if 0 < leadingInt value then
          readArguments { options with precision := leadingInt value } rest
        else .invalidPrecision value
    else if isOption argument then .unknownOption argument
    else readArguments { options with document := argument } rest

namespace Options

def readsStandardInput (options : Options) : Bool := options.document = "-".toList

/-- A new workspace with these settings. -/
def workspace (options : Options) : Workspace :=
  let ws := (({} : Workspace).setPrintMode options.printMode).setVerbose options.verbose
  match options.precision with
  | some precision => ws.setPrecision precision
  | none => ws

/-- Reads the document and solves it; `content` is none if there is no such document. -/
def run (options : Options) (content : Option Text) : Run :=
  let read :=
    if options.readsStandardInput then options.workspace.readText (content.getD [])
    else options.workspace.openDocument options.document content
  let reply := read.andThen Workspace.solve
  if reply.status = .success then
    let printout := reply.workspace.printout
    { exit := 0, printout := { printout with errors := reply.log ++ printout.errors } }
  else
    { exit := 1, printout := { errors := reply.log ++ reply.workspace.errorText ++ "\n" } }

end Options

namespace Request

/-- Answers a request; `content` finds what the document named by the options holds. -/
def run (program : Text) (content : Options → Option Text) : Request → Run
  | help => { exit := 0, printout := { errors := usageText program } }
  | invalidPrecision argument =>
    { exit := 2, printout := { errors := "Invalid precision: " ++ argument ++ "\n" } }
  | unknownOption argument =>
    { exit := 2, printout := { errors := "Unknown option: " ++ argument ++ "\n" ++ usageText program } }
  | solve options => options.run (content options)

end Request

/-- A whole run, given standard input and the documents that exist. -/
def runCommand (arguments : List Text) (input : Text) (document : Text → Option Text)
    (program : Text := programName) : Run :=
  (readArguments {} arguments).run program fun options =>
    if options.readsStandardInput then some input else document options.document

end EquationPad
