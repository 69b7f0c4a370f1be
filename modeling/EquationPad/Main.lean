import EquationPad.CommandLine

/-! The program: bytes in, bytes out. Only the document that the arguments name is
read. -/

namespace EquationPad

def textOfBytes (bytes : ByteArray) : Text := bytes.toList.map fun b => Char.ofNat b.toNat

def bytesOfText (text : Text) : ByteArray := ⟨(text.map fun c => c.toNat.toUInt8).toArray⟩

/-- The content of a file, or none if it cannot be read. -/
def readFile? (name : Text) : IO (Option Text) := do
  match String.fromUTF8? (bytesOfText name) with
  | none => return none
  | some path =>
    try return some (textOfBytes (← IO.FS.readBinFile path))
    catch _ => return none

def contentOf : Request → IO (Option Text)
  | .solve options =>
    if options.readsStandardInput then return some (textOfBytes (← (← IO.getStdin).readBinToEnd))
    else readFile? options.document
  | _ => return none

end EquationPad

open EquationPad in
def main (arguments : List String) : IO UInt32 := do
  let request := readArguments {} (arguments.map fun a => textOfBytes a.toUTF8)
  let content ← contentOf request
  let run := request.run programName fun _ => content
  let stdout ← IO.getStdout
  let stderr ← IO.getStderr
  stderr.write (bytesOfText run.printout.errors)
  stdout.write (bytesOfText run.printout.output)
  stdout.flush
  return run.exit.toUInt32
