import Rulebook.CommandLine.Run

/-!
The program: reads its arguments and the file they name, prints what the command prints and exits
with its code.
-/

namespace Rulebook.CommandLine

def obstacleOf : IO.Error → Obstacle
  | .noFileOrDirectory _ _ _ => .notFound
  | .inappropriateType _ code _ => if code = 21 then .isAFolder else .notAFolder
  | .permissionDenied _ _ _ => .denied
  | _ => .unreadable

def openFile (path : List Char) : IO Opened := do
  try
    let bytes ← IO.FS.readBinFile (String.ofList (tidy path))
    return .ok bytes.toList
  catch obstacle => return .error (obstacleOf obstacle)

def Escape.message : Escape → List Char
  | .decoding fault => fault.message
  | .reading fault => fault.message

def Outcome.print (outcome : Outcome) : IO UInt32 := do
  IO.print (String.ofList outcome.out)
  IO.eprint (String.ofList outcome.err)
  match outcome.ending with
  | .exit code => return UInt32.ofNat code
  | .escaped fault =>
      IO.eprintln (String.ofList fault.message)
      return 1

end Rulebook.CommandLine

open Rulebook.CommandLine in
def main (arguments : List String) : IO UInt32 := do
  match Invocation.read (arguments.map String.toList) with
  | .error stop => stop.outcome.print
  | .ok invocation =>
      let opened ← openFile invocation.file
      (invocation.run opened).print
