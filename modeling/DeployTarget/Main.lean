import DeployTarget.Command

/-!
# The program

The outer layer: it reads the file that a command names, prints the report of the
command and ends with its exit code.
-/

open DeployTarget

def fileFault : IO.Error → FileFault
  | .noFileOrDirectory .. => .missing
  | .permissionDenied .. => .forbidden
  | .inappropriateType _ code _ => if code = 21 then .isDirectory else .notDirectory
  | error => .other (toString error)

/-- The text of a file, or why it cannot be read. -/
def readFileText (path : String) : IO (Except FileFault String) := do
  try
    match String.fromUTF8? (← IO.FS.readBinFile path) with
    | some text => return .ok text
    | none => return .error .notText
  catch error => return .error (fileFault error)

def runCommand (command : Command) : IO UInt32 := do
  let text ← match command.file? with
    | some file => readFileText file
    | none => pure (.error .missing)
  let report := command.run fun _ => text
  for line in report.log do
    IO.eprintln line
  IO.print report.output
  match report.failure with
  | some error =>
      IO.eprintln ("error: " ++ error.message)
      return 1
  | none => return 0

def main (arguments : List String) : IO UInt32 := do
  match Command.read arguments with
  | .run command => runCommand command
  | .print text =>
      IO.print text
      return 0
  | .misused =>
      IO.eprint Command.programHelp
      return 2
