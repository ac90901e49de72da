import MediaSheets.CommandLine.Program

/-!
# The executable

The program over the files of the machine it runs on.
-/

namespace MediaSheets.CommandLine

/-- The fault that an error of the machine stands for. -/
def FileFault.ofError : IO.Error → FileFault
  | .noFileOrDirectory .. | .noSuchThing .. => .missing
  | .alreadyExists .. => .alreadyExists
  | .inappropriateType .. => .isDirectory
  | error => .other (toString error)

/-- Runs an action, and keeps what goes wrong as a fault. -/
def guarded (action : IO α) : IO (Except FileFault α) := do
  match ← action.toBaseIO with
  | .ok value => return .ok value
  | .error error => return .error (.ofError error)

instance : FileSystem IO where
  readText path := do
    match ← guarded (IO.FS.readBinFile path) with
    | .error fault => return .error fault
    | .ok content =>
      match String.fromUTF8? content with
      | some text => return .ok text
      | none => return .error .notText
  createDirectories path := guarded (IO.FS.createDirAll path)
  writeText path content := guarded (IO.FS.writeFile path content)

end MediaSheets.CommandLine

open MediaSheets.CommandLine in
def main (args : List String) : IO UInt32 := do
  let outcome : Outcome ← run args
  IO.print outcome.stdout
  IO.eprint outcome.stderr
  return outcome.exit.toUInt32
