import MediaSheets.Text.Split

/-!
# Files

The three things that the program does to files, and why each can fail. A path that begins with a
slash goes from the root, and any other from the current directory; `..` is a step back.
-/

namespace MediaSheets.CommandLine

/-- Why something cannot be done to a file. -/
inductive FileFault
  | missing
  | isDirectory
  | notDirectory
  | alreadyExists
  /-- The content is not encoded as text. -/
  | notText
  | other (reason : String)
  deriving DecidableEq, Repr

def FileFault.message : FileFault → String
  | .missing => "No such file or directory (os error 2)"
  | .isDirectory => "Is a directory (os error 21)"
  | .notDirectory => "Not a directory (os error 20)"
  | .alreadyExists => "File exists (os error 17)"
  | .notText => "stream did not contain valid UTF-8"
  | .other reason => reason

/-- What the program needs of files. -/
class FileSystem (m : Type → Type) where
  readText : String → m (Except FileFault String)
  /-- Makes a directory and those it lies in, as far as they are not there. -/
  createDirectories : String → m (Except FileFault Unit)
  /-- Makes a file with a text, in place of the one that was there. -/
  writeText : String → String → m (Except FileFault Unit)

/-- Whether a part of a path stays where it is. -/
def isIdle (part : String) : Bool := part == "" || part == "."

/-- The parts of a path without the idle ones at its end; the first part stays. -/
def dropIdleEnd : List String → List String
  | [] => []
  | first :: parts => first :: (parts.reverse.dropWhile isIdle).reverse

/-- The directory that a path lies in, as it is written, unless that is the current one. -/
def parentOf? (path : String) : Option String :=
  match dropIdleEnd (dropIdleEnd (Text.split '/' path)).dropLast with
  | [] => none
  | [""] => some "/"
  | parts => some ("/".intercalate parts)

end MediaSheets.CommandLine
