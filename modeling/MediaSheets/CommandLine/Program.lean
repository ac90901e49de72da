import MediaSheets.CommandLine.Arguments
import MediaSheets.CommandLine.Files
import MediaSheets.CommandLine.Listing
import MediaSheets.Config.Json
import MediaSheets.Config.Standard
import MediaSheets.Inversion
import MediaSheets.Plan.Json
import MediaSheets.Sheet
import MediaSheets.Source.Json

/-!
# The program

What a run does, over any file system. Everything that can go wrong with breakpoints and sources has
gone wrong before the first file is written.
-/

namespace MediaSheets.CommandLine

/-- What a run leaves on a terminal. -/
structure Outcome where
  exit : UInt8 := 0
  stdout : String := ""
  stderr : String := ""
  deriving DecidableEq, Repr

/-- The result of a step, or what went wrong in it. -/
abbrev Attempt (α : Type) := Except Failure α

/-- Says what a step was about when it goes wrong. -/
def orFail (context : String) (message : ε → String) : Except ε α → Attempt α
  | .ok value => .ok value
  | .error error => .error ⟨context, message error⟩

/-- The configuration in a text, for the path it was read from. -/
def parseConfig (path text : String) : Attempt Config :=
  orFail s!"invalid config '{path}'" AuthoringError.message (Config.ofJson text)

/-- The source document in a text, for the path it was read from. -/
def parseSource (path text : String) : Attempt SourceDocument :=
  orFail s!"invalid source '{path}'" AuthoringError.message (SourceDocument.ofJson text)

def buildRegistry (config : Config) : Attempt Registry :=
  orFail "failed to build breakpoint registry" AuthoringError.message config.build

def warnInversions (log : WarningLog) (inversions : List Inversion) : WarningLog :=
  inversions.foldl (fun log inversion => log.warn inversion.warning) log

/-- Submits a document to a new compilation, with the warnings that this raises. -/
def compileDocument (r : Registry) (log : WarningLog) (document : SourceDocument) :
    Attempt Compilation × WarningLog :=
  let intake := (Compilation.start r).submitComponents log document.components
  match intake.refused with
  | some (component, error) =>
    (.error ⟨s!"component `{component.id}`", error.message⟩, intake.log)
  | none => (.ok intake.compilation, warnInversions intake.log intake.compilation.inversions)

/-- Ends a run with what its last step left on the terminal, after the warnings. -/
def Outcome.ofAttempt (log : WarningLog) : Attempt String → Outcome
  | .ok stdout => { stdout, stderr := String.join (log.shown.map warningLine) }
  | .error failure =>
    { exit := 1, stderr := String.join (log.shown.map warningLine) ++ failure.text }

section Effects

variable {m : Type → Type} [Monad m] [FileSystem m]

/-- The registry of the configuration at a path, or of the standard one. -/
def loadRegistry : (path : Option String) → m (Attempt Registry)
  | none => return buildRegistry Config.standard
  | some path => do
    let text ← FileSystem.readText path
    return do
      let text ← orFail s!"failed to read config '{path}'" FileFault.message text
      buildRegistry (← parseConfig path text)

/-- Compiles the source document at a path. -/
def compileSource (r : Registry) (log : WarningLog) (path : String) :
    m (Attempt Compilation × WarningLog) := do
  let text ← FileSystem.readText path
  let document := do
    let text ← orFail s!"failed to read source '{path}'" FileFault.message text
    parseSource path text
  match document with
  | .error failure => return (.error failure, log)
  | .ok document => return compileDocument r log document

/-- Writes a stylesheet to a path, if there is one, in a directory that is made for it. -/
def writeSheet : (path : Option String) → (sheet : String) → m (Attempt Unit)
  | none, _ => return .ok ()
  | some path, sheet => ExceptT.run do
    if let some directory := parentOf? path then
      let made ← ExceptT.lift (FileSystem.createDirectories directory)
      ExceptT.mk (pure (orFail s!"failed to create '{directory}'" FileFault.message made))
    let written ← ExceptT.lift (FileSystem.writeText path (sheet ++ "\n"))
    ExceptT.mk (pure (orFail s!"failed to write '{path}'" FileFault.message written))

/-- Writes the stylesheets of a compilation where they are asked for. Without any path the modern
one goes to the terminal. -/
def writeSheets (c : Compilation) (modern legacy : Option String) : m (Attempt String) :=
  if modern.isNone && legacy.isNone then return .ok (c.modern ++ "\n")
  else ExceptT.run do
    ExceptT.mk (writeSheet modern c.modern)
    ExceptT.mk (writeSheet legacy c.legacy)
    return ""

def showPlan (mode : Mode) (json : Bool) (plan : List Block) : String :=
  if json then planText plan ++ "\n" else planListing mode plan

def Command.run (r : Registry) (log : WarningLog) : Command → m Outcome
  | .predicates => return .ofAttempt log (.ok (registryListing r))
  | .inspect source mode json => do
    let (compiled, log) ← compileSource r log source
    return .ofAttempt log (compiled.map fun c => showPlan mode json (c.plan mode))
  | .build source modern legacy => do
    match ← compileSource r log source with
    | (.error failure, log) => return .ofAttempt log (.error failure)
    | (.ok c, log) => return .ofAttempt log (← writeSheets c modern legacy)

def Invocation.run (invocation : Invocation) : m Outcome := do
  let log : WarningLog := { quiet := invocation.quiet }
  match ← loadRegistry invocation.config with
  | .error failure => return .ofAttempt log (.error failure)
  | .ok r => invocation.command.run r log

/-- The name of the program and its version. -/
def versionText : String := "strata 0.1.0\n"

def usageText : String :=
  lines ["Usage: strata [-c FILE] [-q] [-v]... COMMAND", "",
    "  build SOURCE [--modern FILE] [--legacy FILE]   compile a source document",
    "  inspect SOURCE [--mode modern|legacy] [--json]  print the plan of a stylesheet",
    "  predicates                                      list the breakpoints"]

def run (args : List String) : m Outcome :=
  match Reading.ofArguments args with
  | .run invocation => invocation.run
  | .version => return { stdout := versionText }
  | .help => return { stdout := usageText }
  | .misuse => return { exit := 2, stderr := usageText }

end Effects

end MediaSheets.CommandLine
