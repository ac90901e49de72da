import MediaSheets.Plan

/-!
# Command line arguments

`Reading.ofArguments` takes arguments from left to right. General options may stand before or after
the command; the options of a command are known after it alone.
-/

namespace MediaSheets.CommandLine

inductive Command
  | build (source : String) (modern legacy : Option String)
  | inspect (source : String) (mode : Mode) (json : Bool)
  | predicates
  deriving DecidableEq, Repr

structure Invocation where
  command : Command
  config : Option String
  quiet : Bool
  deriving DecidableEq, Repr

/-- What arguments amount to. -/
inductive Reading
  | run (invocation : Invocation)
  | version
  | help
  | misuse
  deriving DecidableEq, Repr

inductive Flag
  | quiet
  | verbose
  | json
  | help
  | version
  deriving DecidableEq, Repr

inductive Setting
  | config
  | modern
  | legacy
  | mode
  deriving DecidableEq, Repr

/-- Where in the arguments an option stands: before the command, or after one that is given. -/
inductive Place
  | general
  | build
  | inspect
  | predicates
  deriving DecidableEq, Repr

def Place.flags (place : Place) : List (String × Flag) :=
  [("quiet", .quiet), ("verbose", .verbose), ("help", .help)] ++
    match place with
    | .general => [("version", .version)]
    | .inspect => [("json", .json)]
    | _ => []

def Place.settings (place : Place) : List (String × Setting) :=
  ("config", .config) ::
    match place with
    | .build => [("modern", .modern), ("legacy", .legacy)]
    | .inspect => [("mode", .mode)]
    | _ => []

def Place.flagLetters (place : Place) : List (Char × Flag) :=
  [('q', .quiet), ('v', .verbose), ('h', .help)] ++
    if place = .general then [('V', .version)] else []

/-- One argument, or an option with its value. -/
inductive Piece
  | flag (flag : Flag)
  | setting (setting : Setting) (value : String)
  | word (text : String)
  /-- The command with all that follows it. -/
  | command (name : String) (rest : List String)
  | unknown
  deriving DecidableEq, Repr

/-- Whether an argument can be the value of the option before it. A lone hyphen can. -/
def isValue (arg : String) : Bool := arg == "-" || arg.toList.head? != some '-'

/-- The option with a name, and a value behind an equals sign if there is one. The second part is a
setting whose value is the next argument. -/
def readName (place : Place) (body : List Char) : List Piece × Option Setting :=
  let name := String.ofList (body.takeWhile (· != '='))
  match place.flags.lookup name, place.settings.lookup name, body.dropWhile (· != '=') with
  | some flag, _, [] => ([.flag flag], none)
  | none, some setting, [] => ([], some setting)
  | none, some setting, _ :: value => ([.setting setting (String.ofList value)], none)
  | _, _, _ => ([.unknown], none)

/-- Letters behind one hyphen: flags, and possibly a setting with the rest as its value. -/
def readLetters (place : Place) : List Char → List Piece × Option Setting
  | [] => ([], none)
  | 'c' :: [] => ([], some .config)
  | 'c' :: '=' :: value => ([.setting .config (String.ofList value)], none)
  | 'c' :: value => ([.setting .config (String.ofList value)], none)
  | letter :: letters =>
    match place.flagLetters.lookup letter with
    | none => ([.unknown], none)
    | some flag =>
      let (pieces, pending) := readLetters place letters
      (.flag flag :: pieces, pending)

/-- The pieces that arguments at a place fall into. `pending` is a setting whose value is due. -/
def pieces (place : Place) : (pending : Option Setting) → List String → List Piece
  | none, [] => []
  | some _, [] => [.unknown]
  | some setting, arg :: args =>
    if isValue arg then .setting setting arg :: pieces place none args else [.unknown]
  | none, arg :: args =>
    match arg.toList with
    | ['-', '-'] => args.map fun arg => if place = .general then .unknown else .word arg
    | '-' :: '-' :: body =>
      let (found, pending) := readName place body
      found ++ pieces place pending args
    | '-' :: letter :: letters =>
      let (found, pending) := readLetters place (letter :: letters)
      found ++ pieces place pending args
    | _ =>
      if place = .general then [.command arg args]
      else .word arg :: pieces place none args

/-- The options and words found at one place. -/
structure Choices where
  config : Option String := none
  quiet : Bool := false
  source : Option String := none
  modern : Option String := none
  legacy : Option String := none
  mode : Option Mode := none
  json : Bool := false
  deriving DecidableEq, Repr

def modeOfName? : String → Option Mode
  | "modern" => some .modern
  | "legacy" => some .legacy
  | _ => none

/-- A value for what has none yet; no value is empty. -/
def fill (old : Option String) (value : String) : Except Reading (Option String) :=
  if old.isSome || value.isEmpty then .error .misuse else .ok (some value)

/-- Takes one more piece into account. All flags but `verbose` are given at most once. -/
def Choices.add (place : Place) (c : Choices) : Piece → Except Reading Choices
  | .flag .help => .error .help
  | .flag .version => .error .version
  | .flag .verbose => .ok c
  | .flag .quiet => if c.quiet then .error .misuse else .ok { c with quiet := true }
  | .flag .json => if c.json then .error .misuse else .ok { c with json := true }
  | .setting .config value => (fill c.config value).map fun config => { c with config }
  | .setting .modern value => (fill c.modern value).map fun modern => { c with modern }
  | .setting .legacy value => (fill c.legacy value).map fun legacy => { c with legacy }
  | .setting .mode value =>
    match c.mode, modeOfName? value with
    | none, some mode => .ok { c with mode := some mode }
    | _, _ => .error .misuse
  | .word value =>
    if place = .predicates then .error .misuse
    else (fill c.source value).map fun source => { c with source }
  | .command _ _ | .unknown => .error .misuse

/-- The command at a place with its choices, if it has a source where it needs one. -/
def Choices.command? (c : Choices) : Place → Option Command
  | .general => none
  | .build => c.source.map fun source => .build source c.modern c.legacy
  | .inspect => c.source.map fun source => .inspect source (c.mode.getD .modern) c.json
  | .predicates => some .predicates

def placeOfName? : String → Option Place
  | "build" => some .build
  | "inspect" => some .inspect
  | "predicates" => some .predicates
  | _ => none

/-- What arguments after a command amount to. A configuration given there counts before one given
in front of the command. -/
def readCommand (general : Choices) (place : Place) (args : List String) : Reading :=
  match (pieces place none args).foldlM (Choices.add place) {} with
  | .error reading => reading
  | .ok c =>
    match c.command? place with
    | none => .misuse
    | some command => .run ⟨command, c.config.or general.config, general.quiet || c.quiet⟩

/-- What a request for help amounts to: the command it is about may be named. -/
def readHelp : List String → Reading
  | [] => .help
  | [name] => if name = "help" ∨ (placeOfName? name).isSome then .help else .misuse
  | _ => .misuse

/-- What pieces in front of a command, and the command, amount to. -/
def readGeneral (c : Choices) : List Piece → Reading
  | [] => .misuse
  | .command name args :: _ =>
    match placeOfName? name with
    | some place => readCommand c place args
    | none => if name = "help" then readHelp args else .misuse
  | piece :: rest =>
    match c.add .general piece with
    | .error reading => reading
    | .ok c => readGeneral c rest

/-- What the arguments of the program amount to. -/
def Reading.ofArguments (args : List String) : Reading := readGeneral {} (pieces .general none args)

end MediaSheets.CommandLine
