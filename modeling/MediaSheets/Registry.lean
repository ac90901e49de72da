import MediaSheets.AuthoringError
import MediaSheets.Breakpoint

/-!
# The registry

The breakpoints of a project under their ranks, with their conditions looked up, and the rank at
which stylesheets for old browsers stop. Names lead to ranks, and ranks to breakpoints;
`Registry.register` keeps both distinct.
-/

namespace MediaSheets

structure Entry where
  breakpoint : Breakpoint
  media : Media
  deriving DecidableEq, Repr

/-- The entry that holds each rank, by ascending rank, the rank of each name, and the highest rank
that old browsers are given. -/
structure Registry where
  cutoff : Int32
  holders : List (Int32 × Entry)
  ranks : List (String × Int32)
  deriving DecidableEq, Repr

namespace Registry

def empty (cutoff : Int32) : Registry := ⟨cutoff, [], []⟩

/-- The entries in the order of the ranks that they are kept under. -/
def entries (r : Registry) : List Entry := r.holders.map (·.2)

def findAt? (r : Registry) (rank : Int32) : Option Entry := r.holders.lookup rank

/-- The entry under a name, which is the one at the rank of the name. -/
def find? (r : Registry) (name : String) : Option Entry := (r.ranks.lookup name).bind r.findAt?

def contains (r : Registry) (name : String) : Bool := (r.ranks.lookup name).isSome

/-- The entry under a name, or the error that nothing is registered there. -/
def entry (r : Registry) (name : String) : Except AuthoringError Entry :=
  match r.find? name with
  | some entry => .ok entry
  | none => .error (.unknownBreakpoint name)

def resolve (r : Registry) (name : String) : Except AuthoringError Breakpoint :=
  (r.entry name).map (·.breakpoint)

def media (r : Registry) (name : String) : Except AuthoringError Media :=
  (r.entry name).map (·.media)

def predicate (r : Registry) (name : String) : Except AuthoringError String :=
  (r.media name).map (·.predicate)

/-- The condition that a new breakpoint has among those already registered. -/
def mediaOf (r : Registry) (b : Breakpoint) : Except AuthoringError Media :=
  match b.condition with
  | .width bound => .ok (.width bound)
  | .hiDpi => .ok .hiDpi
  | .pairedHiDpi base =>
    match r.find? base with
    | none => .error (.danglingPair b.name base)
    | some entry =>
      match entry.media with
      | .width bound => .ok (.widthHiDpi bound)
      | _ => .error (.invalidPair b.name base)

/-- Puts an entry under a rank, in place of one that is there. -/
def insertAt (rank : Int32) (new : Entry) : List (Int32 × Entry) → List (Int32 × Entry)
  | [] => [(rank, new)]
  | (other, entry) :: rest =>
    if rank < other then (rank, new) :: (other, entry) :: rest
    else if rank = other then (rank, new) :: rest
    else (other, entry) :: insertAt rank new rest

/-- Puts an entry under its rank, and its rank under its name. -/
def add (r : Registry) (new : Entry) : Registry :=
  { r with
    holders := insertAt new.breakpoint.rank new r.holders
    ranks := (new.breakpoint.name, new.breakpoint.rank) :: r.ranks }

/-- Adds a breakpoint whose name and rank are free, and whose base, if it names one, is a registered
width. -/
def register (r : Registry) (b : Breakpoint) : Except AuthoringError Registry :=
  if r.contains b.name then .error (.duplicateName b.name)
  else
    match r.findAt? b.rank with
    | some holder => .error (.duplicateRank b.rank holder.breakpoint.name)
    | none => (r.mediaOf b).map fun media => r.add ⟨b, media⟩

def registerAll (r : Registry) (bs : List Breakpoint) : Except AuthoringError Registry :=
  bs.foldlM register r

/-- Moves the rank at which stylesheets for old browsers stop. -/
def withCutoff (r : Registry) (cutoff : Int32) : Registry := { r with cutoff }

def breakpoints (r : Registry) : List Breakpoint := r.entries.map (·.breakpoint)

def size (r : Registry) : Nat := r.holders.length

/-- Whether old browsers are given the rules of a breakpoint, registered or not: an upper bound on
the width always counts, a lower one up to the cutoff, and density never. -/
def isLegacy (r : Registry) (b : Breakpoint) : Bool :=
  match b.condition with
  | .width (.atMost _) => true
  | .width (.atLeast _) => b.rank ≤ r.cutoff
  | _ => false

/-- The breakpoints whose rules old browsers are given, by ascending rank. -/
def legacyBreakpoints (r : Registry) : List Breakpoint := r.breakpoints.filter r.isLegacy

/-! ### Changes in place -/

/-- A procedure on a registry that is changed in place: what is done before a failure stays done. -/
abbrev Procedure := ExceptT AuthoringError (StateM Registry) Unit

/-- Registers a breakpoint in place. All that can be wrong with it is looked at before the rank of
its name is put down, and after that its entry. -/
def registerInPlace (b : Breakpoint) : Procedure := do
  let r ← get
  if r.contains b.name then throw (.duplicateName b.name)
  else
    match r.findAt? b.rank with
    | some holder => throw (.duplicateRank b.rank holder.breakpoint.name)
    | none =>
      let media ← MonadExcept.ofExcept (r.mediaOf b)
      modify fun r => { r with ranks := (b.name, b.rank) :: r.ranks }
      modify fun r => { r with holders := insertAt b.rank ⟨b, media⟩ r.holders }

/-- What can be done to a registry. -/
inductive Change
  | register (b : Breakpoint)
  | moveCutoff (cutoff : Int32)
  deriving DecidableEq, Repr

def Change.procedure : Change → Procedure
  | .register b => registerInPlace b
  | .moveCutoff cutoff => modify (·.withCutoff cutoff)

/-- What comes of a change, and the registry after it. -/
def change (r : Registry) (c : Change) : Except AuthoringError Unit × Registry :=
  c.procedure.run.run r

/-- The registry after changes that are tried one after another, also those after a failure. -/
def after (r : Registry) (changes : List Change) : Registry :=
  changes.foldl (fun r c => (r.change c).2) r

end Registry

end MediaSheets
