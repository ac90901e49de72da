import MediaSheets.Distinct
import MediaSheets.Fragment
import MediaSheets.Registry
import MediaSheets.Text.Blank
import MediaSheets.WarningLog

/-!
# Compilations

A compilation files fragments by their targets. Each bucket keeps the order of submission, and the
positions kept with the fragments give back the order of all submissions together.
-/

namespace MediaSheets

/-- A fragment with its place in its bucket and its place among all submissions. -/
structure Filed where
  fragment : Fragment
  sequence : Nat
  position : Nat
  deriving DecidableEq, Repr

/-- The fragments submitted so far, in one bucket for each target that has any. -/
structure Compilation where
  registry : Registry
  buckets : List (Target × List Filed) := []
  submitted : Nat := 0
  deriving DecidableEq, Repr

/-- Refuses a target that is not registered. -/
def Registry.check (r : Registry) : Target → Except AuthoringError Unit
  | .universal => .ok ()
  | .breakpoint name => if r.contains name then .ok () else .error (.unknownBreakpoint name)

/-- The warning that a fragment holds no rules. -/
def blankWarning (f : Fragment) : Warning where
  area := "collect"
  message := s!"component `{f.component}` submitted a blank fragment for `{f.target.label}`"

namespace Compilation

def start (r : Registry) : Compilation := { registry := r }

/-- The fragments filed under a target, in the order of their submission. -/
def bucket (c : Compilation) (target : Target) : List Filed := (c.buckets.lookup target).getD []

/-- Appends a fragment to the bucket of its target, which is opened if there is none. -/
def fileIn (filed : Filed) : List (Target × List Filed) → List (Target × List Filed)
  | [] => [(filed.fragment.target, [filed])]
  | (target, bucket) :: buckets =>
    if target = filed.fragment.target then (target, bucket ++ [filed]) :: buckets
    else (target, bucket) :: fileIn filed buckets

def file (c : Compilation) (f : Fragment) : Compilation where
  registry := c.registry
  buckets := fileIn ⟨f, (c.bucket f.target).length, c.submitted⟩ c.buckets
  submitted := c.submitted + 1

def check (c : Compilation) (f : Fragment) : Except AuthoringError Unit := c.registry.check f.target

/-- Files a fragment if its target is registered, with a warning if it holds no rules. -/
def submit (c : Compilation) (log : WarningLog) (f : Fragment) :
    Except AuthoringError (Compilation × WarningLog) := do
  c.check f
  return (c.file f, if Text.isBlank f.text then log.warn (blankWarning f) else log)

/-- Submits fragments one after another, up to the first that is refused. -/
def submitAll (c : Compilation) (log : WarningLog) (fs : List Fragment) :
    Except AuthoringError (Compilation × WarningLog) :=
  fs.foldlM (fun (c, log) f => c.submit log f) (c, log)

/-- Submits all fragments of a component, after a look at each of them. -/
def submitComponent (c : Compilation) (log : WarningLog) (component : Component) :
    Except AuthoringError (Compilation × WarningLog) := do
  component.fragments.forM c.check
  c.submitAll log component.fragments

/-- What is left of submitting components up to the first that is refused. -/
structure Intake where
  compilation : Compilation
  log : WarningLog
  accepted : Nat
  /-- The component that was refused, and why. -/
  refused : Option (Component × AuthoringError)

/-- Submits components one after another, up to the first that is refused. -/
def submitComponents (c : Compilation) (log : WarningLog) : List Component → Intake
  | [] => ⟨c, log, 0, none⟩
  | component :: components =>
    match c.submitComponent log component with
    | .error error => ⟨c, log, 0, some (component, error)⟩
    | .ok (c, log) =>
      let rest := c.submitComponents log components
      { rest with accepted := rest.accepted + 1 }

def inSubmissionOrder (c : Compilation) : List Filed :=
  (c.buckets.flatMap (·.2)).mergeSort fun a b => a.position ≤ b.position

/-- The components that submitted fragments, in the order in which each first did. -/
def components (c : Compilation) : List String :=
  distinct (c.inSubmissionOrder.map (·.fragment.component))

/-! ### Submission in place -/

/-- A procedure on a compilation and the warning log that are changed in place: what is done before a
failure stays done. -/
abbrev Procedure := ExceptT AuthoringError (StateM (Compilation × WarningLog)) Unit

def checkInPlace (f : Fragment) : Procedure := do
  let (c, _) ← get
  MonadExcept.ofExcept (c.check f)

/-- Submits a fragment in place. It is looked at before a warning is recorded; then it is filed, and
at last counted. -/
def submitInPlace (f : Fragment) : Procedure := do
  checkInPlace f
  if Text.isBlank f.text then modify fun (c, log) => (c, log.warn (blankWarning f))
  modify fun (c, log) =>
    ({ c with buckets := fileIn ⟨f, (c.bucket f.target).length, c.submitted⟩ c.buckets }, log)
  modify fun (c, log) => ({ c with submitted := c.submitted + 1 }, log)

/-- Submits the fragments of a component in place, one after another, when all of them have been
looked at. -/
def submitComponentInPlace (component : Component) : Procedure := do
  component.fragments.forM checkInPlace
  component.fragments.forM submitInPlace

def procedure : Submission → Procedure
  | .fragment f => submitInPlace f
  | .component component => submitComponentInPlace component

/-- What comes of a submission, and the compilation and the log after it. -/
def receive (c : Compilation) (log : WarningLog) (s : Submission) :
    Except AuthoringError Unit × Compilation × WarningLog :=
  (procedure s).run.run (c, log)

/-- What comes of submissions that are tried one after another, also those after a refusal, and
the compilation and the log after them. -/
def receiveAll (c : Compilation) (log : WarningLog) :
    List Submission → List (Except AuthoringError Unit) × Compilation × WarningLog
  | [] => ([], c, log)
  | s :: rest =>
    let (outcome, c, log) := c.receive log s
    let (outcomes, state) := c.receiveAll log rest
    (outcome :: outcomes, state)

end Compilation

end MediaSheets
