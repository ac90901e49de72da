import MediaSheets.Compilation

/-!
# Workspaces

Several compilations of one project side by side. They share nothing but the warning log: what one
of them has warned about is not shown again for another.
-/

namespace MediaSheets

/-- The compilations of a project and their warning log. -/
structure Workspace where
  registry : Registry
  units : List Compilation
  log : WarningLog
  deriving DecidableEq, Repr

namespace Workspace

/-- A workspace with some compilations that hold no fragments yet. -/
def start (r : Registry) (log : WarningLog) (units : Nat) : Workspace :=
  ⟨r, List.replicate units (.start r), log⟩

def openUnit (w : Workspace) : Workspace := { w with units := w.units ++ [.start w.registry] }

/-- One more compilation, with all that another holds. -/
def copyUnit (w : Workspace) (index : Nat) : Workspace :=
  { w with units := w.units ++ w.units[index]?.toList }

/-- Submits to the compilation at an index, with what comes of it. Nothing comes of a submission to
a compilation that is not there. -/
def submit (w : Workspace) (index : Nat) (s : Submission) :
    Except AuthoringError Unit × Workspace :=
  match w.units[index]? with
  | none => (.ok (), w)
  | some c =>
    let (outcome, c, log) := c.receive w.log s
    (outcome, { w with units := w.units.set index c, log })

/-- Submits to the compilations at some indices one after another, also after a refusal, with what
comes of each submission. -/
def submitAll (w : Workspace) :
    List (Nat × Submission) → List (Except AuthoringError Unit) × Workspace
  | [] => ([], w)
  | (index, s) :: calls =>
    let (outcome, w) := w.submit index s
    let (outcomes, w) := w.submitAll calls
    (outcome :: outcomes, w)

end Workspace

end MediaSheets
