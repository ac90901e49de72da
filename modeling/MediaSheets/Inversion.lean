import MediaSheets.Compilation

/-!
# Cascade inversions

A stylesheet orders rules by rank. Where a component writes a rule of lower rank after one of higher
rank, the two come out in the other order; `Compilation.inversions` lists these places.
-/

namespace MediaSheets

/-- A component's rules for `later` come after its rules for `earlier`, which has a higher rank. -/
structure Inversion where
  component : String
  earlier : Target
  later : Target
  deriving DecidableEq, Repr

def Inversion.message (i : Inversion) : String :=
  s!"component `{i.component}` writes `{i.later.label}` rules after `{i.earlier.label}` rules, " ++
    s!"but `{i.later.label}` is emitted first"

def Inversion.warning (i : Inversion) : Warning := ⟨"cascade", i.message⟩

/-- The rank of a target; universal rules have none and lie below all ranks. -/
def Registry.rank? (r : Registry) : Target → Option Int32
  | .universal => none
  | .breakpoint name => (r.find? name).map (·.breakpoint.rank)

/-- What is known after some fragments: the highest target of each component, of several the first,
and the inversions found. -/
structure Survey where
  highest : List (String × Target) := []
  found : List Inversion := []

/-- Puts a component's highest target in place of the one before. -/
def Survey.raise (s : Survey) (component : String) (target : Target) : Survey :=
  { s with highest := (component, target) :: s.highest.filter (·.1 != component) }

/-- Adds an inversion unless it is known. -/
def Survey.report (s : Survey) (i : Inversion) : Survey :=
  if s.found.contains i then s else { s with found := s.found ++ [i] }

def Survey.visit (r : Registry) (s : Survey) (f : Fragment) : Survey :=
  match s.highest.lookup f.component with
  | none => s.raise f.component f.target
  | some top =>
    match compare (r.rank? f.target) (r.rank? top) with
    | .lt => s.report ⟨f.component, top, f.target⟩
    | .eq => s
    | .gt => s.raise f.component f.target

/-- The inversions among fragments in the order of their submission, each where it first shows. -/
def Registry.inversions (r : Registry) (fs : List Fragment) : List Inversion :=
  (fs.foldl (Survey.visit r) {}).found

def Compilation.inversions (c : Compilation) : List Inversion :=
  c.registry.inversions (c.inSubmissionOrder.map (·.fragment))

end MediaSheets
