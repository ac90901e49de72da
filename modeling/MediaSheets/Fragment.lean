/-!
# Fragments and components

Rules are opaque text. A fragment is one piece of it, with the component it comes from and the
breakpoint it is meant for; a component is what one author wrote, in order.
-/

namespace MediaSheets

/-- Where rules apply: everywhere, or within one breakpoint. -/
inductive Target
  | universal
  | breakpoint (name : String)
  deriving DecidableEq, Repr

def Target.name? : Target → Option String
  | .universal => none
  | .breakpoint name => some name

/-- The target with a breakpoint's name, or the universal one. -/
def Target.ofName? : Option String → Target
  | none => .universal
  | some name => .breakpoint name

def Target.label : Target → String
  | .universal => "universal"
  | .breakpoint name => name

structure Fragment where
  component : String
  target : Target
  text : String
  deriving DecidableEq, Repr

/-- One piece of rule text within its component. -/
structure Rule where
  target : Target := .universal
  text : String := ""
  deriving DecidableEq, Repr

/-- The rules of one component in the order they are written. -/
structure Component where
  id : String := ""
  rules : List Rule := []
  deriving DecidableEq, Repr

/-- A component with one more rule at its end. -/
def Component.add (c : Component) (target : Target) (text : String) : Component :=
  { c with rules := c.rules ++ [⟨target, text⟩] }

def Component.fragments (c : Component) : List Fragment :=
  c.rules.map fun rule => ⟨c.id, rule.target, rule.text⟩

/-- What can be submitted to a compilation. -/
inductive Submission
  | fragment (f : Fragment)
  | component (c : Component)
  deriving DecidableEq, Repr

structure SourceDocument where
  components : List Component := []
  deriving DecidableEq, Repr

def SourceDocument.fragments (d : SourceDocument) : List Fragment :=
  d.components.flatMap Component.fragments

end MediaSheets
