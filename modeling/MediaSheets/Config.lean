import MediaSheets.Registry

/-!
# Configurations

A configuration lists the breakpoints of a project. `Declaration.toBreakpoint` checks that the
fields of a declaration fit its kind, and `Config.build` registers them all.
-/

namespace MediaSheets

/-- Where stylesheets for old browsers stop: at a rank, or at the rank of a breakpoint. -/
inductive Cutoff
  | atRank (rank : Int32)
  | atBreakpoint (name : String)
  deriving DecidableEq, Repr

structure Declaration where
  name : String := ""
  rank : Int32 := 0
  kind : Kind := .hiDpi
  width : Option WidthBound := none
  pairedWith : Option String := none
  deriving DecidableEq, Repr

/-- The breakpoints of a project in the order in which they are registered. -/
structure Config where
  cutoff : Cutoff := .atRank 0
  breakpoints : List Declaration := []
  deriving DecidableEq, Repr

/-- The condition of a declaration whose fields fit its kind, or what is wrong with them. -/
def Declaration.condition (d : Declaration) : Except String Condition :=
  match d.kind, d.width, d.pairedWith with
  | .baseWidth, none, _ => .error "base-width needs `width`"
  | .baseWidth, some _, some _ => .error "base-width does not take `paired_with`"
  | .baseWidth, some bound, none => .ok (.width bound)
  | .hiDpi, some _, _ => .error "hi-dpi does not take `width`"
  | .hiDpi, none, some _ => .error "hi-dpi does not take `paired_with`"
  | .hiDpi, none, none => .ok .hiDpi
  | .widthHiDpi, _, none => .error "width-hi-dpi needs `paired_with`"
  | .widthHiDpi, some _, some _ => .error "width-hi-dpi does not take `width`"
  | .widthHiDpi, none, some base => .ok (.pairedHiDpi base)

def Declaration.toBreakpoint (d : Declaration) : Except AuthoringError Breakpoint :=
  match d.condition with
  | .ok condition => .ok ⟨d.name, d.rank, condition⟩
  | .error reason => .error (.invalidBreakpoint d.name reason)

def Cutoff.resolve (r : Registry) : Cutoff → Except AuthoringError Int32
  | .atRank rank => .ok rank
  | .atBreakpoint name => (r.resolve name).map (·.rank)

def Registry.declare (r : Registry) (d : Declaration) : Except AuthoringError Registry := do
  r.register (← d.toBreakpoint)

/-- The registry of a configuration. A cutoff may name any of its breakpoints. -/
def Config.build (config : Config) : Except AuthoringError Registry := do
  let r ← config.breakpoints.foldlM Registry.declare (.empty Int32.minValue)
  return r.withCutoff (← config.cutoff.resolve r)

end MediaSheets
