import MediaSheets.Media

/-!
# Breakpoints

A breakpoint is what authors name when they restrict a rule. Its rank decides where its rules come
in a stylesheet.
-/

namespace MediaSheets

/-- A condition as it is declared: a dense variant names the breakpoint whose width it shares. -/
inductive Condition
  | width (bound : WidthBound)
  | hiDpi
  | pairedHiDpi (base : String)
  deriving DecidableEq, Repr

def Condition.kind : Condition → Kind
  | .width _ => .baseWidth
  | .hiDpi => .hiDpi
  | .pairedHiDpi _ => .widthHiDpi

/-- The name of the breakpoint whose width is shared. -/
def Condition.base? : Condition → Option String
  | .pairedHiDpi base => some base
  | _ => none

/-- A named condition; lower ranks come first in a stylesheet. -/
structure Breakpoint where
  name : String
  rank : Int32
  condition : Condition
  deriving DecidableEq, Repr

def Breakpoint.kind (b : Breakpoint) : Kind := b.condition.kind

end MediaSheets
