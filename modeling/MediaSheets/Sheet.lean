import MediaSheets.Plan

/-!
# Stylesheets

The text of a plan: with media conditions around the blocks of breakpoints, or without.
-/

namespace MediaSheets

/-- The text of a block with its condition around it. -/
def Block.modernText (block : Block) : String :=
  match block.target with
  | .universal => block.body
  | .breakpoint _ _ media => "@media " ++ media.predicate ++ " \x7b\n" ++ block.body ++ "\n\x7d"

/-- The stylesheet with conditions; an empty line stands between two blocks. -/
def modernSheet (plan : List Block) : String := "\n\n".intercalate (plan.map Block.modernText)

/-- The stylesheet without conditions: the bodies alone, each on lines of its own. -/
def legacySheet (plan : List Block) : String := "\n".intercalate (plan.map (·.body))

/-- The stylesheet of a compilation for browsers that understand media conditions. -/
def Compilation.modern (c : Compilation) : String := modernSheet (c.plan .modern)

/-- The stylesheet of a compilation for browsers that do not. -/
def Compilation.legacy (c : Compilation) : String := legacySheet (c.plan .legacy)

end MediaSheets
