import MediaSheets.CommandLine.Style
import MediaSheets.Plan
import MediaSheets.Text.Split

/-!
# Listings

What the program shows on a terminal: plans, registries, warnings and failures.
-/

namespace MediaSheets.CommandLine

/-- A text as lines that end with a line break. -/
def lines (texts : List String) : String := String.join (texts.map (· ++ "\n"))

/-- The lines about a block. The condition is shown where the stylesheet will have it. -/
def blockLines (mode : Mode) (block : Block) (index : Nat) : List String :=
  let origin := s!"{block.fragmentCount} fragment(s) from " ++ ", ".intercalate block.components
  let number := alignRight 3 (toString index)
  match block.target with
  | .universal => [number ++ "  " ++ bold (green "universal") ++ "  " ++ origin]
  | .breakpoint name rank media =>
    let title := bold (cyan name) ++ s!" (rank {rank.toInt})  " ++ origin
    [number ++ "  " ++ title] ++
      match mode with
      | .modern => ["     " ++ dimmed media.predicate]
      | .legacy => []

def planListing (mode : Mode) (plan : List Block) : String :=
  lines (s!"=== {mode.name} plan ({plan.length} blocks) ===" ::
    (plan.mapIdx fun index block => blockLines mode block index).flatten)

def breakpointLines (r : Registry) (entry : Entry) : List String :=
  let b := entry.breakpoint
  let sheets := if r.isLegacy b then green "legacy" else yellow "modern only"
  [alignRight 4 (toString b.rank.toInt) ++ "  " ++ bold (alignLeft 10 b.name) ++ " " ++
      alignLeft 13 b.kind.name ++ " " ++ sheets,
    "      " ++ dimmed entry.media.predicate]

def registryListing (r : Registry) : String :=
  lines (s!"=== Breakpoints ({r.size} registered, legacy cutoff rank {r.cutoff.toInt}) ===" ::
    r.entries.flatMap (breakpointLines r))

def warningLine (w : Warning) : String := lines [yellow s!"[strata {w.area}] ⚠ {w.message}"]

/-- What the program was about when something went wrong, and what that was. -/
structure Failure where
  context : String
  cause : String
  deriving DecidableEq, Repr

/-- The text of a failure; further lines of the cause are indented like its first. -/
def Failure.text (failure : Failure) : String :=
  "Error: " ++ failure.context ++ "\n\nCaused by:\n    " ++
    "\n    ".intercalate (Text.split '\n' failure.cause) ++ "\n"

end MediaSheets.CommandLine
