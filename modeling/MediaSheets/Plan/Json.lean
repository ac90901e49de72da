import MediaSheets.Media.Json
import MediaSheets.Plan

/-!
# Plans as JSON

A plan loses nothing when it is written: targets, bodies, components and counts all stand in the
text.
-/

namespace MediaSheets

open Json (Reader Value)

/-- A target with its type as first member. -/
def BlockTarget.toJson : BlockTarget → Value
  | .universal => .object [("type", .text "universal")]
  | .breakpoint name rank media =>
    .object [("type", .text "breakpoint"), ("name", .text name), ("rank", .integer rank.toInt),
      ("media", media.toJson)]

def Block.toJson (block : Block) : Value :=
  .object [("target", block.target.toJson), ("body", .text block.body),
    ("components", .list (block.components.map .text)),
    ("fragment_count", .integer block.fragmentCount)]

def Mode.read : Reader Mode := .variant [("modern", .bare .modern), ("legacy", .bare .legacy)]

/-- The text of a plan with one element to a line. -/
def planText (plan : List Block) : String := (Value.list (plan.map Block.toJson)).pretty

end MediaSheets
