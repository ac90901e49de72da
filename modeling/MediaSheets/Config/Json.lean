import MediaSheets.Config
import MediaSheets.Media.Json

/-!
# Configurations as JSON

`Config.ofJson` reads a configuration and refuses anything it has no use for; `Config.toJson` writes
one that reads back as the same.
-/

namespace MediaSheets

open Json (Draft Fault Reader Record Field Value)

/-- The cutoff that a whole value stands for: an integer of 32 bits, or a name. -/
def Cutoff.ofWhole? : Draft → Option Cutoff
  | .number (.integer n) => (Json.int32? n).map .atRank
  | .text name => some (.atBreakpoint name)
  | _ => none

/-- Reads a cutoff. Whatever stands there is read whole before it is looked at. -/
def Cutoff.read : Reader Cutoff := fun draft =>
  match draft.fault? with
  | some fault => .error fault
  | none =>
    match ofWhole? draft with
    | some cutoff => .ok cutoff
    | none => .error (.noAlternative "Cutoff")

def Declaration.record : Record Declaration where
  name := "BreakpointConfig"
  fields :=
    [.needed "name" Reader.text fun name d => { d with name },
      .needed "rank" Reader.int32 fun rank d => { d with rank },
      .needed "kind" Kind.read fun kind d => { d with kind },
      .optional "width" (Reader.nullable WidthBound.read) fun width d => { d with width },
      .optional "paired_with" (Reader.nullable Reader.text) fun pairedWith d =>
        { d with pairedWith }]
  blank := {}

def Config.record : Record Config where
  name := "RegistryConfig"
  fields :=
    [.needed "cutoff" Cutoff.read fun cutoff c => { c with cutoff },
      .needed "breakpoints" (Reader.list Declaration.record.read) fun breakpoints c =>
        { c with breakpoints }]
  blank := {}

def Config.ofJson (text : String) : Except AuthoringError Config :=
  (Reader.ofText Config.record.read text).mapError fun fault => .unreadable fault.message

def Cutoff.toJson : Cutoff → Value
  | .atRank rank => .integer rank.toInt
  | .atBreakpoint name => .text name

/-- The value that a declaration is written as; fields that are not given are left out. -/
def Declaration.toJson (d : Declaration) : Value :=
  .object ([("name", .text d.name), ("rank", .integer d.rank.toInt), ("kind", .text d.kind.name)] ++
    (d.width.map fun bound => ("width", bound.toJson)).toList ++
    (d.pairedWith.map fun base => ("paired_with", Value.text base)).toList)

def Config.toValue (c : Config) : Value :=
  .object [("cutoff", c.cutoff.toJson),
    ("breakpoints", .list (c.breakpoints.map Declaration.toJson))]

/-- The text of a configuration with one element to a line. -/
def Config.toJson (c : Config) : String := c.toValue.pretty

end MediaSheets
