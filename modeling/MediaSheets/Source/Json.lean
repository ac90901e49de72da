import MediaSheets.AuthoringError
import MediaSheets.Fragment
import MediaSheets.Json.Reader
import MediaSheets.Json.Value

/-!
# Source documents as JSON

`SourceDocument.ofJson` reads what the authors wrote and `SourceDocument.toJson` writes it back.
-/

namespace MediaSheets

open Json (Reader Record Field Value)

/-- Reads the name of a breakpoint, or `null` for rules that apply everywhere. -/
def Target.read : Reader Target := fun draft =>
  (Reader.nullable Reader.text draft).map Target.ofName?

def Rule.record : Record Rule where
  name := "RuleSource"
  fields :=
    [.optional "breakpoint" Target.read fun target r => { r with target },
      .needed "css" Reader.text fun text r => { r with text }]
  blank := {}

def Component.record : Record Component where
  name := "ComponentSource"
  fields :=
    [.needed "id" Reader.text fun id c => { c with id },
      .optional "rules" (Reader.list Rule.record.read) fun rules c => { c with rules }]
  blank := {}

def SourceDocument.record : Record SourceDocument where
  name := "SourceDocument"
  fields :=
    [.optional "components" (Reader.list Component.record.read) fun components d =>
        { d with components }]
  blank := {}

def SourceDocument.ofJson (text : String) : Except AuthoringError SourceDocument :=
  (Reader.ofText SourceDocument.record.read text).mapError fun fault => .unreadable fault.message

def Target.toJson : Target → Value
  | .universal => .null
  | .breakpoint name => .text name

def Rule.toJson (r : Rule) : Value :=
  .object [("breakpoint", r.target.toJson), ("css", .text r.text)]

def Component.toJson (c : Component) : Value :=
  .object [("id", .text c.id), ("rules", .list (c.rules.map Rule.toJson))]

def SourceDocument.toValue (d : SourceDocument) : Value :=
  .object [("components", .list (d.components.map Component.toJson))]

/-- The text of a source document on one line. -/
def SourceDocument.toJson (d : SourceDocument) : String := d.toValue.compact

end MediaSheets
