import MediaSheets.Json.Token

/-!
# Drafts

A draft is a JSON text taken as far as its grammar goes: a tree which is complete, or which says
where it breaks off and why. What a text holds can then be checked in the order it is written, and
whichever is met first, a break or unsuitable content, is the fault of the text.
-/

namespace MediaSheets.Json

mutual

inductive Draft
  | null
  | boolean (value : Bool)
  | number (value : Number)
  | text (value : String)
  | list (items : Items)
  | object (members : Members)
  /-- A scalar whose characters break off. -/
  | broken (start : Start) (fault : Fault)
  /-- No value starts where one is due. -/
  | absent (fault : Fault)

/-- What follows in a list. -/
inductive Items
  | done
  /-- Neither an item nor the closing bracket. -/
  | cut (fault : Fault)
  | more (item : Draft) (rest : Items)

/-- What follows in an object. -/
inductive Members
  | done
  /-- Neither a key nor the closing brace. -/
  | cut (fault : Fault)
  | more (key : String) (value : Draft) (rest : Members)

end

/-- A whole text: its value, and whether anything but blanks follows it. -/
structure Document where
  root : Draft
  trailing : Bool

/-- How many lists and objects may be open at once. -/
def maxDepth : Nat := 127

mutual

/-- The value at the front, and the tokens after it, when `depth` more lists or objects may be
opened. -/
def Draft.take : (fuel depth : Nat) → List Token → Draft × List Token
  | 0, _, _ => (.absent .endInValue, [])
  | _ + 1, _, [] => (.absent .endInValue, [])
  | _ + 1, _, .null :: ts => (.null, ts)
  | _ + 1, _, .boolean value :: ts => (.boolean value, ts)
  | _ + 1, _, .number value :: ts => (.number value, ts)
  | _ + 1, _, .text value :: ts => (.text value, ts)
  | _ + 1, _, .broken start fault :: _ => (.broken start fault, [])
  | _ + 1, 0, .openBracket :: _ => (.list (.cut .tooDeep), [])
  | _ + 1, 0, .openBrace :: _ => (.object (.cut .tooDeep), [])
  | fuel + 1, depth + 1, .openBracket :: ts =>
    let (items, rest) := Items.takeFirst fuel depth ts
    (.list items, rest)
  | fuel + 1, depth + 1, .openBrace :: ts =>
    let (members, rest) := Members.takeFirst fuel depth ts
    (.object members, rest)
  | _ + 1, _, _ :: _ => (.absent .expectedValue, [])

/-- The rest of a list after its opening bracket. -/
def Items.takeFirst : (fuel depth : Nat) → List Token → Items × List Token
  | 0, _, _ => (.cut .endInList, [])
  | _ + 1, _, [] => (.cut .endInList, [])
  | _ + 1, _, .closeBracket :: ts => (.done, ts)
  | fuel + 1, depth, ts => Items.takeMore fuel depth ts

/-- The rest of a list where an item is due. -/
def Items.takeMore : (fuel depth : Nat) → List Token → Items × List Token
  | 0, _, _ => (.cut .endInList, [])
  | _ + 1, _, .closeBracket :: _ => (.more (.absent .trailingComma) .done, [])
  | fuel + 1, depth, ts =>
    let (item, ts) := Draft.take fuel depth ts
    let (rest, ts) := Items.takeNext fuel depth ts
    (.more item rest, ts)

/-- The rest of a list after an item. -/
def Items.takeNext : (fuel depth : Nat) → List Token → Items × List Token
  | 0, _, _ => (.cut .endInList, [])
  | _ + 1, _, [] => (.cut .endInList, [])
  | _ + 1, _, .closeBracket :: ts => (.done, ts)
  | fuel + 1, depth, .comma :: ts => Items.takeMore fuel depth ts
  | _ + 1, _, _ :: _ => (.cut .expectedCommaOrBracket, [])

/-- The rest of an object after its opening brace. -/
def Members.takeFirst : (fuel depth : Nat) → List Token → Members × List Token
  | 0, _, _ => (.cut .endInObject, [])
  | _ + 1, _, [] => (.cut .endInObject, [])
  | _ + 1, _, .closeBrace :: ts => (.done, ts)
  | fuel + 1, depth, ts => Members.takeMore fuel depth ts

/-- The rest of an object where a key is due. -/
def Members.takeMore : (fuel depth : Nat) → List Token → Members × List Token
  | 0, _, _ => (.cut .endInValue, [])
  | _ + 1, _, [] => (.cut .endInValue, [])
  | _ + 1, _, .closeBrace :: _ => (.cut .trailingComma, [])
  | fuel + 1, depth, .text key :: .colon :: ts =>
    let (value, ts) := Draft.take fuel depth ts
    let (rest, ts) := Members.takeNext fuel depth ts
    (.more key value rest, ts)
  | _ + 1, _, [.text key] => (.more key (.absent .endInObject) .done, [])
  | _ + 1, _, .text key :: _ => (.more key (.absent .expectedColon) .done, [])
  | _ + 1, _, .broken .text fault :: _ => (.cut fault, [])
  | _ + 1, _, _ :: _ => (.cut .keyNotText, [])

/-- The rest of an object after a member. -/
def Members.takeNext : (fuel depth : Nat) → List Token → Members × List Token
  | 0, _, _ => (.cut .endInObject, [])
  | _ + 1, _, [] => (.cut .endInObject, [])
  | _ + 1, _, .closeBrace :: ts => (.done, ts)
  | fuel + 1, depth, .comma :: ts => Members.takeMore fuel depth ts
  | _ + 1, _, _ :: _ => (.cut .expectedCommaOrBrace, [])

end

/-- The document that tokens write. Each token is passed by at most three steps. -/
def Document.ofTokens (ts : List Token) : Document :=
  let (root, rest) := Draft.take (3 * ts.length + 1) maxDepth ts
  ⟨root, !rest.isEmpty⟩

def Document.ofText (text : String) : Document := ofTokens (Token.ofText text)

mutual

/-- Where a draft breaks off first in the order of the text. -/
def Draft.fault? : Draft → Option Fault
  | .broken _ fault | .absent fault => some fault
  | .list items => items.fault?
  | .object members => members.fault?
  | _ => none

/-- Where the rest of a list breaks off first. -/
def Items.fault? : Items → Option Fault
  | .done => none
  | .cut fault => some fault
  | .more item rest => item.fault?.or rest.fault?

/-- Where the rest of an object breaks off first. -/
def Members.fault? : Members → Option Fault
  | .done => none
  | .cut fault => some fault
  | .more _ value rest => value.fault?.or rest.fault?

end

end MediaSheets.Json
