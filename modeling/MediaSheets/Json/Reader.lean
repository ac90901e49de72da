import MediaSheets.Json.Draft

/-!
# Readers

A reader takes a value of some type out of a draft, going through it in the order of the text.
Readers for records accept an object with named fields or a list with the fields in order.
-/

namespace MediaSheets.Json

/-- How a value is taken out of a draft. -/
abbrev Reader (α : Type) := Draft → Except Fault α

/-- The fault of a draft that is not of the type asked for. A list or an object is refused at its
bracket; a scalar is looked at whole, so that a break in it comes first. -/
def Draft.refusal (wanted : Wanted) : Draft → Fault
  | .null => .wrongType .null wanted
  | .boolean value => .wrongType (.boolean value) wanted
  | .number value => .wrongType (.number value) wanted
  | .text value => .wrongType (.text value) wanted
  | .list _ => .wrongType .list wanted
  | .object _ => .wrongType .object wanted
  | .broken _ fault => fault
  | .absent fault => fault

def Reader.text : Reader String
  | .text value => .ok value
  | draft => .error (draft.refusal .text)

/-- The 32-bit signed number equal to an integer, if there is one. -/
def int32? (n : Int) : Option Int32 :=
  if -2147483648 ≤ n ∧ n < 2147483648 then some (Int32.ofInt n) else none

/-- The 32-bit unsigned number equal to an integer, if there is one. -/
def uint32? (n : Int) : Option UInt32 :=
  if 0 ≤ n ∧ n < 4294967296 then some (UInt32.ofNat n.toNat) else none

def Reader.int32 : Reader Int32
  | .number (.integer n) =>
    match int32? n with
    | some value => .ok value
    | none => .error (.outOfRange n .int32)
  | draft => .error (draft.refusal .int32)

def Reader.uint32 : Reader UInt32
  | .number (.integer n) =>
    match uint32? n with
    | some value => .ok value
    | none => .error (.outOfRange n .uint32)
  | draft => .error (draft.refusal .uint32)

/-- Reads the value of a variant that carries none. -/
def Reader.unit : Reader Unit
  | .null => .ok ()
  | draft => .error (draft.refusal .unit)

def Reader.nullable (read : Reader α) : Reader (Option α)
  | .null => .ok none
  | .broken .null fault => .error fault
  | draft => (read draft).map some

/-- Reads the items of a list one after another. -/
def Items.readAll (read : Reader α) : Items → Except Fault (List α)
  | .done => .ok []
  | .cut fault => .error fault
  | .more item rest => do
    let value ← read item
    let values ← rest.readAll read
    return value :: values

def Reader.list (read : Reader α) : Reader (List α)
  | .list items => items.readAll read
  | draft => .error (draft.refusal .list)

/-! ## Variants -/

/-- What stands behind the name of a variant. -/
inductive Variant (α : Type)
  | bare (value : α)
  | carrying (read : Reader α)

/-- Reads what stands behind the name of a variant in an object. -/
def Variant.read : Variant α → Reader α
  | .bare value, draft => (Reader.unit draft).map fun _ => value
  | .carrying read, draft => read draft

/-- The end of an object that holds one variant: only the closing brace is allowed. -/
def Members.closeVariant : Members → Except Fault Unit
  | .done => .ok ()
  | .cut .endInObject => .error .endInObject
  | _ => .error .expectedValue

/-- Reads one of several variants: its bare name, or an object with its name as only key. The object
is gone into as any other, so what begins without a quote where its key is due is refused as no key,
also where it is a value of another type (as in `{1:2}`), before the variants are looked at; an object
without a key lacks a value. -/
def Reader.variant (variants : List (String × Variant α)) : Reader α
  | .text name =>
    match variants.lookup name with
    | none => .error (.unknownVariant name (variants.map (·.1)))
    | some (.bare value) => .ok value
    | some (.carrying _) => .error (.wrongType .bareVariant .variantWithValue)
  | .object (.more name value rest) =>
    match variants.lookup name with
    | none => .error (.unknownVariant name (variants.map (·.1)))
    | some variant => do
      let result ← variant.read value
      rest.closeVariant
      return result
  | .object (.cut fault) => .error fault
  | .broken .text fault => .error fault
  | .absent fault => .error fault
  | _ => .error .expectedValue

/-! ## Records -/

/-- A field of a record: its key, whether it may be left out, and how its value is filled in. -/
structure Field (σ : Type) where
  key : String
  required : Bool
  read : Draft → Except Fault (σ → σ)

def Field.needed (key : String) (read : Reader α) (fill : α → σ → σ) : Field σ :=
  ⟨key, true, fun draft => (read draft).map fill⟩

def Field.optional (key : String) (read : Reader α) (fill : α → σ → σ) : Field σ :=
  ⟨key, false, fun draft => (read draft).map fill⟩

/-- A record: its name, its fields in order, and the value that they are filled into. -/
structure Record (σ : Type) where
  name : String
  fields : List (Field σ)
  blank : σ

def Record.keys (r : Record σ) : List String := r.fields.map (·.key)

/-- Fills in the members of an object. Each key is looked at before its value, and what is missing
shows at the closing brace. -/
def Record.readMembers (r : Record σ) : Members → (seen : List String) → σ → Except Fault σ
  | .done, seen, value =>
    match r.fields.find? fun field => field.required && !seen.contains field.key with
    | some field => .error (.missingField field.key)
    | none => .ok value
  | .cut fault, _, _ => .error fault
  | .more key draft rest, seen, value =>
    match r.fields.find? fun field => field.key == key with
    | none => .error (.unknownField key r.keys)
    | some field =>
      if seen.contains key then .error (.repeatedField key)
      else do
        let fill ← field.read draft
        r.readMembers rest (key :: seen) (fill value)

/-- The end of a list that holds a record: only the closing bracket is allowed. -/
def Items.closeRecord : Items → Except Fault Unit
  | .done => .ok ()
  | .cut .endInList => .error .endInList
  | .more (.absent .trailingComma) _ => .error .trailingComma
  | _ => .error .trailingCharacters

/-- Fills in the items of a list in the order of the fields, of which `fields` are left. -/
def Record.readItems (r : Record σ) : (fields : List (Field σ)) → Items → σ → Except Fault σ
  | [], items, value => do
    items.closeRecord
    return value
  | field :: fields, .more draft rest, value => do
    let fill ← field.read draft
    r.readItems fields rest (fill value)
  | _ :: _, .cut fault, _ => .error fault
  | field :: fields, .done, value =>
    match (field :: fields).dropWhile fun field => !field.required with
    | [] => .ok value
    | missing => .error (.tooShort (r.fields.length - missing.length) r.name r.fields.length)

/-- Reads a record from an object or a list. -/
def Record.read (r : Record σ) : Reader σ
  | .object members => r.readMembers members [] r.blank
  | .list items => r.readItems r.fields items r.blank
  | draft => .error (draft.refusal (.record r.name))

/-! ## Whole texts -/

/-- Reads a document: its value, which nothing but blanks may follow. -/
def Document.read (read : Reader α) (document : Document) : Except Fault α := do
  let value ← read document.root
  if document.trailing then throw .trailingCharacters
  return value

def Reader.ofText (read : Reader α) (text : String) : Except Fault α :=
  (Document.ofText text).read read

end MediaSheets.Json
