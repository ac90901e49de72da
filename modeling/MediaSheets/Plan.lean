import MediaSheets.Compilation

/-!
# Block plans

A plan is the list of blocks that a stylesheet is made of: the universal rules first, then one block
for each breakpoint with rules, by ascending rank. Order of submission counts within a block alone.
-/

namespace MediaSheets

/-- Which browsers a stylesheet is for. -/
inductive Mode
  | modern
  /-- Browsers that are given the desktop rules without conditions. -/
  | legacy
  deriving DecidableEq, Repr

def Mode.name : Mode → String
  | .modern => "modern"
  | .legacy => "legacy"

/-- What the rules of a block apply to. -/
inductive BlockTarget
  | universal
  | breakpoint (name : String) (rank : Int32) (media : Media)
  deriving DecidableEq, Repr

def BlockTarget.name? : BlockTarget → Option String
  | .universal => none
  | .breakpoint name _ _ => some name

structure Block where
  target : BlockTarget
  body : String
  components : List String
  fragmentCount : Nat
  deriving DecidableEq, Repr

/-- The block of the fragments in a bucket: their texts on lines of their own, and their components
in the order in which each first occurs. -/
def Block.ofBucket (target : BlockTarget) (bucket : List Filed) : Block where
  target := target
  body := "\n".intercalate (bucket.map (·.fragment.text))
  components := distinct (bucket.map (·.fragment.component))
  fragmentCount := bucket.length

/-- The block of a bucket that holds any fragments. -/
def Block.ofBucket? (target : BlockTarget) (bucket : List Filed) : Option Block :=
  if bucket.isEmpty then none else some (ofBucket target bucket)

/-- Whether the rules of a breakpoint belong into stylesheets of a mode. -/
def Registry.includes (r : Registry) (mode : Mode) (b : Breakpoint) : Bool :=
  match mode with
  | .modern => true
  | .legacy => r.isLegacy b

namespace Compilation

/-- The block of a registered breakpoint, if it has rules that belong into the mode. -/
def blockOf? (c : Compilation) (mode : Mode) (entry : Entry) : Option Block :=
  let b := entry.breakpoint
  if c.registry.includes mode b then
    Block.ofBucket? (.breakpoint b.name b.rank entry.media) (c.bucket (.breakpoint b.name))
  else none

def plan (c : Compilation) (mode : Mode) : List Block :=
  (Block.ofBucket? .universal (c.bucket .universal)).toList ++
    c.registry.entries.filterMap (c.blockOf? mode)

end Compilation

end MediaSheets
