/-!
# Authoring errors

What can be wrong with breakpoints, rules and configurations. Errors are causes;
`AuthoringError.message` is the only place with their wording.
-/

namespace MediaSheets

/-- A mistake in what an author wrote. -/
inductive AuthoringError
  /-- A breakpoint's name is taken. -/
  | duplicateName (name : String)
  /-- A breakpoint's rank is taken. -/
  | duplicateRank (rank : Int32) (holder : String)
  /-- A dense variant names a breakpoint that is not registered. -/
  | danglingPair (name base : String)
  /-- A dense variant names a breakpoint that has no width of its own. -/
  | invalidPair (name base : String)
  /-- Nothing is registered under a name. -/
  | unknownBreakpoint (name : String)
  /-- A breakpoint is declared with fields that do not fit its kind. -/
  | invalidBreakpoint (name reason : String)
  /-- A configuration or a source cannot be read. -/
  | unreadable (reason : String)
  deriving DecidableEq, Repr

def AuthoringError.message : AuthoringError → String
  | .duplicateName name => s!"duplicate breakpoint identity: name `{name}` is already registered"
  | .duplicateRank rank holder =>
    s!"duplicate breakpoint identity: rank {rank.toInt} is already held by `{holder}`"
  | .danglingPair name base => s!"breakpoint `{name}` pairs with `{base}`, which is not registered"
  | .invalidPair name base =>
    s!"breakpoint `{name}` pairs with `{base}`, which is not a base-width breakpoint"
  | .unknownBreakpoint name => s!"unknown breakpoint `{name}`"
  | .invalidBreakpoint name reason => s!"invalid breakpoint `{name}`: {reason}"
  | .unreadable reason => s!"configuration error: {reason}"

end MediaSheets
