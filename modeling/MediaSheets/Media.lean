/-!
# Media conditions

What a breakpoint tests: the width of the viewport, the density of its pixels, or both. Main
definition: `Media.predicate`, the text of the condition in a stylesheet.
-/

namespace MediaSheets

/-- A test of the viewport's width, in pixels. -/
inductive WidthBound
  | atLeast (px : UInt32)
  | atMost (px : UInt32)
  deriving DecidableEq, Repr

def WidthBound.feature : WidthBound → String
  | .atLeast px => "min-width: " ++ px.toNat.repr ++ "px"
  | .atMost px => "max-width: " ++ px.toNat.repr ++ "px"

inductive Kind
  | baseWidth
  | hiDpi
  | widthHiDpi
  deriving DecidableEq, Repr

/-- The name of a kind, in configurations and in listings. -/
def Kind.name : Kind → String
  | .baseWidth => "base-width"
  | .hiDpi => "hi-dpi"
  | .widthHiDpi => "width-hi-dpi"

/-- A condition with nothing left to look up. -/
inductive Media
  | width (bound : WidthBound)
  | hiDpi
  | widthHiDpi (bound : WidthBound)
  deriving DecidableEq, Repr

def Media.kind : Media → Kind
  | .width _ => .baseWidth
  | .hiDpi => .hiDpi
  | .widthHiDpi _ => .widthHiDpi

/-- The features that test for a dense screen, one for each family of browsers. -/
def densityFeatures : List String :=
  ["min-device-pixel-ratio: 1.3", "-webkit-min-device-pixel-ratio: 1.3",
    "-o-min-device-pixel-ratio: 13/10", "min-resolution: 120dpi"]

/-- The clause that holds on screens with all of the given features. -/
def screenClause (features : List String) : String :=
  "only screen" ++ String.join (features.map fun feature => " and (" ++ feature ++ ")")

/-- The clauses of a condition, which holds where one of them does. -/
def Media.clauses : Media → List String
  | .width bound => [screenClause [bound.feature]]
  | .hiDpi => densityFeatures.map fun density => screenClause [density]
  | .widthHiDpi bound => densityFeatures.map fun density => screenClause [density, bound.feature]

/-- A condition as it stands behind `@media`. -/
def Media.predicate (media : Media) : String := ", ".intercalate media.clauses

end MediaSheets
