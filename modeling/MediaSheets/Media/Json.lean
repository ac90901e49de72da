import MediaSheets.Json.Reader
import MediaSheets.Json.Value
import MediaSheets.Media

/-!
# Media conditions as JSON

Widths and conditions stand under the name of what they test. Widths and kinds are also read.
-/

namespace MediaSheets

open Json (Reader Value)

def WidthBound.toJson : WidthBound → Value
  | .atLeast px => .object [("min-width", .integer px.toNat)]
  | .atMost px => .object [("max-width", .integer px.toNat)]

/-- Reads a width under the name of its feature. -/
def WidthBound.read : Reader WidthBound :=
  .variant
    [("min-width", .carrying fun draft => (Reader.uint32 draft).map .atLeast),
      ("max-width", .carrying fun draft => (Reader.uint32 draft).map .atMost)]

def Kind.read : Reader Kind :=
  .variant [("base-width", .bare .baseWidth), ("hi-dpi", .bare .hiDpi),
    ("width-hi-dpi", .bare .widthHiDpi)]

/-- A condition under the name of what it tests. -/
def Media.toJson : Media → Value
  | .width bound => .object [("width", bound.toJson)]
  | .hiDpi => .text "hi-dpi"
  | .widthHiDpi bound => .object [("width-hi-dpi", bound.toJson)]

end MediaSheets
