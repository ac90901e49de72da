import MediaSheets.Config

/-!
# The standard breakpoints

A ceiling for small screens, six widths and up, dense screens of any width, and dense variants of
the two desktop widths.
-/

namespace MediaSheets.Config

/-- The breakpoint at which standard stylesheets for old browsers stop. -/
def standardCutoff : String := "768up"

def standard : Config where
  cutoff := .atBreakpoint standardCutoff
  breakpoints :=
    [ofWidth "mobile" 0 (.atMost 767), ofWidth "320up" 1 (.atLeast 320),
      ofWidth "480up" 2 (.atLeast 480), ofWidth "600up" 3 (.atLeast 600),
      ofWidth "768up" 4 (.atLeast 768), ofWidth "992up" 5 (.atLeast 992),
      ofWidth "1382up" 6 (.atLeast 1382), { name := "all2x", rank := 7, kind := .hiDpi },
      ofBase "768up2x" 8 "768up", ofBase "992up2x" 9 "992up"]
where
  ofWidth (name : String) (rank : Int32) (bound : WidthBound) : Declaration :=
    { name, rank, kind := .baseWidth, width := some bound }
  /-- The dense variant of a width. -/
  ofBase (name : String) (rank : Int32) (base : String) : Declaration :=
    { name, rank, kind := .widthHiDpi, pairedWith := some base }

end MediaSheets.Config
