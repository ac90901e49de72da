/-!
# Colours and columns

Text for a terminal: codes that switch a style on and off, and padding to a width.
-/

namespace MediaSheets.CommandLine

/-- A text between the codes that switch a style on and off. -/
def styled (on off : String) (text : String) : String :=
  "\x1b[" ++ on ++ "m" ++ text ++ "\x1b[" ++ off ++ "m"

def bold : String → String := styled "1" "0"

def dimmed : String → String := styled "2" "0"

def green : String → String := styled "32" "39"

def yellow : String → String := styled "33" "39"

def cyan : String → String := styled "36" "39"

/-- A text with blanks in front of it, up to a width. -/
def alignRight (width : Nat) (text : String) : String :=
  String.ofList (List.replicate (width - text.length) ' ') ++ text

/-- A text with blanks behind it, up to a width. -/
def alignLeft (width : Nat) (text : String) : String :=
  text ++ String.ofList (List.replicate (width - text.length) ' ')

end MediaSheets.CommandLine
