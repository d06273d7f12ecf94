namespace HtmlConformance.CommandLine

/-! Colours and weights of text on a terminal. They are written whether or not the output
is a terminal. -/

/-- Text between two control sequences, each given by its number. -/
def styled (start stop : Nat) (text : String) : String :=
  "\x1b[" ++ toString start ++ "m" ++ text ++ "\x1b[" ++ toString stop ++ "m"

def red : String → String := styled 31 39

def green : String → String := styled 32 39

def yellow : String → String := styled 33 39

def cyan : String → String := styled 36 39

def bold : String → String := styled 1 0

def dimmed : String → String := styled 2 0

end HtmlConformance.CommandLine
