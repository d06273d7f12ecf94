import HtmlConformance.CommandLine.Run

/-! The program: files are read from disk, and the outcome of the run is printed. -/

open HtmlConformance

def readTextFile (path : String) : IO (Except ReadFailure String) := do
  try
    let bytes ← IO.FS.readBinFile path
    match String.fromUTF8? bytes with
    | some text => return .ok text
    | none => return .error .notText
  catch failure =>
    match failure with
    | .noFileOrDirectory .. => return .error .missing
    | other => return .error (.other (toString other))

def main (args : List String) : IO UInt32 := do
  let outcome ← CommandLine.run readTextFile args
  IO.print outcome.output
  IO.eprint outcome.errorOutput
  return outcome.exitCode.toUInt32
