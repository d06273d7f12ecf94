import HtmlConformance.CommandLine.Arguments
import HtmlConformance.CommandLine.Style
import HtmlConformance.Document.Load
import HtmlConformance.Report
import HtmlConformance.Validation

namespace HtmlConformance.CommandLine

/-! The command line program: it checks the attributes of a document, prints diagnostics
and the versions that the document can still claim, and on request the repaired document.
Only the reading of files is left to the caller. -/

inductive Outcome where
  | refused (error : UsageError)
  | answered (text : String)
  | failed (log : WarningLog) (error : LoadError)
  | checked (log : WarningLog) (output : String) (hasErrors : Bool)

def versionText : String := "tidemark 0.1.0\n"

def helpText : String :=
  "Usage: tidemark [OPTIONS] [FILE]\n\n" ++
  "Checks the attributes of a document tree in JSON.\n\n" ++
  "      --json <TREE>        check this tree in place of a file\n" ++
  "  -c, --config <FILE>      read options from a file\n" ++
  "      --fix-backslash      turn backslashes in URLs into slashes\n" ++
  "      --xml-tags           treat the input as generic XML\n" ++
  "      --xml-output         prepare the attributes for XHTML\n" ++
  "      --alt-text <TEXT>    put this text on images that have none\n" ++
  "      --doctype <VERSION>  the version that the document declares\n" ++
  "      --dump               print the repaired tree\n" ++
  "  -q, --quiet              print the summary only\n" ++
  "  -V, --version            print the version\n" ++
  "  -h, --help               print this text\n"

/-! ## Printed lines -/

def warningLine (warning : Warning) : String :=
  yellow ("[Tidemark " ++ warning.component ++ "] ⚠ " ++ warning.message) ++ "\n"

def diagnosticLine (diagnostic : Diagnostic) : String :=
  let label := match diagnostic.severity with
    | .error => bold (red "Error:")
    | .warning => yellow "Warning:"
    | .info => cyan "Info:"
  label ++ " " ++ diagnostic.text ++ "\n"

def summary (origin : String) (report : Report) (diagnostics : List Diagnostic) : String :=
  let count (severity : Severity) : String :=
    toString (diagnostics.countP fun diagnostic => diagnostic.severity == severity)
  let verdict := match report.likely? with
    | some version => "Document content looks like " ++ green version.title
    | none => red "Document content does not conform to any standard HTML version"
  let claims :=
    if 1 < report.claimable.length then
      "Claimable versions: " ++ dimmed (", ".intercalate report.claimableTitles) ++ "\n"
    else
      ""
  let namespaceNote :=
    if report.isXhtml then "Document declares an XHTML namespace\n" else ""
  "\n" ++ bold origin ++ ": " ++ count .error ++ " errors, " ++ count .warning ++
    " warnings\n" ++ verdict ++ "\n" ++ claims ++ namespaceNote

/-! ## The run -/

def xmlDoctypeWarning : Warning where
  component := "CLI"
  message := "--xml-tags with an HTML doctype; unknown attributes will not be reported"

def optionsLog (options : Options) : WarningLog :=
  if options.xmlTags && options.doctype.any (fun version => version != .xml) then
    ({} : WarningLog).warn xmlDoctypeWarning
  else
    {}

def check (arguments : Arguments) (options : Options) (document : LoadedDocument) : Outcome :=
  let start : Pass := { state := { options }, log := optionsLog options }
  let (tree, pass) := document.tree.validate .copyName start
  let report := Report.ofState pass.state
  let diagnostics := pass.diagnostics.toList ++ report.diagnostics
  let details :=
    if arguments.quiet then "" else String.join (diagnostics.map diagnosticLine)
  let dumped := if arguments.dump then Node.dump tree.toNodes ++ "\n" else ""
  .checked pass.log (details ++ summary document.origin report diagnostics ++ dumped)
    (diagnostics.any fun diagnostic => diagnostic.severity == .error)

variable {m : Type → Type} [Monad m]

def loadOptions (readFile : String → m (Except ReadFailure String)) (arguments : Arguments) :
    m (Except LoadError Options) := do
  match arguments.config with
  | none => return .ok (arguments.applyTo {})
  | some path =>
      match ← Options.load readFile path with
      | .ok options => return .ok (arguments.applyTo options)
      | .error error => return .error error

def checkFiles (readFile : String → m (Except ReadFailure String)) (arguments : Arguments) :
    m Outcome := do
  match ← loadOptions readFile arguments with
  | .error error => return .failed {} error
  | .ok options =>
      match ← LoadedDocument.load readFile arguments.path arguments.json with
      | .error error => return .failed (optionsLog options) error
      | .ok document => return check arguments options document

def run (readFile : String → m (Except ReadFailure String)) (texts : List String) :
    m Outcome := do
  match Arguments.parse texts with
  | .error error => return .refused error
  | .ok .version => return .answered versionText
  | .ok .help => return .answered helpText
  | .ok (.check arguments) => checkFiles readFile arguments

/-! ## What a caller sees -/

namespace Outcome

def exitCode : Outcome → Nat
  | refused _ => 2
  | answered _ => 0
  | failed _ _ => 1
  | checked _ _ hasErrors => if hasErrors then 1 else 0

def output : Outcome → String
  | refused _ => ""
  | answered text => text
  | failed _ _ => ""
  | checked _ output _ => output

def errorOutput : Outcome → String
  | refused error => "error: " ++ error.message ++ "\n"
  | answered _ => ""
  | failed log error =>
      String.join (log.written.map warningLine) ++ "Error: " ++ error.message ++ "\n"
  | checked log _ _ => String.join (log.written.map warningLine)

end Outcome

end HtmlConformance.CommandLine
