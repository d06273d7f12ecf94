import HtmlConformance.Arena.Nested
import HtmlConformance.Document.Node
import HtmlConformance.Document.Options
import HtmlConformance.Json.Printer

namespace HtmlConformance

/-! Reading documents and options from files, and writing documents. How a file is read is
up to the caller. -/

open Json

inductive ReadFailure where
  | missing
  | notText
  | other (cause : String)
  deriving DecidableEq

namespace ReadFailure

def message : ReadFailure → String
  | missing => "No such file or directory (os error 2)"
  | notText => "stream did not contain valid UTF-8"
  | other cause => cause

end ReadFailure

inductive Subject where
  | documentTree
  | options
  deriving DecidableEq

namespace Subject

def name : Subject → String
  | documentTree => "document tree"
  | options => "options"

end Subject

inductive LoadError where
  | noInput
  | unreadable (path : String) (cause : ReadFailure)
  | invalid (origin : String) (subject : Subject) (fault : Fault)
  deriving DecidableEq

namespace LoadError

def message : LoadError → String
  | noInput => "no input: pass a FILE or --json '<tree>'"
  | unreadable path cause => "cannot read " ++ path ++ ": " ++ cause.message
  | invalid origin subject _ => origin ++ " is not valid " ++ subject.name ++ " JSON"

end LoadError

namespace Node

def readList : Reader (List Node) := do
  Reader.advance
  Reader.items (read (nestingLimit - 1)) true

def readDocument : Reader (List Node) := do
  match ← Reader.peek with
  | some '[' => readList
  | _ => return [← read nestingLimit]

def parseAll (text : String) : Except Fault (List Node) := do
  let (nodes, rest) ← readDocument text.toList
  let _ ← Reader.finish rest
  return nodes

def dump (nodes : List Node) : String := (Value.array (toValues nodes)).pretty

end Node

structure LoadedDocument where
  tree : Arena
  origin : String

namespace LoadedDocument

def ofText (origin text : String) : Except LoadError LoadedDocument :=
  match Node.parseAll text with
  | .ok nodes => .ok { tree := .ofNodes nodes, origin }
  | .error fault => .error (.invalid origin .documentTree fault)

variable {m : Type → Type} [Monad m]

def load (readFile : String → m (Except ReadFailure String)) (path json : Option String) :
    m (Except LoadError LoadedDocument) := do
  match json, path with
  | some text, _ => return ofText "--json" text
  | none, none => return .error .noInput
  | none, some path =>
      match ← readFile path with
      | .ok text => return ofText path text
      | .error cause => return .error (.unreadable path cause)

end LoadedDocument

namespace Options

def ofText (origin text : String) : Except LoadError Options :=
  match parse text with
  | .ok options => .ok options
  | .error fault => .error (.invalid origin .options fault)

def load {m : Type → Type} [Monad m] (readFile : String → m (Except ReadFailure String))
    (path : String) : m (Except LoadError Options) := do
  match ← readFile path with
  | .ok text => return ofText path text
  | .error cause => return .error (.unreadable path cause)

end Options

end HtmlConformance
