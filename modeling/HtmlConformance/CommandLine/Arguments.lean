import HtmlConformance.Options

namespace HtmlConformance.CommandLine

/-! The arguments of the command line. They are taken one by one from the left, and the
first one that cannot be used, or that asks for the version or for help, decides. -/

structure Arguments where
  path : Option String := none
  json : Option String := none
  config : Option String := none
  fixBackslash : Bool := false
  xmlTags : Bool := false
  xmlOutput : Bool := false
  altText : Option String := none
  doctype : Option Version := none
  dump : Bool := false
  quiet : Bool := false
  deriving DecidableEq

inductive UsageError where
  | unknownArgument (text : String)
  | unexpectedArgument (text : String)
  | unexpectedValue (name : String)
  | missingValue (name : String)
  | badValue (name value : String)
  | repeatedArgument (name : String)
  deriving DecidableEq

namespace UsageError

def message : UsageError → String
  | unknownArgument text => "unknown argument " ++ text
  | unexpectedArgument text => "unexpected argument " ++ text
  | unexpectedValue name => name ++ " takes no value"
  | missingValue name => name ++ " needs a value"
  | badValue name value => name ++ " does not take the value " ++ value
  | repeatedArgument name => name ++ " was given twice"

end UsageError

inductive Request where
  | check (arguments : Arguments)
  | version
  | help
  deriving DecidableEq

inductive Switch where
  | fixBackslash
  | xmlTags
  | xmlOutput
  | dump
  | quiet
  | version
  | help
  deriving DecidableEq

inductive Setting where
  | json
  | config
  | altText
  | doctype
  deriving DecidableEq

inductive Named where
  | switch (switch : Switch)
  | setting (setting : Setting)
  deriving DecidableEq

namespace Named

def ofLong? (name : String) : Option Named :=
  [("json", setting .json), ("config", setting .config), ("alt-text", setting .altText),
    ("doctype", setting .doctype), ("fix-backslash", switch .fixBackslash),
    ("xml-tags", switch .xmlTags), ("xml-output", switch .xmlOutput), ("dump", switch .dump),
    ("quiet", switch .quiet), ("version", switch .version), ("help", switch .help)].lookup name

def ofLetter? (letter : Char) : Option Named :=
  [('c', setting .config), ('q', switch .quiet), ('V', switch .version),
    ('h', switch .help)].lookup letter

end Named

/-- The outcome of taking arguments: a command line that cannot be used, a request that
ends it early, or the arguments so far. -/
inductive Taken where
  | refused (error : UsageError)
  | done (request : Request)
  | more (arguments : Arguments)

namespace Arguments

def takeSwitch (arguments : Arguments) (name : String) : Switch → Taken
  | .fixBackslash => once arguments.fixBackslash { arguments with fixBackslash := true }
  | .xmlTags => once arguments.xmlTags { arguments with xmlTags := true }
  | .xmlOutput => once arguments.xmlOutput { arguments with xmlOutput := true }
  | .dump => once arguments.dump { arguments with dump := true }
  | .quiet => once arguments.quiet { arguments with quiet := true }
  | .version => .done .version
  | .help => .done .help
where
  once (given : Bool) (next : Arguments) : Taken :=
    if given then .refused (.repeatedArgument name) else .more next

def takeSetting (arguments : Arguments) (name value : String) : Setting → Taken
  | .json => once arguments.json.isSome { arguments with json := some value }
  | .altText => once arguments.altText.isSome { arguments with altText := some value }
  | .config =>
      if value = "" then
        .refused (.badValue name value)
      else
        once arguments.config.isSome { arguments with config := some value }
  | .doctype =>
      match Version.ofName? value with
      | none => .refused (.badValue name value)
      | some version =>
          once arguments.doctype.isSome { arguments with doctype := some version }
where
  once (given : Bool) (next : Arguments) : Taken :=
    if given then .refused (.repeatedArgument name) else .more next

def takePath (arguments : Arguments) (value : String) : Taken :=
  if arguments.path.isSome then
    .refused (.unexpectedArgument value)
  else if value = "" then
    .refused (.badValue "FILE" value)
  else
    .more { arguments with path := some value }

/-- Whether an argument can be a value by itself: anything that does not begin like a named
argument. -/
def isPlain (text : String) : Bool := text.toList.head? ≠ some '-' || text = "-"

def takeSeparate (arguments : Arguments) (name : String) (setting : Setting) :
    List String → Taken × List String
  | value :: rest =>
      if isPlain value then
        (arguments.takeSetting name value setting, rest)
      else
        (.refused (.missingValue name), [])
  | [] => (.refused (.missingValue name), [])

def takeLong (arguments : Arguments) (text : List Char) (rest : List String) :
    Taken × List String :=
  let name := String.ofList (text.takeWhile (· ≠ '='))
  let shown := "--" ++ name
  match Named.ofLong? name, text.dropWhile (· ≠ '=') with
  | none, _ => (.refused (.unknownArgument shown), [])
  | some (.switch switch), [] => (arguments.takeSwitch shown switch, rest)
  | some (.switch _), _ :: _ => (.refused (.unexpectedValue shown), [])
  | some (.setting setting), _ :: value =>
      (arguments.takeSetting shown (String.ofList value) setting, rest)
  | some (.setting setting), [] => arguments.takeSeparate shown setting rest

/-- Take short arguments written together, without their dash. The rest after a setting is
its value, behind an optional equals sign. -/
def takeShort (arguments : Arguments) (rest : List String) :
    List Char → Taken × List String
  | [] => (.more arguments, rest)
  | letter :: letters =>
      let shown := String.ofList ['-', letter]
      match Named.ofLetter? letter with
      | none => (.refused (.unknownArgument shown), [])
      | some (.switch switch) =>
          match arguments.takeSwitch shown switch with
          | .more next => takeShort next rest letters
          | ended => (ended, [])
      | some (.setting setting) =>
          match letters with
          | [] => arguments.takeSeparate shown setting rest
          | '=' :: value => (arguments.takeSetting shown (String.ofList value) setting, rest)
          | value => (arguments.takeSetting shown (String.ofList value) setting, rest)

def takeNext (arguments : Arguments) (text : String) (rest : List String) :
    Taken × List String :=
  match text.toList with
  | '-' :: '-' :: name => arguments.takeLong name rest
  | '-' :: letter :: letters => arguments.takeShort rest (letter :: letters)
  | _ => (arguments.takePath text, rest)

def takePaths (arguments : Arguments) : List String → Except UsageError Request
  | [] => .ok (.check arguments)
  | text :: rest =>
      match arguments.takePath text with
      | .more next => next.takePaths rest
      | .done request => .ok request
      | .refused error => .error error

/-- Take arguments from the left; after two dashes all that follow are names of files. Each
step takes one at least. -/
def takeFrom : (fuel : Nat) → Arguments → List String → Except UsageError Request
  | 0, arguments, _ => .ok (.check arguments)
  | _ + 1, arguments, [] => .ok (.check arguments)
  | fuel + 1, arguments, text :: rest =>
      if text = "--" then
        arguments.takePaths rest
      else
        match arguments.takeNext text rest with
        | (.more next, remaining) => takeFrom fuel next remaining
        | (.done request, _) => .ok request
        | (.refused error, _) => .error error

def parse (texts : List String) : Except UsageError Request :=
  takeFrom texts.length {} texts

def applyTo (arguments : Arguments) (options : Options) : Options where
  slashUrls := options.slashUrls || arguments.fixBackslash
  xmlTags := options.xmlTags || arguments.xmlTags
  xmlOutput := options.xmlOutput || arguments.xmlOutput
  fallbackAlt := arguments.altText <|> options.fallbackAlt
  doctype := arguments.doctype <|> options.doctype

end Arguments

end HtmlConformance.CommandLine
