import HtmlConformance.FlagSet
import HtmlConformance.Text

namespace HtmlConformance

/-! HTML versions, and the sets of versions that a construct or a whole document is
compatible with. -/

/-- One published variant of HTML, one family of vendor extensions, or one of the two
marks for markup that no variant covers. -/
inductive Version where
  | html20
  | html32
  | html40Strict
  | html40Loose
  | frameset
  | xml
  | netscape
  | microsoft
  | sun
  | malformed
  | xhtml11
  deriving DecidableEq

namespace Version

/-- Every version, oldest standard first; a version set numbers its bits in this order. -/
def all : List Version :=
  [html20, html32, html40Strict, html40Loose, frameset, xml, netscape, microsoft, sun,
    malformed, xhtml11]

instance : Enumerated Version where
  values := all
  mem_values version := by cases version <;> decide
  nodup_values := by decide

def shortName : Version → String
  | html20 => "html20"
  | html32 => "html32"
  | html40Strict => "html40-strict"
  | html40Loose => "html40-loose"
  | frameset => "frameset"
  | xml => "xml"
  | netscape => "netscape"
  | microsoft => "microsoft"
  | sun => "sun"
  | malformed => "malformed"
  | xhtml11 => "xhtml11"

def title : Version → String
  | html20 => "HTML 2.0"
  | html32 => "HTML 3.2"
  | html40Strict => "HTML 4.01 Strict"
  | html40Loose => "HTML 4.01 Transitional"
  | frameset => "HTML 4.01 Frameset"
  | xml => "XML"
  | netscape => "Netscape extensions"
  | microsoft => "Microsoft extensions"
  | sun => "Sun extensions"
  | malformed => "malformed HTML"
  | xhtml11 => "XHTML 1.1"

def ofShortName? (name : String) : Option Version :=
  all.find? fun version => version.shortName == name

def ofName? (name : String) : Option Version :=
  all.find? fun version => Text.alike name version.shortName || Text.alike name version.title

end Version

abbrev VersionSet := FlagSet Version

namespace VersionSet

def permits (versions : VersionSet) (version : Version) : Bool := versions.contains version

def html40 : VersionSet := .ofList [.html40Strict, .html40Loose, .frameset]

def iframe : VersionSet := .ofList [.html40Loose, .frameset]

def loose : VersionSet := .ofList [.html20, .html32, .html40Loose, .frameset]

def from40 : VersionSet := html40 ∪ .only .xhtml11

def from32 : VersionSet := .only .html32 ∪ from40

def standard : VersionSet := .only .html20 ∪ from32

def proprietary : VersionSet := .ofList [.netscape, .microsoft, .sun]

def everything : VersionSet := .full

def describe (versions : VersionSet) : String :=
  let names := versions.toList.map fun version => Text.identifier version.shortName
  "\x7b" ++ ", ".intercalate names ++ "\x7d"

end VersionSet

end HtmlConformance
