import HtmlConformance.ContentModel
import HtmlConformance.Table
import HtmlConformance.Text
import HtmlConformance.Version

namespace HtmlConformance

/-! The element table: for every known element its tag in small letters, the versions that
define it, its place in a document, how its content is read, and which check its attribute
list has to pass. The rows stand in the order in which the identities are declared. -/

/-- The identity of a known element. -/
inductive ElementId where
  | a | abbr | acronym | address | applet | area | b | base | basefont | bdo | bgsound | big
  | blink | blockquote | body | br | button | caption | center | cite | code | col
  | colgroup | comment | dd | del | dfn | dir | div | dl | dt | em | embed | fieldset | font
  | form | frame | frameset | h1 | h2 | h3 | h4 | h5 | h6 | head | hr | html | i | iframe
  | ilayer | img | input | ins | isindex | kbd | label | layer | legend | li | link
  | listing | map | marquee | menu | «meta» | multicol | nextid | nobr | noembed | noframes
  | nolayer | noscript | object | ol | optgroup | option | p | param | plaintext | pre | q
  | rb | rbc | rp | rt | rtc | ruby | s | samp | script | select | server | small | spacer
  | span | strike | strong | style | sub | sup | table | tbody | td | textarea | tfoot | th
  | thead | title | tr | tt | u | ul | var | wbr | xmp
  deriving DecidableEq

theorem ElementId.eq_of_ctorIdx_eq {left right : ElementId}
    (same : left.ctorIdx = right.ctorIdx) : left = right := by
  rw [← ofNat_ctorIdx left, same, ofNat_ctorIdx]

inductive ContentReading where
  | html
  | head
  | title
  | body
  | frameset
  | noFrames
  | block
  | inline
  | list
  | definitionList
  | preformatted
  | table
  | rowGroup
  | row
  | columnGroup
  | select
  | optionGroup
  | text
  | script
  deriving DecidableEq

namespace ContentReading

def label : ContentReading → String
  | html => "Html"
  | head => "Head"
  | title => "Title"
  | body => "Body"
  | frameset => "Frameset"
  | noFrames => "NoFrames"
  | block => "Block"
  | inline => "Inline"
  | list => "List"
  | definitionList => "DefList"
  | preformatted => "Pre"
  | table => "Table"
  | rowGroup => "RowGroup"
  | row => "Row"
  | columnGroup => "ColGroup"
  | select => "Select"
  | optionGroup => "OptGroup"
  | text => "Text"
  | script => "Script"

end ContentReading

/-- The check that an attribute list has to pass as a whole. -/
inductive ElementCheck where
  | html
  | script
  | table
  | caption
  | line
  | image
  | area
  | anchor
  | map
  | style
  | tableCell
  | link
  | generic
  deriving DecidableEq

namespace ElementCheck

def all : List ElementCheck :=
  [html, script, table, caption, line, image, area, anchor, map, style, tableCell, link,
    generic]

instance : Enumerated ElementCheck where
  values := all
  mem_values check := by cases check <;> decide
  nodup_values := by decide

def label : ElementCheck → String
  | html => "Html"
  | script => "Script"
  | table => "Table"
  | caption => "Caption"
  | line => "Hr"
  | image => "Img"
  | area => "Area"
  | anchor => "Anchor"
  | map => "Map"
  | style => "Style"
  | tableCell => "TableCell"
  | link => "Link"
  | generic => "Default"

end ElementCheck

structure ElementRule where
  identity : ElementId
  name : String
  versions : VersionSet
  model : ContentModel
  /-- How its content is read; an empty element has none. -/
  content : Option ContentReading
  check : ElementCheck
  deriving DecidableEq

namespace ElementRule

open VersionSet

def row (identity : ElementId) (name : String) (versions : VersionSet)
    (flags : List ContentFlag) (content : Option ContentReading)
    (check : ElementCheck := .generic) : ElementRule :=
  { identity, name, versions, model := .ofList flags, content, check }

def early : VersionSet := .ofList [.html20, .html32]

def embedding : VersionSet := .ofList [.netscape, .microsoft]

def table : List ElementRule :=
  [
    row .a "a" standard [.inline] (some .inline) .anchor,
    row .abbr "abbr" from40 [.inline] (some .inline),
    row .acronym "acronym" from40 [.inline] (some .inline),
    row .address "address" standard [.block] (some .block),
    row .applet "applet" loose [.object, .image, .inline, .param] (some .block),
    row .area "area" from32 [.block, .empty] none .area,
    row .b "b" standard [.inline] (some .inline),
    row .base "base" standard [.head, .empty] none,
    row .basefont "basefont" loose [.inline, .empty] none,
    row .bdo "bdo" from40 [.inline] (some .inline),
    row .bgsound "bgsound" (.only .microsoft) [.head, .empty, .proprietary] none,
    row .big "big" from32 [.inline] (some .inline),
    row .blink "blink" proprietary [.inline, .proprietary] (some .inline),
    row .blockquote "blockquote" standard [.block] (some .block),
    row .body "body" standard [.html, .optionalEnd, .optionalStart] (some .body),
    row .br "br" standard [.inline, .empty] none,
    row .button "button" from40 [.inline] (some .block),
    row .caption "caption" from32 [.table] (some .inline) .caption,
    row .center "center" loose [.block] (some .block),
    row .cite "cite" standard [.inline] (some .inline),
    row .code "code" standard [.inline] (some .inline),
    row .col "col" from40 [.table, .empty] none,
    row .colgroup "colgroup" from40 [.table, .optionalEnd] (some .columnGroup),
    row .comment "comment" (.only .microsoft) [.inline, .proprietary] (some .inline),
    row .dd "dd" standard [.definitionList, .optionalEnd] (some .block),
    row .del "del" from40 [.inline, .block, .mixed] (some .inline),
    row .dfn "dfn" standard [.inline] (some .inline),
    row .dir "dir" loose [.block, .obsolete] (some .list),
    row .div "div" from32 [.block] (some .block),
    row .dl "dl" standard [.block] (some .definitionList),
    row .dt "dt" standard [.definitionList, .optionalEnd] (some .inline),
    row .em "em" standard [.inline] (some .inline),
    row .embed "embed" embedding [.inline, .image, .empty, .proprietary] none,
    row .fieldset "fieldset" from40 [.block] (some .block),
    row .font "font" loose [.inline] (some .inline),
    row .form "form" standard [.block] (some .block),
    row .frame "frame" (.only .frameset) [.frames, .empty] none,
    row .frameset "frameset" (.only .frameset) [.html, .frames] (some .frameset),
    row .h1 "h1" standard [.block, .heading] (some .inline),
    row .h2 "h2" standard [.block, .heading] (some .inline),
    row .h3 "h3" standard [.block, .heading] (some .inline),
    row .h4 "h4" standard [.block, .heading] (some .inline),
    row .h5 "h5" standard [.block, .heading] (some .inline),
    row .h6 "h6" standard [.block, .heading] (some .inline),
    row .head "head" standard [.html, .optionalEnd, .optionalStart] (some .head),
    row .hr "hr" standard [.block, .empty] none .line,
    row .html "html" standard [.html, .optionalEnd, .optionalStart] (some .html) .html,
    row .i "i" standard [.inline] (some .inline),
    row .iframe "iframe" iframe [.inline] (some .block),
    row .ilayer "ilayer" (.only .netscape) [.inline, .proprietary] (some .inline),
    row .img "img" standard [.inline, .image, .empty] none .image,
    row .input "input" standard [.inline, .image, .empty] none,
    row .ins "ins" from40 [.inline, .block, .mixed] (some .inline),
    row .isindex "isindex" loose [.block, .empty] none,
    row .kbd "kbd" standard [.inline] (some .inline),
    row .label "label" from40 [.inline] (some .inline),
    row .layer "layer" (.only .netscape) [.block, .proprietary] (some .block),
    row .legend "legend" from40 [.inline] (some .inline),
    row .li "li" standard [.list, .optionalEnd] (some .block),
    row .link "link" standard [.head, .empty] none .link,
    row .listing "listing" early [.block, .obsolete] (some .preformatted),
    row .map "map" from32 [.inline] (some .block) .map,
    row .marquee "marquee" (.only .microsoft) [.inline, .optionalEnd, .proprietary]
      (some .inline),
    row .menu "menu" loose [.block, .obsolete] (some .list),
    row .«meta» "meta" standard [.head, .empty] none,
    row .multicol "multicol" (.only .netscape) [.block, .proprietary] (some .block),
    row .nextid "nextid" (.only .html20) [.head, .empty, .obsolete] none,
    row .nobr "nobr" proprietary [.inline, .proprietary] (some .inline),
    row .noembed "noembed" (.only .netscape) [.inline, .proprietary] (some .inline),
    row .noframes "noframes" iframe [.block, .frames] (some .noFrames),
    row .nolayer "nolayer" (.only .netscape) [.block, .inline, .mixed, .proprietary]
      (some .block),
    row .noscript "noscript" from40 [.block, .inline, .mixed] (some .block),
    row .object "object" from40 [.object, .head, .image, .inline, .param] (some .block),
    row .ol "ol" standard [.block] (some .list),
    row .optgroup "optgroup" from40 [.field, .optionalEnd] (some .optionGroup),
    row .option "option" standard [.field, .optionalEnd] (some .text),
    row .p "p" standard [.block, .optionalEnd] (some .inline),
    row .param "param" from32 [.inline, .empty] none,
    row .plaintext "plaintext" early [.block, .obsolete] (some .preformatted),
    row .pre "pre" standard [.block] (some .preformatted),
    row .q "q" from40 [.inline] (some .inline),
    row .rb "rb" (.only .xhtml11) [.inline] (some .inline),
    row .rbc "rbc" (.only .xhtml11) [.inline] (some .inline),
    row .rp "rp" (.only .xhtml11) [.inline] (some .inline),
    row .rt "rt" (.only .xhtml11) [.inline] (some .inline),
    row .rtc "rtc" (.only .xhtml11) [.inline] (some .inline),
    row .ruby "ruby" (.only .xhtml11) [.inline] (some .inline),
    row .s "s" loose [.inline] (some .inline),
    row .samp "samp" standard [.inline] (some .inline),
    row .script "script" from32 [.head, .mixed, .block, .inline] (some .script) .script,
    row .select "select" standard [.inline, .field] (some .select),
    row .server "server" (.only .netscape) [.head, .mixed, .block, .inline, .proprietary]
      (some .script),
    row .small "small" from32 [.inline] (some .inline),
    row .spacer "spacer" (.only .netscape) [.inline, .empty, .proprietary] none,
    row .span "span" from40 [.inline] (some .inline),
    row .strike "strike" loose [.inline] (some .inline),
    row .strong "strong" standard [.inline] (some .inline),
    row .style "style" from32 [.head] (some .script) .style,
    row .sub "sub" from32 [.inline] (some .inline),
    row .sup "sup" from32 [.inline] (some .inline),
    row .table "table" from32 [.block] (some .table) .table,
    row .tbody "tbody" from40 [.table, .rowGroup, .optionalEnd] (some .rowGroup),
    row .td "td" from32 [.row, .optionalEnd] (some .block) .tableCell,
    row .textarea "textarea" standard [.inline, .field] (some .text),
    row .tfoot "tfoot" from40 [.table, .rowGroup, .optionalEnd] (some .rowGroup),
    row .th "th" from32 [.row, .optionalEnd] (some .block) .tableCell,
    row .thead "thead" from40 [.table, .rowGroup, .optionalEnd] (some .rowGroup),
    row .title "title" standard [.head] (some .title),
    row .tr "tr" from32 [.table, .optionalEnd] (some .row),
    row .tt "tt" standard [.inline] (some .inline),
    row .u "u" loose [.inline] (some .inline),
    row .ul "ul" standard [.block] (some .list),
    row .var "var" standard [.inline] (some .inline),
    row .wbr "wbr" proprietary [.inline, .empty, .proprietary] none,
    row .xmp "xmp" early [.block, .obsolete] (some .preformatted)
  ]

def find? (tag : String) : Option ElementRule :=
  let key := Text.folded tag
  table.find? fun rule => rule.name == key

def indexed : Table ElementRule ElementId where
  rows := table
  identity := identity
  place := ElementId.ctorIdx
  place_lt identity := by
    have rows : table.length = 115 := by cbv
    rw [rows]
    cases identity <;> decide
  place_inj _ _ := ElementId.eq_of_ctorIdx_eq
  map_place := by cbv

/-- The row of a known element. -/
def get (identity : ElementId) : ElementRule := indexed.get identity

end ElementRule

end HtmlConformance
