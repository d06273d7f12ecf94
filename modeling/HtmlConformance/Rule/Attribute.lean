import HtmlConformance.Rule.Value
import HtmlConformance.Table

namespace HtmlConformance

/-! The attribute table: for every known attribute its name in small letters, the versions
that allow it, the rule for its values, and two hints for whoever prints it. The rows
stand in the order in which the identities are declared. -/

/-- The identity of a known attribute. -/
inductive AttributeId where
  | abbr | accept | acceptCharset | accesskey | action | addDate | align | alink | alt
  | archive | axis | background | bgcolor | bgproperties | border | bordercolor
  | bottommargin | cellpadding | cellspacing | char | charoff | charset | checked | cite
  | «class» | classid | clear | code | codebase | codetype | color | cols | colspan
  | compact | content | coords | data | datafld | dataformatas | datapagesize | datasrc
  | datetime | declare | defer | dir | disabled | enctype | event | face | «for» | frame
  | frameborder | framespacing | gridx | gridy | headers | height | href | hreflang | hspace
  | httpEquiv | id | ismap | label | lang | language | lastModified | lastVisit | leftmargin
  | link | longdesc | lowsrc | marginheight | marginwidth | maxlength | media | method
  | multiple | name | nohref | noresize | noshade | nowrap | object | onafterupdate
  | onbeforeunload | onbeforeupdate | onblur | onchange | onclick | ondataavailable
  | ondatasetchanged | ondatasetcomplete | ondblclick | onerrorupdate | onfocus | onkeydown
  | onkeypress | onkeyup | onload | onmousedown | onmousemove | onmouseout | onmouseover
  | onmouseup | onreset | onrowenter | onrowexit | onselect | onsubmit | onunload | profile
  | prompt | rbspan | readonly | rel | rev | rightmargin | rows | rowspan | rules | scheme
  | scope | scrolling | selected | shape | showgrid | showgridx | showgridy | size | span
  | src | standby | start | style | summary | tabindex | target | text | title | topmargin
  | type | usemap | valign | value | valuetype | version | vlink | vspace | width | wrap
  | xmlLang | xmlSpace | xmlns
  deriving DecidableEq

theorem AttributeId.eq_of_ctorIdx_eq {left right : AttributeId}
    (same : left.ctorIdx = right.ctorIdx) : left = right := by
  rw [← ofNat_ctorIdx left, same, ofNat_ctorIdx]

structure AttributeRule where
  identity : AttributeId
  name : String
  versions : VersionSet
  /-- The value is text of its own, to be passed on untouched. -/
  literal : Bool
  /-- The value must not be wrapped. -/
  nowrap : Bool
  value : Option ValueRule
  deriving DecidableEq

namespace AttributeRule

open VersionSet

def plain (identity : AttributeId) (name : String) (versions : VersionSet)
    (value : Option ValueRule := none) : AttributeRule :=
  { identity, name, versions, literal := false, nowrap := false, value }

def prose (identity : AttributeId) (name : String) (versions : VersionSet) :
    AttributeRule :=
  { identity, name, versions, literal := true, nowrap := false, value := none }

def linking (identity : AttributeId) (name : String) (versions : VersionSet)
    (value : Option ValueRule := none) : AttributeRule :=
  { identity, name, versions, literal := false, nowrap := true, value }

def code (identity : AttributeId) (name : String) (versions : VersionSet)
    (value : Option ValueRule := none) : AttributeRule :=
  { identity, name, versions, literal := true, nowrap := true, value }

def table : List AttributeRule :=
  [
    prose .abbr "abbr" from40,
    plain .accept "accept" standard,
    plain .acceptCharset "accept-charset" from40,
    plain .accesskey "accesskey" from40,
    linking .action "action" standard (some .url),
    plain .addDate "add_date" (.only .netscape),
    plain .align "align" standard (some .align),
    plain .alink "alink" loose (some .color),
    prose .alt "alt" standard,
    linking .archive "archive" from40 (some .url),
    plain .axis "axis" from40,
    linking .background "background" loose (some .url),
    plain .bgcolor "bgcolor" loose (some .color),
    plain .bgproperties "bgproperties" proprietary,
    plain .border "border" standard (some .bool),
    plain .bordercolor "bordercolor" (.only .microsoft) (some .color),
    plain .bottommargin "bottommargin" (.only .microsoft) (some .number),
    plain .cellpadding "cellpadding" from32 (some .length),
    plain .cellspacing "cellspacing" from32 (some .length),
    plain .char "char" from40,
    plain .charoff "charoff" from40 (some .length),
    plain .charset "charset" from40,
    plain .checked "checked" standard (some .bool),
    linking .cite "cite" from40 (some .url),
    plain .«class» "class" from40,
    linking .classid "classid" from40 (some .url),
    plain .clear "clear" loose (some .clear),
    plain .code "code" loose,
    linking .codebase "codebase" from40 (some .url),
    plain .codetype "codetype" from40,
    plain .color "color" loose (some .color),
    plain .cols "cols" standard,
    plain .colspan "colspan" from32 (some .number),
    plain .compact "compact" standard (some .bool),
    prose .content "content" standard,
    plain .coords "coords" from32,
    linking .data "data" from40 (some .url),
    plain .datafld "datafld" (.only .microsoft),
    plain .dataformatas "dataformatas" (.only .microsoft),
    plain .datapagesize "datapagesize" (.only .microsoft) (some .number),
    linking .datasrc "datasrc" (.only .microsoft) (some .url),
    plain .datetime "datetime" from40,
    plain .declare "declare" from40 (some .bool),
    plain .defer "defer" from40 (some .bool),
    plain .dir "dir" from40 (some .textDirection),
    plain .disabled "disabled" from40 (some .bool),
    plain .enctype "enctype" standard,
    plain .event "event" from40,
    plain .face "face" loose,
    plain .«for» "for" from40,
    plain .frame "frame" from40 (some .outerFrame),
    plain .frameborder "frameborder" (.only .frameset),
    plain .framespacing "framespacing" proprietary (some .number),
    plain .gridx "gridx" proprietary (some .number),
    plain .gridy "gridy" proprietary (some .number),
    plain .headers "headers" from40,
    plain .height "height" standard (some .length),
    linking .href "href" standard (some .url),
    plain .hreflang "hreflang" from40,
    plain .hspace "hspace" standard (some .number),
    plain .httpEquiv "http-equiv" standard,
    plain .id "id" from40 (some .id),
    plain .ismap "ismap" standard (some .bool),
    prose .label "label" from40,
    plain .lang "lang" from40,
    plain .language "language" loose,
    plain .lastModified "last_modified" (.only .netscape),
    plain .lastVisit "last_visit" (.only .netscape),
    plain .leftmargin "leftmargin" (.only .microsoft) (some .number),
    plain .link "link" loose (some .color),
    linking .longdesc "longdesc" from40 (some .url),
    linking .lowsrc "lowsrc" proprietary (some .url),
    plain .marginheight "marginheight" iframe (some .number),
    plain .marginwidth "marginwidth" iframe (some .number),
    plain .maxlength "maxlength" standard (some .number),
    plain .media "media" from40,
    plain .method "method" standard,
    plain .multiple "multiple" standard (some .bool),
    plain .name "name" standard (some .name),
    plain .nohref "nohref" from32 (some .bool),
    plain .noresize "noresize" (.only .frameset) (some .bool),
    plain .noshade "noshade" loose (some .bool),
    plain .nowrap "nowrap" loose (some .bool),
    plain .object "object" (.only .html40Loose),
    code .onafterupdate "onafterupdate" (.only .microsoft) (some .script),
    code .onbeforeunload "onbeforeunload" (.only .microsoft) (some .script),
    code .onbeforeupdate "onbeforeupdate" (.only .microsoft) (some .script),
    code .onblur "onblur" from40 (some .script),
    code .onchange "onchange" from40 (some .script),
    code .onclick "onclick" from40 (some .script),
    code .ondataavailable "ondataavailable" (.only .microsoft) (some .script),
    code .ondatasetchanged "ondatasetchanged" (.only .microsoft) (some .script),
    code .ondatasetcomplete "ondatasetcomplete" (.only .microsoft) (some .script),
    code .ondblclick "ondblclick" from40 (some .script),
    code .onerrorupdate "onerrorupdate" (.only .microsoft) (some .script),
    code .onfocus "onfocus" from40 (some .script),
    code .onkeydown "onkeydown" from40 (some .script),
    code .onkeypress "onkeypress" from40 (some .script),
    code .onkeyup "onkeyup" from40 (some .script),
    code .onload "onload" from40 (some .script),
    code .onmousedown "onmousedown" from40 (some .script),
    code .onmousemove "onmousemove" from40 (some .script),
    code .onmouseout "onmouseout" from40 (some .script),
    code .onmouseover "onmouseover" from40 (some .script),
    code .onmouseup "onmouseup" from40 (some .script),
    code .onreset "onreset" from40 (some .script),
    code .onrowenter "onrowenter" (.only .microsoft) (some .script),
    code .onrowexit "onrowexit" (.only .microsoft) (some .script),
    code .onselect "onselect" from40 (some .script),
    code .onsubmit "onsubmit" from40 (some .script),
    code .onunload "onunload" from40 (some .script),
    linking .profile "profile" from40 (some .url),
    prose .prompt "prompt" loose,
    plain .rbspan "rbspan" (.only .xhtml11) (some .number),
    plain .readonly "readonly" from40 (some .bool),
    plain .rel "rel" standard,
    plain .rev "rev" standard,
    plain .rightmargin "rightmargin" (.only .microsoft) (some .number),
    plain .rows "rows" standard,
    plain .rowspan "rowspan" standard (some .number),
    plain .rules "rules" from40 (some .innerRules),
    plain .scheme "scheme" from40,
    plain .scope "scope" from40 (some .scope),
    plain .scrolling "scrolling" iframe (some .scrolling),
    plain .selected "selected" standard (some .bool),
    plain .shape "shape" from32 (some .shape),
    plain .showgrid "showgrid" proprietary (some .bool),
    plain .showgridx "showgridx" proprietary (some .bool),
    plain .showgridy "showgridy" proprietary (some .bool),
    plain .size "size" loose (some .number),
    plain .span "span" from40 (some .number),
    linking .src "src" standard (some .url),
    prose .standby "standby" from40,
    plain .start "start" standard (some .number),
    code .style "style" from40,
    prose .summary "summary" from40,
    plain .tabindex "tabindex" from40 (some .number),
    plain .target "target" iframe (some .target),
    plain .text "text" loose (some .color),
    prose .title "title" from40,
    plain .topmargin "topmargin" (.only .microsoft) (some .number),
    plain .type "type" standard,
    linking .usemap "usemap" standard (some .url),
    plain .valign "valign" from32 (some .valign),
    prose .value "value" standard,
    plain .valuetype "valuetype" from40 (some .valueType),
    plain .version "version" standard,
    plain .vlink "vlink" loose (some .color),
    plain .vspace "vspace" loose (some .number),
    plain .width "width" standard (some .length),
    plain .wrap "wrap" (.only .netscape),
    plain .xmlLang "xml:lang" (.only .xml),
    plain .xmlSpace "xml:space" (.only .xml),
    linking .xmlns "xmlns" standard
  ]

def find? (name : String) : Option AttributeRule :=
  let key := Text.folded name
  table.find? fun rule => rule.name == key

/-! ## Rows by identity -/

def indexed : Table AttributeRule AttributeId where
  rows := table
  identity := identity
  place := AttributeId.ctorIdx
  place_lt identity := by
    have rows : table.length = 154 := by cbv
    rw [rows]
    cases identity <;> decide
  place_inj _ _ := AttributeId.eq_of_ctorIdx_eq
  map_place := by cbv

/-- The row of a known attribute. -/
def get (identity : AttributeId) : AttributeRule := indexed.get identity

def nameOf (identity : AttributeId) : String := (get identity).name

end AttributeRule

instance : Enumerated AttributeId := AttributeRule.indexed.enumerated

end HtmlConformance
