import HtmlConformance.Proofs.Arena.Reading
import HtmlConformance.Proofs.Document.OptionFields
import HtmlConformance.Proofs.Document.Reading

namespace HtmlConformance

/-! Documents and options do not depend on the order of members, nor on members that are fields of
nothing: after any number of such changes, at any depth, the same is read. -/

open Json Decode

/-! ## Fragments and attributes -/

inductive Fragment.Rearranged : Value → Value → Prop where
  | members {members others : List (String × Value)}
      (rearranged : Decode.Rearranged Fragment.fields members others) :
      Rearranged (.object members) (.object others)

theorem Fragment.Rearranged.ofValue {value other : Value} (rearranged : Rearranged value other)
    {fragment : Fragment} (decoded : Fragment.ofValue value = .ok fragment) :
    Fragment.ofValue other = .ok fragment := by
  cases rearranged with
  | members rearranged =>
      obtain ⟨language, source⟩ := ofValue_object_eq_ok_iff.mp decoded
      exact ofValue_object_eq_ok_iff.mpr
        ⟨language.rearranged rearranged (by decide), source.rearranged rearranged (by decide)⟩

/-- A change to the members of an attribute, or to those of the code in it. -/
inductive Attribute.Rearranged : Value → Value → Prop where
  | members {members others : List (String × Value)}
      (rearranged : Decode.Rearranged Attribute.fields members others) :
      Rearranged (.object members) (.object others)
  | inFragment (before after : List (String × Value)) {value other : Value}
      (rearranged : Fragment.Rearranged value other) :
      Rearranged (.object (before ++ ("embedded", value) :: after))
        (.object (before ++ ("embedded", other) :: after))

theorem Attribute.Rearranged.ofValue {value other : Value} (rearranged : Rearranged value other)
    {attr : Attribute} (decoded : Attribute.ofValue value = .ok attr) :
    Attribute.ofValue other = .ok attr := by
  cases rearranged with
  | members rearranged =>
      obtain ⟨value, delimiter, fragment, named, valued, delimited, embedded, equal⟩ :=
        ofValue_object_eq_ok_iff.mp decoded
      exact ofValue_object_eq_ok_iff.mpr ⟨value, delimiter, fragment,
        named.rearranged rearranged (by decide), valued.rearranged rearranged (by decide),
        delimited.rearranged rearranged (by decide), embedded.rearranged rearranged (by decide),
        equal⟩
  | @inFragment before after old new rearranged =>
      obtain ⟨value, delimiter, fragment, named, valued, delimited, embedded, equal⟩ :=
        ofValue_object_eq_ok_iff.mp decoded
      have code (found : Fragment) (here : Fragment.ofValue old = .ok found) :=
        rearranged.ofValue here
      cases rearranged with
      | members rearranged =>
          refine ofValue_object_eq_ok_iff.mpr ⟨value, delimiter, fragment,
            named.replaced (by simp), valued.replaced (by simp), delimited.replaced (by simp),
            embedded.replaced ?_, equal⟩
          intro _ found present
          rcases optional_eq_ok_iff.mp present with ⟨null, _⟩ | ⟨_, fragment, decoded, equal⟩
          · cases null
          · exact optional_eq_ok_iff.mpr (.inr ⟨nofun, fragment, code fragment decoded, equal⟩)

/-! ## Nodes -/

/-- A change to the members of a node, where the fields are those of its kind, or to those of one of
its attributes or children. -/
inductive Node.Rearranged : Value → Value → Prop where
  | members {members others : List (String × Value)} {tag : Value} {kind : NodeKind}
      (typed : ("type", tag) ∈ members) (known : NodeKind.ofValue tag = .ok kind)
      (rearranged : Decode.Rearranged ("type" :: kind.fields) members others) :
      Rearranged (.object members) (.object others)
  | inAttribute (before after : List (String × Value)) (front back : List Value)
      {value other : Value} (rearranged : Attribute.Rearranged value other) :
      Rearranged (.object (before ++ ("attributes", .array (front ++ value :: back)) :: after))
        (.object (before ++ ("attributes", .array (front ++ other :: back)) :: after))
  | inChild (before after : List (String × Value)) (front back : List Value)
      {value other : Value} (rearranged : Rearranged value other) :
      Rearranged (.object (before ++ ("children", .array (front ++ value :: back)) :: after))
        (.object (before ++ ("children", .array (front ++ other :: back)) :: after))

namespace Node

variable {kindOf : Value → Except ShapeError NodeKind} {child : Value → Except ShapeError Node}
    {members others : List (String × Value)} {kind : NodeKind} {node : Node}

theorem ofMembers_rearranged (decoded : ofMembers child kind members = .ok node)
    (rearranged : Decode.Rearranged ("type" :: kind.fields) members others) :
    ofMembers child kind others = .ok node := by
  rw [ofMembers_eq_ok_iff] at decoded ⊢
  cases kind with
  | element =>
      obtain ⟨tag, attributes, children, tagged, attributed, nested, equal⟩ := decoded
      exact ⟨tag, attributes, children, tagged.rearranged rearranged (by decide),
        attributed.rearranged rearranged (by decide), nested.rearranged rearranged (by decide),
        equal⟩
  | text =>
      obtain ⟨content, found, equal⟩ := decoded
      exact ⟨content, found.rearranged rearranged (by decide), equal⟩
  | comment =>
      obtain ⟨content, found, equal⟩ := decoded
      exact ⟨content, found.rearranged rearranged (by decide), equal⟩

/-- Another value for the attributes or the children, from which the same is decoded. -/
theorem ofMembers_replaced {before after : List (String × Value)} {key : String}
    {value instead : Value}
    (decoded : ofMembers child kind (before ++ (key, value) :: after) = .ok node)
    (listed : key = "attributes" ∨ key = "children")
    (attributes : key = "attributes" → ∀ found,
      sequence Attribute.ofValue value = .ok found →
      sequence Attribute.ofValue instead = .ok found)
    (children : key = "children" → ∀ found,
      sequence child value = .ok found → sequence child instead = .ok found) :
    ofMembers child kind (before ++ (key, instead) :: after) = .ok node := by
  rw [ofMembers_eq_ok_iff] at decoded ⊢
  have notTag : key ≠ "tag" := by rcases listed with rfl | rfl <;> decide
  have notContent : key ≠ "content" := by rcases listed with rfl | rfl <;> decide
  cases kind with
  | element =>
      obtain ⟨tag, _, _, tagged, attributed, nested, equal⟩ := decoded
      exact ⟨tag, _, _, tagged.replaced fun same => absurd same notTag,
        attributed.replaced attributes, nested.replaced children, equal⟩
  | text =>
      obtain ⟨content, found, equal⟩ := decoded
      exact ⟨content, found.replaced fun same => absurd same notContent, equal⟩
  | comment =>
      obtain ⟨content, found, equal⟩ := decoded
      exact ⟨content, found.replaced fun same => absurd same notContent, equal⟩

theorem Rearranged.objects {value other : Value} (rearranged : Rearranged value other) :
    ∃ members others, value = .object members ∧ other = .object others := by
  cases rearranged <;> exact ⟨_, _, rfl, rfl⟩

/-- A node is decoded as before from an object that is rearranged, if this holds of what its
children are decoded with. -/
theorem Rearranged.ofObject
    (kinds : ∀ {value kind}, kindOf value = .ok kind → NodeKind.ofValue value = .ok kind)
    (below : ∀ {value other node}, Rearranged value other → child value = .ok node →
      child other = .ok node)
    (rearranged : Rearranged (.object members) (.object others))
    (decoded : Node.ofObject kindOf child members = .ok node) :
    Node.ofObject kindOf child others = .ok node := by
  obtain ⟨kind, typed, found⟩ := ofObject_eq_ok_iff.mp decoded
  refine ofObject_eq_ok_iff.mpr ⟨kind, ?_⟩
  cases rearranged with
  | members tagged known rearranged =>
      cases known.symm.trans (kinds (typed.of_mem tagged))
      exact ⟨typed.rearranged rearranged List.mem_cons_self,
        ofMembers_rearranged found rearranged⟩
  | inAttribute before after front back rearranged =>
      exact ⟨typed.replaced (by simp), ofMembers_replaced found (.inl rfl)
        (fun _ _ => sequence_replaced fun _ => rearranged.ofValue) (by simp)⟩
  | inChild before after front back rearranged =>
      exact ⟨typed.replaced (by simp), ofMembers_replaced found (.inr rfl) (by simp)
        fun _ _ => sequence_replaced fun _ => below rearranged⟩

theorem Rearranged.ofValue {levels : Nat} {value other : Value}
    (rearranged : Rearranged value other) (decoded : Node.ofValue levels value = .ok node) :
    Node.ofValue levels other = .ok node := by
  induction levels generalizing value other node with
  | zero => cases decoded
  | succ levels induction =>
      obtain ⟨members, others, rfl, rfl⟩ := rearranged.objects
      rw [ofValue_eq_ofObject] at decoded ⊢
      exact rearranged.ofObject id induction decoded

theorem Rearranged.ofTop {value other : Value} (rearranged : Rearranged value other)
    (decoded : Node.ofTop value = .ok node) : Node.ofTop other = .ok node := by
  obtain ⟨members, others, rfl, rfl⟩ := rearranged.objects
  exact rearranged.ofObject NodeKind.ofValue_of_ofName Rearranged.ofValue decoded

/-! ## Documents -/

/-- A change to one of the nodes at the top of a document. -/
inductive DocumentRearranged : Value → Value → Prop where
  | single {value other : Value} (rearranged : Rearranged value other) :
      DocumentRearranged value other
  | item (before after : List Value) {value other : Value} (rearranged : Rearranged value other) :
      DocumentRearranged (.array (before ++ value :: after)) (.array (before ++ other :: after))

theorem DocumentRearranged.ofDocument {value other : Value}
    (rearranged : DocumentRearranged value other) {nodes : List Node}
    (decoded : Node.ofDocument value = .ok nodes) : Node.ofDocument other = .ok nodes := by
  cases rearranged with
  | single rearranged =>
      obtain ⟨members, others, rfl, rfl⟩ := rearranged.objects
      obtain ⟨node, here, equal⟩ := map_ok_iff.mp decoded
      exact map_ok_iff.mpr ⟨node, rearranged.ofTop here, equal⟩
  | item before after rearranged =>
      exact sequence_replaced (fun _ => rearranged.ofTop) decoded

theorem ofDocument_rearranged {value other : Value}
    (rearranged : Relation.ReflTransGen DocumentRearranged value other) {nodes : List Node}
    (decoded : ofDocument value = .ok nodes) : ofDocument other = .ok nodes := by
  induction rearranged with
  | refl => exact decoded
  | tail _ step induction => exact step.ofDocument induction

end Node

/-! ## Options -/

namespace Options

/-- Options that are left out of an object have their defaults. -/
structure Defaults (members : List (String × Value)) (options : Options) : Prop where
  slashUrls : "normalize_url_backslashes" ∉ members.map Prod.fst → options.slashUrls = false
  xmlTags : "xml_tags" ∉ members.map Prod.fst → options.xmlTags = false
  xmlOutput : "xml_output" ∉ members.map Prod.fst → options.xmlOutput = false
  fallbackAlt : "fallback_alt_text" ∉ members.map Prod.fst → options.fallbackAlt = none
  doctype : "doctype" ∉ members.map Prod.fst → options.doctype = none

variable {members others : List (String × Value)} {options : Options}

theorem defaults_of_ofMembers (decoded : ofMembers members = .ok options) :
    Defaults members options := by
  obtain ⟨_, _, _, _, _, slashUrls, xmlTags, xmlOutput, fallbackAlt, doctype, rfl⟩ :=
    ofMembers_eq_ok_iff.mp decoded
  exact {
    slashUrls := fun absent => congrArg (·.getD false) (slashUrls.eq_none absent)
    xmlTags := fun absent => congrArg (·.getD false) (xmlTags.eq_none absent)
    xmlOutput := fun absent => congrArg (·.getD false) (xmlOutput.eq_none absent)
    fallbackAlt := fun absent => congrArg (·.getD none) (fallbackAlt.eq_none absent)
    doctype := fun absent => congrArg (·.getD none) (doctype.eq_none absent) }

theorem ofMembers_of_rearranged (decoded : ofMembers members = .ok options)
    (rearranged : Decode.Rearranged fields members others) : ofMembers others = .ok options := by
  obtain ⟨_, _, _, _, _, slashUrls, xmlTags, xmlOutput, fallbackAlt, doctype, equal⟩ :=
    ofMembers_eq_ok_iff.mp decoded
  exact ofMembers_eq_ok_iff.mpr ⟨_, _, _, _, _, slashUrls.rearranged rearranged (by decide),
    xmlTags.rearranged rearranged (by decide), xmlOutput.rearranged rearranged (by decide),
    fallbackAlt.rearranged rearranged (by decide), doctype.rearranged rearranged (by decide),
    equal⟩

theorem ofMembers_rearranged
    (rearranged : Relation.ReflTransGen (Decode.Rearranged fields) members others)
    (decoded : ofMembers members = .ok options) : ofMembers others = .ok options := by
  induction rearranged with
  | refl => exact decoded
  | tail _ step induction => exact ofMembers_of_rearranged induction step

end Options

/-! ## Texts -/

theorem Options.ofText_eq_ok_iff {origin text : String} {options : Options} :
    ofText origin text = .ok options ↔ parse text = .ok options := by
  unfold ofText
  cases parse text <;> simp

/-- Any number of changes to the order of members, and of members that are no fields, leaves the
document or the options that are read from a text as they were, for as long as the text can be read
at all. An option file may even hold members that cannot be read, as long as no option is among
them. -/
theorem member_order_is_immaterial (origin place : String) :
    (∀ text loaded, LoadedDocument.ofText origin text = .ok loaded →
      ∃ value, Value.parse text = .ok value ∧
        ∀ other changed, Value.parse other = .ok changed →
          Relation.ReflTransGen Node.DocumentRearranged value changed →
          ∃ reloaded, LoadedDocument.ofText place other = .ok reloaded ∧
            reloaded.tree.toNodes = loaded.tree.toNodes) ∧
    (∀ text options, Options.ofText origin text = .ok options → Options.HoldsObject text →
      ∃ members, Options.parseMembers text = .ok members ∧ Options.Defaults members options ∧
        ∀ other changed, Options.parseMembers other = .ok changed →
          Relation.ReflTransGen (Decode.Rearranged Options.fields) members changed →
          Options.ofText place other = .ok options) ∧
    ∀ text members, Value.parse text = .ok (.object members) →
      Options.parseMembers text = .ok members := by
  refine ⟨?_, ?_, fun text members => Options.parseMembers_of_parse⟩
  · intro text loaded accepted
    obtain ⟨nodes, parsed, rfl⟩ := LoadedDocument.ofText_eq_ok_iff.mp accepted
    obtain ⟨value, read, decoded⟩ := Node.parseAll_eq_ok_iff.mp parsed
    refine ⟨value, read, fun other changed reread rearranged => ?_⟩
    have same := Node.ofDocument_rearranged rearranged decoded
    exact ⟨_, LoadedDocument.ofText_eq_ok_iff.mpr
      ⟨nodes, Node.parseAll_eq_ok_iff.mpr ⟨changed, reread, same⟩, rfl⟩, rfl⟩
  · intro text options accepted object
    have parsed := Options.ofText_eq_ok_iff.mp accepted
    obtain ⟨members, read, decoded⟩ := (Options.parse_eq_ok_iff object).mp parsed
    refine ⟨members, read, Options.defaults_of_ofMembers decoded,
      fun other changed reread rearranged => ?_⟩
    have same := Options.ofMembers_rearranged rearranged decoded
    exact Options.ofText_eq_ok_iff.mpr
      ((Options.parse_eq_ok_iff (Options.holdsObject_of_parseMembers reread)).mpr
        ⟨changed, reread, same⟩)

/-- A paragraph whose attribute is also written the other way around, with a member that only other
nodes have; and options with a member that is none. -/
theorem member_order_is_immaterial_of_paragraph :
    let first : Value := .object [
      ("tag", .text "p"),
      ("type", .text "element"),
      ("attributes", .array [.object [("name", .text "class"), ("value", .null)]])]
    let second : Value := .object [
      ("content", .array []),
      ("type", .text "element"),
      ("tag", .text "p"),
      ("attributes", .array [.object [("value", .null), ("name", .text "class")]])]
    let options : Value := .object [("xml_tags", .bool true), ("doctype", .text "html20")]
    let others : Value := .object
      [("doctype", .text "html20"), ("tag", .null), ("xml_tags", .bool true)]
    (∃ loaded reloaded, LoadedDocument.ofText "--json" first.pretty = .ok loaded ∧
      LoadedDocument.ofText "second.json" second.pretty = .ok reloaded ∧
      reloaded.tree.toNodes = loaded.tree.toNodes) ∧
    ∃ found, Options.ofText "--json" options.pretty = .ok found ∧
      Options.ofText "second.json" others.pretty = .ok found := by
  intro first second options others
  obtain ⟨documents, optionFiles, objects⟩ := member_order_is_immaterial "--json" "second.json"
  have numberless : first.Numberless ∧ second.Numberless ∧ options.Numberless ∧
      others.Numberless := by
    simp [first, second, options, others, Value.Numberless, Value.NumberlessMembers,
      Value.NumberlessAll]
  constructor
  · have parsed : Value.parse first.pretty = .ok first :=
      (Value.parse_pretty numberless.1).mpr ⟨rfl, by decide⟩
    have reparsed : Value.parse second.pretty = .ok second :=
      (Value.parse_pretty numberless.2.1).mpr ⟨rfl, by decide⟩
    have decoded : Node.ofDocument first = .ok [.element ⟨"p", [.bare "class"]⟩ []] := by
      rfl
    have accepted : LoadedDocument.ofText "--json" first.pretty = .ok _ :=
      LoadedDocument.ofText_eq_ok_iff.mpr
        ⟨_, Node.parseAll_eq_ok_iff.mpr ⟨first, parsed, decoded⟩, rfl⟩
    obtain ⟨value, same, immaterial⟩ := documents _ _ accepted
    cases parsed.symm.trans same
    have swapped : Attribute.Rearranged
        (.object [("name", .text "class"), ("value", .null)])
        (.object [("value", .null), ("name", .text "class")]) :=
      .members (.permuted (.swap _ _ _))
    have changed : Relation.ReflTransGen Node.DocumentRearranged first second :=
      .tail (.tail (.single (.single (.inAttribute [_, _] [] [] [] swapped)))
        (.single (.members (List.mem_cons_of_mem _ List.mem_cons_self) rfl
          (.permuted (.swap _ _ _)))))
        (.single (.members List.mem_cons_self rfl (.inserted [] _ _ (by decide))))
    obtain ⟨reloaded, again, nodes⟩ := immaterial second.pretty second reparsed changed
    exact ⟨_, reloaded, accepted, again, nodes⟩
  · have parsed : Options.parseMembers options.pretty = .ok _ :=
      objects _ _ ((Value.parse_pretty numberless.2.2.1).mpr ⟨rfl, by decide⟩)
    have reparsed : Options.parseMembers others.pretty = .ok _ :=
      objects _ _ ((Value.parse_pretty numberless.2.2.2).mpr ⟨rfl, by decide⟩)
    have object := Options.holdsObject_of_parseMembers parsed
    have accepted : Options.ofText "--json" options.pretty =
        .ok { xmlTags := true, doctype := some .html20 } :=
      Options.ofText_eq_ok_iff.mpr ((Options.parse_eq_ok_iff object).mpr ⟨_, parsed, rfl⟩)
    obtain ⟨members, same, _, immaterial⟩ := optionFiles _ _ accepted object
    cases parsed.symm.trans same
    exact ⟨_, accepted, immaterial _ _ reparsed
      (.tail (.single (.permuted (.swap _ _ _))) (.inserted [_] [_] _ (by decide)))⟩

end HtmlConformance
