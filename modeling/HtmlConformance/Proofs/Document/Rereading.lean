import HtmlConformance.Proofs.Document
import HtmlConformance.Proofs.Document.Reading
import HtmlConformance.Proofs.View

namespace HtmlConformance

/-! A written document is read again exactly where it nests no deeper than a text may. It nests
little deeper than the text that it comes from: by the array around a single node, and by the
attributes that are always written and may have been added. -/

open Json

/-! ## Depth of what is written -/

theorem Attribute.nesting_toValue (attr : Attribute) :
    attr.toValue.nesting = attr.fragment.elim 1 fun _ => 2 := by
  rcases attr with ⟨name, value, delimiter, fragment⟩
  cases value <;> cases fragment <;>
    simp [toValue, Fragment.toValue, Value.nesting, Value.nestingMembers]

/-- How deep the attributes of an element nest where they are written. -/
def Element.nesting (element : Element) : Nat :=
  Value.nestingAll (element.attributes.map Attribute.toValue)

namespace Node

theorem nesting_toValue_element (head : Element) (children : List Node) :
    (Node.element head children).toValue.nesting =
      max (head.nesting + 2) (Value.nestingAll (toValues children) + 2) := by
  cases children with
  | nil =>
      simp [toValue, toValues, Value.nesting, Value.nestingMembers, Value.nestingAll,
        Element.nesting]
  | cons first rest =>
      simp [toValue, toValues, Value.nesting, Value.nestingMembers, Value.nestingAll,
        Element.nesting]

end Node

/-! ## Depth of what is decoded -/

theorem Json.Value.nestingMembers_eq (members : List (String × Value)) :
    Value.nestingMembers members = Value.nestingAll (members.map Prod.snd) := by
  induction members with
  | nil => rfl
  | cons member rest induction => simp [Value.nestingMembers, Value.nestingAll, induction]

theorem Json.Value.nesting_le_nestingAll {values : List Value} {value : Value}
    (member : value ∈ values) : value.nesting ≤ Value.nestingAll values :=
  Value.nestingAll_le_iff.mp (Nat.le_refl _) value member

theorem Json.Decode.item_eq_ok {α : Type} {items : List Value} {index : Nat}
    {decode : Value → Except ShapeError α} {absent : Except ShapeError α} {result : α}
    (decoded : Decode.item items index decode absent = .ok result) :
    (∃ value ∈ items, decode value = .ok result) ∨ absent = .ok result := by
  unfold Decode.item at decoded
  split at decoded
  next found here => exact .inl ⟨found, List.mem_of_getElem? here, decoded⟩
  next => exact .inr decoded

theorem Fragment.nesting_of_ofValue {value : Value} {fragment : Fragment}
    (decoded : ofValue value = .ok fragment) : 0 < value.nesting := by
  cases value with
  | array items => exact Nat.succ_pos _
  | object members => exact Nat.succ_pos _
  | _ => cases decoded

namespace Attribute

/-- The attribute nests no deeper than the values of its fields, of which one is its code. -/
theorem nesting_le_of_fragment {attr : Attribute} {values : List Value}
    (embedded : attr.fragment = none ∨
      ∃ value ∈ values, Decode.optional Fragment.ofValue value = .ok attr.fragment) :
    attr.toValue.nesting ≤ Value.nestingAll values + 1 := by
  rw [nesting_toValue]
  rcases embedded with none | ⟨value, member, decoded⟩
  · rw [none]
    exact Nat.le_add_left 1 _
  · rcases Decode.optional_eq_ok_iff.mp decoded with ⟨_, none⟩ | ⟨_, fragment, here, some⟩
    · rw [← none]
      exact Nat.le_add_left 1 _
    · rw [← some]
      exact Nat.succ_le_succ ((Fragment.nesting_of_ofValue here).trans_le
        (Value.nesting_le_nestingAll member))

theorem nesting_of_ofValue {value : Value} {attr : Attribute}
    (decoded : ofValue value = .ok attr) : attr.toValue.nesting ≤ value.nesting := by
  cases value with
  | array items =>
      obtain ⟨name, _, decoded⟩ := bind_ok_iff.mp decoded
      obtain ⟨value, _, decoded⟩ := bind_ok_iff.mp decoded
      obtain ⟨delimiter, _, decoded⟩ := bind_ok_iff.mp decoded
      obtain ⟨fragment, embedded, decoded⟩ := bind_ok_iff.mp decoded
      obtain ⟨_, _, equal⟩ := bind_ok_iff.mp decoded
      cases equal
      apply nesting_le_of_fragment
      rcases Decode.item_eq_ok embedded with found | none
      · exact .inr found
      · cases none
        exact .inl rfl
  | object members =>
      obtain ⟨_, _, fragment, _, _, _, embedded, equal⟩ := ofValue_object_eq_ok_iff.mp decoded
      rw [Value.nesting, Value.nestingMembers_eq]
      apply nesting_le_of_fragment
      rw [equal]
      cases fragment with
      | none => exact .inl rfl
      | some fragment =>
          obtain ⟨value, member, here⟩ := embedded.mem
          exact .inr ⟨value, List.mem_map_of_mem member, here⟩
  | _ => cases decoded

end Attribute

namespace Node

/-- A change that makes elements nest no deeper than one plain attribute does. -/
def Shallow (change : Element → Element) : Prop :=
  ∀ element, (change element).nesting ≤ max 1 element.nesting

variable {change : Element → Element} {child : Value → Except ShapeError Node}

/-- What is decoded from the items of a sequence nests little deeper than they do. -/
theorem nesting_of_sequence {α : Type} {decode : Value → Except ShapeError α} {write : α → Value}
    {more : Nat}
    (within : ∀ value result, decode value = .ok result →
      (write result).nesting ≤ value.nesting + more)
    {value : Value} {results : List α} (decoded : Decode.sequence decode value = .ok results) :
    Value.nestingAll (results.map write) + 1 ≤ value.nesting + more := by
  cases value with
  | array items =>
      have each := mapM_ok_iff.mp decoded
      rw [Value.nesting]
      clear decoded
      induction each with
      | nil => simp [Value.nestingAll]
      | cons head _ induction =>
          have here := within _ _ head
          simp only [List.map_cons, Value.nestingAll]
          omega
  | _ => cases decoded

theorem toValues_mapElementsAll (nodes : List Node) :
    toValues (mapElementsAll change nodes) =
      nodes.map fun node => (node.mapElements change).toValue := by
  induction nodes with
  | nil => rfl
  | cons node rest induction => rw [mapElementsAll, toValues, induction, List.map_cons]

/-- An element nests little deeper than the values of its fields. -/
theorem nesting_element (shallow : Shallow change)
    (below : ∀ value node, child value = .ok node →
      (node.mapElements change).toValue.nesting ≤ value.nesting + 2)
    {tag : String} {attributes : List Attribute} {children : List Node} {values : List Value}
    (attributed : attributes = [] ∨
      ∃ value ∈ values, Decode.sequence Attribute.ofValue value = .ok attributes)
    (nested : children = [] ∨
      ∃ value ∈ values, Decode.sequence child value = .ok children) :
    ((Node.element { tag, attributes } children).mapElements change).toValue.nesting ≤
      Value.nestingAll values + 3 := by
  have outer : ({ tag, attributes } : Element).nesting ≤ Value.nestingAll values := by
    rcases attributed with rfl | ⟨value, member, decoded⟩
    · exact Nat.zero_le _
    · have inside := nesting_of_sequence (fun value attr here =>
        (Attribute.nesting_of_ofValue here).trans (Nat.le_add_right _ 0)) decoded
      exact (Nat.le_of_succ_le inside).trans (Value.nesting_le_nestingAll member)
  have inner : Value.nestingAll (toValues (mapElementsAll change children)) ≤
      Value.nestingAll values + 1 := by
    rw [toValues_mapElementsAll]
    rcases nested with rfl | ⟨value, member, decoded⟩
    · exact Nat.zero_le _
    · have inside := nesting_of_sequence below decoded
      have deep := Value.nesting_le_nestingAll member
      omega
  have changed := shallow { tag, attributes }
  rw [mapElements, nesting_toValue_element]
  omega

variable {kind : NodeKind} {node : Node}

theorem nesting_of_ofMembers (shallow : Shallow change)
    (below : ∀ value node, child value = .ok node →
      (node.mapElements change).toValue.nesting ≤ value.nesting + 2)
    {members : List (String × Value)} (decoded : ofMembers child kind members = .ok node) :
    (node.mapElements change).toValue.nesting ≤ (Value.object members).nesting + 2 := by
  have present {α : Type} {decode : Value → Except ShapeError (List α)} {key : String}
      {found : Option (List α)} (finds : Decode.Finds decode key members found) :
      found.getD [] = [] ∨
        ∃ value ∈ members.map Prod.snd, decode value = .ok (found.getD []) := by
    cases found with
    | none => exact .inl rfl
    | some result =>
        obtain ⟨value, member, here⟩ := finds.mem
        exact .inr ⟨value, List.mem_map_of_mem member, here⟩
  rw [ofMembers_eq_ok_iff] at decoded
  cases kind with
  | element =>
      obtain ⟨tag, attributes, children, _, attributed, nested, rfl⟩ := decoded
      rw [Value.nesting, Value.nestingMembers_eq]
      exact nesting_element shallow below (present attributed) (present nested)
  | text =>
      obtain ⟨content, _, rfl⟩ := decoded
      simp [mapElements, toValue, Value.nesting, Value.nestingMembers]
  | comment =>
      obtain ⟨content, _, rfl⟩ := decoded
      simp [mapElements, toValue, Value.nesting, Value.nestingMembers]

theorem nesting_of_ofItems (shallow : Shallow change)
    (below : ∀ value node, child value = .ok node →
      (node.mapElements change).toValue.nesting ≤ value.nesting + 2)
    {first : Value} {items : List Value} (decoded : ofItems child kind items = .ok node) :
    (node.mapElements change).toValue.nesting ≤ (Value.array (first :: items)).nesting + 2 := by
  have present {α : Type} {decode : Value → Except ShapeError (List α)} {index : Nat}
      {found : List α} (here : Decode.item items index decode (.ok []) = .ok found) :
      found = [] ∨ ∃ value ∈ items, decode value = .ok found := by
    rcases Decode.item_eq_ok here with found | none
    · exact .inr found
    · cases none
      exact .inl rfl
  cases kind with
  | element =>
      obtain ⟨tag, _, decoded⟩ := bind_ok_iff.mp decoded
      obtain ⟨attributes, attributed, decoded⟩ := bind_ok_iff.mp decoded
      obtain ⟨children, nested, decoded⟩ := bind_ok_iff.mp decoded
      obtain ⟨_, _, equal⟩ := bind_ok_iff.mp decoded
      cases equal
      have deep : ((Node.element { tag, attributes } children).mapElements change).toValue.nesting ≤
          Value.nestingAll items + 3 :=
        nesting_element shallow below (present attributed) (present nested)
      rw [Value.nesting, Value.nestingAll]
      omega
  | text =>
      obtain ⟨content, _, rfl⟩ := map_ok_iff.mp decoded
      simp [mapElements, toValue, Value.nesting, Value.nestingMembers]
  | comment =>
      obtain ⟨content, _, rfl⟩ := map_ok_iff.mp decoded
      simp [mapElements, toValue, Value.nesting, Value.nestingMembers]

/-- A node below the top of a document, with its elements changed, nests at most two levels deeper
than what it is decoded from. -/
theorem nesting_of_ofValue (shallow : Shallow change) {levels : Nat} (value : Value) (node : Node)
    (decoded : ofValue levels value = .ok node) :
    (node.mapElements change).toValue.nesting ≤ value.nesting + 2 := by
  induction levels generalizing value node with
  | zero => cases decoded
  | succ levels induction =>
      cases value with
      | object members =>
          obtain ⟨kind, _, found⟩ := ofObject_eq_ok_iff.mp decoded
          exact nesting_of_ofMembers shallow induction found
      | array items =>
          cases items with
          | nil => cases decoded
          | cons first items =>
              obtain ⟨kind, _, found⟩ := bind_ok_iff.mp decoded
              exact nesting_of_ofItems shallow induction found
      | _ => cases decoded

theorem nesting_of_ofTop (shallow : Shallow change) (value : Value) (node : Node)
    (decoded : ofTop value = .ok node) :
    (node.mapElements change).toValue.nesting ≤ value.nesting + 2 := by
  have below : ∀ value node, ofChild value = .ok node →
      (node.mapElements change).toValue.nesting ≤ value.nesting + 2 :=
    nesting_of_ofValue shallow
  cases value with
  | object members =>
      obtain ⟨kind, _, found⟩ := ofObject_eq_ok_iff.mp decoded
      exact nesting_of_ofMembers shallow below found
  | array items =>
      cases items with
      | nil => cases decoded
      | cons first items =>
          obtain ⟨kind, _, found⟩ := bind_ok_iff.mp decoded
          exact nesting_of_ofItems shallow below found
  | _ => cases decoded

end Node

/-- How many levels writing can add: two for the attributes of an element that had none, and one
for the array around a single node. -/
def Json.Value.margin : Value → Nat
  | array _ => 2
  | _ => 3

namespace Node

theorem nesting_of_ofDocument (shallow : Shallow change) {value : Value} {nodes : List Node}
    (decoded : ofDocument value = .ok nodes) :
    (Value.array (toValues (mapElementsAll change nodes))).nesting ≤
      value.nesting + value.margin := by
  have each := nesting_of_ofTop shallow
  rw [Value.nesting, toValues_mapElementsAll]
  by_cases array : ∃ values, value = .array values
  · obtain ⟨values, rfl⟩ := array
    exact nesting_of_sequence each decoded
  · have single : ∀ values, value ≠ .array values := fun values same => array ⟨values, same⟩
    obtain ⟨node, here, rfl⟩ := (ofDocument_eq_ok_iff single).mp decoded
    have deep := each value node here
    have margin : value.margin = 3 := by
      cases value with
      | array values => exact absurd rfl (single values)
      | _ => rfl
    simp only [List.map_cons, List.map_nil, Value.nestingAll]
    omega

end Node

/-! ## Depth of what is repaired -/

theorem Element.shallow_repair (options : Options) (hook : IdRepair.BuiltIn) :
    Node.Shallow fun element => element.repair options hook.rule := by
  intro element
  rw [nesting, Value.nestingAll_le_iff, List.forall_mem_map]
  intro attr member
  change attr ∈ (element.check.repair options hook.rule (.ofTag element.tag) element).attributes
    at member
  rw [ElementCheck.attributes_repair, List.mem_append] at member
  rcases member with kept | appended
  · have rewritten : (element.check.rewrite options (.ofTag element.tag) element).attributes.map
        (fun attr => attr.toValue.nesting) =
        element.attributes.map fun attr => attr.toValue.nesting := by
      rw [map_eq_map_iff_forall₂]
      refine (element.check.sameButValues_rewrite options (.ofTag element.tag) element).flip.imp ?_
      intro after before same
      rw [Attribute.nesting_toValue, Attribute.nesting_toValue, same.fragment]
    obtain ⟨given, present, same⟩ := List.mem_map.mp (rewritten ▸ List.mem_map_of_mem kept)
    rw [← same]
    exact le_max_of_le_right (Value.nesting_le_nestingAll (List.mem_map_of_mem present))
  · obtain ⟨supplied, text, _, rfl, _⟩ :=
      ElementCheck.supplied_of_appended _ options hook _ _ (Option.mem_toList.mp appended)
    exact Nat.le_max_left 1 _

/-! ## Reading what was written -/

namespace Node

theorem parseAll_dump {nodes : List Node} {trailing : String}
    (blank : Reader.AllBlank trailing.toList)
    (allowed : (Value.array (toValues nodes)).nesting ≤ nestingLimit) :
    parseAll (dump nodes ++ trailing) = .ok nodes := by
  have read := reads_document nodes allowed trailing.toList
  obtain ⟨value, here, decoded⟩ := (readDocument_decodes _ _ _).mp read
  refine parseAll_eq_ok_iff.mpr ⟨value, ?_, decoded⟩
  exact Value.parse_eq_ok_iff.mpr ⟨trailing.toList,
    by rw [String.toList_append, dump, Value.pretty, String.toList_ofList]; exact here,
    [], Reader.finish_of_blank blank⟩

/-- A document that is written can be read if it does not nest too deep, and only then. -/
theorem parseAll_dump_iff {nodes found : List Node} {trailing : String}
    (blank : Reader.AllBlank trailing.toList) :
    parseAll (dump nodes ++ trailing) = .ok found ↔
      nodes = found ∧ (Value.array (toValues nodes)).nesting ≤ nestingLimit := by
  constructor
  · intro parsed
    obtain ⟨value, read, _⟩ := parseAll_eq_ok_iff.mp parsed
    have numberless : (Value.array (toValues nodes)).Numberless := numberless_toValues nodes
    have allowed := ((Value.parse_pretty_append numberless blank).mp read).2
    exact ⟨Except.ok.inj ((parseAll_dump blank allowed).symm.trans parsed), allowed⟩
  · rintro ⟨rfl, allowed⟩
    exact parseAll_dump blank allowed

theorem ofTop_toValue {node : Node} (allowed : node.toValue.nesting ≤ nestingLimit) :
    ofTop node.toValue = .ok node := by
  have read := node.reads_toValue (nestingLimit - 1) (Nat.sub_le _ _) allowed 0 []
  obtain ⟨value, here, decoded⟩ := (read_decodes _ _ _ _).mp read
  have same := Reader.reads_value .strict nestingLimit node.toValue node.numberless_toValue allowed
    0 [] .nil []
  cases same.symm.trans here
  exact decoded

end Node

namespace LoadedDocument

/-- A node may also be written without the array around it. -/
theorem ofText_toValue {node : Node} (allowed : node.toValue.nesting ≤ nestingLimit)
    (origin : String) :
    ofText origin node.toValue.pretty = .ok { tree := .ofNodes [node], origin } := by
  have parsed := (Value.parse_pretty node.numberless_toValue).mpr ⟨rfl, allowed⟩
  have single : ∀ values, node.toValue ≠ .array values := by
    obtain ⟨members, object, _⟩ := node.toValue_eq_object
    rw [object]
    exact nofun
  exact ofText_eq_ok_iff.mpr ⟨[node], Node.parseAll_eq_ok_iff.mpr ⟨node.toValue, parsed,
    (Node.ofDocument_eq_ok_iff single).mpr ⟨node, Node.ofTop_toValue allowed, rfl⟩⟩, rfl⟩

/-- What is written after a pass can be read again exactly if it nests no deeper than a text may,
and it is the same document then. It nests deeper than the text that was loaded by no more than
three levels, or two if that text is an array. -/
theorem dump_reloads_iff_shallow {origin text : String} {loaded : LoadedDocument}
    (accepted : ofText origin text = .ok loaded) (pass : Pass) (hook : IdRepair.BuiltIn)
    (place : String) {trailing : String} (blank : Reader.AllBlank trailing.toList) :
    let nodes := (loaded.tree.validate hook.rule pass).1.toNodes
    let written := Value.array (Node.toValues nodes)
    ((∃ reloaded, ofText place (Node.dump nodes ++ trailing) = .ok reloaded) ↔
      written.nesting ≤ nestingLimit) ∧
    (∀ reloaded, ofText place (Node.dump nodes ++ trailing) = .ok reloaded →
      reloaded.tree.toNodes = nodes) ∧
    ∃ value, Value.parse text = .ok value ∧
      written.nesting ≤ value.nesting + value.margin ∧
      (value.nesting + value.margin ≤ nestingLimit →
        ∃ reloaded, ofText place (Node.dump nodes ++ trailing) = .ok reloaded) := by
  intro nodes written
  have reads : (∃ reloaded, ofText place (Node.dump nodes ++ trailing) = .ok reloaded) ↔
      written.nesting ≤ nestingLimit := by
    constructor
    · rintro ⟨reloaded, read⟩
      obtain ⟨found, parsed, _⟩ := ofText_eq_ok_iff.mp read
      exact ((Node.parseAll_dump_iff blank).mp parsed).2
    · intro allowed
      exact ⟨_, ofText_eq_ok_iff.mpr
        ⟨nodes, (Node.parseAll_dump_iff blank).mpr ⟨rfl, allowed⟩, rfl⟩⟩
  refine ⟨reads, ?_, ?_⟩
  · intro reloaded read
    obtain ⟨found, parsed, rfl⟩ := ofText_eq_ok_iff.mp read
    obtain ⟨same, _⟩ := (Node.parseAll_dump_iff blank).mp parsed
    rw [same]
    exact (Arena.represents_ofNodes found).toNodes_eq
  · obtain ⟨given, parsed, rfl⟩ := ofText_eq_ok_iff.mp accepted
    obtain ⟨value, read, decoded⟩ := Node.parseAll_eq_ok_iff.mp parsed
    have repaired : nodes = Node.mapElementsAll
        (fun element => element.repair pass.state.options hook.rule) given := by
      change ((Arena.ofNodes given).validate hook.rule pass).1.toNodes = _
      rw [(Arena.validate_ofNodes hook pass given).2.1, Node.validateAll_eq]
    have deep : written.nesting ≤ value.nesting + value.margin := by
      change (Value.array (Node.toValues nodes)).nesting ≤ _
      rw [repaired]
      exact Node.nesting_of_ofDocument (Element.shallow_repair _ hook) decoded
    exact ⟨value, read, deep, fun room => reads.mpr (deep.trans room)⟩

end LoadedDocument

/-! ## At the limit -/

namespace Node

/-- Character data within so many paragraphs. -/
def enclosed : Nat → Node
  | 0 => .text ""
  | depth + 1 => .element { tag := "p" } [enclosed depth]

theorem nesting_enclosed (depth : Nat) : (enclosed depth).toValue.nesting = 2 * depth + 1 := by
  induction depth with
  | zero => rfl
  | succ depth induction =>
      rw [enclosed, nesting_toValue_element, toValues, toValues, Value.nestingAll, induction]
      simp only [Element.nesting, List.map_nil, Value.nestingAll]
      omega

theorem nesting_mapElements_enclosed (change : Element → Element) (depth : Nat) :
    2 * depth + 1 ≤ ((enclosed depth).mapElements change).toValue.nesting := by
  induction depth with
  | zero => simp [enclosed, mapElements, toValue, Value.nesting]
  | succ depth induction =>
      rw [enclosed, mapElements, nesting_toValue_element, mapElementsAll, mapElementsAll, toValues,
        toValues, Value.nestingAll, Value.nestingAll]
      omega

end Node

namespace LoadedDocument

/-- A text in a paragraph is written as an array, and still read. -/
theorem dump_reloads_of_paragraph :
    let text := (Node.enclosed 1).toValue.pretty
    ∃ loaded, ofText "--json" text = .ok loaded ∧ Reader.AllBlank "\n".toList ∧
      ∃ reloaded, ofText "dump.json"
        (Node.dump (loaded.tree.validate IdRepair.copyName (.start {})).1.toNodes ++ "\n") =
          .ok reloaded := by
  intro text
  have accepted : ofText "--json" text = .ok _ := ofText_toValue (by decide) "--json"
  have blank : Reader.AllBlank "\n".toList := by simp [Reader.AllBlank, Reader.isBlank]
  obtain ⟨_, _, value, read, _, reloads⟩ :=
    dump_reloads_iff_shallow accepted (.start {}) .copyName "dump.json" blank
  have same := (Value.parse_pretty (Node.enclosed 1).numberless_toValue).mpr ⟨rfl, by decide⟩
  cases same.symm.trans read
  exact ⟨_, accepted, blank, reloads (by decide)⟩

/-- Enclosed character data is not read again where the array around it is one level too many. -/
theorem dump_enclosed_ne_ok {depth : Nat} (fits : 2 * depth + 1 ≤ nestingLimit)
    (exceeds : nestingLimit < 2 * depth + 2) (hook : IdRepair.BuiltIn) (pass : Pass) :
    ∃ loaded, ofText "--json" (Node.enclosed depth).toValue.pretty = .ok loaded ∧
      ∀ place reloaded, ofText place
        (Node.dump (loaded.tree.validate hook.rule pass).1.toNodes) ≠ .ok reloaded := by
  refine ⟨_, ofText_toValue ((Node.nesting_enclosed depth).trans_le fits) "--json", ?_⟩
  intro place reloaded read
  obtain ⟨found, parsed, _⟩ := ofText_eq_ok_iff.mp read
  have blank : Reader.AllBlank "".toList := Reader.AllBlank.nil
  rw [← @String.append_empty (Node.dump _)] at parsed
  have short := ((Node.parseAll_dump_iff blank).mp parsed).2
  rw [(Arena.validate_ofNodes hook pass _).2.1, Node.validateAll_eq, Node.mapElementsAll,
    Node.mapElementsAll, Node.toValues, Node.toValues, Value.nesting, Value.nestingAll,
    Value.nestingAll] at short
  have nested := Node.nesting_mapElements_enclosed
    (fun element => element.repair pass.state.options hook.rule) depth
  omega

/-- Sixty-three paragraphs are as deep as a text may be, and the array around them is too much. -/
theorem dump_refused_of_paragraphs :
    ∃ loaded, ofText "--json" (Node.enclosed 63).toValue.pretty = .ok loaded ∧
      ∀ place reloaded, ofText place
        (Node.dump (loaded.tree.validate IdRepair.copyName (.start {})).1.toNodes) ≠
          .ok reloaded :=
  dump_enclosed_ne_ok (by decide) (by decide) .copyName (.start {})

end LoadedDocument

end HtmlConformance
