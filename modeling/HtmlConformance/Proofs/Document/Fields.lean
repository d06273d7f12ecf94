import HtmlConformance.Document.Node
import HtmlConformance.Proofs.Json.Fields

namespace HtmlConformance

/-! What the objects of a document stand for, field by field. -/

open Json Decode

/-! ## Fragments -/

namespace Fragment

def fields : List String := ["language", "source"]

theorem Draft.foldlM_take_eq_ok_iff {members : List (String × Value)} {draft final : Draft} :
    members.foldlM (fun (draft : Draft) entry => draft.take entry.1 entry.2) draft = .ok final ↔
      Fills FragmentLanguage.ofValue "language" members draft.language final.language ∧
        Fills Decode.text "source" members draft.source final.source := by
  induction members generalizing draft with
  | nil =>
      rcases draft with ⟨language, source⟩
      rcases final with ⟨finalLanguage, finalSource⟩
      simp [pure, Except.pure, eq_comm]
  | cons member members induction =>
      rcases member with ⟨key, content⟩
      simp only [List.foldlM_cons, bind_ok_iff, induction]
      unfold take
      split_ifs with language source
      case neg =>
        rw [beq_iff_eq] at language source
        simp [language, source, fills_cons_of_ne, pure, Except.pure]
      -- A member of a field changes what is found for this field alone.
      all_goals
        cases eq_of_beq ‹(key == _) = true›
        simp [map_ok_iff, fills_cons_self, fills_cons_of_ne]
        grind

theorem ofValue_object_eq_ok_iff {members : List (String × Value)} {fragment : Fragment} :
    ofValue (.object members) = .ok fragment ↔
      Finds FragmentLanguage.ofValue "language" members (some fragment.language) ∧
        Finds Decode.text "source" members (some fragment.source) := by
  rcases fragment with ⟨language, source⟩
  simp only [ofValue, bind_ok_iff, Draft.foldlM_take_eq_ok_iff, fills_none, Draft.finish,
    required_eq_ok_iff]
  constructor
  · rintro ⟨draft, ⟨first, second⟩, _, here, _, there, equal⟩
    cases equal
    exact ⟨here ▸ first, there ▸ second⟩
  · rintro ⟨first, second⟩
    exact ⟨⟨some language, some source⟩, ⟨first, second⟩, language, rfl, source, rfl, rfl⟩

end Fragment

/-! ## Attributes -/

namespace Attribute

def fields : List String := ["name", "value", "delimiter", "embedded"]

theorem Draft.foldlM_take_eq_ok_iff {members : List (String × Value)} {draft final : Draft} :
    members.foldlM (fun (draft : Draft) entry => draft.take entry.1 entry.2) draft = .ok final ↔
      Fills Decode.text "name" members draft.name final.name ∧
        Fills (optional Decode.text) "value" members draft.value final.value ∧
        Fills Decode.char "delimiter" members draft.delimiter final.delimiter ∧
        Fills (optional Fragment.ofValue) "embedded" members draft.fragment final.fragment := by
  induction members generalizing draft with
  | nil =>
      rcases draft with ⟨name, value, delimiter, fragment⟩
      rcases final with ⟨finalName, finalValue, finalDelimiter, finalFragment⟩
      simp [pure, Except.pure, eq_comm]
  | cons member members induction =>
      rcases member with ⟨key, content⟩
      simp only [List.foldlM_cons, bind_ok_iff, induction]
      unfold take
      split_ifs with name value delimiter embedded
      case neg =>
        rw [beq_iff_eq] at name value delimiter embedded
        simp [name, value, delimiter, embedded, fills_cons_of_ne, pure, Except.pure]
      all_goals
        cases eq_of_beq ‹(key == _) = true›
        simp [map_ok_iff, fills_cons_self, fills_cons_of_ne]
        grind

theorem ofValue_object_eq_ok_iff {members : List (String × Value)} {attr : Attribute} :
    ofValue (.object members) = .ok attr ↔
      ∃ value delimiter fragment,
        Finds Decode.text "name" members (some attr.name) ∧
        Finds (optional Decode.text) "value" members value ∧
        Finds Decode.char "delimiter" members delimiter ∧
        Finds (optional Fragment.ofValue) "embedded" members fragment ∧
        attr = {
          name := attr.name
          value := value.getD none
          delimiter := delimiter.getD '"'
          fragment := fragment.getD none } := by
  simp only [ofValue, bind_ok_iff, Draft.foldlM_take_eq_ok_iff, fills_none, Draft.finish,
    required_eq_ok_iff]
  constructor
  · rintro ⟨draft, ⟨named, valued, delimited, embedded⟩, _, here, equal⟩
    cases equal
    exact ⟨draft.value, draft.delimiter, draft.fragment, here ▸ named, valued, delimited,
      embedded, rfl⟩
  · rintro ⟨value, delimiter, fragment, named, valued, delimited, embedded, equal⟩
    rw [equal]
    exact ⟨⟨some attr.name, value, delimiter, fragment⟩, ⟨named, valued, delimited, embedded⟩,
      attr.name, rfl, rfl⟩

end Attribute

/-! ## Nodes -/

namespace NodeKind

/-- The fields of a node of this kind, apart from that for the kind. -/
def fields : NodeKind → List String
  | element => ["tag", "attributes", "children"]
  | text => ["content"]
  | comment => ["content"]

end NodeKind

namespace Node

variable {child : Value → Except ShapeError Node} {members : List (String × Value)}

theorem ElementDraft.foldlM_take_eq_ok_iff {draft final : ElementDraft} :
    members.foldlM (fun (draft : ElementDraft) entry => draft.take child entry.1 entry.2) draft =
        .ok final ↔
      Fills Decode.text "tag" members draft.tag final.tag ∧
        Fills (sequence Attribute.ofValue) "attributes" members draft.attributes
          final.attributes ∧
        Fills (sequence child) "children" members draft.children final.children := by
  induction members generalizing draft with
  | nil =>
      rcases draft with ⟨tag, attributes, children⟩
      rcases final with ⟨finalTag, finalAttributes, finalChildren⟩
      simp [pure, Except.pure, eq_comm]
  | cons member members induction =>
      rcases member with ⟨key, content⟩
      simp only [List.foldlM_cons, bind_ok_iff, induction]
      unfold take
      split_ifs with tag attributes children
      case neg =>
        rw [beq_iff_eq] at tag attributes children
        simp [tag, attributes, children, fills_cons_of_ne, pure, Except.pure]
      all_goals
        cases eq_of_beq ‹(key == _) = true›
        simp [map_ok_iff, fills_cons_self, fills_cons_of_ne]
        grind

theorem foldlM_takeContent_eq_ok_iff {earlier final : Option String} :
    members.foldlM (fun earlier entry => takeContent earlier entry.1 entry.2) earlier =
        .ok final ↔
      Fills Decode.text "content" members earlier final := by
  induction members generalizing earlier with
  | nil => simp [pure, Except.pure, eq_comm]
  | cons member members induction =>
      rcases member with ⟨key, content⟩
      simp only [List.foldlM_cons, bind_ok_iff, induction]
      unfold takeContent
      split_ifs with named
      · cases eq_of_beq named
        rw [fills_cons_self]
      · rw [beq_iff_eq] at named
        simp [named, fills_cons_of_ne]

theorem contentOfMembers_eq_ok_iff {content : String} :
    contentOfMembers members = .ok content ↔
      Finds Decode.text "content" members (some content) := by
  simp [contentOfMembers, bind_ok_iff, foldlM_takeContent_eq_ok_iff, required_eq_ok_iff]

/-- The node that an object stands for whose kind is known. -/
theorem ofMembers_eq_ok_iff {kind : NodeKind} {node : Node} :
    ofMembers child kind members = .ok node ↔
      match kind with
      | .element => ∃ tag attributes children,
          Finds Decode.text "tag" members (some tag) ∧
          Finds (sequence Attribute.ofValue) "attributes" members attributes ∧
          Finds (sequence child) "children" members children ∧
          node = .element { tag, attributes := attributes.getD [] } (children.getD [])
      | .text => ∃ content,
          Finds Decode.text "content" members (some content) ∧ node = .text content
      | .comment => ∃ content,
          Finds Decode.text "content" members (some content) ∧ node = .comment content := by
  cases kind with
  | element =>
      simp only [ofMembers, bind_ok_iff, ElementDraft.foldlM_take_eq_ok_iff, fills_none,
        ElementDraft.finish, required_eq_ok_iff]
      constructor
      · rintro ⟨draft, ⟨tagged, attributed, nested⟩, tag, here, equal⟩
        cases equal
        exact ⟨tag, draft.attributes, draft.children, here ▸ tagged, attributed, nested, rfl⟩
      · rintro ⟨tag, attributes, children, tagged, attributed, nested, rfl⟩
        exact ⟨⟨some tag, attributes, children⟩, ⟨tagged, attributed, nested⟩, tag, rfl, rfl⟩
  | text => simp only [ofMembers, map_ok_iff, contentOfMembers_eq_ok_iff, @eq_comm _ node]
  | comment => simp only [ofMembers, map_ok_iff, contentOfMembers_eq_ok_iff, @eq_comm _ node]

/-! ## Nodes with their kind among the members -/

/-- Take up a member: the kind of the node, as it is decoded here, or another. -/
def Tagged.takeBy (kindOf : Value → Except ShapeError NodeKind) (tagged : Tagged) (key : String)
    (content : Value) : Except ShapeError Tagged := do
  if key == "type" then
    return { tagged with kind := ← Decode.once key tagged.kind (kindOf content) }
  else
    return { tagged with members := (key, content) :: tagged.members }

def ofObject (kindOf : Value → Except ShapeError NodeKind)
    (child : Value → Except ShapeError Node) (members : List (String × Value)) :
    Except ShapeError Node := do
  let tagged ← members.foldlM
    (fun (tagged : Tagged) entry => tagged.takeBy kindOf entry.1 entry.2) {}
  tagged.finish child

theorem ofValue_eq_ofObject (levels : Nat) (members : List (String × Value)) :
    ofValue (levels + 1) (.object members) =
      ofObject NodeKind.ofValue (ofValue levels) members := rfl

variable {kindOf : Value → Except ShapeError NodeKind}

theorem Tagged.foldlM_takeBy_eq_ok_iff {tagged final : Tagged} :
    members.foldlM (fun (tagged : Tagged) entry => tagged.takeBy kindOf entry.1 entry.2) tagged =
        .ok final ↔
      Fills kindOf "type" members tagged.kind final.kind ∧
        final.members =
          (members.filter fun member => member.1 != "type").reverse ++ tagged.members := by
  induction members generalizing tagged with
  | nil =>
      rcases tagged with ⟨kind, kept⟩
      rcases final with ⟨finalKind, finalKept⟩
      simp [pure, Except.pure, eq_comm]
  | cons member members induction =>
      rcases member with ⟨key, content⟩
      simp only [List.foldlM_cons, bind_ok_iff, induction]
      unfold takeBy
      split_ifs with typed
      · cases eq_of_beq typed
        simp [map_ok_iff, fills_cons_self]
        grind
      · rw [beq_iff_eq] at typed
        simp [typed, fills_cons_of_ne, pure, Except.pure]

theorem valuesOf_filter {key : String} (differs : key ≠ "type") :
    valuesOf key (members.filter fun member => member.1 != "type") = valuesOf key members := by
  rw [valuesOf, valuesOf, List.filter_filter]
  congr 2
  funext member
  by_cases here : member.1 = key <;> simp [here, differs]

theorem ofMembers_filter_eq_ok_iff {kind : NodeKind} {node : Node} :
    ofMembers child kind (members.filter fun member => member.1 != "type") = .ok node ↔
      ofMembers child kind members = .ok node := by
  have same {α : Type} {decode : Value → Except ShapeError α} {found : Option α} {key : String}
      (differs : key ≠ "type") :
      Finds decode key (members.filter fun member => member.1 != "type") found ↔
        Finds decode key members found := by
    rw [Finds, Finds, valuesOf_filter differs]
  rw [ofMembers_eq_ok_iff, ofMembers_eq_ok_iff]
  cases kind <;> simp [same]

/-- The node that an object stands for: of its kind, and with the fields of that kind. -/
theorem ofObject_eq_ok_iff {node : Node} :
    ofObject kindOf child members = .ok node ↔
      ∃ kind, Finds kindOf "type" members (some kind) ∧
        ofMembers child kind members = .ok node := by
  simp only [ofObject, bind_ok_iff, Tagged.foldlM_takeBy_eq_ok_iff, fills_none, Tagged.finish,
    required_eq_ok_iff]
  constructor
  · rintro ⟨tagged, ⟨typed, kept⟩, kind, here, found⟩
    rw [kept, List.append_nil, List.reverse_reverse, ofMembers_filter_eq_ok_iff] at found
    exact ⟨kind, here ▸ typed, found⟩
  · rintro ⟨kind, typed, found⟩
    refine ⟨⟨some kind, _⟩, ⟨typed, rfl⟩, kind, rfl, ?_⟩
    rw [List.append_nil, List.reverse_reverse, ofMembers_filter_eq_ok_iff]
    exact found

end Node

end HtmlConformance
