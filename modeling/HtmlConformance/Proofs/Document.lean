import HtmlConformance.Document.Load
import HtmlConformance.Proofs.Arena.Reading
import HtmlConformance.Proofs.Json.Value

namespace HtmlConformance

/-! Documents that are written come back when they are read: what stands for a node is decoded
to the node, and its printed form is read as the node. -/

open Json

theorem ok_bind {α β ε : Type} (result : α) (next : α → Except ε β) :
    (Except.ok result >>= next) = next result := rfl

theorem mapM_map_of_ok {α β ε : Type} {encode : α → β} {decode : β → Except ε α}
    (inverse : ∀ entry, decode (encode entry) = .ok entry) (list : List α) :
    (list.map encode).mapM decode = .ok list := by
  induction list with
  | nil => rfl
  | cons head tail induction =>
      rw [List.map_cons, List.mapM_cons, inverse, induction]
      rfl

/-! ## Attributes -/

theorem FragmentLanguage.ofValue_name (language : FragmentLanguage) :
    ofValue (.text language.name) = .ok language := by
  cases language <;> rfl

theorem Fragment.ofValue_toValue (fragment : Fragment) :
    ofValue fragment.toValue = .ok fragment := by
  have language := fragment.language.ofValue_name
  simp [toValue, ofValue, Draft.take, Draft.finish, Decode.once, Decode.required, Decode.text,
    language]
  rfl

theorem Attribute.ofValue_toValue (attr : Attribute) : ofValue attr.toValue = .ok attr := by
  rcases attr with ⟨name, value, delimiter, fragment⟩
  have quote : Decode.char (.text (String.singleton delimiter)) = .ok delimiter := by
    simp [Decode.char]
  have text (content : String) :
      Decode.optional Decode.text (.text content) = .ok (some content) := rfl
  have code (fragment : Fragment) :
      Decode.optional Fragment.ofValue fragment.toValue = .ok (some fragment) := by
    have same := fragment.ofValue_toValue
    simp only [Fragment.toValue] at same ⊢
    rw [Decode.optional, same]
    · rfl
    · simp
  cases value <;> cases fragment <;>
    simp [toValue, ofValue, Draft.take, Draft.finish, Decode.once, Decode.required, quote, text,
      code] <;>
    rfl

/-! ## Nodes as values -/

namespace Node

theorem Tagged.foldlM_take {members : List (String × Value)}
    (untyped : ∀ member ∈ members, (member.1 == "type") = false) (tagged : Tagged) :
    members.foldlM (fun (tagged : Tagged) entry => tagged.take entry.1 entry.2) tagged =
      .ok { tagged with members := members.reverse ++ tagged.members } := by
  induction members generalizing tagged with
  | nil => rfl
  | cons member members induction =>
      rw [List.forall_mem_cons] at untyped
      rw [List.foldlM_cons, take, untyped.1, List.reverse_cons, List.append_assoc,
        List.singleton_append]
      exact induction untyped.2 { tagged with members := member :: tagged.members }

/-- An object that begins with the kind of its node. -/
theorem ofValue_object (kind : NodeKind) {members : List (String × Value)}
    (untyped : ∀ member ∈ members, (member.1 == "type") = false) (levels : Nat) :
    ofValue (levels + 1) (.object (("type", .text kind.name) :: members)) =
      ofMembers (ofValue levels) kind members := by
  have first : ({} : Tagged).take "type" (.text kind.name) = .ok { kind := some kind } := by
    cases kind <;> rfl
  have later := Tagged.foldlM_take untyped { kind := some kind }
  rw [ofValue, List.foldlM_cons, first, ok_bind, later, ok_bind, List.append_nil]
  change ofMembers (ofValue levels) kind members.reverse.reverse = _
  rw [List.reverse_reverse]

theorem contentOfMembers_singleton (content : String) :
    contentOfMembers [("content", .text content)] = .ok content := rfl

theorem ofMembers_element {child : Value → Except ShapeError Node} (head : Element)
    (children : Option (List Node)) (members : List (String × Value))
    (taken : members.foldlM
      (fun (draft : ElementDraft) entry => draft.take child entry.1 entry.2)
      { tag := some head.tag, attributes := some head.attributes } =
        .ok { tag := some head.tag, attributes := some head.attributes, children }) :
    ofMembers child .element
        (("tag", .text head.tag) ::
          ("attributes", .array (head.attributes.map Attribute.toValue)) :: members) =
      .ok (.element head (children.getD [])) := by
  have listed : Decode.sequence Attribute.ofValue
      (.array (head.attributes.map Attribute.toValue)) = .ok head.attributes :=
    mapM_map_of_ok Attribute.ofValue_toValue head.attributes
  have tagged : ({} : ElementDraft).take child "tag" (.text head.tag) =
      .ok { tag := some head.tag } := rfl
  have named : ({ tag := some head.tag } : ElementDraft).take child "attributes"
      (.array (head.attributes.map Attribute.toValue)) =
      .ok { tag := some head.tag, attributes := some head.attributes } := by
    simp [ElementDraft.take, Decode.once, listed]
  rw [ofMembers, List.foldlM_cons, tagged, ok_bind, List.foldlM_cons, named, ok_bind, taken]
  rfl

theorem nesting_toValue_pos (node : Node) : 0 < node.toValue.nesting := by
  cases node with
  | element head children => cases children <;> simp [toValue, Value.nesting]
  | text content => simp [toValue, Value.nesting]
  | comment content => simp [toValue, Value.nesting]

mutual

/-- A value nests at least as deep as the nodes in it. -/
theorem ofValue_toValue (node : Node) {levels : Nat} (allowed : node.toValue.nesting ≤ levels) :
    ofValue levels node.toValue = .ok node := by
  cases levels with
  | zero => exact absurd allowed (Nat.not_le_of_gt node.nesting_toValue_pos)
  | succ levels =>
      cases node with
      | element head children =>
          cases children with
          | nil =>
              rw [toValue, List.append_nil, ofValue_object .element (by simp)]
              exact ofMembers_element head none [] rfl
          | cons first rest =>
              have below : Decode.sequence (ofValue levels)
                  (.array (toValue first :: toValues rest)) = .ok (first :: rest) := by
                apply mapM_ofValue_toValues (first :: rest)
                simp only [toValue, Value.nesting, Value.nestingMembers, Value.nestingAll,
                  List.cons_append, List.nil_append] at allowed
                simp only [toValues, Value.nestingAll]
                omega
              rw [toValue, List.cons_append, ofValue_object .element (by simp)]
              apply ofMembers_element head (some (first :: rest))
              simp [ElementDraft.take, Decode.once, below]
      | text content =>
          rw [toValue, ofValue_object .text (by simp), ofMembers, contentOfMembers_singleton]
          rfl
      | comment content =>
          rw [toValue, ofValue_object .comment (by simp), ofMembers, contentOfMembers_singleton]
          rfl

theorem mapM_ofValue_toValues (nodes : List Node) {levels : Nat}
    (allowed : Value.nestingAll (toValues nodes) ≤ levels) :
    (toValues nodes).mapM (ofValue levels) = .ok nodes := by
  cases nodes with
  | nil => rfl
  | cons node rest =>
      rw [toValues, Value.nestingAll, Nat.max_le] at allowed
      rw [toValues, List.mapM_cons, ofValue_toValue node allowed.1,
        mapM_ofValue_toValues rest allowed.2]
      rfl

end

/-! ## Nodes as text -/

theorem reads_kind {name : String} {kind : NodeKind} (required : NodeKind.require name = .ok kind)
    {blanks : List Char} (blank : Reader.AllBlank blanks) :
    NodeKind.read.Reads (blanks ++ Text.written name) kind := by
  have shaped : (Reader.ofShape (NodeKind.require name)).Reads [] kind := by
    rw [required]
    exact .pure kind
  exact .peek blank '"' (by decide) ((Reader.reads_text .strict name).andThen shaped)

theorem reads_taggedMember {depth level : Nat} {key : String} {content : Value}
    (named : key = "type" → ∃ name, content = .text name)
    (reads : (Reader.value .strict depth).Reads ([' '] ++ content.chars level) content)
    {tagged next : Tagged} (taken : tagged.take key content = .ok next) :
    (Tagged.read depth tagged key).Reads ([':', ' '] ++ content.chars level) next := by
  unfold Tagged.take at taken
  unfold Tagged.read
  split at taken
  next typed =>
    rcases named (eq_of_beq typed) with ⟨name, rfl⟩
    rw [if_pos typed]
    cases untyped : tagged.kind with
    | some kind =>
        rw [untyped] at taken
        cases taken
    | none =>
        rw [untyped] at taken
        cases required : NodeKind.require name with
        | error fault =>
            rw [NodeKind.ofValue, required] at taken
            cases taken
        | ok kind =>
            rw [NodeKind.ofValue, required] at taken
            cases taken
            have blank : Reader.AllBlank [' '] := by simp [Reader.AllBlank, Reader.isBlank]
            exact Reader.reads_colon.bind ((reads_kind required blank).map fun kind =>
              ({ tagged with kind := some kind } : Tagged))
  next other =>
    rw [if_neg other]
    cases taken
    exact Reader.reads_colon.bind (reads.map fun content =>
      ({ tagged with members := (key, content) :: tagged.members } : Tagged))

/-- A node is read from the printed form of an object that is decoded to it. -/
theorem reads_object {depth : Nat} {members : List (String × Value)}
    (numberless : Value.NumberlessMembers members)
    (allowed : Value.nestingMembers members ≤ depth)
    (named : ∀ member ∈ members, member.1 = "type" → ∃ name, member.2 = .text name)
    {node : Node} (decoded : ofValue (nestingLimit + 1) (.object members) = .ok node)
    (level : Nat) :
    (Node.read (depth + 1)).Reads ((Value.object members).chars level) node := by
  have inside := Reader.reads_memberValues .strict depth members numberless allowed (level + 1)
  rw [ofValue] at decoded
  cases taken : members.foldlM (fun (tagged : Tagged) entry => tagged.take entry.1 entry.2)
      ({} : Tagged) with
  | error fault =>
      rw [taken] at decoded
      cases decoded
  | ok tagged =>
      rw [taken, ok_bind] at decoded
      have read : (Reader.members .strict ({} : Tagged) (Tagged.read depth)).Reads
          (Value.memberChars (level + 1) members ++ Value.ending level members.isEmpty '\x7d')
          tagged := by
        apply Reader.reads_members .strict _ taken
        intro member present before next step
        exact reads_taggedMember (named member present) (inside member present) step
      have shaped : (Reader.ofShape (tagged.finish ofChild)).Reads [] node := by
        rw [ofChild, decoded]
        exact .pure node
      exact .peek .nil '\x7b' (by decide)
        ((Reader.reads_advance '\x7b').bind (read.andThen shaped))

/-! ## Documents as text -/

theorem numberless_attributes (attributes : List Attribute) :
    Value.NumberlessAll (attributes.map Attribute.toValue) := by
  induction attributes with
  | nil => trivial
  | cons attr rest induction =>
      refine ⟨?_, induction⟩
      rcases attr with ⟨name, value, delimiter, fragment⟩
      cases value <;> cases fragment <;>
        simp [Attribute.toValue, Fragment.toValue, Value.Numberless, Value.NumberlessMembers]

mutual

theorem numberless_toValue (node : Node) : node.toValue.Numberless := by
  cases node with
  | element head children =>
      have attributes := numberless_attributes head.attributes
      cases children with
      | nil => simp [toValue, Value.Numberless, Value.NumberlessMembers, attributes]
      | cons first rest =>
          have child := numberless_toValue first
          have others := numberless_toValues rest
          simp [toValue, Value.Numberless, Value.NumberlessMembers, Value.NumberlessAll,
            attributes, child, others]
  | text content => simp [toValue, Value.Numberless, Value.NumberlessMembers]
  | comment content => simp [toValue, Value.Numberless, Value.NumberlessMembers]

theorem numberless_toValues (nodes : List Node) : Value.NumberlessAll (toValues nodes) := by
  cases nodes with
  | nil => trivial
  | cons node rest => exact ⟨numberless_toValue node, numberless_toValues rest⟩

end

theorem toValue_eq_object (node : Node) :
    ∃ members, node.toValue = .object members ∧
      ∀ member ∈ members, member.1 = "type" → ∃ name, member.2 = .text name := by
  cases node with
  | element head children => cases children <;> exact ⟨_, rfl, by simp⟩
  | text content => exact ⟨_, rfl, by simp⟩
  | comment content => exact ⟨_, rfl, by simp⟩

theorem reads_toValue (node : Node) (depth : Nat) (within : depth ≤ nestingLimit)
    (allowed : node.toValue.nesting ≤ depth + 1) (level : Nat) :
    (Node.read (depth + 1)).Reads (node.toValue.chars level) node := by
  have decoded := node.ofValue_toValue (allowed.trans (Nat.succ_le_succ within))
  have numberless := node.numberless_toValue
  rcases node.toValue_eq_object with ⟨members, object, named⟩
  rw [object] at decoded numberless allowed ⊢
  rw [Value.nesting, Nat.add_le_add_iff_right] at allowed
  exact reads_object numberless allowed named decoded level

theorem reads_toValues (nodes : List Node) (depth : Nat) (within : depth ≤ nestingLimit)
    (allowed : Value.nestingAll (toValues nodes) ≤ depth + 1) (level : Nat) :
    List.Forall₂ (fun value node => value.Numberless ∧
      (Node.read (depth + 1)).Reads (value.chars level) node) (toValues nodes) nodes := by
  induction nodes with
  | nil => exact .nil
  | cons node rest induction =>
      rw [toValues, Value.nestingAll, Nat.max_le] at allowed
      exact .cons ⟨node.numberless_toValue, node.reads_toValue depth within allowed.1 level⟩
        (induction allowed.2)

theorem reads_document (nodes : List Node)
    (allowed : (Value.array (toValues nodes)).nesting ≤ nestingLimit) :
    readDocument.Reads ((Value.array (toValues nodes)).chars 0) nodes := by
  have each := reads_toValues nodes (nestingLimit - 2) (Nat.sub_le _ _)
    (Nat.le_of_succ_le_succ allowed) 1
  exact .peek .nil '[' (by decide)
    ((Reader.reads_advance '[').bind (Reader.reads_items each))

end Node

/-- A written document that nests no deeper than a text may is read back as it was, with any
white space after it. -/
theorem LoadedDocument.ofText_dump (nodes : List Node)
    (allowed : (Value.array (Node.toValues nodes)).nesting ≤ nestingLimit) (origin : String)
    {trailing : String} (blank : Reader.AllBlank trailing.toList) :
    ∃ loaded, ofText origin (Node.dump nodes ++ trailing) = .ok loaded ∧
      loaded.tree.toNodes = nodes := by
  have read := Node.reads_document nodes allowed trailing.toList
  have finished := Reader.finish_of_blank blank
  have parsed : Node.parseAll (Node.dump nodes ++ trailing) = .ok nodes := by
    rw [Node.parseAll, String.toList_append, Node.dump, Value.pretty, String.toList_ofList, read,
      ok_bind]
    simp only
    rw [finished, ok_bind]
    rfl
  refine ⟨{ tree := .ofNodes nodes, origin }, ?_, ?_⟩
  · rw [ofText, parsed]
  · exact (Arena.represents_ofNodes nodes).toNodes_eq

/-- A link with template code and a bare attribute, written with a line break after it. -/
theorem LoadedDocument.ofText_dump_link :
    let link : Element :=
      ⟨"a", [⟨"href", some "a\\b\"c\t", '\x27', some ⟨.php, "echo $base"⟩⟩, .bare "nohref"]⟩
    let nodes : List Node := [.element link [.text "here", .element ⟨"br", []⟩ []], .comment ""]
    (Value.array (Node.toValues nodes)).nesting ≤ nestingLimit ∧
      ∃ loaded, ofText "--json" (Node.dump nodes ++ "\n") = .ok loaded ∧
        loaded.tree.toNodes = nodes := by
  intro link nodes
  have allowed : (Value.array (Node.toValues nodes)).nesting ≤ nestingLimit := by decide
  exact ⟨allowed, ofText_dump nodes allowed "--json" (by simp [Reader.AllBlank, Reader.isBlank])⟩

end HtmlConformance
