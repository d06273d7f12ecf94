import HtmlConformance.Proofs.Document.Rereading
import HtmlConformance.Proofs.Json.Listing

namespace HtmlConformance

/-! Nodes may be given one by one or in an array. An array of texts that are documents of one node
each is the document of all their nodes, as long as it nests no deeper than a text may. -/

open Json

/-- The text alone is loaded as the document. -/
def Json.ListedText.IsDocument (listed : ListedText) (document : LoadedDocument) : Prop :=
  LoadedDocument.ofText document.origin listed.text = .ok document

namespace LoadedDocument

theorem toNodes_of_ofText {origin text : String} {loaded : LoadedDocument}
    (accepted : ofText origin text = .ok loaded) :
    ∃ value, Value.parse text = .ok value ∧
      Node.ofDocument value = .ok loaded.tree.toNodes := by
  obtain ⟨nodes, parsed, rfl⟩ := ofText_eq_ok_iff.mp accepted
  obtain ⟨value, read, decoded⟩ := Node.parseAll_eq_ok_iff.mp parsed
  refine ⟨value, read, ?_⟩
  rw [(Arena.represents_ofNodes nodes).toNodes_eq]
  exact decoded

/-- A document whose text begins with a brace is the one node that the object stands for. -/
theorem toNodes_of_isDocument {listed : ListedText} {document : LoadedDocument}
    (accepted : listed.IsDocument document) :
    ∃ value node, listed.IsValue value ∧ Node.ofTop value = .ok node ∧
      document.tree.toNodes = [node] := by
  obtain ⟨value, parsed, decoded⟩ := toNodes_of_ofText accepted
  obtain ⟨rest, read, _⟩ := Value.parse_eq_ok_iff.mp parsed
  obtain ⟨members, rfl⟩ := Reader.value_eq_object_of_brace listed.opens read
  obtain ⟨node, top, alone⟩ := (Node.ofDocument_eq_ok_iff fun _ => Value.noConfusion).mp decoded
  exact ⟨_, node, parsed, top, alone.symm⟩

theorem toNodes_of_listing {items : List ListedText} {documents : List LoadedDocument}
    (accepted : List.Forall₂ ListedText.IsDocument items documents) :
    ∃ values, List.Forall₂ ListedText.IsValue items values ∧
      Node.ofDocument (.array values) =
        .ok (documents.flatMap fun document => document.tree.toNodes) := by
  simp only [Node.ofDocument, mapM_ok_iff]
  induction accepted with
  | nil => exact ⟨[], .nil, .nil⟩
  | cons head _ induction =>
      obtain ⟨value, node, parsed, top, alone⟩ := toNodes_of_isDocument head
      obtain ⟨values, others, nodes⟩ := induction
      refine ⟨value :: values, .cons parsed others, ?_⟩
      rw [List.flatMap_cons, alone]
      exact .cons top nodes

/-- Texts of one node each, which are documents alone, are the items of an array. The array is
accepted exactly if it nests no deeper than a text may, and then it holds the nodes of the texts
in their order, however they are spaced. -/
theorem listing_joins_documents (origin : String) (listing : Listing)
    (documents : List LoadedDocument)
    (accepted : List.Forall₂ ListedText.IsDocument listing.items documents) :
    ∃ depth, nestingOf? listing.text = some depth ∧
      ((∃ loaded, ofText origin listing.text = .ok loaded) ↔ depth ≤ nestingLimit) ∧
      ∀ loaded, ofText origin listing.text = .ok loaded →
        loaded.tree.toNodes = documents.flatMap fun document => document.tree.toNodes := by
  obtain ⟨values, parsed, decoded⟩ := toNodes_of_listing accepted
  have whole := listing.parseWithin parsed (Nat.le_refl _)
  have only {value : Value} (read : Value.parse listing.text = .ok value) :
      value = .array values := by
    rw [← Value.parseWithin_nestingLimit] at read
    have deep := Value.parseWithin_of_nesting read (Nat.le_max_left _ (Value.array values).nesting)
    rw [Value.parseWithin_of_nesting whole (Nat.le_max_right _ _)] at deep
    exact (Except.ok.inj deep).symm
  refine ⟨_, nestingOf?_of_parseWithin whole, ⟨?_, ?_⟩, ?_⟩
  · rintro ⟨loaded, read⟩
    obtain ⟨value, read, _⟩ := toNodes_of_ofText read
    rw [← only read]
    exact Value.nesting_of_parse read
  · intro shallow
    have read := Value.parseWithin_of_nesting whole shallow
    exact ⟨_, ofText_eq_ok_iff.mpr
      ⟨_, Node.parseAll_eq_ok_iff.mpr ⟨_, read, decoded⟩, rfl⟩⟩
  · intro loaded read
    obtain ⟨value, read, nodes⟩ := toNodes_of_ofText read
    rw [only read, decoded] at nodes
    exact (Except.ok.inj nodes).symm

/-- A word and a line break, the latter with white space of its own. -/
theorem listing_joins_documents_of_pair :
    let tight : Space := ⟨"", .nil⟩
    let loose : Space := ⟨" \n", by simp [Reader.AllBlank, Reader.isBlank]⟩
    let listing : Listing := {
      lead := loose, gap := tight, trail := loose,
      items := [
        ⟨tight, "\x7b\"type\": \"text\", \"content\": \"x\"\x7d", loose, by rfl⟩,
        ⟨loose, "\t\x7b\"tag\": \"br\", \"type\": \"element\"\x7d", tight, by rfl⟩] }
    let word : Node := .text "x"
    let line : Node := .element ⟨"br", []⟩ []
    ∃ documents, List.Forall₂ ListedText.IsDocument listing.items documents ∧
      ∃ loaded, ofText "nodes.json" listing.text = .ok loaded ∧
        loaded.tree.toNodes = [word, line] := by
  intro tight loose listing word line
  have alone {text : String} {nodes : List Node} (parsed : Node.parseAll text = .ok nodes) :
      ofText "--json" text = .ok ⟨.ofNodes nodes, "--json"⟩ :=
    ofText_eq_ok_iff.mpr ⟨nodes, parsed, rfl⟩
  have accepted : List.Forall₂ ListedText.IsDocument listing.items
      [⟨.ofNodes [word], "--json"⟩, ⟨.ofNodes [line], "--json"⟩] :=
    .cons (alone (by cbv)) (.cons (alone (by cbv)) .nil)
  obtain ⟨depth, nests, reads, joins⟩ :=
    listing_joins_documents "nodes.json" listing _ accepted
  have short : listing.text.length < 128 := by decide
  have shallow := lt_length_of_nestingOf? nests
  obtain ⟨loaded, read⟩ := reads.mpr (by rw [nestingLimit]; omega)
  refine ⟨_, accepted, loaded, read, ?_⟩
  rw [joins loaded read, List.flatMap_cons, List.flatMap_cons, List.flatMap_nil,
    (Arena.represents_ofNodes [word]).toNodes_eq, (Arena.represents_ofNodes [line]).toNodes_eq]
  rfl

end LoadedDocument

end HtmlConformance
