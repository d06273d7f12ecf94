import HtmlConformance.Document.Load
import HtmlConformance.Proofs.Document.Fields

namespace HtmlConformance

/-! A document is read from a text exactly where the text is a value from which the document is
decoded, and so is each node at the top of it. -/

open Json

/-! ## Kinds -/

namespace NodeKind

/-- A kind at the top of a document, where it is given by its name only. -/
def ofName : Value → Except ShapeError NodeKind
  | .text name => require name
  | other => .error (.wrongType other.found "variant identifier")

theorem ofValue_of_ofName {value : Value} {kind : NodeKind} (named : ofName value = .ok kind) :
    ofValue value = .ok kind := by
  cases value with
  | text name => exact named
  | _ => cases named

theorem read_decodes (depth : Nat) :
    Reader.Decodes NodeKind.read (Reader.value .strict depth) ofName := by
  intro text kind rest
  have byName : NodeKind.read text = .ok (kind, rest) ↔
      ∃ mid name, text.dropWhile Reader.isBlank = '"' :: mid ∧
        Reader.text .strict ('"' :: mid) = .ok (name, rest) ∧ require name = .ok kind := by
    rw [NodeKind.read, Reader.peek_bind]
    generalize text.dropWhile Reader.isBlank = mid
    constructor
    · intro read
      generalize starts : mid.head? = char at read
      split at read
      next =>
        obtain ⟨mid, rfl⟩ := List.head?_eq_some_iff.mp starts
        obtain ⟨name, later, found, read⟩ := Reader.bind_eq_ok_iff.mp read
        obtain ⟨known, rfl⟩ := Reader.ofShape_eq_ok_iff.mp read
        exact ⟨mid, name, rfl, found, known⟩
      next => exact (Reader.wrongType_ne_ok read).elim
    · rintro ⟨mid, name, rfl, found, known⟩
      exact Reader.bind_eq_ok_iff.mpr ⟨name, rest, found, Reader.ofShape_eq_ok_iff.mpr ⟨known, rfl⟩⟩
  rw [byName]
  constructor
  · rintro ⟨mid, name, starts, found, known⟩
    exact ⟨.text name, Reader.value_eq_text_iff.mpr ⟨mid, starts, found⟩, known⟩
  · rintro ⟨value, read, named⟩
    cases value with
    | text name =>
        obtain ⟨mid, starts, found⟩ := Reader.value_eq_text_iff.mp read
        exact ⟨mid, name, starts, found, named⟩
    | _ => cases named

end NodeKind

/-! ## Nodes at the top of a document -/

namespace Node

def ofTop : Value → Except ShapeError Node
  | .object members => ofObject NodeKind.ofName ofChild members
  | .array [] => .error (.missingField "type")
  | .array (kind :: items) => do
      let kind ← NodeKind.ofName kind
      ofItems ofChild kind items
  | other => .error (.wrongType other.found expected)

theorem Tagged.read_decodes (depth : Nat) (tagged : Tagged) (key : String) :
    Reader.Decodes (Tagged.read depth tagged key)
      (do Reader.colon; Reader.value .strict depth)
      fun value => tagged.takeBy NodeKind.ofName key value := by
  intro text result rest
  unfold Tagged.read takeBy
  split_ifs with typed known
  · simp [known, Decode.once, Reader.fail]
  · rw [Bool.not_eq_true, Option.isSome_eq_false_iff, Option.isNone_iff_eq_none] at known
    simp only [Reader.bind_eq_ok_iff, Reader.pure_eq_ok_iff, bind_ok_iff, Decode.once_eq_ok_iff]
    constructor
    · rintro ⟨_, mid, paired, kind, _, named, rfl, rfl⟩
      obtain ⟨value, valued, decoded⟩ := (NodeKind.read_decodes depth _ _ _).mp named
      exact ⟨value, ⟨(), mid, paired, valued⟩, some kind, ⟨known, kind, decoded, rfl⟩, rfl⟩
    · rintro ⟨value, ⟨_, mid, paired, valued⟩, _, ⟨_, kind, decoded, rfl⟩, equal⟩
      cases equal
      exact ⟨(), mid, paired, kind, rest,
        (NodeKind.read_decodes depth _ _ _).mpr ⟨value, valued, decoded⟩, rfl, rfl⟩
  · simp only [Reader.bind_eq_ok_iff, Reader.pure_eq_ok_iff]
    constructor
    · rintro ⟨_, mid, paired, value, _, valued, rfl, rfl⟩
      exact ⟨value, ⟨(), mid, paired, valued⟩, rfl⟩
    · rintro ⟨value, ⟨_, mid, paired, valued⟩, equal⟩
      cases equal
      exact ⟨(), mid, paired, value, rest, valued, rfl, rfl⟩

theorem readObject_eq_ok_iff {depth : Nat} {mid rest : List Char} {node : Node} :
    readObject depth ('\x7b' :: mid) = .ok (node, rest) ↔
      ∃ members, Reader.members .strict [] (Reader.keep fun _ => Reader.value .strict depth) mid =
          .ok (members, rest) ∧ ofTop (.object members.reverse) = .ok node := by
  rw [readObject, Reader.advance_bind, Reader.bind_eq_ok_iff]
  simp only [Reader.ofShape_eq_ok_iff]
  have taken := @Reader.foldMembers_decodes _ _ .strict _ (fun _ => Reader.value .strict depth)
    (fun (tagged : Tagged) entry => tagged.takeBy NodeKind.ofName entry.1 entry.2)
    (Tagged.read_decodes depth) (mid.length + 1) true
  constructor
  · rintro ⟨tagged, _, read, finished, rfl⟩
    obtain ⟨members, kept, folded⟩ := taken.mp read
    exact ⟨members, kept, bind_ok_iff.mpr ⟨tagged, folded, finished⟩⟩
  · rintro ⟨members, kept, decoded⟩
    obtain ⟨tagged, folded, finished⟩ := bind_ok_iff.mp decoded
    exact ⟨tagged, rest, taken.mpr ⟨members, kept, folded⟩, finished, rfl⟩

theorem readArray_eq_ok_iff {depth : Nat} {mid rest : List Char} {node : Node} :
    readArray depth ('[' :: mid) = .ok (node, rest) ↔
      ∃ values, Reader.items (Reader.value .strict depth) true mid = .ok (values, rest) ∧
        ofTop (.array values) = .ok node := by
  have nests : Reader.NestsWithin depth (Reader.value .strict depth) := Reader.value_nesting depth
  rw [readArray, Reader.advance_bind, List.tail_cons, Reader.bind_eq_ok_iff]
  constructor
  · rintro ⟨more, later, another, read⟩
    split at read
    next present =>
      cases present
      obtain ⟨kind, left, named, read⟩ := Reader.bind_eq_ok_iff.mp read
      obtain ⟨items, final, listed, read⟩ := Reader.bind_eq_ok_iff.mp read
      obtain ⟨decoded, rfl⟩ := Reader.ofShape_eq_ok_iff.mp read
      obtain ⟨value, valued, known⟩ := (NodeKind.read_decodes depth _ _ _).mp named
      have shorter := (Reader.anotherItem_cases another).1
      have spent := (nests later value left valued).2
      have enough : left.length < mid.length := by omega
      refine ⟨value :: items, ?_, bind_ok_iff.mpr ⟨kind, known, decoded⟩⟩
      exact Reader.foldItems_succ_eq_ok_iff.mpr (.inr ⟨later, value, left, another, valued,
        Reader.foldItems_eq_ok_iff.mpr
          ⟨items, rfl, Reader.foldItems_of_enough nests listed enough⟩⟩)
    next => cases read
  · rintro ⟨values, listed, decoded⟩
    rcases Reader.foldItems_succ_eq_ok_iff.mp listed with ⟨later, another, rfl, rfl⟩ |
      ⟨later, value, left, another, valued, read⟩
    · cases decoded
    · obtain ⟨items, rfl, remaining⟩ := Reader.foldItems_eq_ok_iff.mp read
      obtain ⟨kind, known, decoded⟩ := bind_ok_iff.mp decoded
      have named := (NodeKind.read_decodes depth _ _ _).mpr ⟨value, valued, known⟩
      refine ⟨true, later, another, Reader.bind_eq_ok_iff.mpr ⟨kind, left, named, ?_⟩⟩
      exact Reader.bind_eq_ok_iff.mpr ⟨items, rest,
        Reader.foldItems_of_enough nests remaining (Nat.lt_succ_self _),
        Reader.ofShape_eq_ok_iff.mpr ⟨decoded, rfl⟩⟩

theorem read_decodes (depth : Nat) :
    Reader.Decodes (Node.read (depth + 1)) (Reader.value .strict (depth + 1)) ofTop := by
  intro text node rest
  rw [Node.read, Reader.peek_bind]
  constructor
  · intro read
    generalize starts : text.dropWhile Reader.isBlank = mid at read
    cases mid with
    | nil => exact (Reader.wrongType_ne_ok read).elim
    | cons char mid =>
        by_cases brace : char = '\x7b'
        · subst brace
          obtain ⟨members, kept, decoded⟩ := readObject_eq_ok_iff.mp read
          exact ⟨_, Reader.level_eq_ok_iff.mpr (.inr (.inl
            ⟨_, mid, members, rfl, starts, kept, rfl⟩)), decoded⟩
        · by_cases bracket : char = '['
          · subst bracket
            obtain ⟨values, listed, decoded⟩ := readArray_eq_ok_iff.mp read
            exact ⟨_, Reader.level_eq_ok_iff.mpr (.inl
              ⟨_, mid, values, rfl, starts, listed, rfl⟩), decoded⟩
          · simp [brace, bracket, Reader.wrongType_ne_ok] at read
  · rintro ⟨value, read, decoded⟩
    rcases Reader.level_eq_ok_iff.mp read with ⟨item, mid, values, ⟨⟩, starts, listed, rfl⟩ |
      ⟨item, mid, members, ⟨⟩, starts, kept, rfl⟩ | ⟨char, mid, starts, bracket, brace, scalar⟩
    · rw [starts]
      exact readArray_eq_ok_iff.mpr ⟨values, listed, decoded⟩
    · rw [starts]
      exact readObject_eq_ok_iff.mpr ⟨members, kept, decoded⟩
    · have flat := (Reader.nesting_of_scalar scalar).1
      cases value with
      | array items => cases flat
      | object members => cases flat
      | _ => cases decoded

/-! ## Documents -/

def ofDocument : Value → Except ShapeError (List Node)
  | .array values => values.mapM ofTop
  | other => (fun node => [node]) <$> ofTop other

theorem ofDocument_eq_ok_iff {value : Value} (single : ∀ values, value ≠ .array values)
    {nodes : List Node} :
    ofDocument value = .ok nodes ↔ ∃ node, ofTop value = .ok node ∧ [node] = nodes := by
  cases value with
  | array values => exact absurd rfl (single values)
  | _ => exact map_ok_iff

theorem readDocument_eq_ok_iff_of_array {text mid rest : List Char}
    (starts : text.dropWhile Reader.isBlank = '[' :: mid) {nodes : List Node} :
    readDocument text = .ok (nodes, rest) ↔
      ∃ values, Reader.items (Reader.value .strict (nestingLimit - 1)) true mid =
        .ok (values, rest) ∧ values.mapM ofTop = .ok nodes := by
  rw [readDocument, Reader.peek_bind, starts]
  exact Reader.foldItems_decodes (read_decodes (nestingLimit - 2))

theorem readDocument_eq_ok_iff_of_single {text rest : List Char}
    (single : ∀ mid, text.dropWhile Reader.isBlank ≠ '[' :: mid) {nodes : List Node} :
    readDocument text = .ok (nodes, rest) ↔
      ∃ node, Node.read nestingLimit (text.dropWhile Reader.isBlank) = .ok (node, rest) ∧
        [node] = nodes := by
  rw [readDocument, Reader.peek_bind]
  have other : ∀ char, (text.dropWhile Reader.isBlank).head? = some char → char ≠ '[' := by
    rintro _ first rfl
    obtain ⟨mid, starts⟩ := List.head?_eq_some_iff.mp first
    exact single mid starts
  generalize (text.dropWhile Reader.isBlank).head? = first at other
  split
  next => exact absurd rfl (other _ rfl)
  next => exact Reader.map_eq_ok_iff

theorem readDocument_decodes :
    Reader.Decodes readDocument (Reader.value .strict nestingLimit) ofDocument := by
  intro text nodes rest
  by_cases starts : ∃ mid, text.dropWhile Reader.isBlank = '[' :: mid
  · obtain ⟨mid, starts⟩ := starts
    rw [readDocument_eq_ok_iff_of_array starts]
    constructor
    · rintro ⟨values, listed, decoded⟩
      exact ⟨.array values, Reader.value_succ_eq_array_iff.mpr ⟨mid, starts, listed⟩, decoded⟩
    · rintro ⟨value, read, decoded⟩
      rcases Reader.level_eq_ok_iff.mp read with ⟨_, later, values, ⟨⟩, same, listed, rfl⟩ |
        ⟨_, later, _, _, same, _, _⟩ | ⟨char, later, same, bracket, _⟩
      · cases starts.symm.trans same
        exact ⟨values, listed, decoded⟩
      · cases starts.symm.trans same
      · cases starts.symm.trans same
        exact absurd rfl bracket
  · have alone (value : Value)
        (read : Reader.value .strict nestingLimit text = .ok (value, rest)) (values : List Value) :
        value ≠ .array values := by
      rintro rfl
      obtain ⟨mid, same, _⟩ := Reader.value_succ_eq_array_iff.mp read
      exact starts ⟨mid, same⟩
    have top (node : Node) := read_decodes (nestingLimit - 1) (text.dropWhile Reader.isBlank)
      node rest
    simp only [Reader.value_dropWhile] at top
    rw [readDocument_eq_ok_iff_of_single fun mid same => starts ⟨mid, same⟩]
    constructor
    · rintro ⟨node, read, equal⟩
      obtain ⟨value, valued, decoded⟩ := (top node).mp read
      exact ⟨value, valued,
        (ofDocument_eq_ok_iff (alone value valued)).mpr ⟨node, decoded, equal⟩⟩
    · rintro ⟨value, valued, decoded⟩
      obtain ⟨node, decoded, equal⟩ := (ofDocument_eq_ok_iff (alone value valued)).mp decoded
      exact ⟨node, (top node).mpr ⟨value, valued, decoded⟩, equal⟩

theorem parseAll_eq_ok_iff {text : String} {nodes : List Node} :
    parseAll text = .ok nodes ↔
      ∃ value, Value.parse text = .ok value ∧ ofDocument value = .ok nodes := by
  simp only [parseAll, Value.parse_eq_ok_iff, bind_ok_iff, Prod.exists]
  constructor
  · rintro ⟨found, rest, read, _, final, ends, equal⟩
    cases equal
    obtain ⟨value, read, decoded⟩ := (readDocument_decodes _ _ _).mp read
    exact ⟨value, ⟨rest, read, final, ends⟩, decoded⟩
  · rintro ⟨value, ⟨rest, read, final, ends⟩, decoded⟩
    exact ⟨nodes, rest, (readDocument_decodes _ _ _).mpr ⟨value, read, decoded⟩, (), final, ends,
      rfl⟩

end Node

theorem LoadedDocument.ofText_eq_ok_iff {origin text : String} {loaded : LoadedDocument} :
    ofText origin text = .ok loaded ↔
      ∃ nodes, Node.parseAll text = .ok nodes ∧ { tree := .ofNodes nodes, origin } = loaded := by
  unfold ofText
  cases Node.parseAll text <;> simp

end HtmlConformance
