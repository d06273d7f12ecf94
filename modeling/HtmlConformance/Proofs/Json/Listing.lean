import HtmlConformance.Proofs.Json.Decoding
import HtmlConformance.Proofs.Json.Extension

namespace HtmlConformance.Json

/-! Objects that are listed in an array. What a text stands for alone it also stands for as an
item of an array, down to the depth that is left. -/

variable {α : Type}

/-! ## Items with white space around them -/

namespace Reader

/-- In a text that stands for an object, with white space around it, the reader comes to the
result, whatever follows. -/
def HoldsObject (item : Reader α) (text : List Char) (result : α) : Prop :=
  ∃ blanks inside rest, AllBlank blanks ∧ AllBlank rest ∧ text = blanks ++ '\x7b' :: inside ∧
    ∀ more, item ('\x7b' :: (inside ++ more)) = .ok (result, rest ++ more)

theorem AllBlank.append {left right : List Char} (before : AllBlank left)
    (after : AllBlank right) : AllBlank (left ++ right) :=
  List.forall_mem_append.mpr ⟨before, after⟩

theorem allBlank_of_finish {rest final : List Char} (ends : finish rest = .ok ((), final)) :
    AllBlank rest := by
  rw [finish, peek_bind] at ends
  generalize dropped : rest.dropWhile isBlank = solid at ends
  cases solid with
  | nil => exact List.dropWhile_eq_nil_iff.mp dropped
  | cons char later => cases ends

theorem anotherItem_of_blank {blanks : List Char} (blank : AllBlank blanks) (first : Bool)
    (text : List Char) : anotherItem first (blanks ++ text) = anotherItem first text := by
  rw [anotherItem, peek_bind, peek_bind, List.dropWhile_append_of_pos blank]

theorem foldItems_of_blank {item : Reader α} {blanks : List Char} (blank : AllBlank blanks)
    (fuel : Nat) (first : Bool) (before : List α) (text : List Char) :
    foldItems item fuel first before (blanks ++ text) = foldItems item fuel first before text := by
  cases fuel with
  | zero => rfl
  | succ fuel =>
      change Reader.bind (anotherItem first) _ _ = Reader.bind (anotherItem first) _ _
      rw [Reader.bind, Reader.bind, anotherItem_of_blank blank]

/-- The white space after an item is passed over before the next one. -/
theorem foldItems_of_object {item : Reader α} {text : List Char} {result : α}
    (holds : HoldsObject item text result) (fuel : Nat) (first : Bool) (before : List α)
    (more : List Char) :
    foldItems item (fuel + 1) first before (Value.separator first ++ (text ++ more)) =
      foldItems item fuel false (result :: before) more := by
  obtain ⟨blanks, inside, rest, blank, trailing, rfl, reads⟩ := holds
  have another := anotherItem_of_solid blank (by decide : isBlank '\x7b' = false) (by decide)
    (by decide) first (inside ++ more)
  rw [List.append_assoc, List.cons_append, foldItems, bind_of_ok another]
  simp only [if_true]
  rw [bind_of_ok (reads more), foldItems_of_blank trailing]

theorem intercalate_comma_cons (text : List Char) (texts : List (List Char)) :
    [','].intercalate (text :: texts) =
      text ++ (Value.separator texts.isEmpty ++ [','].intercalate texts) := by
  cases texts with
  | nil => simp [Value.separator]
  | cons next texts => simp [Value.separator, List.intercalate_cons_cons]

/-- Objects are read one after another, with commas between them. -/
theorem foldItems_of_objects {item : Reader α} {texts : List (List Char)} {results : List α}
    (holds : List.Forall₂ (HoldsObject item) texts results) {fuel : Nat}
    (enough : texts.length < fuel) (first : Bool) (before : List α) (rest : List Char) :
    foldItems item fuel first before
        (Value.separator (first || texts.isEmpty) ++ ([','].intercalate texts ++ ']' :: rest)) =
      .ok (before.reverse ++ results, rest) := by
  induction holds generalizing fuel first before with
  | nil =>
      obtain ⟨fuel, rfl⟩ := Nat.exists_eq_succ_of_ne_zero (Nat.ne_zero_of_lt enough)
      rw [List.isEmpty_nil, Bool.or_true, List.append_nil]
      exact foldItems_of_close item .nil fuel first before rest
  | @cons text result texts results head tail induction =>
      obtain ⟨fuel, rfl⟩ := Nat.exists_eq_succ_of_ne_zero (Nat.ne_zero_of_lt enough)
      have remaining := induction (Nat.lt_of_succ_lt_succ enough) false (result :: before)
      rw [Bool.false_or, List.reverse_cons, List.append_assoc, List.singleton_append] at remaining
      rw [List.isEmpty_cons, Bool.or_false, intercalate_comma_cons, List.append_assoc,
        foldItems_of_object head, List.append_assoc]
      exact remaining

theorem value_of_objects {depth : Nat} {texts : List (List Char)} {values : List Value}
    (holds : List.Forall₂ (HoldsObject (value .strict depth)) texts values)
    {lead gap : List Char} (leading : AllBlank lead) (opening : AllBlank gap)
    (rest : List Char) :
    value .strict (depth + 1)
        (lead ++ '[' :: (gap ++ ([','].intercalate texts ++ ']' :: rest))) =
      .ok (.array values, rest) := by
  have read : foldItems (value .strict depth) (texts.length + 1) true []
      ([','].intercalate texts ++ ']' :: rest) = .ok (values, rest) :=
    foldItems_of_objects holds (Nat.lt_succ_self _) true [] rest
  have solid : (lead ++ '[' :: (gap ++ ([','].intercalate texts ++ ']' :: rest))).dropWhile
      isBlank = '[' :: (gap ++ ([','].intercalate texts ++ ']' :: rest)) := by
    rw [List.dropWhile_append_of_pos leading]
    rfl
  refine value_succ_eq_array_iff.mpr ⟨_, solid, ?_⟩
  rw [items, foldItems_of_blank opening]
  apply foldItems_of_enough (value_nesting depth) read
  rw [@List.length_append _ gap]
  omega

theorem value_eq_object_of_brace {care : Care} {depth : Nat} {text rest : List Char}
    {found : Value} (opens : (text.dropWhile isBlank).head? = some '\x7b')
    (read : value care depth text = .ok (found, rest)) : ∃ members, found = .object members := by
  obtain ⟨inner, level⟩ := value_eq_level care depth
  rw [level] at read
  rcases level_eq_ok_iff.mp read with ⟨_, mid, _, _, starts, _⟩ | ⟨_, _, members, _, _, _, rfl⟩ |
    ⟨char, mid, starts, _, brace, _⟩
  · rw [starts] at opens
    cases opens
  · exact ⟨_, rfl⟩
  · rw [starts] at opens
    cases opens
    exact absurd rfl brace

end Reader

/-! ## Nesting of texts -/

namespace Value

theorem parseWithin_of_nesting {depth other : Nat} {text : String} {value : Value}
    (parsed : parseWithin depth text = .ok value) (deep : value.nesting ≤ other) :
    parseWithin other text = .ok value := by
  obtain ⟨rest, read, ends⟩ := parseWithin_eq_ok_iff.mp parsed
  exact parseWithin_eq_ok_iff.mpr ⟨rest, Reader.value_of_nesting read deep, ends⟩

theorem nesting_lt_length {depth : Nat} {text : String} {value : Value}
    (parsed : parseWithin depth text = .ok value) : value.nesting < text.length := by
  obtain ⟨rest, read, _⟩ := parseWithin_eq_ok_iff.mp parsed
  have spent := (Reader.value_nesting depth _ value rest read).2
  rw [String.length_toList] at spent
  omega

end Value

/-- How deep the JSON of a text nests, whatever depth is allowed: no text nests as deep as it has
characters. -/
def nestingOf? (text : String) : Option Nat :=
  match Value.parseWithin text.length text with
  | .ok value => some value.nesting
  | .error _ => none

theorem nestingOf?_of_parseWithin {depth : Nat} {text : String} {value : Value}
    (parsed : Value.parseWithin depth text = .ok value) : nestingOf? text = some value.nesting := by
  rw [nestingOf?, Value.parseWithin_of_nesting parsed (Value.nesting_lt_length parsed).le]

theorem lt_length_of_nestingOf? {text : String} {depth : Nat}
    (nests : nestingOf? text = some depth) : depth < text.length := by
  unfold nestingOf? at nests
  split at nests
  next value parsed =>
    rw [← Option.some.inj nests]
    exact Value.nesting_lt_length parsed
  next => cases nests

/-! ## Listings -/

/-- White space of JSON. -/
structure Space where
  text : String
  blank : Reader.AllBlank text.toList

/-- A text that begins with a brace, after white space of its own, and the white space around it in
an array. -/
structure ListedText where
  before : Space
  text : String
  after : Space
  opens : (text.toList.dropWhile Reader.isBlank).head? = some '\x7b'

/-- The text alone is JSON for the value. -/
def ListedText.IsValue (listed : ListedText) (value : Value) : Prop :=
  Value.parse listed.text = .ok value

def ListedText.written (listed : ListedText) : String :=
  listed.before.text ++ listed.text ++ listed.after.text

/-- Texts that are written as the items of one array. -/
structure Listing where
  lead : Space
  gap : Space
  items : List ListedText
  trail : Space

def Listing.text (listing : Listing) : String :=
  listing.lead.text ++ "[" ++ listing.gap.text ++
    ",".intercalate (listing.items.map ListedText.written) ++ "]" ++ listing.trail.text

theorem ListedText.holdsObject (listed : ListedText) {value : Value}
    (parsed : listed.IsValue value) {depth : Nat} (deep : value.nesting ≤ depth) :
    Reader.HoldsObject (Reader.value .strict depth) listed.written.toList value := by
  obtain ⟨rest, read, final, ends⟩ := Value.parse_eq_ok_iff.mp parsed
  obtain ⟨members, rfl⟩ := Reader.value_eq_object_of_brace listed.opens read
  obtain ⟨inside, starts⟩ := List.head?_eq_some_iff.mp listed.opens
  have here := Reader.value_of_nesting read deep
  rw [← Reader.value_dropWhile, starts] at here
  have parts : listed.text.toList =
      listed.text.toList.takeWhile Reader.isBlank ++ '\x7b' :: inside := by
    rw [← starts, List.takeWhile_append_dropWhile]
  refine ⟨listed.before.text.toList ++ listed.text.toList.takeWhile Reader.isBlank,
    inside ++ listed.after.text.toList, rest ++ listed.after.text.toList,
    listed.before.blank.append fun char => List.mem_takeWhile_imp,
    (Reader.allBlank_of_finish ends).append listed.after.blank, ?_, fun more => ?_⟩
  · rw [written, String.toList_append, String.toList_append]
    conv_lhs => rw [parts]
    simp
  · have nested : 0 < (Value.object members).nesting := Nat.succ_pos _
    have longer := Reader.value_append here nested (listed.after.text.toList ++ more)
    rwa [List.cons_append, ← List.append_assoc, ← List.append_assoc] at longer

theorem ListedText.holdsObjects {items : List ListedText} {values : List Value}
    (parsed : List.Forall₂ ListedText.IsValue items values) {depth : Nat}
    (deep : Value.nestingAll values ≤ depth) :
    List.Forall₂ (Reader.HoldsObject (Reader.value .strict depth))
      (items.map fun listed => listed.written.toList) values := by
  induction parsed with
  | nil => exact .nil
  | cons head tail induction =>
      rw [Value.nestingAll, Nat.max_le] at deep
      exact .cons (holdsObject _ head deep.1) (induction deep.2)

theorem Listing.parseWithin (listing : Listing) {values : List Value}
    (parsed : List.Forall₂ ListedText.IsValue listing.items values) {depth : Nat}
    (deep : Value.nestingAll values ≤ depth) :
    Value.parseWithin (depth + 1) listing.text = .ok (.array values) := by
  have holds := ListedText.holdsObjects parsed deep
  have read := Reader.value_of_objects holds listing.lead.blank listing.gap.blank
    listing.trail.text.toList
  have whole : listing.text.toList = listing.lead.text.toList ++ '[' ::
      (listing.gap.text.toList ++
        ([','].intercalate (listing.items.map fun listed => listed.written.toList) ++
          ']' :: listing.trail.text.toList)) := by
    simp [text, String.toList_intercalate, Function.comp_def]
  rw [← whole] at read
  exact Value.parseWithin_eq_ok_iff.mpr
    ⟨_, read, [], Reader.finish_of_blank listing.trail.blank⟩

end HtmlConformance.Json
