import HtmlConformance.Document.Options
import HtmlConformance.Proofs.Json.Fields

namespace HtmlConformance

/-! An option file that holds an object stands for what is found for each option. The other
members are passed over, and do not even have to be values that can be read. -/

open Json Decode

/-! ## Passing over what cannot be read -/

namespace Json.Reader

/-- Read a value, or pass over it where it cannot be read. -/
def valueOrSkip (depth : Nat) : Reader Value := fun text =>
  match value .strict depth text with
  | .ok found => .ok found
  | .error _ => ((fun _ => Value.null) <$> skip : Reader Value) text

theorem skip_eq_ok_iff (depth : Nat) {text rest : List Char} :
    skip text = .ok ((), rest) ↔ ∃ found, valueOrSkip depth text = .ok (found, rest) := by
  unfold valueOrSkip
  cases read : value .strict depth text with
  | ok found =>
      rcases found with ⟨found, later⟩
      rw [skip_of_value read]
      simp [eq_comm]
  | error fault =>
      simp only [map_eq_ok_iff]
      constructor
      · exact fun passed => ⟨.null, (), passed, rfl⟩
      · rintro ⟨_, _, passed, _⟩
        exact passed

theorem nextKey_eq_none_iff {care : Care} {first : Bool} {text later : List Char} :
    nextKey care first text = .ok (none, later) ↔
      text.dropWhile isBlank = later ∧ later.head? = some '\x7d' := by
  constructor
  · exact fun read => (nextKey_cases read).2 rfl
  · rintro ⟨rfl, ends⟩
    rw [nextKey, peek_bind, ends]
    rfl

/-- An object with one member. -/
theorem members_eq_singleton_iff {care : Care} {item : String → Reader Value} {key : String}
    {value : Value} {text rest : List Char} :
    Reader.members care [] (keep item) text = .ok ([(key, value)], rest) ↔
      ∃ mid later final, nextKey care true text = .ok (some key, mid) ∧
        (do colon; item key) mid = .ok (value, later) ∧
        nextKey care false later = .ok (none, final) ∧ final.tail = rest := by
  unfold Reader.members
  simp only [foldMembers_succ_eq_ok_iff, keep_eq_ok_iff]
  constructor
  · rintro (⟨_, _, equal, _⟩ |
      ⟨other, mid, _, later, named, ⟨left, found, paired, valued, rfl⟩, read⟩)
    · cases equal
    · obtain ⟨more, equal, remaining⟩ := foldMembers_keep_eq_ok_iff.mp read
      rcases List.append_eq_singleton_iff.mp equal.symm with ⟨rfl, same⟩ | ⟨_, same⟩
      · cases same
        cases fuel : text.length with
        | zero =>
            rw [fuel] at remaining
            cases remaining
        | succ fewer =>
            rw [fuel] at remaining
            rcases foldMembers_succ_eq_ok_iff.mp remaining with ⟨final, ends, _, rfl⟩ |
              ⟨_, _, _, _, _, here, read⟩
            · exact ⟨mid, later, final, named, bind_eq_ok_iff.mpr ⟨(), left, paired, valued⟩,
                ends, rfl⟩
            · obtain ⟨_, _, _, _, rfl⟩ := keep_eq_ok_iff.mp here
              obtain ⟨_, equal, _⟩ := foldMembers_keep_eq_ok_iff.mp read
              simp at equal
      · cases same
  · rintro ⟨mid, later, final, named, valued, ends, rfl⟩
    obtain ⟨_, left, paired, valued⟩ := bind_eq_ok_iff.mp valued
    refine .inr ⟨key, mid, _, later, named, ⟨left, value, paired, valued, rfl⟩, ?_⟩
    obtain ⟨fewer, fuel⟩ : ∃ fewer, text.length = fewer + 1 := by
      cases text with
      | nil => cases named
      | cons char text => exact ⟨_, rfl⟩
    rw [fuel]
    exact foldMembers_succ_eq_ok_iff.mpr (.inl ⟨final, ends, rfl, rfl⟩)

end Json.Reader

/-! ## Readers of option values -/

namespace Version

/-- A version by its short name, or as an object whose one key is the name and whose value is
null. -/
def ofValue : Value → Except ShapeError Version
  | .text name => require name
  | .object [(name, .null)] => require name
  | other => .error (.wrongType other.found "string or map")

theorem readName_eq_ok_iff {text rest : List Char} {version : Version} :
    readName text = .ok (version, rest) ↔
      ∃ name, Reader.text .strict text = .ok (name, rest) ∧ require name = .ok version := by
  rw [readName, Reader.bind_eq_ok_iff]
  simp only [Reader.ofShape_eq_ok_iff]
  constructor
  · rintro ⟨name, _, read, known, rfl⟩
    exact ⟨name, read, known⟩
  · rintro ⟨name, read, known⟩
    exact ⟨name, rest, read, known, rfl⟩

theorem readKey_eq_ok_iff {text rest : List Char} {version : Version} :
    readKey text = .ok (version, rest) ↔
      ∃ name, Reader.nextKey .strict true text = .ok (some name, rest) ∧
        require name = .ok version := by
  rw [readKey, Reader.nextKey, Reader.peek_bind, Reader.peek_bind]
  generalize text.dropWhile Reader.isBlank = mid
  cases mid with
  | nil => simp [Reader.fail]
  | cons char mid =>
      by_cases quote : char = '"'
      · subst quote
        simp [readName_eq_ok_iff, Reader.map_eq_ok_iff]
      · by_cases brace : char = '\x7d'
        · subst brace
          simp [Reader.fail, Reader.pure_eq_ok_iff]
        · by_cases comma : char = ','
          · subst comma
            simp [Reader.fail]
          · simp [Reader.fail]

theorem closing_eq_ok_iff {text rest : List Char} {found version : Version} :
    (do
      match ← Reader.peek with
      | some '\x7d' => Reader.advance
      | some _ => .fail .malformed
      | none => .fail .truncated
      return found : Reader Version) text = .ok (version, rest) ↔
      found = version ∧ ∃ later, Reader.nextKey .strict false text = .ok (none, later) ∧
        later.tail = rest := by
  simp only [Reader.nextKey_eq_none_iff]
  rw [Reader.peek_bind]
  generalize text.dropWhile Reader.isBlank = mid
  constructor
  · intro read
    generalize starts : mid.head? = char at read
    split at read
    next =>
      rw [Reader.advance_bind] at read
      obtain ⟨same, ends⟩ := Reader.pure_eq_ok_iff.mp read
      exact ⟨same, mid, ⟨rfl, starts⟩, ends⟩
    next => cases read
    next => cases read
  · rintro ⟨rfl, _, ⟨rfl, starts⟩, rfl⟩
    rw [starts]
    rfl

theorem readObject_eq_ok_iff {depth : Nat} {mid rest : List Char} {version : Version} :
    readObject ('\x7b' :: mid) = .ok (version, rest) ↔
      ∃ name, Reader.members .strict [] (Reader.keep fun _ => Reader.value .strict depth) mid =
        .ok ([(name, .null)], rest) ∧ require name = .ok version := by
  simp only [Reader.members_eq_singleton_iff]
  unfold readObject
  rw [Reader.advance_bind, List.tail_cons]
  simp only [Reader.bind_eq_ok_iff, readKey_eq_ok_iff]
  constructor
  · rintro ⟨found, later, ⟨name, named, known⟩, _, left, paired, char, peeked, looked, read⟩
    cases looked
    generalize starts : left.dropWhile Reader.isBlank = mid at read
    generalize first : mid.head? = char at read
    split at read
    next =>
      obtain ⟨mid, rfl⟩ := List.head?_eq_some_iff.mp first
      rw [Reader.advance_bind, List.tail_cons] at read
      obtain ⟨_, after, spelled, read⟩ := Reader.bind_eq_ok_iff.mp read
      obtain ⟨rfl, final, ends, rfl⟩ := closing_eq_ok_iff.mp read
      exact ⟨name, ⟨later, after, final, named, ⟨(), left, paired,
        Reader.value_eq_null_iff.mpr ⟨mid, starts, spelled⟩⟩, ends, rfl⟩, known⟩
    next =>
      obtain ⟨_, _, failed, _⟩ := Reader.bind_eq_ok_iff.mp read
      exact (Reader.wrongType_ne_ok failed).elim
  · rintro ⟨name, ⟨later, after, final, named, ⟨_, left, paired, valued⟩, ends, rfl⟩, known⟩
    obtain ⟨mid, starts, spelled⟩ := Reader.value_eq_null_iff.mp valued
    refine ⟨version, later, ⟨name, named, known⟩, (), left, paired, some 'n', 'n' :: mid, ?_, ?_⟩
    · rw [← starts, Reader.peek, starts]
      rfl
    · exact Reader.bind_eq_ok_iff.mpr ⟨(), mid, rfl, Reader.bind_eq_ok_iff.mpr ⟨(), after, spelled,
        closing_eq_ok_iff.mpr ⟨rfl, final, ends, rfl⟩⟩⟩

theorem read_decodes (depth : Nat) :
    Reader.Decodes Version.read (Reader.value .strict (depth + 1)) ofValue := by
  intro text version rest
  rw [Version.read, Reader.peek_bind]
  constructor
  · intro read
    generalize starts : text.dropWhile Reader.isBlank = mid at read
    cases mid with
    | nil => cases read
    | cons char mid =>
        by_cases quote : char = '"'
        · subst quote
          obtain ⟨name, named, known⟩ := readName_eq_ok_iff.mp read
          exact ⟨.text name, Reader.value_eq_text_iff.mpr ⟨mid, starts, named⟩, known⟩
        · by_cases brace : char = '\x7b'
          · subst brace
            obtain ⟨name, kept, known⟩ := readObject_eq_ok_iff.mp read
            exact ⟨.object [(name, .null)], Reader.level_eq_ok_iff.mpr (.inr (.inl
              ⟨_, mid, _, rfl, starts, kept, rfl⟩)), known⟩
          · simp [Reader.fail] at read
  · rintro ⟨value, read, decoded⟩
    unfold ofValue at decoded
    split at decoded
    next name =>
      obtain ⟨mid, starts, named⟩ := Reader.value_eq_text_iff.mp read
      rw [starts]
      exact readName_eq_ok_iff.mpr ⟨name, named, decoded⟩
    next name =>
      rcases Reader.level_eq_ok_iff.mp read with ⟨_, _, _, _, _, _, ⟨⟩⟩ |
        ⟨_, mid, members, ⟨⟩, starts, kept, equal⟩ | ⟨_, _, _, _, _, scalar⟩
      · have alone : members = [(name, .null)] := by
          simpa using congrArg List.reverse (Value.object.inj equal).symm
        subst alone
        rw [starts]
        exact readObject_eq_ok_iff.mpr ⟨name, kept, decoded⟩
      · cases (Reader.nesting_of_scalar scalar).1
    next => cases decoded

end Version

namespace Options

def switch : Value → Except ShapeError Bool
  | .bool value => .ok value
  | other => .error (.wrongType other.found "a boolean")

variable (depth : Nat)

theorem readSwitch_decodes : Reader.Decodes readSwitch (Reader.value .strict depth) switch := by
  intro text switched rest
  have bools : (∃ value, Reader.value .strict depth text = .ok (value, rest) ∧
      switch value = .ok switched) ↔
      Reader.value .strict depth text = .ok (.bool switched, rest) := by
    constructor
    · rintro ⟨value, read, decoded⟩
      cases value with
      | bool value =>
          cases decoded
          exact read
      | _ => cases decoded
    · exact fun read => ⟨_, read, rfl⟩
  rw [bools, Reader.value_eq_bool_iff, readSwitch, Reader.peek_bind]
  generalize text.dropWhile Reader.isBlank = mid
  cases mid with
  | nil => simp [Reader.wrongType_ne_ok]
  | cons char mid =>
      by_cases yes : char = 't'
      · subst yes
        simp [Reader.advance_bind, Reader.word_eq_ok_iff]
      · by_cases no : char = 'f'
        · subst no
          simp [Reader.advance_bind, Reader.word_eq_ok_iff]
        · simp [yes, no, Reader.wrongType_ne_ok]

theorem readText_decodes : Reader.Decodes readText (Reader.value .strict depth) Decode.text := by
  intro text content rest
  have texts : (∃ value, Reader.value .strict depth text = .ok (value, rest) ∧
      Decode.text value = .ok content) ↔
      Reader.value .strict depth text = .ok (.text content, rest) := by
    constructor
    · rintro ⟨value, read, decoded⟩
      cases value with
      | text value =>
          cases decoded
          exact read
      | _ => cases decoded
    · exact fun read => ⟨_, read, rfl⟩
  rw [texts, Reader.value_eq_text_iff, readText, Reader.peek_bind]
  generalize text.dropWhile Reader.isBlank = mid
  cases mid with
  | nil => simp [Reader.wrongType_ne_ok]
  | cons char mid =>
      by_cases quote : char = '"'
      · subst quote
        simp
      · simp [quote, Reader.wrongType_ne_ok]

variable {depth} {α : Type}

theorem readOptional_decodes {present : Reader α} {decode : Value → Except ShapeError α}
    (decodes : Reader.Decodes present (Reader.value .strict depth) decode)
    (notNull : ∀ result, decode .null ≠ .ok result) :
    Reader.Decodes (readOptional present) (Reader.value .strict depth)
      (Decode.optional decode) := by
  intro text found rest
  rw [readOptional, Reader.peek_bind]
  by_cases null : ∃ mid, text.dropWhile Reader.isBlank = 'n' :: mid
  · obtain ⟨mid, starts⟩ := null
    have only (value : Value) : Reader.value .strict depth text = .ok (value, rest) ↔
        Reader.word ['u', 'l', 'l'] mid = .ok ((), rest) ∧ Value.null = value := by
      obtain ⟨inner, level⟩ := Reader.value_eq_level .strict depth
      rw [level, Reader.level, Reader.peek_bind, starts]
      change Reader.scalar .strict 'n' ('n' :: mid) = _ ↔ _
      simp [Reader.scalar, Reader.advance_bind, Reader.word_eq_ok_iff]
    rw [starts]
    simp only [List.head?_cons, Reader.advance_bind, List.tail_cons, Reader.word_eq_ok_iff, only]
    constructor
    · rintro ⟨spelled, rfl⟩
      exact ⟨.null, ⟨spelled, rfl⟩, rfl⟩
    · rintro ⟨_, ⟨spelled, rfl⟩, decoded⟩
      cases decoded
      exact ⟨spelled, rfl⟩
  · have other : ∀ char, (text.dropWhile Reader.isBlank).head? = some char → char ≠ 'n' := by
      rintro _ first rfl
      exact null (List.head?_eq_some_iff.mp first)
    generalize (text.dropWhile Reader.isBlank).head? = first at other
    split
    next => exact absurd rfl (other _ rfl)
    next =>
      simp only [Reader.map_eq_ok_iff, decodes _ _ _, Reader.value_dropWhile]
      constructor
      · rintro ⟨result, ⟨value, read, decoded⟩, rfl⟩
        have other : value ≠ .null := fun equal => notNull result (equal ▸ decoded)
        exact ⟨value, read, optional_eq_ok_iff.mpr (.inr ⟨other, result, decoded, rfl⟩)⟩
      · rintro ⟨value, read, decoded⟩
        rcases optional_eq_ok_iff.mp decoded with ⟨rfl, _⟩ | ⟨_, result, here, rfl⟩
        · obtain ⟨mid, starts, _⟩ := Reader.value_eq_null_iff.mp read
          exact absurd ⟨mid, starts⟩ null
        · exact ⟨result, ⟨value, read, here⟩, rfl⟩

theorem readOnce_decodes {name : String} {earlier : Option α} {content : Reader α}
    {decode : Value → Except ShapeError α}
    (decodes : Reader.Decodes content (Reader.value .strict depth) decode) :
    Reader.Decodes (readOnce name earlier content) (do Reader.colon; Reader.value .strict depth)
      fun value => once name earlier (decode value) := by
  intro text next rest
  unfold readOnce
  split_ifs with known
  · simp [once, known, Reader.fail]
  · rw [Bool.not_eq_true, Option.isSome_eq_false_iff, Option.isNone_iff_eq_none] at known
    simp only [Reader.bind_eq_ok_iff, Reader.map_eq_ok_iff, once_eq_ok_iff, decodes _ _ _]
    constructor
    · rintro ⟨_, mid, paired, result, ⟨value, valued, decoded⟩, equal⟩
      exact ⟨value, ⟨(), mid, paired, valued⟩, known, result, decoded, equal⟩
    · rintro ⟨value, ⟨_, mid, paired, valued⟩, _, result, decoded, equal⟩
      exact ⟨(), mid, paired, result, ⟨value, valued, decoded⟩, equal⟩

/-! ## Options as members of an object -/

def fields : List String :=
  ["normalize_url_backslashes", "xml_tags", "xml_output", "fallback_alt_text", "doctype"]

/-- The value of a member of an option file. That of an option is read; any other has to be well
formed only. -/
def memberValue (key : String) : Reader Value :=
  if key ∈ fields then
    Reader.value .strict (nestingLimit - 1)
  else
    Reader.valueOrSkip (nestingLimit - 1)

def readMembers : Reader (List (String × Value)) := do
  match ← Reader.peek with
  | some '\x7b' =>
      Reader.advance
      let found ← Reader.members .strict [] (Reader.keep memberValue)
      return found.reverse
  | _ => .fail .malformed

/-- The members of the object that an option file holds. -/
def parseMembers (text : String) : Except Fault (List (String × Value)) := do
  let (members, rest) ← readMembers text.toList
  let _ ← Reader.finish rest
  return members

def Draft.take (draft : Draft) (key : String) (content : Value) : Except ShapeError Draft := do
  if key == "normalize_url_backslashes" then
    return { draft with slashUrls := ← once key draft.slashUrls (switch content) }
  else if key == "xml_tags" then
    return { draft with xmlTags := ← once key draft.xmlTags (switch content) }
  else if key == "xml_output" then
    return { draft with xmlOutput := ← once key draft.xmlOutput (switch content) }
  else if key == "fallback_alt_text" then
    return { draft with
      fallbackAlt := ← once key draft.fallbackAlt (Decode.optional Decode.text content) }
  else if key == "doctype" then
    return { draft with
      doctype := ← once key draft.doctype (Decode.optional Version.ofValue content) }
  else
    return draft

def ofMembers (members : List (String × Value)) : Except ShapeError Options := do
  let draft ← members.foldlM (fun (draft : Draft) entry => draft.take entry.1 entry.2) {}
  return draft.finish

theorem Draft.read_decodes (draft : Draft) (key : String) :
    Reader.Decodes (draft.read key) (do Reader.colon; memberValue key)
      fun value => draft.take key value := by
  have field {α : Type} {earlier : Option α} {content : Reader α}
      {decode : Value → Except ShapeError α} (change : Option α → Draft) (known : key ∈ fields)
      (decodes : Reader.Decodes content (Reader.value .strict (nestingLimit - 1)) decode) :
      Reader.Decodes (change <$> readOnce key earlier content)
        (do Reader.colon; memberValue key)
        fun value => change <$> once key earlier (decode value) := by
    have value : memberValue key = Reader.value .strict (nestingLimit - 1) := if_pos known
    rw [value]
    exact (readOnce_decodes decodes).map change
  unfold Draft.read Draft.take
  split_ifs with slashUrls xmlTags xmlOutput fallbackAlt doctype
  · exact field _ (by simp [fields, eq_of_beq slashUrls]) (readSwitch_decodes _)
  · exact field _ (by simp [fields, eq_of_beq xmlTags]) (readSwitch_decodes _)
  · exact field _ (by simp [fields, eq_of_beq xmlOutput]) (readSwitch_decodes _)
  · exact field _ (by simp [fields, eq_of_beq fallbackAlt])
      (readOptional_decodes (readText_decodes _) nofun)
  · exact field _ (by simp [fields, eq_of_beq doctype])
      (readOptional_decodes (Version.read_decodes _) nofun)
  · have unknown : key ∉ fields := by
      simp only [beq_iff_eq] at slashUrls xmlTags xmlOutput fallbackAlt doctype
      simp [fields, *]
    have value : memberValue key = Reader.valueOrSkip (nestingLimit - 1) := if_neg unknown
    intro text next rest
    rw [value]
    simp only [Reader.bind_eq_ok_iff, Reader.pure_eq_ok_iff]
    constructor
    · rintro ⟨_, mid, paired, _, _, passed, rfl, rfl⟩
      obtain ⟨found, valued⟩ := (Reader.skip_eq_ok_iff (nestingLimit - 1)).mp passed
      exact ⟨found, ⟨(), mid, paired, valued⟩, rfl⟩
    · rintro ⟨found, ⟨_, mid, paired, valued⟩, equal⟩
      cases equal
      exact ⟨(), mid, paired, (), rest,
        (Reader.skip_eq_ok_iff (nestingLimit - 1)).mpr ⟨found, valued⟩, rfl, rfl⟩

theorem Draft.foldlM_take_eq_ok_iff {members : List (String × Value)} {draft final : Draft} :
    members.foldlM (fun (draft : Draft) entry => draft.take entry.1 entry.2) draft = .ok final ↔
      Fills switch "normalize_url_backslashes" members draft.slashUrls final.slashUrls ∧
        Fills switch "xml_tags" members draft.xmlTags final.xmlTags ∧
        Fills switch "xml_output" members draft.xmlOutput final.xmlOutput ∧
        Fills (Decode.optional Decode.text) "fallback_alt_text" members draft.fallbackAlt
          final.fallbackAlt ∧
        Fills (Decode.optional Version.ofValue) "doctype" members draft.doctype
          final.doctype := by
  induction members generalizing draft with
  | nil =>
      rcases draft with ⟨slashUrls, xmlTags, xmlOutput, fallbackAlt, doctype⟩
      rcases final with ⟨finalUrls, finalTags, finalOutput, finalAlt, finalDoctype⟩
      simp [pure, Except.pure, eq_comm]
  | cons member members induction =>
      rcases member with ⟨key, content⟩
      simp only [List.foldlM_cons, bind_ok_iff, induction]
      unfold take
      split_ifs with slashUrls xmlTags xmlOutput fallbackAlt doctype
      case neg =>
        rw [beq_iff_eq] at slashUrls xmlTags xmlOutput fallbackAlt doctype
        simp [slashUrls, xmlTags, xmlOutput, fallbackAlt, doctype, fills_cons_of_ne, pure,
          Except.pure]
      all_goals
        cases eq_of_beq ‹(key == _) = true›
        simp [map_ok_iff, fills_cons_self, fills_cons_of_ne]
        grind

/-- The options that an object stands for: what is found for each, or else its default. -/
theorem ofMembers_eq_ok_iff {members : List (String × Value)} {options : Options} :
    ofMembers members = .ok options ↔
      ∃ slashUrls xmlTags xmlOutput fallbackAlt doctype,
        Finds switch "normalize_url_backslashes" members slashUrls ∧
        Finds switch "xml_tags" members xmlTags ∧
        Finds switch "xml_output" members xmlOutput ∧
        Finds (Decode.optional Decode.text) "fallback_alt_text" members fallbackAlt ∧
        Finds (Decode.optional Version.ofValue) "doctype" members doctype ∧
        options = {
          slashUrls := slashUrls.getD false
          xmlTags := xmlTags.getD false
          xmlOutput := xmlOutput.getD false
          fallbackAlt := fallbackAlt.getD none
          doctype := doctype.getD none } := by
  simp only [ofMembers, bind_ok_iff, Draft.foldlM_take_eq_ok_iff, fills_none]
  constructor
  · rintro ⟨draft, ⟨slashUrls, xmlTags, xmlOutput, fallbackAlt, doctype⟩, equal⟩
    cases equal
    exact ⟨_, _, _, _, _, slashUrls, xmlTags, xmlOutput, fallbackAlt, doctype, rfl⟩
  · rintro ⟨_, _, _, _, _, slashUrls, xmlTags, xmlOutput, fallbackAlt, doctype, rfl⟩
    exact ⟨⟨_, _, _, _, _⟩, ⟨slashUrls, xmlTags, xmlOutput, fallbackAlt, doctype⟩, rfl⟩

/-! ## Option files -/

/-- The text of an option file holds an object, and not the options as an array. -/
def HoldsObject (text : String) : Prop :=
  ∃ mid, text.toList.dropWhile Reader.isBlank = '\x7b' :: mid

theorem readMembers_eq_ok_iff {text rest : List Char} {members : List (String × Value)} :
    readMembers text = .ok (members, rest) ↔
      ∃ mid found, text.dropWhile Reader.isBlank = '\x7b' :: mid ∧
        Reader.members .strict [] (Reader.keep memberValue) mid = .ok (found, rest) ∧
        found.reverse = members := by
  rw [readMembers, Reader.peek_bind]
  generalize text.dropWhile Reader.isBlank = mid
  constructor
  · intro read
    generalize starts : mid.head? = char at read
    split at read
    next =>
      obtain ⟨mid, rfl⟩ := List.head?_eq_some_iff.mp starts
      obtain ⟨found, kept, equal⟩ := Reader.map_eq_ok_iff.mp read
      exact ⟨mid, found, rfl, kept, equal⟩
    next => cases read
  · rintro ⟨mid, found, rfl, kept, equal⟩
    exact Reader.map_eq_ok_iff.mpr ⟨found, kept, equal⟩

theorem parseMembers_eq_ok_iff {text : String} {members : List (String × Value)} :
    parseMembers text = .ok members ↔
      ∃ rest, readMembers text.toList = .ok (members, rest) ∧
        ∃ final, Reader.finish rest = .ok ((), final) := by
  simp only [parseMembers, bind_ok_iff, Prod.exists]
  constructor
  · rintro ⟨found, rest, read, _, final, ends, equal⟩
    cases equal
    exact ⟨rest, read, final, ends⟩
  · rintro ⟨rest, read, final, ends⟩
    exact ⟨members, rest, read, (), final, ends, rfl⟩

theorem read_eq_ok_iff {text mid rest : List Char}
    (starts : text.dropWhile Reader.isBlank = '\x7b' :: mid) {options : Options} :
    read text = .ok (options, rest) ↔
      ∃ members, readMembers text = .ok (members, rest) ∧ ofMembers members = .ok options := by
  have taken {draft : Draft} := @Reader.foldMembers_decodes _ _ .strict _ memberValue
    (fun (draft : Draft) entry => draft.take entry.1 entry.2) Draft.read_decodes
    (mid.length + 1) true {} draft mid rest
  simp only [readMembers_eq_ok_iff]
  rw [read, Reader.peek_bind, starts]
  change (Draft.finish <$> Reader.members .strict ({} : Draft) Draft.read) mid = _ ↔ _
  rw [Reader.map_eq_ok_iff]
  constructor
  · rintro ⟨draft, found, rfl⟩
    obtain ⟨members, kept, folded⟩ := taken.mp found
    exact ⟨_, ⟨mid, members, rfl, kept, rfl⟩, bind_ok_iff.mpr ⟨draft, folded, rfl⟩⟩
  · rintro ⟨_, ⟨_, members, ⟨⟩, kept, rfl⟩, decoded⟩
    obtain ⟨draft, folded, equal⟩ := bind_ok_iff.mp decoded
    cases equal
    exact ⟨draft, taken.mpr ⟨members, kept, folded⟩, rfl⟩

/-- Options are read from an object exactly where they are decoded from its members. -/
theorem parse_eq_ok_iff {text : String} (object : HoldsObject text) {options : Options} :
    parse text = .ok options ↔
      ∃ members, parseMembers text = .ok members ∧ ofMembers members = .ok options := by
  obtain ⟨mid, starts⟩ := object
  simp only [parse, bind_ok_iff, Prod.exists, parseMembers_eq_ok_iff]
  constructor
  · rintro ⟨found, rest, here, _, final, ends, equal⟩
    cases equal
    obtain ⟨members, kept, decoded⟩ := (read_eq_ok_iff starts).mp here
    exact ⟨members, ⟨rest, kept, final, ends⟩, decoded⟩
  · rintro ⟨members, ⟨rest, kept, final, ends⟩, decoded⟩
    exact ⟨options, rest, (read_eq_ok_iff starts).mpr ⟨members, kept, decoded⟩, (), final, ends,
      rfl⟩

/-- An object that can be read is read as the members of an option file. -/
theorem parseMembers_of_parse {text : String} {members : List (String × Value)}
    (parsed : Value.parse text = .ok (.object members)) : parseMembers text = .ok members := by
  obtain ⟨rest, read, ends⟩ := Value.parse_eq_ok_iff.mp parsed
  rcases Reader.level_eq_ok_iff.mp read with ⟨_, _, _, _, _, _, ⟨⟩⟩ |
    ⟨_, mid, found, ⟨⟩, starts, kept, ⟨⟩⟩ | ⟨_, _, _, _, _, scalar⟩
  · have agree (key : String) (text : List Char) (value : Value) (rest : List Char)
        (read : Reader.value .strict (nestingLimit - 1) text = .ok (value, rest)) (_ : True) :
        memberValue key text = .ok (value, rest) := by
      unfold memberValue
      split_ifs
      · exact read
      · rw [Reader.valueOrSkip, read]
    have same := Reader.foldMembers_agree agree kept fun _ _ => trivial
    exact parseMembers_eq_ok_iff.mpr ⟨rest,
      readMembers_eq_ok_iff.mpr ⟨mid, found, starts, same, rfl⟩, ends⟩
  · cases (Reader.nesting_of_scalar scalar).1

theorem holdsObject_of_parseMembers {text : String} {members : List (String × Value)}
    (parsed : parseMembers text = .ok members) : HoldsObject text := by
  obtain ⟨rest, read, _⟩ := parseMembers_eq_ok_iff.mp parsed
  obtain ⟨mid, _, starts, _⟩ := readMembers_eq_ok_iff.mp read
  exact ⟨mid, starts⟩

end Options

end HtmlConformance
