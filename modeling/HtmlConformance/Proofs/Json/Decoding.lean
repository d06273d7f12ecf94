import HtmlConformance.Json.Decode
import HtmlConformance.Proofs.Json.Nesting

namespace HtmlConformance.Json

/-! Readers of one shape, next to the reader of any value: they come to a result where a value
stands from which that result is decoded. -/

variable {α β σ ε : Type}

/-! ## Results of decoders -/

theorem bind_ok_iff {first : Except ε α} {next : α → Except ε β} {result : β} :
    (first >>= next) = .ok result ↔ ∃ between, first = .ok between ∧ next between = .ok result := by
  cases first with
  | error error => simp [bind, Except.bind]
  | ok found => simp [bind, Except.bind]

theorem map_ok_iff {change : α → β} {decoded : Except ε α} {result : β} :
    change <$> decoded = .ok result ↔ ∃ found, decoded = .ok found ∧ change found = result := by
  cases decoded with
  | error error => simp [Functor.map, Except.map]
  | ok found => simp [Functor.map, Except.map]

theorem mapM_ok_iff {decode : α → Except ε β} {list : List α} {results : List β} :
    list.mapM decode = .ok results ↔
      List.Forall₂ (fun entry result => decode entry = .ok result) list results := by
  induction list generalizing results with
  | nil => cases results <;> simp [pure, Except.pure]
  | cons head tail induction =>
      rw [List.mapM_cons, bind_ok_iff]
      constructor
      · rintro ⟨first, decoded, others⟩
        obtain ⟨more, rest, equal⟩ := bind_ok_iff.mp others
        cases equal
        exact .cons decoded (induction.mp rest)
      · intro each
        cases each with
        | cons decoded rest =>
            exact ⟨_, decoded, bind_ok_iff.mpr ⟨_, induction.mpr rest, rfl⟩⟩

/-- An entry changes for another, from which the same is decoded. -/
theorem forall₂_replaced {decode : α → Except ε β} {before after : List α} {entry other : α}
    {results : List β}
    (each : List.Forall₂ (fun entry result => decode entry = .ok result)
      (before ++ entry :: after) results)
    (same : ∀ result, decode entry = .ok result → decode other = .ok result) :
    List.Forall₂ (fun entry result => decode entry = .ok result)
      (before ++ other :: after) results := by
  induction before generalizing results with
  | nil =>
      cases each with
      | cons decoded rest => exact .cons (same _ decoded) rest
  | cons _ _ induction =>
      cases each with
      | cons decoded rest => exact .cons decoded (induction rest)

namespace Reader

theorem value_dropWhile (care : Care) (depth : Nat) (text : List Char) :
    value care depth (text.dropWhile isBlank) = value care depth text := by
  obtain ⟨inner, value⟩ := value_eq_level care depth
  rw [value, level, peek_bind, peek_bind, List.dropWhile_idempotent]

/-! ## Scalars -/

theorem word_eq_ok_iff {letters text rest : List Char} {value result : α} :
    (do word letters; return value : Reader α) text = .ok (result, rest) ↔
      word letters text = .ok ((), rest) ∧ value = result := by
  rw [bind_eq_ok_iff]
  constructor
  · rintro ⟨_, later, spelled, read⟩
    obtain ⟨rfl, rfl⟩ := pure_eq_ok_iff.mp read
    exact ⟨spelled, rfl⟩
  · rintro ⟨spelled, rfl⟩
    exact ⟨(), rest, spelled, rfl⟩

theorem wrongType_ne_ok {expected : String} {text rest : List Char} {result : α} :
    ¬ (wrongType expected : Reader α) text = .ok (result, rest) := by
  intro read
  obtain ⟨_, _, _, failed⟩ := bind_eq_ok_iff.mp read
  cases failed

section

variable {care : Care} {char : Char} {text rest : List Char}

theorem scalar_eq_text_iff {content : String} :
    scalar care char text = .ok (.text content, rest) ↔
      char = '"' ∧ Reader.text care text = .ok (content, rest) := by
  unfold scalar
  split_ifs with quote none true_ false_ minus digit <;>
    simp [map_eq_ok_iff, word_eq_ok_iff, advance_bind, fail, *]

theorem scalar_eq_null_iff :
    scalar care char text = .ok (.null, rest) ↔
      char = 'n' ∧ word ['u', 'l', 'l'] text.tail = .ok ((), rest) := by
  unfold scalar
  split_ifs with quote none true_ false_ minus digit <;>
    simp [map_eq_ok_iff, word_eq_ok_iff, advance_bind, fail, *]

theorem scalar_eq_bool_iff {value : Bool} :
    scalar care char text = .ok (.bool value, rest) ↔
      (char = 't' ∧ word ['r', 'u', 'e'] text.tail = .ok ((), rest) ∧ true = value) ∨
        (char = 'f' ∧ word ['a', 'l', 's', 'e'] text.tail = .ok ((), rest) ∧ false = value) := by
  unfold scalar
  split_ifs with quote none true_ false_ minus digit <;>
    simp [map_eq_ok_iff, word_eq_ok_iff, advance_bind, fail, *]

theorem value_succ_eq_array_iff {depth : Nat} {values : List Value} :
    value care (depth + 1) text = .ok (.array values, rest) ↔
      ∃ mid, text.dropWhile isBlank = '[' :: mid ∧
        items (value care depth) true mid = .ok (values, rest) := by
  constructor
  · intro read
    rcases level_eq_ok_iff.mp read with ⟨_, mid, _, ⟨⟩, starts, listed, ⟨⟩⟩ |
      ⟨_, _, _, _, _, _, equal⟩ | ⟨_, _, _, _, _, scalar⟩
    · exact ⟨mid, starts, listed⟩
    · cases equal
    · cases (nesting_of_scalar scalar).1
  · rintro ⟨mid, starts, listed⟩
    exact level_eq_ok_iff.mpr (.inl ⟨_, mid, values, rfl, starts, listed, rfl⟩)

/-- A value that is neither an array nor an object is read as a scalar. -/
theorem value_eq_ok_iff_of_flat {depth : Nat} {found : Value} (flat : found.nesting = 0) :
    value care depth text = .ok (found, rest) ↔
      ∃ char mid, text.dropWhile isBlank = char :: mid ∧ char ≠ '[' ∧ char ≠ '\x7b' ∧
        scalar care char (char :: mid) = .ok (found, rest) := by
  obtain ⟨inner, level⟩ := value_eq_level care depth
  rw [level, level_eq_ok_iff]
  constructor
  · rintro (⟨_, _, _, _, _, _, rfl⟩ | ⟨_, _, _, _, _, _, rfl⟩ | scalar)
    · cases flat
    · cases flat
    · exact scalar
  · exact fun scalar => .inr (.inr scalar)

theorem value_eq_text_iff {depth : Nat} {content : String} :
    value care depth text = .ok (.text content, rest) ↔
      ∃ mid, text.dropWhile isBlank = '"' :: mid ∧
        Reader.text care ('"' :: mid) = .ok (content, rest) := by
  simp only [value_eq_ok_iff_of_flat (rfl : (Value.text content).nesting = 0), scalar_eq_text_iff]
  constructor
  · rintro ⟨_, mid, starts, _, _, rfl, read⟩
    exact ⟨mid, starts, read⟩
  · rintro ⟨mid, starts, read⟩
    exact ⟨'"', mid, starts, by decide, by decide, rfl, read⟩

theorem value_eq_null_iff {depth : Nat} :
    value care depth text = .ok (.null, rest) ↔
      ∃ mid, text.dropWhile isBlank = 'n' :: mid ∧ word ['u', 'l', 'l'] mid = .ok ((), rest) := by
  simp only [value_eq_ok_iff_of_flat (rfl : Value.null.nesting = 0), scalar_eq_null_iff]
  constructor
  · rintro ⟨_, mid, starts, _, _, rfl, read⟩
    exact ⟨mid, starts, read⟩
  · rintro ⟨mid, starts, read⟩
    exact ⟨'n', mid, starts, by decide, by decide, rfl, read⟩

theorem value_eq_bool_iff {depth : Nat} {switch : Bool} :
    value care depth text = .ok (.bool switch, rest) ↔
      (∃ mid, text.dropWhile isBlank = 't' :: mid ∧
        word ['r', 'u', 'e'] mid = .ok ((), rest) ∧ true = switch) ∨
      ∃ mid, text.dropWhile isBlank = 'f' :: mid ∧
        word ['a', 'l', 's', 'e'] mid = .ok ((), rest) ∧ false = switch := by
  simp only [value_eq_ok_iff_of_flat (rfl : (Value.bool switch).nesting = 0), scalar_eq_bool_iff]
  constructor
  · rintro ⟨_, mid, starts, _, _, ⟨rfl, read⟩ | ⟨rfl, read⟩⟩
    · exact .inl ⟨mid, starts, read⟩
    · exact .inr ⟨mid, starts, read⟩
  · rintro (⟨mid, starts, read⟩ | ⟨mid, starts, read⟩)
    · exact ⟨'t', mid, starts, by decide, by decide, .inl ⟨rfl, read⟩⟩
    · exact ⟨'f', mid, starts, by decide, by decide, .inr ⟨rfl, read⟩⟩

end

/-! ## Readers of one shape -/

/-- The one reader comes to a result where the other comes to a value from which the result is
decoded, and at the same place. -/
def Decodes (typed : Reader α) (item : Reader Value) (decode : Value → Except ε α) : Prop :=
  ∀ text result rest, typed text = .ok (result, rest) ↔
    ∃ value, item text = .ok (value, rest) ∧ decode value = .ok result

variable {typed : Reader α} {item : Reader Value} {decode : Value → Except ε α}

theorem Decodes.map (change : α → β) (decodes : Decodes typed item decode) :
    Decodes (change <$> typed) item fun value => change <$> decode value := by
  intro text result rest
  simp only [map_eq_ok_iff, decodes _ _ _, map_ok_iff]
  constructor
  · rintro ⟨found, ⟨value, read, decoded⟩, equal⟩
    exact ⟨value, read, found, decoded, equal⟩
  · rintro ⟨value, read, found, decoded, equal⟩
    exact ⟨found, ⟨value, read, decoded⟩, equal⟩

theorem foldItems_decodes (decodes : Decodes typed item decode) {fuel : Nat} {first : Bool}
    {results : List α} {text rest : List Char} :
    foldItems typed fuel first [] text = .ok (results, rest) ↔
      ∃ values, foldItems item fuel first [] text = .ok (values, rest) ∧
        values.mapM decode = .ok results := by
  simp only [mapM_ok_iff]
  induction fuel generalizing first results text with
  | zero => simp [foldItems, fail]
  | succ fuel induction =>
      rw [foldItems_succ_eq_ok_iff]
      constructor
      · rintro (⟨later, another, rfl, rfl⟩ | ⟨mid, result, later, another, here, read⟩)
        · exact ⟨[], foldItems_succ_eq_ok_iff.mpr (.inl ⟨later, another, rfl, rfl⟩), .nil⟩
        · obtain ⟨value, valued, decoded⟩ := (decodes mid result later).mp here
          obtain ⟨found, rfl, remaining⟩ := foldItems_eq_ok_iff.mp read
          obtain ⟨values, items, others⟩ := induction.mp remaining
          exact ⟨value :: values, foldItems_succ_eq_ok_iff.mpr (.inr ⟨mid, value, later, another,
            valued, foldItems_eq_ok_iff.mpr ⟨values, rfl, items⟩⟩), .cons decoded others⟩
      · rintro ⟨values, read, decoded⟩
        rcases foldItems_succ_eq_ok_iff.mp read with ⟨later, another, rfl, rfl⟩ |
          ⟨mid, value, later, another, here, read⟩
        · cases decoded
          exact .inl ⟨later, another, rfl, rfl⟩
        · obtain ⟨found, rfl, remaining⟩ := foldItems_eq_ok_iff.mp read
          cases decoded with
          | @cons _ result _ results head tail =>
              exact .inr ⟨mid, result, later, another, (decodes mid result later).mpr
                ⟨value, here, head⟩, foldItems_eq_ok_iff.mpr
                  ⟨results, rfl, induction.mpr ⟨found, remaining, tail⟩⟩⟩

/-- Members that are taken up one by one are taken up in the order of the text. -/
theorem foldMembers_decodes {care : Care} {step : σ → String → Reader σ}
    {item : String → Reader Value} {take : σ → String × Value → Except ε σ}
    (steps : ∀ state key, Decodes (step state key) (do colon; item key)
      fun value => take state (key, value))
    {fuel : Nat} {first : Bool} {state final : σ} {text rest : List Char} :
    foldMembers care step fuel first state text = .ok (final, rest) ↔
      ∃ members, foldMembers care (keep item) fuel first [] text = .ok (members, rest) ∧
        members.reverse.foldlM take state = .ok final := by
  induction fuel generalizing first state text with
  | zero => simp [foldMembers, fail]
  | succ fuel induction =>
      rw [foldMembers_succ_eq_ok_iff]
      constructor
      · rintro (⟨later, named, rfl, rfl⟩ | ⟨key, mid, next, later, named, here, read⟩)
        · exact ⟨[], foldMembers_succ_eq_ok_iff.mpr (.inl ⟨later, named, rfl, rfl⟩), rfl⟩
        · obtain ⟨value, valued, taken⟩ := (steps state key mid next later).mp here
          obtain ⟨_, left, paired, valued⟩ := bind_eq_ok_iff.mp valued
          obtain ⟨members, kept, others⟩ := induction.mp read
          refine ⟨members ++ [(key, value)], foldMembers_succ_eq_ok_iff.mpr (.inr ⟨key, mid, _,
            later, named, keep_eq_ok_iff.mpr ⟨left, value, paired, valued, rfl⟩,
            foldMembers_keep_eq_ok_iff.mpr ⟨members, rfl, kept⟩⟩), ?_⟩
          rw [List.reverse_concat, List.foldlM_cons]
          exact bind_ok_iff.mpr ⟨next, taken, others⟩
      · rintro ⟨members, read, taken⟩
        rcases foldMembers_succ_eq_ok_iff.mp read with ⟨later, named, rfl, rfl⟩ |
          ⟨key, mid, next, later, named, here, read⟩
        · cases taken
          exact .inl ⟨later, named, rfl, rfl⟩
        · obtain ⟨left, value, paired, valued, rfl⟩ := keep_eq_ok_iff.mp here
          obtain ⟨found, rfl, remaining⟩ := foldMembers_keep_eq_ok_iff.mp read
          rw [List.reverse_concat, List.foldlM_cons] at taken
          obtain ⟨next, here, others⟩ := bind_ok_iff.mp taken
          exact .inr ⟨key, mid, next, later, named, (steps state key mid next later).mpr
            ⟨value, bind_eq_ok_iff.mpr ⟨(), left, paired, valued⟩, here⟩,
            induction.mpr ⟨found, remaining, others⟩⟩

end Reader

/-! ## Whole texts -/

/-- The value that a text is, with white space around it. -/
def Value.parse (text : String) : Except Fault Value := do
  let (value, rest) ← Reader.value .strict nestingLimit text.toList
  let _ ← Reader.finish rest
  return value

/-- The value that a text is for a reader that goes down to some other depth. -/
def Value.parseWithin (depth : Nat) (text : String) : Except Fault Value := do
  let (value, rest) ← Reader.value .strict depth text.toList
  let _ ← Reader.finish rest
  return value

theorem Value.parseWithin_nestingLimit (text : String) :
    parseWithin nestingLimit text = parse text := rfl

theorem Value.parseWithin_eq_ok_iff {depth : Nat} {text : String} {value : Value} :
    parseWithin depth text = .ok value ↔
      ∃ rest, Reader.value .strict depth text.toList = .ok (value, rest) ∧
        ∃ final, Reader.finish rest = .ok ((), final) := by
  simp only [parseWithin, bind_ok_iff, Prod.exists]
  constructor
  · rintro ⟨found, rest, read, _, final, ends, equal⟩
    cases equal
    exact ⟨rest, read, final, ends⟩
  · rintro ⟨rest, read, final, ends⟩
    exact ⟨value, rest, read, (), final, ends, rfl⟩

theorem Value.parse_eq_ok_iff {text : String} {value : Value} :
    parse text = .ok value ↔
      ∃ rest, Reader.value .strict nestingLimit text.toList = .ok (value, rest) ∧
        ∃ final, Reader.finish rest = .ok ((), final) := by
  rw [← parseWithin_nestingLimit, parseWithin_eq_ok_iff]

theorem Value.nesting_of_parse {text : String} {value : Value} (parsed : parse text = .ok value) :
    value.nesting ≤ nestingLimit := by
  obtain ⟨rest, read, _⟩ := parse_eq_ok_iff.mp parsed
  exact (Reader.value_nesting nestingLimit _ value rest read).1

/-- A printed value is read as it was, with white space after it, unless it nests too deep. -/
theorem Value.parse_pretty_append {value found : Value} (numberless : value.Numberless)
    {trailing : String} (blank : Reader.AllBlank trailing.toList) :
    parse (value.pretty ++ trailing) = .ok found ↔
      value = found ∧ value.nesting ≤ nestingLimit := by
  have printed : (value.pretty ++ trailing).toList = value.chars 0 ++ trailing.toList := by
    rw [String.toList_append, pretty, String.toList_ofList]
  have reads {depth : Nat} (allowed : value.nesting ≤ depth) :
      Reader.value .strict depth (value.chars 0 ++ trailing.toList) =
        .ok (value, trailing.toList) :=
    Reader.reads_value .strict depth value numberless allowed 0 [] .nil trailing.toList
  constructor
  · intro parsed
    obtain ⟨rest, read, _⟩ := parse_eq_ok_iff.mp parsed
    have short := nesting_of_parse parsed
    have deeper := Reader.value_of_nesting read (short.trans (Nat.le_max_left _ value.nesting))
    rw [printed, reads (Nat.le_max_right _ _)] at deeper
    cases deeper
    exact ⟨rfl, short⟩
  · rintro ⟨rfl, allowed⟩
    exact parse_eq_ok_iff.mpr
      ⟨trailing.toList, printed ▸ reads allowed, [], Reader.finish_of_blank blank⟩

theorem Value.parse_pretty {value found : Value} (numberless : value.Numberless) :
    parse value.pretty = .ok found ↔ value = found ∧ value.nesting ≤ nestingLimit := by
  have blank : Reader.AllBlank "".toList := Reader.AllBlank.nil
  rw [← parse_pretty_append numberless blank, String.append_empty]

end HtmlConformance.Json
