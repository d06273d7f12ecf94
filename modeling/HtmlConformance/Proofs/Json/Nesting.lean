import HtmlConformance.Proofs.Json.Reading

namespace HtmlConformance.Json

/-! How much of a text a value takes up: a value that was read nests no deeper than its reader
allows, and no deeper than it has characters. -/

namespace Value

theorem nestingAll_le_iff {values : List Value} {bound : Nat} :
    nestingAll values ≤ bound ↔ ∀ value ∈ values, value.nesting ≤ bound := by
  induction values with
  | nil => simp [nestingAll]
  | cons value rest induction => simp [nestingAll, induction]

theorem nestingMembers_le_iff {members : List (String × Value)} {bound : Nat} :
    nestingMembers members ≤ bound ↔ ∀ member ∈ members, member.2.nesting ≤ bound := by
  induction members with
  | nil => simp [nestingMembers]
  | cons member rest induction => simp [nestingMembers, induction]

end Value

variable {α : Type} {care : Care}

/-! ## Numbers and scalars -/

namespace Numeral

open Reader

theorem length_of_digits {text rest found : List Char}
    (read : digits care text = .ok (found, rest)) : rest.length < text.length := by
  have whole : (text.span Char.isDigit).1.length + (text.span Char.isDigit).2.length =
      text.length := by
    rw [← List.length_append, List.span_eq_takeWhile_dropWhile, List.takeWhile_append_dropWhile]
  unfold digits at read
  generalize text.span Char.isDigit = spanned at read whole
  rcases spanned with ⟨digits, left⟩
  cases digits with
  | nil => cases read
  | cons digit more =>
      cases read
      simp only [List.length_cons] at whole
      omega

theorem length_of_wholePart {text rest found : List Char}
    (read : wholePart care text = .ok (found, rest)) : rest.length < text.length := by
  obtain ⟨whole, later, digits, read⟩ := bind_eq_ok_iff.mp read
  split at read
  next => cases read
  next =>
    obtain ⟨-, rfl⟩ := pure_eq_ok_iff.mp read
    exact length_of_digits digits

theorem length_of_fractionPart {text rest found : List Char}
    (read : fractionPart care text = .ok (found, rest)) : rest.length ≤ text.length := by
  unfold fractionPart at read
  split at read
  next => exact (length_of_digits read).le.trans (Nat.le_succ _)
  next =>
    cases read
    exact Nat.le_refl _

theorem length_of_exponentDigits {text rest : List Char} {found : Int}
    (read : exponentDigits care text = .ok (found, rest)) : rest.length ≤ text.length := by
  obtain ⟨negative, later, sign, read⟩ := bind_eq_ok_iff.mp read
  obtain ⟨digits, left, found, read⟩ := bind_eq_ok_iff.mp read
  obtain ⟨-, rfl⟩ := pure_eq_ok_iff.mp read
  refine (length_of_digits found).le.trans ?_
  unfold exponentSign at sign
  split at sign
  next =>
    cases sign
    exact Nat.le_succ _
  next =>
    cases sign
    exact Nat.le_succ _
  next =>
    cases sign
    exact Nat.le_refl _

theorem length_of_exponentPart {text rest : List Char} {found : Option Int}
    (read : exponentPart care text = .ok (found, rest)) : rest.length ≤ text.length := by
  unfold exponentPart at read
  split at read
  next =>
    obtain ⟨_, digits, _⟩ := map_eq_ok_iff.mp read
    exact (length_of_exponentDigits digits).trans (Nat.le_succ _)
  next =>
    obtain ⟨_, digits, _⟩ := map_eq_ok_iff.mp read
    exact (length_of_exponentDigits digits).trans (Nat.le_succ _)
  next =>
    cases read
    exact Nat.le_refl _

end Numeral

namespace Reader

theorem length_of_number {negative : Bool} {text rest : List Char} {number : Number}
    (read : Number.read care negative text = .ok (number, rest)) : rest.length < text.length := by
  obtain ⟨numeral, later, numeralRead, read⟩ := bind_eq_ok_iff.mp read
  have here : later = rest := by
    split at read
    · cases read
    · exact (pure_eq_ok_iff.mp read).2
  subst here
  obtain ⟨whole, first, wholeRead, read⟩ := bind_eq_ok_iff.mp numeralRead
  obtain ⟨fraction, second, fractionRead, read⟩ := bind_eq_ok_iff.mp read
  obtain ⟨exponent, third, exponentRead, read⟩ := bind_eq_ok_iff.mp read
  obtain ⟨-, rfl⟩ := pure_eq_ok_iff.mp read
  exact ((Numeral.length_of_exponentPart exponentRead).trans
    (Numeral.length_of_fractionPart fractionRead)).trans_lt (Numeral.length_of_wholePart wholeRead)

theorem advance_eq_ok {text rest : List Char} {result : Unit}
    (read : advance text = .ok (result, rest)) : rest = text.tail := by
  cases read
  rfl

theorem length_tail_le (text : List Char) : text.tail.length ≤ text.length := by
  rw [List.length_tail]
  exact Nat.sub_le _ _

theorem length_of_text {text rest : List Char} {content : String}
    (read : Reader.text care text = .ok (content, rest)) : rest.length < text.length := by
  obtain ⟨_, later, advanced, read⟩ := bind_eq_ok_iff.mp read
  rw [advance_eq_ok advanced] at read
  unfold Text.read at read
  split at read
  next found =>
    cases read
    exact (Text.length_of_charsFrom found).trans_le (length_tail_le text)
  next => cases read

theorem length_of_word {letters text rest : List Char} {result : Unit}
    (read : word letters text = .ok (result, rest)) :
    rest.length + letters.length = text.length := by
  induction letters generalizing text with
  | nil =>
      obtain ⟨-, rfl⟩ := pure_eq_ok_iff.mp read
      rfl
  | cons letter letters induction =>
      unfold word at read
      split at read
      next => cases read
      next =>
        split at read
        next =>
          have shorter := induction read
          simp only [List.length_cons]
          omega
        next => cases read

theorem length_of_literal {letters text rest : List Char} {value result : Value}
    (some : 0 < letters.length)
    (read : (do advance; word letters; return value : Reader Value) text = .ok (result, rest)) :
    result = value ∧ rest.length < text.length := by
  obtain ⟨_, later, advanced, read⟩ := bind_eq_ok_iff.mp read
  obtain ⟨_, left, spelled, read⟩ := bind_eq_ok_iff.mp read
  obtain ⟨rfl, rfl⟩ := pure_eq_ok_iff.mp read
  rw [advance_eq_ok advanced] at spelled
  have shorter := length_of_word spelled
  have tail := length_tail_le text
  exact ⟨rfl, by omega⟩

theorem nesting_of_scalar {char : Char} {text rest : List Char} {value : Value}
    (read : scalar care char text = .ok (value, rest)) :
    value.nesting = 0 ∧ rest.length < text.length := by
  unfold scalar at read
  split_ifs at read
  · obtain ⟨content, found, rfl⟩ := map_eq_ok_iff.mp read
    exact ⟨rfl, length_of_text found⟩
  · obtain ⟨rfl, shorter⟩ := length_of_literal (by decide) read
    exact ⟨rfl, shorter⟩
  · obtain ⟨rfl, shorter⟩ := length_of_literal (by decide) read
    exact ⟨rfl, shorter⟩
  · obtain ⟨rfl, shorter⟩ := length_of_literal (by decide) read
    exact ⟨rfl, shorter⟩
  · obtain ⟨_, later, advanced, read⟩ := bind_eq_ok_iff.mp read
    obtain ⟨number, found, rfl⟩ := map_eq_ok_iff.mp read
    rw [advance_eq_ok advanced] at found
    exact ⟨rfl, (length_of_number found).trans_le (length_tail_le text)⟩
  · obtain ⟨number, found, rfl⟩ := map_eq_ok_iff.mp read
    exact ⟨rfl, length_of_number found⟩
  · cases read

/-! ## Items and members -/

/-- Another item begins after the blanks, or after a comma; where none does, the bracket is
left. -/
theorem anotherItem_cases {first more : Bool} {text later : List Char}
    (read : anotherItem first text = .ok (more, later)) :
    later.length ≤ text.length ∧ (more = false → later.head? = some ']') := by
  rw [anotherItem, peek_bind] at read
  have shorter := length_dropWhile_le text
  generalize text.dropWhile isBlank = mid at read shorter
  generalize starts : mid.head? = char at read
  split at read
  next => cases read
  next =>
    obtain ⟨-, rfl⟩ := pure_eq_ok_iff.mp read
    exact ⟨shorter, fun _ => starts⟩
  next =>
    split at read
    next =>
      obtain ⟨rfl, rfl⟩ := pure_eq_ok_iff.mp read
      exact ⟨shorter, by simp⟩
    next =>
      rw [advance_bind, peek_bind] at read
      have lower := length_dropWhile_le mid.tail
      generalize mid.tail.dropWhile isBlank = left at read lower
      generalize left.head? = char at read
      split at read
      next => cases read
      next => cases read
      next =>
        obtain ⟨rfl, rfl⟩ := pure_eq_ok_iff.mp read
        exact ⟨(lower.trans (length_tail_le mid)).trans shorter, by simp⟩
  next =>
    split at read
    next =>
      obtain ⟨rfl, rfl⟩ := pure_eq_ok_iff.mp read
      exact ⟨shorter, by simp⟩
    next => cases read

/-- A key is followed by what its value is read from; where there is none, the brace is left. -/
theorem nextKey_cases {first : Bool} {key : Option String} {text later : List Char}
    (read : nextKey care first text = .ok (key, later)) :
    later.length ≤ text.length ∧
      (key = none → text.dropWhile isBlank = later ∧ later.head? = some '\x7d') := by
  have named {start left : List Char} {name : Option String}
      (read : (some <$> Reader.text care) start = .ok (name, left)) :
      left.length ≤ start.length ∧ name ≠ none := by
    obtain ⟨name, found, rfl⟩ := map_eq_ok_iff.mp read
    exact ⟨(length_of_text found).le, nofun⟩
  rw [nextKey, peek_bind] at read
  have shorter := length_dropWhile_le text
  generalize text.dropWhile isBlank = mid at read shorter ⊢
  generalize starts : mid.head? = char at read
  split at read
  next => cases read
  next =>
    obtain ⟨-, rfl⟩ := pure_eq_ok_iff.mp read
    exact ⟨shorter, fun _ => ⟨rfl, starts⟩⟩
  next =>
    split at read
    next => cases read
    next =>
      rw [advance_bind, peek_bind] at read
      have lower := length_dropWhile_le mid.tail
      generalize mid.tail.dropWhile isBlank = left at read lower
      generalize left.head? = char at read
      split at read
      next => cases read
      next =>
        obtain ⟨least, some⟩ := named read
        exact ⟨((least.trans lower).trans (length_tail_le mid)).trans shorter,
          fun none => absurd none some⟩
      next => cases read
  next =>
    split at read
    next =>
      obtain ⟨least, some⟩ := named read
      exact ⟨least.trans shorter, fun none => absurd none some⟩
    next => cases read
  next => cases read

theorem length_of_colon {text later : List Char} {result : Unit}
    (read : colon text = .ok (result, later)) : later.length ≤ text.length := by
  rw [colon, peek_bind] at read
  have shorter := length_dropWhile_le text
  generalize text.dropWhile isBlank = mid at read shorter
  generalize mid.head? = char at read
  split at read
  next =>
    rw [advance_eq_ok read]
    exact (length_tail_le mid).trans shorter
  next => cases read
  next => cases read

/-- Where the next character is known, there is one to pass by. -/
theorem length_tail_lt {text : List Char} {char : Char} (starts : text.head? = some char) :
    text.tail.length < text.length := by
  obtain ⟨rest, rfl⟩ := List.head?_eq_some_iff.mp starts
  exact Nat.lt_succ_self _

/-! ## Values -/

/-- The values that a reader gives nest to some depth, and no deeper than they have characters. -/
def NestsWithin (depth : Nat) (item : Reader Value) : Prop :=
  ∀ text value rest, item text = .ok (value, rest) →
    value.nesting ≤ depth ∧ value.nesting + rest.length < text.length

theorem foldItems_nesting {item : Reader Value} {depth : Nat} (nests : NestsWithin depth item)
    {fuel : Nat} {first : Bool} {values : List Value} {text rest : List Char}
    (read : foldItems item fuel first [] text = .ok (values, rest)) :
    rest.length < text.length ∧ ∀ value ∈ values,
      value.nesting ≤ depth ∧ value.nesting + rest.length < text.length := by
  induction fuel generalizing first values text with
  | zero => cases read
  | succ fuel induction =>
      rcases foldItems_succ_eq_ok_iff.mp read with ⟨later, another, rfl, rfl⟩ |
        ⟨mid, value, later, another, here, read⟩
      · obtain ⟨shorter, close⟩ := anotherItem_cases another
        have tail := length_tail_lt (close rfl)
        exact ⟨by omega, by simp⟩
      · obtain ⟨found, rfl, remaining⟩ := foldItems_eq_ok_iff.mp read
        obtain ⟨less, each⟩ := induction remaining
        have shorter := (anotherItem_cases another).1
        obtain ⟨within, spent⟩ := nests mid value later here
        refine ⟨by omega, ?_⟩
        rintro other (_ | ⟨_, member⟩)
        · exact ⟨within, by omega⟩
        · obtain ⟨deep, long⟩ := each other member
          exact ⟨deep, by omega⟩

theorem foldMembers_nesting {item : String → Reader Value} {depth : Nat}
    (nests : ∀ key, NestsWithin depth (item key))
    {fuel : Nat} {first : Bool} {members : List (String × Value)} {text rest : List Char}
    (read : foldMembers care (keep item) fuel first [] text = .ok (members, rest)) :
    rest.length < text.length ∧ ∀ member ∈ members,
      member.2.nesting ≤ depth ∧ member.2.nesting + rest.length < text.length := by
  induction fuel generalizing first members text with
  | zero => cases read
  | succ fuel induction =>
      rcases foldMembers_succ_eq_ok_iff.mp read with ⟨later, named, rfl, rfl⟩ |
        ⟨key, mid, next, later, named, here, read⟩
      · obtain ⟨shorter, close⟩ := nextKey_cases named
        have tail := length_tail_lt (close rfl).2
        exact ⟨by omega, by simp⟩
      · obtain ⟨left, value, paired, valued, rfl⟩ := keep_eq_ok_iff.mp here
        obtain ⟨found, rfl, remaining⟩ := foldMembers_keep_eq_ok_iff.mp read
        obtain ⟨less, each⟩ := induction remaining
        have shorter := (nextKey_cases named).1
        have lower := length_of_colon paired
        obtain ⟨within, spent⟩ := nests key left value later valued
        refine ⟨by omega, ?_⟩
        intro member present
        rcases List.mem_append.mp present with earlier | last
        · obtain ⟨deep, long⟩ := each member earlier
          exact ⟨deep, by omega⟩
        · rw [List.mem_singleton.mp last]
          exact ⟨within, by dsimp only; omega⟩

theorem level_nesting {inner : Option (Reader Value)} {depth : Nat}
    (nests : ∀ item ∈ inner, ∃ below, depth = below + 1 ∧ NestsWithin below item) :
    NestsWithin depth (level care inner) := by
  intro text value rest read
  have shorter := length_dropWhile_le text
  rcases level_eq_ok_iff.mp read with ⟨item, mid, values, rfl, starts, items, rfl⟩ |
    ⟨item, mid, members, rfl, starts, members, rfl⟩ | ⟨char, mid, starts, _, _, scalar⟩
  · obtain ⟨below, rfl, inside⟩ := nests item rfl
    obtain ⟨less, each⟩ := foldItems_nesting inside items
    rw [starts, List.length_cons] at shorter
    rw [Value.nesting]
    have deep := Value.nestingAll_le_iff.mpr fun value member => (each value member).1
    have long := Value.nestingAll_le_iff.mpr fun value member =>
      Nat.le_sub_one_of_lt (Nat.lt_sub_of_add_lt (each value member).2)
    omega
  · obtain ⟨below, rfl, inside⟩ := nests item rfl
    obtain ⟨less, each⟩ := foldMembers_nesting (fun _ => inside) members
    rw [starts, List.length_cons] at shorter
    rw [Value.nesting]
    have deep := Value.nestingMembers_le_iff.mpr fun member present =>
      (each member (List.mem_reverse.mp present)).1
    have long := Value.nestingMembers_le_iff.mpr fun member present =>
      Nat.le_sub_one_of_lt (Nat.lt_sub_of_add_lt (each member (List.mem_reverse.mp present)).2)
    omega
  · obtain ⟨flat, less⟩ := nesting_of_scalar scalar
    rw [starts] at shorter
    omega

/-- A value nests no deeper than the reader goes. -/
theorem value_nesting (depth : Nat) : NestsWithin depth (value care depth) := by
  induction depth with
  | zero => exact level_nesting nofun
  | succ depth induction =>
      have below : ∀ item ∈ some (value care depth),
          ∃ below, depth + 1 = below + 1 ∧ NestsWithin below item := by
        rintro item ⟨⟩
        exact ⟨depth, rfl, induction⟩
      exact level_nesting below

/-! ## Other depths, and other fuel -/

/-- How often a reader may go on does not matter, once it is more often than there are
characters. -/
theorem foldItems_of_enough {item : Reader Value} {depth : Nat} (nests : NestsWithin depth item)
    {fuel enough : Nat} {first : Bool} {values : List Value} {text rest : List Char}
    (read : foldItems item fuel first [] text = .ok (values, rest))
    (more : text.length < enough) :
    foldItems item enough first [] text = .ok (values, rest) := by
  induction fuel generalizing enough first values text with
  | zero => cases read
  | succ fuel induction =>
      obtain ⟨enough, rfl⟩ := Nat.exists_eq_succ_of_ne_zero (Nat.ne_zero_of_lt more)
      rcases foldItems_succ_eq_ok_iff.mp read with ends | ⟨mid, value, later, another, here, read⟩
      · exact foldItems_succ_eq_ok_iff.mpr (.inl ends)
      · obtain ⟨found, rfl, remaining⟩ := foldItems_eq_ok_iff.mp read
        have shorter := (anotherItem_cases another).1
        have spent := (nests mid value later here).2
        exact foldItems_succ_eq_ok_iff.mpr (.inr ⟨mid, value, later, another, here,
          foldItems_eq_ok_iff.mpr ⟨found, rfl, induction remaining (by omega)⟩⟩)

theorem foldItems_agree {allowed : Value → Prop} {item entry : Reader Value}
    (agree : ∀ text value rest, item text = .ok (value, rest) → allowed value →
      entry text = .ok (value, rest))
    {fuel : Nat} {first : Bool} {values : List Value} {text rest : List Char}
    (read : foldItems item fuel first [] text = .ok (values, rest))
    (each : ∀ value ∈ values, allowed value) :
    foldItems entry fuel first [] text = .ok (values, rest) := by
  induction fuel generalizing first values text with
  | zero => cases read
  | succ fuel induction =>
      rcases foldItems_succ_eq_ok_iff.mp read with ends | ⟨mid, value, later, another, here, read⟩
      · exact foldItems_succ_eq_ok_iff.mpr (.inl ends)
      · obtain ⟨found, rfl, remaining⟩ := foldItems_eq_ok_iff.mp read
        obtain ⟨head, others⟩ := List.forall_mem_cons.mp each
        exact foldItems_succ_eq_ok_iff.mpr (.inr ⟨mid, value, later, another,
          agree mid value later here head,
          foldItems_eq_ok_iff.mpr ⟨found, rfl, induction remaining others⟩⟩)

theorem foldMembers_agree {allowed : Value → Prop} {item entry : String → Reader Value}
    (agree : ∀ key text value rest, item key text = .ok (value, rest) → allowed value →
      entry key text = .ok (value, rest))
    {fuel : Nat} {first : Bool} {members : List (String × Value)} {text rest : List Char}
    (read : foldMembers care (keep item) fuel first [] text = .ok (members, rest))
    (each : ∀ member ∈ members, allowed member.2) :
    foldMembers care (keep entry) fuel first [] text = .ok (members, rest) := by
  induction fuel generalizing first members text with
  | zero => cases read
  | succ fuel induction =>
      rcases foldMembers_succ_eq_ok_iff.mp read with ends |
        ⟨key, mid, next, later, named, here, read⟩
      · exact foldMembers_succ_eq_ok_iff.mpr (.inl ends)
      · obtain ⟨left, value, paired, valued, rfl⟩ := keep_eq_ok_iff.mp here
        obtain ⟨found, rfl, remaining⟩ := foldMembers_keep_eq_ok_iff.mp read
        obtain ⟨others, last⟩ := List.forall_mem_append.mp each
        refine foldMembers_succ_eq_ok_iff.mpr (.inr ⟨key, mid, _, later, named, ?_,
          foldMembers_keep_eq_ok_iff.mpr ⟨found, rfl, induction remaining others⟩⟩)
        exact keep_eq_ok_iff.mpr ⟨left, value, paired,
          agree key left value later valued (last _ (List.mem_singleton_self _)), rfl⟩

/-- A value is read as it is by every reader that goes as deep as it nests. -/
theorem value_of_nesting {depth : Nat} {text rest : List Char} {found : Value}
    (read : value care depth text = .ok (found, rest)) {other : Nat}
    (deep : found.nesting ≤ other) : value care other text = .ok (found, rest) := by
  induction depth generalizing other text rest found with
  | zero =>
      rcases level_eq_ok_iff.mp read with ⟨item, _, _, none, _⟩ | ⟨item, _, _, none, _⟩ | scalar
      · cases none
      · cases none
      · obtain ⟨inner, value⟩ := value_eq_level care other
        rw [value]
        exact level_eq_ok_iff.mpr (.inr (.inr scalar))
  | succ depth induction =>
      have below {other : Nat} : ∀ text found rest, value care depth text = .ok (found, rest) →
          found.nesting ≤ other → value care other text = .ok (found, rest) :=
        fun text found rest read deep => induction read deep
      rcases level_eq_ok_iff.mp read with ⟨item, mid, values, ⟨⟩, starts, items, rfl⟩ |
        ⟨item, mid, members, ⟨⟩, starts, members, rfl⟩ | scalar
      · obtain ⟨other, rfl⟩ := Nat.exists_eq_succ_of_ne_zero
          (Nat.ne_zero_of_lt (Nat.lt_of_succ_le deep))
        exact level_eq_ok_iff.mpr (.inl ⟨_, mid, values, rfl, starts, foldItems_agree below
          items (Value.nestingAll_le_iff.mp (Nat.le_of_succ_le_succ deep)), rfl⟩)
      · obtain ⟨other, rfl⟩ := Nat.exists_eq_succ_of_ne_zero
          (Nat.ne_zero_of_lt (Nat.lt_of_succ_le deep))
        have flat := Value.nestingMembers_le_iff.mp (Nat.le_of_succ_le_succ deep)
        refine level_eq_ok_iff.mpr (.inr (.inl ⟨_, mid, _, rfl, starts, foldMembers_agree
          (fun _ => below) members
          (fun member present => flat member (List.mem_reverse.mpr present)), rfl⟩))
      · obtain ⟨inner, value⟩ := value_eq_level care other
        rw [value]
        exact level_eq_ok_iff.mpr (.inr (.inr scalar))

/-- What can be read can be passed over: a text is longer than its value is deep. -/
theorem skip_of_value {depth : Nat} {text rest : List Char} {found : Value}
    (read : value care depth text = .ok (found, rest)) : skip text = .ok ((), rest) := by
  have short := (value_nesting depth text found rest read).2
  obtain ⟨passed, lax, _⟩ := value_follows care text.length text found rest
    (value_of_nesting read (by omega))
  exact map_eq_ok_iff.mpr ⟨passed, lax, rfl⟩

end Reader

end HtmlConformance.Json
