import HtmlConformance.Proofs.Json.Value

namespace HtmlConformance.Json

/-! What is known of a text that has been read: how a reader that is put together has come to its
result, and which other readers come to an end at the same place. -/

variable {α β γ δ : Type}

namespace Reader

/-! ## Taking readers apart -/

theorem bind_eq_ok_iff {first : Reader α} {next : α → Reader β} {text rest : List Char}
    {result : β} :
    (first >>= next) text = .ok (result, rest) ↔
      ∃ between later, first text = .ok (between, later) ∧
        next between later = .ok (result, rest) := by
  change Reader.bind first next text = _ ↔ _
  unfold Reader.bind
  constructor
  · intro read
    split at read
    next between later found => exact ⟨between, later, found, read⟩
    next => cases read
  · rintro ⟨between, later, found, read⟩
    rw [found]
    exact read

theorem pure_eq_ok_iff {found result : α} {text rest : List Char} :
    (pure found : Reader α) text = .ok (result, rest) ↔ found = result ∧ text = rest := by
  change Except.ok (found, text) = _ ↔ _
  simp

theorem map_eq_ok_iff {change : α → β} {reader : Reader α} {text rest : List Char} {result : β} :
    (change <$> reader) text = .ok (result, rest) ↔
      ∃ found, reader text = .ok (found, rest) ∧ change found = result := by
  change (reader >>= fun found => pure (change found)) text = _ ↔ _
  simp only [bind_eq_ok_iff, pure_eq_ok_iff]
  constructor
  · rintro ⟨found, later, read, equal, rfl⟩
    exact ⟨found, read, equal⟩
  · rintro ⟨found, read, equal⟩
    exact ⟨found, rest, read, equal, rfl⟩

theorem ofShape_eq_ok_iff {shaped : Except ShapeError α} {text rest : List Char} {result : α} :
    ofShape shaped text = .ok (result, rest) ↔ shaped = .ok result ∧ text = rest := by
  cases shaped with
  | ok found =>
      change Except.ok (found, text) = _ ↔ _
      simp
  | error error => simp [ofShape, fail]

/-! ## Readers that follow others -/

/-- Where the one reader comes to a result, so does the other, at the same place and with a
related result. -/
def Follows (related : α → β → Prop) (reader : Reader α) (other : Reader β) : Prop :=
  ∀ text result rest, reader text = .ok (result, rest) →
    ∃ answer, other text = .ok (answer, rest) ∧ related result answer

namespace Follows

theorem refl (reader : Reader α) : Follows Eq reader reader :=
  fun _ result _ read => ⟨result, read, rfl⟩

variable {related : α → β → Prop} {later : γ → δ → Prop} {reader first : Reader α}
    {other second : Reader β}

theorem mono {weaker : α → β → Prop} (follows : Follows related reader other)
    (implies : ∀ result answer, related result answer → weaker result answer) :
    Follows weaker reader other := by
  intro text result rest read
  obtain ⟨answer, reads, holds⟩ := follows text result rest read
  exact ⟨answer, reads, implies _ _ holds⟩

theorem fail (fault : Fault) : Follows related (Reader.fail fault) other := nofun

theorem pure {result : α} {answer : β} (holds : related result answer) :
    Follows related (Pure.pure result) (Pure.pure answer) := by
  intro text found rest read
  obtain ⟨rfl, rfl⟩ := pure_eq_ok_iff.mp read
  exact ⟨answer, rfl, holds⟩

theorem bind {next : α → Reader γ} {then_ : β → Reader δ} (before : Follows related first second)
    (after : ∀ result answer, related result answer → Follows later (next result) (then_ answer)) :
    Follows later (first >>= next) (second >>= then_) := by
  intro text result rest read
  obtain ⟨between, left, found, read⟩ := bind_eq_ok_iff.mp read
  obtain ⟨answer, answered, holds⟩ := before text between left found
  obtain ⟨final, finished, holds⟩ := after between answer holds left result rest read
  exact ⟨final, bind_eq_ok_iff.mpr ⟨answer, left, answered, finished⟩, holds⟩

/-- Two readers that begin alike. -/
theorem same {next : α → Reader γ} {then_ : α → Reader δ} (first : Reader α)
    (after : ∀ result, Follows later (next result) (then_ result)) :
    Follows later (first >>= next) (first >>= then_) :=
  bind (refl first) fun result _ equal => equal ▸ after result

theorem map {change : α → γ} {turn : β → δ} (follows : Follows related reader other)
    (keeps : ∀ result answer, related result answer → later (change result) (turn answer)) :
    Follows later (change <$> reader) (turn <$> other) := by
  have after : ∀ result answer, related result answer →
      Follows later (Pure.pure (change result)) (Pure.pure (turn answer)) :=
    fun result answer holds => pure (keeps result answer holds)
  exact bind follows after

end Follows

/-! ## What is left of a text -/

theorem peek_bind (next : Option Char → Reader α) (text : List Char) :
    (peek >>= next) text = next (text.dropWhile isBlank).head? (text.dropWhile isBlank) := rfl

theorem advance_bind (next : Unit → Reader α) (text : List Char) :
    (advance >>= next) text = next () text.tail := rfl

theorem length_dropWhile_le (text : List Char) :
    (text.dropWhile isBlank).length ≤ text.length :=
  (List.dropWhile_suffix isBlank).length_le

/-! ## Taking items, members and values apart -/

theorem foldItems_succ_eq_ok_iff {item : Reader α} {fuel : Nat} {first : Bool}
    {before results : List α} {text rest : List Char} :
    foldItems item (fuel + 1) first before text = .ok (results, rest) ↔
      (∃ later, anotherItem first text = .ok (false, later) ∧ results = before.reverse ∧
        rest = later.tail) ∨
      ∃ mid found later, anotherItem first text = .ok (true, mid) ∧
        item mid = .ok (found, later) ∧
        foldItems item fuel false (found :: before) later = .ok (results, rest) := by
  rw [foldItems, bind_eq_ok_iff]
  constructor
  · rintro ⟨more, mid, another, read⟩
    cases more with
    | true =>
        obtain ⟨found, later, here, read⟩ := bind_eq_ok_iff.mp read
        exact .inr ⟨mid, found, later, another, here, read⟩
    | false =>
        cases read
        exact .inl ⟨mid, another, rfl, rfl⟩
  · rintro (⟨later, another, rfl, rfl⟩ | ⟨mid, found, later, another, here, read⟩)
    · exact ⟨false, later, another, rfl⟩
    · exact ⟨true, mid, another, bind_eq_ok_iff.mpr ⟨found, later, here, read⟩⟩

/-- The items that were read before stand in front of those to come. -/
theorem foldItems_eq_ok_iff {item : Reader α} {fuel : Nat} {first : Bool} {before results : List α}
    {text rest : List Char} :
    foldItems item fuel first before text = .ok (results, rest) ↔
      ∃ found, results = before.reverse ++ found ∧
        foldItems item fuel first [] text = .ok (found, rest) := by
  induction fuel generalizing first before results text with
  | zero => simp [foldItems, fail]
  | succ fuel induction =>
      rw [foldItems_succ_eq_ok_iff]
      constructor
      · rintro (⟨later, another, rfl, rfl⟩ | ⟨mid, result, later, another, here, read⟩)
        · exact ⟨[], by simp, foldItems_succ_eq_ok_iff.mpr (.inl ⟨later, another, rfl, rfl⟩)⟩
        · obtain ⟨found, rfl, remaining⟩ := induction.mp read
          refine ⟨result :: found, by simp, foldItems_succ_eq_ok_iff.mpr (.inr ?_)⟩
          exact ⟨mid, result, later, another, here, induction.mpr ⟨found, rfl, remaining⟩⟩
      · rintro ⟨found, rfl, read⟩
        rcases foldItems_succ_eq_ok_iff.mp read with ⟨later, another, rfl, rfl⟩ |
          ⟨mid, result, later, another, here, read⟩
        · exact .inl ⟨later, another, by simp, rfl⟩
        · obtain ⟨more, rfl, remaining⟩ := induction.mp read
          exact .inr ⟨mid, result, later, another, here,
            induction.mpr ⟨more, by simp, remaining⟩⟩

theorem foldMembers_succ_eq_ok_iff {σ : Type} {care : Care} {step : σ → String → Reader σ}
    {fuel : Nat} {first : Bool} {state final : σ} {text rest : List Char} :
    foldMembers care step (fuel + 1) first state text = .ok (final, rest) ↔
      (∃ later, nextKey care first text = .ok (none, later) ∧ final = state ∧
        rest = later.tail) ∨
      ∃ key mid next later, nextKey care first text = .ok (some key, mid) ∧
        step state key mid = .ok (next, later) ∧
        foldMembers care step fuel false next later = .ok (final, rest) := by
  rw [foldMembers, bind_eq_ok_iff]
  constructor
  · rintro ⟨key, mid, named, read⟩
    cases key with
    | some key =>
        obtain ⟨next, later, here, read⟩ := bind_eq_ok_iff.mp read
        exact .inr ⟨key, mid, next, later, named, here, read⟩
    | none =>
        cases read
        exact .inl ⟨mid, named, rfl, rfl⟩
  · rintro (⟨later, named, rfl, rfl⟩ | ⟨key, mid, next, later, named, here, read⟩)
    · exact ⟨none, later, named, rfl⟩
    · exact ⟨some key, mid, named, bind_eq_ok_iff.mpr ⟨next, later, here, read⟩⟩

/-- Read the colon and the value of a member, and put the member in front of those before. -/
def keep (item : String → Reader Value) (before : List (String × Value)) (key : String) :
    Reader (List (String × Value)) := do
  colon
  let value ← item key
  return (key, value) :: before

theorem keep_eq_ok_iff {item : String → Reader Value} {before members : List (String × Value)}
    {key : String} {text rest : List Char} :
    keep item before key text = .ok (members, rest) ↔
      ∃ mid value, colon text = .ok ((), mid) ∧ item key mid = .ok (value, rest) ∧
        members = (key, value) :: before := by
  unfold keep
  simp only [bind_eq_ok_iff, pure_eq_ok_iff]
  constructor
  · rintro ⟨_, mid, paired, value, later, read, rfl, rfl⟩
    exact ⟨mid, value, paired, read, rfl⟩
  · rintro ⟨mid, value, paired, read, rfl⟩
    exact ⟨(), mid, paired, value, rest, read, rfl, rfl⟩

/-- The members that were read before stand behind those to come, last first. -/
theorem foldMembers_keep_eq_ok_iff {care : Care} {item : String → Reader Value} {fuel : Nat}
    {first : Bool} {before members : List (String × Value)} {text rest : List Char} :
    foldMembers care (keep item) fuel first before text = .ok (members, rest) ↔
      ∃ found, members = found ++ before ∧
        foldMembers care (keep item) fuel first [] text = .ok (found, rest) := by
  induction fuel generalizing first before members text with
  | zero => simp [foldMembers, fail]
  | succ fuel induction =>
      rw [foldMembers_succ_eq_ok_iff]
      constructor
      · rintro (⟨later, named, rfl, rfl⟩ | ⟨key, mid, next, later, named, here, read⟩)
        · exact ⟨[], rfl, foldMembers_succ_eq_ok_iff.mpr (.inl ⟨later, named, rfl, rfl⟩)⟩
        · obtain ⟨left, value, paired, valued, rfl⟩ := keep_eq_ok_iff.mp here
          obtain ⟨found, rfl, remaining⟩ := induction.mp read
          refine ⟨found ++ [(key, value)], by simp, foldMembers_succ_eq_ok_iff.mpr (.inr ?_)⟩
          exact ⟨key, mid, _, later, named, keep_eq_ok_iff.mpr ⟨left, value, paired, valued, rfl⟩,
            induction.mpr ⟨found, rfl, remaining⟩⟩
      · rintro ⟨found, rfl, read⟩
        rcases foldMembers_succ_eq_ok_iff.mp read with ⟨later, named, rfl, rfl⟩ |
          ⟨key, mid, next, later, named, here, read⟩
        · exact .inl ⟨later, named, rfl, rfl⟩
        · obtain ⟨left, value, paired, valued, rfl⟩ := keep_eq_ok_iff.mp here
          obtain ⟨more, rfl, remaining⟩ := induction.mp read
          exact .inr ⟨key, mid, _, later, named,
            keep_eq_ok_iff.mpr ⟨left, value, paired, valued, rfl⟩,
            induction.mpr ⟨more, by simp, remaining⟩⟩

theorem level_eq_ok_iff {care : Care} {inner : Option (Reader Value)} {text rest : List Char}
    {value : Value} :
    level care inner text = .ok (value, rest) ↔
      (∃ item mid values, inner = some item ∧ text.dropWhile isBlank = '[' :: mid ∧
        items item true mid = .ok (values, rest) ∧ value = .array values) ∨
      (∃ item mid members, inner = some item ∧ text.dropWhile isBlank = '\x7b' :: mid ∧
        Reader.members care [] (keep fun _ => item) mid = .ok (members, rest) ∧
        value = .object members.reverse) ∨
      ∃ char mid, text.dropWhile isBlank = char :: mid ∧ char ≠ '[' ∧ char ≠ '\x7b' ∧
        scalar care char (char :: mid) = .ok (value, rest) := by
  rw [level, peek_bind]
  generalize text.dropWhile isBlank = mid
  cases mid with
  | nil => simp [fail]
  | cons char mid =>
      by_cases bracket : char = '['
      · subst bracket
        cases inner with
        | none => simp [nested, fail, bind, Reader.bind]
        | some item =>
            change (Value.array <$> items item true) mid = _ ↔ _
            rw [map_eq_ok_iff]
            simp [eq_comm]
      · by_cases brace : char = '\x7b'
        · subst brace
          cases inner with
          | none => simp [nested, fail, bind, Reader.bind]
          | some item =>
              change ((fun found => Value.object found.reverse) <$>
                Reader.members care [] (keep fun _ => item)) mid = _ ↔ _
              rw [map_eq_ok_iff]
              simp [eq_comm]
        · simp [bracket, brace]

end Reader

namespace Text

open Reader

theorem length_of_hexUnit {text rest : List Char} {unit : Nat}
    (read : hexUnit text = .ok (unit, rest)) : rest.length + 4 = text.length := by
  unfold hexUnit at read
  split at read
  next first second third fourth later =>
    split at read
    next =>
      cases read
      rfl
    next => cases read
  next =>
    simp only at read
    split at read
    next => cases read
    next => cases read

theorem lowHalf_eq_ok {text rest : List Char} {unit : Nat}
    (read : lowHalf text = .ok (unit, rest)) :
    ∃ later, text = '\\' :: 'u' :: later ∧ hexUnit later = .ok (unit, rest) := by
  unfold lowHalf at read
  split at read
  next => cases read
  next => cases read
  next later =>
    split at read
    next digits =>
      split at read
      next =>
        cases read
        exact ⟨later, rfl, digits⟩
      next => cases read
    next => cases read
  next => cases read

/-- An escape by number takes in four digits, or the two halves of a pair. -/
theorem numbered_cases {care : Care} {text rest : List Char} {char : Char}
    (read : numbered care text = .ok (char, rest)) :
    (∃ unit, hexUnit text = .ok (unit, rest) ∧
        numbered .lax text = .ok (Char.ofNat unit, rest)) ∨
      ∃ unit low middle later, hexUnit text = .ok (unit, '\\' :: 'u' :: middle) ∧
        hexUnit middle = .ok (low, later) ∧ later = rest ∧
        numbered .lax text = .ok (Char.ofNat unit, '\\' :: 'u' :: middle) ∧
        numbered .lax middle = .ok (Char.ofNat low, rest) := by
  have lax {text rest : List Char} {unit : Nat} (digits : hexUnit text = .ok (unit, rest)) :
      numbered .lax text = .ok (Char.ofNat unit, rest) := by
    rw [numbered, Reader.bind_of_ok digits]
    rfl
  obtain ⟨unit, later, digits, read⟩ := bind_eq_ok_iff.mp read
  split at read
  next => cases read
  next =>
    split at read
    next =>
      obtain ⟨low, final, second, read⟩ := bind_eq_ok_iff.mp read
      obtain ⟨-, rfl⟩ := pure_eq_ok_iff.mp read
      obtain ⟨middle, rfl, lowDigits⟩ := lowHalf_eq_ok second
      exact .inr ⟨unit, low, middle, final, digits, lowDigits, rfl, lax digits, lax lowDigits⟩
    next =>
      obtain ⟨-, rfl⟩ := pure_eq_ok_iff.mp read
      exact .inl ⟨unit, digits, lax digits⟩

theorem length_of_numbered {care : Care} {text rest : List Char} {char : Char}
    (read : numbered care text = .ok (char, rest)) : rest.length < text.length := by
  rcases numbered_cases read with ⟨unit, digits, _⟩ |
    ⟨unit, low, middle, later, high, second, rfl, _⟩
  · have length := length_of_hexUnit digits
    omega
  · have first := length_of_hexUnit high
    have last := length_of_hexUnit second
    simp only [List.length_cons] at first
    omega

theorem escape_eq_ok {care : Care} {text rest : List Char} {char : Char}
    (read : escape care text = .ok (char, rest)) :
    (∃ later, text = 'u' :: later ∧ numbered care later = .ok (char, rest)) ∨
      (∃ letter, text = letter :: rest ∧ letter ≠ 'u' ∧ escaped? letter = some char) := by
  unfold escape at read
  split at read
  next => cases read
  next later => exact .inl ⟨later, rfl, read⟩
  next letter later other =>
    split at read
    next meant =>
      cases read
      exact .inr ⟨letter, rfl, other, meant⟩
    next => cases read

theorem length_of_escape {care : Care} {text rest : List Char} {char : Char}
    (read : escape care text = .ok (char, rest)) : rest.length < text.length := by
  rcases escape_eq_ok read with ⟨later, rfl, numbered⟩ | ⟨letter, rfl, _⟩
  · exact (length_of_numbered numbered).trans (Nat.lt_succ_self _)
  · exact Nat.lt_succ_self _

/-- An escape that is passed over: a pair of halves counts as two escapes. -/
theorem escape_lax {care : Care} {text rest : List Char} {char : Char}
    (read : escape care text = .ok (char, rest)) :
    (∃ answer, escape .lax text = .ok (answer, rest)) ∨
      ∃ half middle answer, escape .lax text = .ok (half, '\\' :: middle) ∧
        escape .lax middle = .ok (answer, rest) := by
  rcases escape_eq_ok read with ⟨later, rfl, number⟩ | ⟨letter, rfl, other, meant⟩
  · rcases numbered_cases number with ⟨unit, _, lax⟩ |
      ⟨unit, low, middle, final, _, _, rfl, high, second⟩
    · exact .inl ⟨_, lax⟩
    · exact .inr ⟨_, 'u' :: middle, _, high, second⟩
  · exact .inl ⟨char, escape_of_letter .lax other meant rest⟩

theorem charsFrom_cases {care : Care} {fuel : Nat} {before text rest chars : List Char}
    (read : charsFrom care (fuel + 1) before text = .ok (chars, rest)) :
    text = '"' :: rest ∨
      (∃ later char left, text = '\\' :: later ∧ escape care later = .ok (char, left) ∧
        charsFrom care fuel (char :: before) left = .ok (chars, rest)) ∨
      ∃ char later, text = char :: later ∧
        (∀ fuel before, charsFrom .lax (fuel + 1) before text =
          charsFrom .lax fuel (char :: before) later) ∧
        charsFrom care fuel (char :: before) later = .ok (chars, rest) := by
  unfold charsFrom at read
  split at read
  next => cases read
  next later =>
    cases read
    exact .inl rfl
  next later =>
    split at read
    next char left escaped => exact .inr (.inl ⟨later, char, left, rfl, escaped, read⟩)
    next => cases read
  next char later unquoted unescaped =>
    split at read
    next => cases read
    next printed =>
      refine .inr (.inr ⟨char, later, rfl, ?_, read⟩)
      intro fuel before
      simp [charsFrom, printed]

theorem length_of_charsFrom {care : Care} {fuel : Nat} {before text rest chars : List Char}
    (read : charsFrom care fuel before text = .ok (chars, rest)) : rest.length < text.length := by
  induction fuel generalizing before text with
  | zero => cases read
  | succ fuel induction =>
      rcases charsFrom_cases read with rfl | ⟨later, char, left, rfl, escaped, read⟩ |
        ⟨char, later, rfl, _, read⟩
      · exact Nat.lt_succ_self _
      · exact ((induction read).trans (length_of_escape escaped)).trans (Nat.lt_succ_self _)
      · exact (induction read).trans (Nat.lt_succ_self _)

/-- What can be read can be passed over, up to the same place. -/
theorem charsFrom_lax {care : Care} {fuel : Nat} {before text rest chars : List Char}
    (read : charsFrom care fuel before text = .ok (chars, rest)) {enough : Nat}
    (long : text.length < enough) (others : List Char) :
    ∃ passed, charsFrom .lax enough others text = .ok (passed, rest) := by
  induction fuel generalizing before text enough others with
  | zero => cases read
  | succ fuel induction =>
      obtain ⟨enough, rfl⟩ := Nat.exists_eq_succ_of_ne_zero (Nat.ne_zero_of_lt long)
      rcases charsFrom_cases read with rfl | ⟨later, char, left, rfl, escaped, read⟩ |
        ⟨char, later, rfl, step, read⟩
      · exact ⟨others.reverse, rfl⟩
      · have shorter := length_of_escape escaped
        simp only [List.length_cons] at long
        rcases escape_lax escaped with ⟨answer, once⟩ | ⟨half, middle, answer, first, second⟩
        · rw [Nat.succ_eq_add_one, charsFrom_escape .lax once]
          exact induction read (by omega) _
        · have high := length_of_escape first
          have low := length_of_escape second
          simp only [List.length_cons] at high
          obtain ⟨enough, rfl⟩ : ∃ more, enough = more + 1 := ⟨enough - 1, by omega⟩
          rw [Nat.succ_eq_add_one, charsFrom_escape .lax first, charsFrom_escape .lax second]
          exact induction read (by omega) _
      · rw [Nat.succ_eq_add_one, step]
        simp only [List.length_cons] at long
        exact induction read (by omega) _

end Text

/-! ## What can be read can be passed over -/

/-- Nothing is asked of the two results. -/
def Any (_ : α) (_ : β) : Prop := True

namespace Numeral

open Reader

variable (care other : Care)

theorem digits_follows : Follows Eq (digits care) (digits other) := by
  intro text result rest read
  unfold digits at read ⊢
  generalize text.span Char.isDigit = spanned at read ⊢
  rcases spanned with ⟨found, left⟩
  cases found with
  | nil => cases read
  | cons digit more => exact ⟨result, read, rfl⟩

theorem wholePart_follows : Follows Eq (wholePart care) (wholePart other) := by
  refine .bind (digits_follows care other) ?_
  rintro found _ rfl
  exact .refl _

theorem fractionPart_follows : Follows Eq (fractionPart care) (fractionPart other) := by
  intro text result rest read
  unfold fractionPart at read ⊢
  split at read
  next later => exact digits_follows care other later result rest read
  next => exact ⟨result, read, rfl⟩

theorem exponentDigits_follows : Follows Eq (exponentDigits care) (exponentDigits other) := by
  refine .same exponentSign fun negative => .bind (digits_follows care other) ?_
  rintro found _ rfl
  exact .refl _

theorem exponentPart_follows : Follows Eq (exponentPart care) (exponentPart other) := by
  intro text result rest read
  have digits : Follows Eq (some <$> exponentDigits care) (some <$> exponentDigits other) :=
    (exponentDigits_follows care other).map fun _ _ => congrArg some
  unfold exponentPart at read ⊢
  split at read
  next later => exact digits later result rest read
  next later => exact digits later result rest read
  next => exact ⟨result, read, rfl⟩

theorem read_follows (negative : Bool) : Follows Eq (read care negative) (read other negative) := by
  refine .bind (wholePart_follows care other) ?_
  rintro whole _ rfl
  refine .bind (fractionPart_follows care other) ?_
  rintro fraction _ rfl
  refine .bind (exponentPart_follows care other) ?_
  rintro exponent _ rfl
  exact .refl _

end Numeral

theorem Number.read_follows (care : Care) (negative : Bool) :
    Reader.Follows Eq (Number.read care negative) (Number.read .lax negative) := by
  refine .bind (Numeral.read_follows care .lax negative) ?_
  rintro numeral _ rfl
  dsimp only
  split
  · exact .fail _
  · exact .refl _

namespace Reader

variable (care : Care)

theorem text_follows : Follows Any (text care) (text .lax) := by
  refine .same advance fun _ => ?_
  intro text result rest read
  unfold Text.read at read ⊢
  split at read
  next chars left found =>
    cases read
    obtain ⟨passed, lax⟩ := Text.charsFrom_lax found (Nat.lt_succ_self _) []
    rw [lax]
    exact ⟨_, rfl, trivial⟩
  next => cases read

theorem scalar_follows (char : Char) : Follows Any (scalar care char) (scalar .lax char) := by
  have number (negative : Bool) : Follows Any (Value.number <$> Number.read care negative)
      (Value.number <$> Number.read .lax negative) :=
    (Number.read_follows care negative).map fun _ _ _ => trivial
  have same (reader : Reader Value) : Follows Any reader reader :=
    (Follows.refl reader).mono fun _ _ _ => trivial
  unfold scalar
  split_ifs
  · exact (text_follows care).map fun _ _ _ => trivial
  · exact same _
  · exact same _
  · exact same _
  · exact .same advance fun _ => number true
  · exact number false
  · exact .fail _

theorem foldItems_follows {item : Reader α} {entry : Reader β} (follows : Follows Any item entry)
    (fuel : Nat) (first : Bool) (before : List α) (others : List β) :
    Follows Any (foldItems item fuel first before) (foldItems entry fuel first others) := by
  induction fuel generalizing first before others with
  | zero => exact .fail _
  | succ fuel induction =>
      refine .same (anotherItem first) fun more => ?_
      cases more with
      | true => exact .bind follows fun found answer _ => induction false _ _
      | false => exact .same advance fun _ => .pure trivial

theorem nextKey_follows (first : Bool) :
    Follows (fun key answer => key.isSome = answer.isSome) (nextKey care first)
      (nextKey .lax first) := by
  have name : Follows (fun key answer => key.isSome = answer.isSome) (some <$> text care)
      (some <$> text .lax) :=
    (text_follows care).map fun _ _ _ => rfl
  refine .same peek fun char => ?_
  split
  · exact .fail _
  · exact .pure rfl
  · split
    · exact .fail _
    · refine .same advance fun _ => .same peek fun char => ?_
      split
      · exact .fail _
      · exact name
      · exact .fail _
  · split
    · exact name
    · exact .fail _
  · exact .fail _

theorem foldMembers_follows {σ τ : Type} {step : σ → String → Reader σ}
    {instead : τ → String → Reader τ}
    (steps : ∀ state others key name, Follows Any (step state key) (instead others name))
    (fuel : Nat) (first : Bool) (state : σ) (others : τ) :
    Follows Any (foldMembers care step fuel first state)
      (foldMembers .lax instead fuel first others) := by
  induction fuel generalizing first state others with
  | zero => exact .fail _
  | succ fuel induction =>
      refine .bind (nextKey_follows care first) ?_
      intro key answer present
      cases key with
      | none =>
          cases answer with
          | some name => cases present
          | none => exact .same advance fun _ => .pure trivial
      | some key =>
          cases answer with
          | none => cases present
          | some name => exact .bind (steps _ _ _ _) fun _ _ _ => induction false _ _

theorem level_follows {inner other : Option (Reader Value)}
    (follows : ∀ item ∈ inner, ∃ entry ∈ other, Follows Any item entry) :
    Follows Any (level care inner) (level .lax other) := by
  intro text value rest read
  rcases level_eq_ok_iff.mp read with ⟨item, mid, values, rfl, starts, items, rfl⟩ |
    ⟨item, mid, members, rfl, starts, members, rfl⟩ | ⟨char, mid, starts, solid, open_, scalar⟩
  · obtain ⟨entry, present, below⟩ := follows item rfl
    obtain ⟨others, passed, _⟩ :=
      foldItems_follows below (mid.length + 1) true [] [] mid _ rest items
    exact ⟨.array others, level_eq_ok_iff.mpr (.inl ⟨entry, mid, others, present, starts,
      passed, rfl⟩), trivial⟩
  · obtain ⟨entry, present, below⟩ := follows item rfl
    have steps (before others : List (String × Value)) (key name : String) :
        Follows Any (keep (fun _ => item) before key) (keep (fun _ => entry) others name) :=
      .same colon fun _ => .bind below fun _ _ _ => .pure trivial
    obtain ⟨others, passed, _⟩ :=
      foldMembers_follows care steps (mid.length + 1) true [] [] mid _ rest members
    exact ⟨.object others.reverse, level_eq_ok_iff.mpr (.inr (.inl ⟨entry, mid, others, present,
      starts, passed, rfl⟩)), trivial⟩
  · obtain ⟨answer, passed, _⟩ := scalar_follows care char (char :: mid) value rest scalar
    exact ⟨answer, level_eq_ok_iff.mpr (.inr (.inr ⟨char, mid, starts, solid, open_, passed⟩)),
      trivial⟩

theorem value_follows (depth : Nat) : Follows Any (value care depth) (value .lax depth) := by
  induction depth with
  | zero => exact level_follows care nofun
  | succ depth induction =>
      have below : ∀ item ∈ some (value care depth),
          ∃ entry ∈ some (value .lax depth), Follows Any item entry := by
        rintro item ⟨⟩
        exact ⟨_, rfl, induction⟩
      exact level_follows care below

end Reader

end HtmlConformance.Json
