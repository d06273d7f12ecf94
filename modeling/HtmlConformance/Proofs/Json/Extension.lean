import HtmlConformance.Proofs.Json.Nesting

namespace HtmlConformance.Json

/-! Texts that go on. What a reader takes off a text it takes off every longer text as well. Only a
number has to be followed by something: its end shows by what comes next. -/

variable {α β σ : Type} {care : Care}

namespace Reader

/-! ## Readers that know where they end -/

/-- The reader takes the same off a text that goes on. -/
def Settled (reader : Reader α) : Prop :=
  ∀ text result rest, reader text = .ok (result, rest) →
    ∀ more, reader (text ++ more) = .ok (result, rest ++ more)

/-- The same for texts that begin with the character. -/
def SettledAt (char : Char) (reader : Reader α) : Prop :=
  ∀ text result rest, reader (char :: text) = .ok (result, rest) →
    ∀ more, reader (char :: (text ++ more)) = .ok (result, rest ++ more)

/-- The reader takes the same off a text that goes on, provided that it leaves something. -/
def SettledBefore (reader : Reader α) : Prop :=
  ∀ text result rest, reader text = .ok (result, rest) → rest ≠ [] →
    text ≠ [] ∧ ∀ more, reader (text ++ more) = .ok (result, rest ++ more)

namespace Settled

variable {first : Reader α} {next : α → Reader β}

theorem pure (result : α) : Settled (Pure.pure result) := by
  intro text found rest read more
  obtain ⟨rfl, rfl⟩ := pure_eq_ok_iff.mp read
  rfl

theorem fail (fault : Fault) : Settled (Reader.fail fault : Reader α) := nofun

theorem bind (before : Settled first) (after : ∀ result, Settled (next result)) :
    Settled (first >>= next) := by
  intro text result rest read more
  obtain ⟨between, later, found, read⟩ := bind_eq_ok_iff.mp read
  exact bind_eq_ok_iff.mpr ⟨between, later ++ more, before text between later found more,
    after between later result rest read more⟩

/-- Blanks are passed over up to a character, which is there also if the text goes on. -/
theorem peek {next : Option Char → Reader β} {fault : Fault} (ends : next none = Reader.fail fault)
    (after : ∀ char, SettledAt char (next (some char))) : Settled (Reader.peek >>= next) := by
  intro text result rest read more
  rw [peek_bind] at read ⊢
  rw [List.dropWhile_append]
  generalize text.dropWhile isBlank = solid at read ⊢
  cases solid with
  | nil =>
      rw [List.head?_nil, ends] at read
      cases read
  | cons char later => exact after char later result rest read more

end Settled

namespace SettledAt

variable {char : Char}

theorem of_settled {reader : Reader α} (settled : Settled reader) : SettledAt char reader :=
  fun text result rest => settled (char :: text) result rest

theorem pure (result : α) : SettledAt char (Pure.pure result) := of_settled (.pure result)

theorem fail (fault : Fault) : SettledAt char (Reader.fail fault : Reader α) :=
  of_settled (.fail fault)

theorem advance : SettledAt char Reader.advance := by
  intro text result rest read more
  cases read
  rfl

theorem advance_bind {next : Unit → Reader β} (settled : Settled (next ())) :
    SettledAt char (Reader.advance >>= next) :=
  fun text result rest => settled text result rest

theorem map {reader : Reader α} (settled : SettledAt char reader) (change : α → β) :
    SettledAt char (change <$> reader) := by
  intro text result rest read more
  obtain ⟨found, read, equal⟩ := map_eq_ok_iff.mp read
  exact map_eq_ok_iff.mpr ⟨found, settled text found rest read more, equal⟩

end SettledAt

namespace SettledBefore

variable {first : Reader α} {next : α → Reader β}

theorem pure (result : α) : SettledBefore (Pure.pure result) := by
  intro text found rest read some
  obtain ⟨rfl, rfl⟩ := pure_eq_ok_iff.mp read
  exact ⟨some, fun _ => rfl⟩

theorem fail (fault : Fault) : SettledBefore (Reader.fail fault : Reader α) := nofun

theorem bind (before : SettledBefore first) (after : ∀ result, SettledBefore (next result)) :
    SettledBefore (first >>= next) := by
  intro text result rest read some
  obtain ⟨between, later, found, read⟩ := bind_eq_ok_iff.mp read
  obtain ⟨left, second⟩ := after between later result rest read some
  obtain ⟨begun, first⟩ := before text between later found left
  exact ⟨begun, fun more => bind_eq_ok_iff.mpr ⟨between, later ++ more, first more, second more⟩⟩

theorem map (settled : SettledBefore first) (change : α → β) :
    SettledBefore (change <$> first) :=
  bind settled fun result => pure (change result)

end SettledBefore

theorem settled_word (letters : List Char) : Settled (word letters) := by
  induction letters with
  | nil => exact .pure ()
  | cons letter letters induction =>
      intro text result rest read more
      unfold word at read ⊢
      split at read
      next => cases read
      next char later =>
        rw [List.cons_append]
        split at read
        next same =>
          simp only [same, if_true]
          exact induction later result rest read more
        next => cases read

theorem settled_colon : Settled colon := by
  refine .peek rfl fun char => ?_
  split
  next => exact .advance
  next => exact .fail _
  next => exact .fail _

theorem settledBefore_colon : SettledBefore colon := by
  intro text result rest read _
  refine ⟨?_, settled_colon text result rest read⟩
  rintro rfl
  cases read

theorem settled_anotherItem (first : Bool) : Settled (anotherItem first) := by
  refine .peek rfl fun char => ?_
  split
  next => exact .fail _
  next => exact .pure _
  next =>
    split
    · exact .pure _
    · refine .advance_bind (.peek rfl fun char => ?_)
      split
      next => exact .fail _
      next => exact .fail _
      next => exact .pure _
  next =>
    split
    · exact .pure _
    · exact .fail _

end Reader

/-! ## Strings -/

namespace Text

open Reader

theorem settled_hexUnit : Settled hexUnit := by
  intro text unit rest read more
  unfold hexUnit at read
  split at read
  next first second third fourth later =>
    split at read
    next number =>
      cases read
      simp only [List.cons_append, hexUnit, number]
    next => cases read
  next => simp only at read; split at read <;> cases read

theorem settled_lowHalf : Settled lowHalf := by
  intro text unit rest read more
  unfold lowHalf at read
  split at read
  next => cases read
  next => cases read
  next later =>
    split at read
    next digits =>
      split at read
      next low =>
        cases read
        simp only [List.cons_append, lowHalf, settled_hexUnit _ _ _ digits more, low, if_true]
      next => cases read
    next => cases read
  next => cases read

theorem settled_numbered (care : Care) : Settled (numbered care) := by
  refine .bind settled_hexUnit fun unit => ?_
  split
  · exact .fail _
  · split
    · exact .bind settled_lowHalf fun low => .pure _
    · exact .pure _

theorem settled_escape (care : Care) : Settled (escape care) := by
  intro text char rest read more
  rcases escape_eq_ok read with ⟨later, rfl, number⟩ | ⟨letter, rfl, other, meant⟩
  · exact settled_numbered care later char rest number more
  · exact escape_of_letter care other meant (rest ++ more)

/-- The text goes on, and the reader may go on for longer. -/
theorem charsFrom_append {fuel enough : Nat} {before text rest chars : List Char}
    (read : charsFrom care fuel before text = .ok (chars, rest)) (more : List Char)
    (longer : fuel ≤ enough) :
    charsFrom care enough before (text ++ more) = .ok (chars, rest ++ more) := by
  induction fuel generalizing before text enough with
  | zero => cases read
  | succ fuel induction =>
      obtain ⟨enough, rfl⟩ := Nat.exists_eq_succ_of_ne_zero (Nat.ne_zero_of_lt longer)
      have remaining {before text : List Char}
          (read : charsFrom care fuel before text = .ok (chars, rest)) :=
        induction read (Nat.le_of_succ_le_succ longer)
      unfold charsFrom at read ⊢
      split at read
      next => cases read
      next =>
        cases read
        rfl
      next later =>
        split at read
        next char left escaped =>
          simp only [List.cons_append, settled_escape care _ _ _ escaped more]
          exact remaining read
        next => cases read
      next char later unquoted unescaped =>
        split at read
        next => cases read
        next printed =>
          simp only [List.cons_append, printed, if_false]
          exact remaining read

theorem settled_read (care : Care) : Settled (Text.read care) := by
  intro text content rest read more
  unfold Text.read at read ⊢
  split at read
  next chars left found =>
    cases read
    rw [charsFrom_append found more (by simp)]
  next => cases read

end Text

namespace Reader

theorem settledAt_text (care : Care) (char : Char) : SettledAt char (text care) :=
  .advance_bind (Text.settled_read care)

theorem settled_nextKey (care : Care) (first : Bool) : Settled (nextKey care first) := by
  refine .peek rfl fun char => ?_
  split
  next => exact .fail _
  next => exact .pure _
  next =>
    split
    · exact .fail _
    · refine .advance_bind (.peek rfl fun char => ?_)
      split
      next => exact .fail _
      next => exact (settledAt_text care _).map some
      next => exact .fail _
  next =>
    split
    · exact (settledAt_text care _).map some
    · exact .fail _
  next => exact .fail _

end Reader

/-! ## Numbers -/

namespace Numeral

open Reader

theorem digits_eq_ok_iff {text found rest : List Char} :
    digits care text = .ok (found, rest) ↔
      found ≠ [] ∧ text.takeWhile Char.isDigit = found ∧ text.dropWhile Char.isDigit = rest := by
  rw [digits, List.span_eq_takeWhile_dropWhile]
  generalize text.takeWhile Char.isDigit = taken, text.dropWhile Char.isDigit = left
  cases taken with
  | nil => simp +contextual [eq_comm]
  | cons digit more => simp +contextual [eq_comm]

theorem settledBefore_digits (care : Care) : SettledBefore (digits care) := by
  intro text found rest read left
  obtain ⟨some, rfl, rfl⟩ := digits_eq_ok_iff.mp read
  have begun : text ≠ [] := by
    rintro rfl
    exact left rfl
  refine ⟨begun, fun more => digits_eq_ok_iff.mpr ⟨some, ?_, ?_⟩⟩
  · have parts := congrArg List.length (@List.takeWhile_append_dropWhile _ Char.isDigit text)
    have last := List.length_pos_of_ne_nil left
    rw [List.length_append] at parts
    rw [List.takeWhile_append, if_neg (by omega)]
  · rw [List.dropWhile_append, if_neg (by simpa using left)]

theorem settledBefore_wholePart (care : Care) : SettledBefore (wholePart care) := by
  refine .bind (settledBefore_digits care) fun found => ?_
  split
  · exact .fail _
  · exact .pure _

theorem settledBefore_fractionPart (care : Care) : SettledBefore (fractionPart care) := by
  intro text found rest read left
  unfold fractionPart at read
  split at read
  next later =>
    refine ⟨List.cons_ne_nil _ _, fun more => ?_⟩
    exact (settledBefore_digits care later found rest read left).2 more
  next other =>
    cases read
    refine ⟨left, fun more => ?_⟩
    obtain ⟨char, later, rfl⟩ := List.exists_cons_of_ne_nil left
    have differs : char ≠ '.' := fun same => other later (same ▸ rfl)
    simp [fractionPart, differs]

theorem settledBefore_exponentSign : SettledBefore exponentSign := by
  intro text found rest read left
  unfold exponentSign at read
  split at read
  next later =>
    cases read
    exact ⟨List.cons_ne_nil _ _, fun more => rfl⟩
  next later =>
    cases read
    exact ⟨List.cons_ne_nil _ _, fun more => rfl⟩
  next minus plus =>
    cases read
    refine ⟨left, fun more => ?_⟩
    obtain ⟨char, later, rfl⟩ := List.exists_cons_of_ne_nil left
    have notMinus : char ≠ '-' := fun same => minus later (same ▸ rfl)
    have notPlus : char ≠ '+' := fun same => plus later (same ▸ rfl)
    simp [exponentSign, notMinus, notPlus]

theorem settledBefore_exponentDigits (care : Care) : SettledBefore (exponentDigits care) :=
  .bind settledBefore_exponentSign fun _ => .bind (settledBefore_digits care) fun _ => .pure _

theorem settledBefore_exponentPart (care : Care) : SettledBefore (exponentPart care) := by
  have digits : SettledBefore (some <$> exponentDigits care) :=
    .map (settledBefore_exponentDigits care) some
  intro text found rest read left
  unfold exponentPart at read
  split at read
  next later => exact ⟨List.cons_ne_nil _ _, fun more => (digits later found rest read left).2 more⟩
  next later => exact ⟨List.cons_ne_nil _ _, fun more => (digits later found rest read left).2 more⟩
  next small capital =>
    cases read
    refine ⟨left, fun more => ?_⟩
    obtain ⟨char, later, rfl⟩ := List.exists_cons_of_ne_nil left
    have notSmall : char ≠ 'e' := fun same => small later (same ▸ rfl)
    have notCapital : char ≠ 'E' := fun same => capital later (same ▸ rfl)
    simp [exponentPart, notSmall, notCapital]

theorem settledBefore_read (care : Care) (negative : Bool) : SettledBefore (read care negative) :=
  .bind (settledBefore_wholePart care) fun _ => .bind (settledBefore_fractionPart care) fun _ =>
    .bind (settledBefore_exponentPart care) fun _ => .pure _

end Numeral

theorem Number.settledBefore_read (care : Care) (negative : Bool) :
    Reader.SettledBefore (Number.read care negative) := by
  refine .bind (Numeral.settledBefore_read care negative) fun numeral => ?_
  dsimp only
  split
  · exact .fail _
  · exact .pure _

namespace Reader

/-! ## Items, members and values -/

/-- The bracket stands in the text already, and the reader may go on for longer. -/
theorem foldItems_append {item : Reader α} (settled : SettledBefore item) {fuel enough : Nat}
    {first : Bool} {before results : List α} {text rest : List Char}
    (read : foldItems item fuel first before text = .ok (results, rest)) (more : List Char)
    (longer : fuel ≤ enough) :
    foldItems item enough first before (text ++ more) = .ok (results, rest ++ more) := by
  induction fuel generalizing enough first before text with
  | zero => cases read
  | succ fuel induction =>
      obtain ⟨enough, rfl⟩ := Nat.exists_eq_succ_of_ne_zero (Nat.ne_zero_of_lt longer)
      rcases foldItems_succ_eq_ok_iff.mp read with ⟨later, another, rfl, rfl⟩ |
        ⟨mid, found, later, another, here, read⟩
      · obtain ⟨left, rfl⟩ := List.head?_eq_some_iff.mp ((anotherItem_cases another).2 rfl)
        exact foldItems_succ_eq_ok_iff.mpr (.inl ⟨_, settled_anotherItem first _ _ _ another more,
          rfl, rfl⟩)
      · -- The items were read to their end, so something follows this one, be it a number.
        have left : later ≠ [] := by
          rintro rfl
          cases fuel <;> cases read
        have next := (settled mid found later here left).2 more
        exact foldItems_succ_eq_ok_iff.mpr (.inr ⟨_, found, _,
          settled_anotherItem first _ _ _ another more, next,
          induction read (Nat.le_of_succ_le_succ longer)⟩)

theorem foldMembers_append {step : σ → String → Reader σ}
    (settled : ∀ state key, SettledBefore (step state key)) {fuel enough : Nat}
    {first : Bool} {state final : σ} {text rest : List Char}
    (read : foldMembers care step fuel first state text = .ok (final, rest)) (more : List Char)
    (longer : fuel ≤ enough) :
    foldMembers care step enough first state (text ++ more) = .ok (final, rest ++ more) := by
  induction fuel generalizing enough first state text with
  | zero => cases read
  | succ fuel induction =>
      obtain ⟨enough, rfl⟩ := Nat.exists_eq_succ_of_ne_zero (Nat.ne_zero_of_lt longer)
      rcases foldMembers_succ_eq_ok_iff.mp read with ⟨later, named, rfl, rfl⟩ |
        ⟨key, mid, next, later, named, here, read⟩
      · obtain ⟨left, rfl⟩ := List.head?_eq_some_iff.mp ((nextKey_cases named).2 rfl).2
        exact foldMembers_succ_eq_ok_iff.mpr (.inl ⟨_, settled_nextKey care first _ _ _ named more,
          rfl, rfl⟩)
      · have left : later ≠ [] := by
          rintro rfl
          cases fuel <;> cases read
        have valued := (settled state key mid next later here left).2 more
        exact foldMembers_succ_eq_ok_iff.mpr (.inr ⟨key, _, next, _,
          settled_nextKey care first _ _ _ named more, valued,
          induction read (Nat.le_of_succ_le_succ longer)⟩)

theorem settledAt_literal (char : Char) (letters : List Char) (value : Value) :
    SettledAt char (do advance; word letters; return value) :=
  .advance_bind (.bind (settled_word letters) fun _ => .pure value)

theorem scalar_append {char : Char} {mid rest : List Char} {value : Value}
    (read : scalar care char (char :: mid) = .ok (value, rest)) (left : rest ≠ [])
    (more : List Char) :
    scalar care char (char :: (mid ++ more)) = .ok (value, rest ++ more) := by
  have number {text : List Char} {negative : Bool}
      (read : (Value.number <$> Number.read care negative) text = .ok (value, rest)) :=
    ((Number.settledBefore_read care negative).map Value.number text value rest read left).2 more
  unfold scalar at read ⊢
  split_ifs at read ⊢
  · exact (settledAt_text care char).map Value.text mid value rest read more
  · exact settledAt_literal char _ _ mid value rest read more
  · exact settledAt_literal char _ _ mid value rest read more
  · exact settledAt_literal char _ _ mid value rest read more
  · exact number read
  · exact number read
  · cases read

/-- Nothing has to follow an array or an object, whose bracket shows where it ends. -/
theorem level_append {inner : Option (Reader Value)}
    (settled : ∀ item ∈ inner, SettledBefore item) {text rest : List Char} {value : Value}
    (read : level care inner text = .ok (value, rest)) (left : value.nesting = 0 → rest ≠ [])
    (more : List Char) : level care inner (text ++ more) = .ok (value, rest ++ more) := by
  have solid {char : Char} {mid : List Char} (starts : text.dropWhile isBlank = char :: mid) :
      (text ++ more).dropWhile isBlank = char :: (mid ++ more) := by
    rw [List.dropWhile_append, starts]
    rfl
  have longer {mid : List Char} : mid.length + 1 ≤ (mid ++ more).length + 1 := by simp
  rcases level_eq_ok_iff.mp read with ⟨item, mid, values, rfl, starts, listed, rfl⟩ |
    ⟨item, mid, members, rfl, starts, kept, rfl⟩ | ⟨char, mid, starts, bracket, brace, flat⟩
  · have items := foldItems_append (settled item rfl) listed more longer
    exact level_eq_ok_iff.mpr (.inl ⟨item, _, values, rfl, solid starts, items, rfl⟩)
  · have steps (before : List (String × Value)) (key : String) :
        SettledBefore (keep (fun _ => item) before key) :=
      .bind settledBefore_colon fun _ => .bind (settled item rfl) fun value => .pure _
    have all := foldMembers_append steps kept more longer
    exact level_eq_ok_iff.mpr (.inr (.inl ⟨item, _, members, rfl, solid starts, all, rfl⟩))
  · have nothing := (nesting_of_scalar flat).1
    exact level_eq_ok_iff.mpr (.inr (.inr ⟨char, _, solid starts, bracket, brace,
      scalar_append flat (left nothing) more⟩))

theorem settledBefore_level {inner : Option (Reader Value)}
    (settled : ∀ item ∈ inner, SettledBefore item) : SettledBefore (level care inner) := by
  intro text value rest read left
  refine ⟨?_, level_append settled read fun _ => left⟩
  rintro rfl
  cases read

/-- Every depth builds on one below that is settled before what follows. -/
theorem value_eq_level_of_settled (depth : Nat) :
    ∃ inner, value care depth = level care inner ∧ ∀ item ∈ inner, SettledBefore item := by
  induction depth with
  | zero => exact ⟨none, rfl, nofun⟩
  | succ depth induction =>
      obtain ⟨inner, same, settled⟩ := induction
      refine ⟨some (value care depth), rfl, ?_⟩
      rintro item ⟨⟩
      rw [same]
      exact settledBefore_level settled

/-- An array or an object is read the same whatever follows. -/
theorem value_append {depth : Nat} {text rest : List Char} {found : Value}
    (read : value care depth text = .ok (found, rest)) (nested : 0 < found.nesting)
    (more : List Char) : value care depth (text ++ more) = .ok (found, rest ++ more) := by
  obtain ⟨inner, same, settled⟩ := @value_eq_level_of_settled care depth
  rw [same] at read ⊢
  exact level_append settled read (fun flat => absurd flat nested.ne') more

end Reader

end HtmlConformance.Json
