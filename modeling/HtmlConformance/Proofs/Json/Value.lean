import HtmlConformance.Json.Printer
import HtmlConformance.Proofs.Json.Text

namespace HtmlConformance.Json

/-! Values without numbers are read from their printed form, down to the depth that the reader
allows. -/

open Reader

/-! ## Depth, and values without numbers -/

namespace Value

mutual

/-- How deep arrays and objects nest; an empty one counts. -/
def nesting : Value → Nat
  | array items => nestingAll items + 1
  | object members => nestingMembers members + 1
  | _ => 0

def nestingAll : List Value → Nat
  | [] => 0
  | item :: rest => max item.nesting (nestingAll rest)

def nestingMembers : List (String × Value) → Nat
  | [] => 0
  | (_, value) :: rest => max value.nesting (nestingMembers rest)

end

mutual

def Numberless : Value → Prop
  | number _ => False
  | array items => NumberlessAll items
  | object members => NumberlessMembers members
  | _ => True

def NumberlessAll : List Value → Prop
  | [] => True
  | item :: rest => item.Numberless ∧ NumberlessAll rest

def NumberlessMembers : List (String × Value) → Prop
  | [] => True
  | (_, value) :: rest => value.Numberless ∧ NumberlessMembers rest

end

/-! ## Printed values -/

theorem allBlank_lineBreak (level : Nat) : AllBlank (lineBreak level) := by
  intro char member
  rcases List.mem_cons.mp member with rfl | indent
  · decide
  · rw [List.eq_of_mem_replicate indent]
    decide

theorem ending_eq (level : Nat) (isEmpty : Bool) (close : Char) :
    ∃ blanks, AllBlank blanks ∧ ending level isEmpty close = blanks ++ [close] := by
  cases isEmpty with
  | true => exact ⟨[], .nil, rfl⟩
  | false => exact ⟨lineBreak level, allBlank_lineBreak level, rfl⟩

/-- A printed value begins with a character that is neither blank nor read as the end of an
item. -/
theorem chars_eq_cons {value : Value} (numberless : value.Numberless) (level : Nat) :
    ∃ first rest, value.chars level = first :: rest ∧ isBlank first = false ∧
      first ≠ ',' ∧ first ≠ ']' := by
  cases value with
  | null => exact ⟨'n', _, rfl, by decide⟩
  | bool value =>
      cases value with
      | true => exact ⟨'t', _, rfl, by decide⟩
      | false => exact ⟨'f', _, rfl, by decide⟩
  | number value => exact numberless.elim
  | text content => exact ⟨'"', _, rfl, by decide⟩
  | array items => exact ⟨'[', _, rfl, by decide⟩
  | object members => exact ⟨'\x7b', _, rfl, by decide⟩

theorem length_le_itemChars (level : Nat) (values : List Value) :
    values.length ≤ (itemChars level values).length := by
  induction values with
  | nil => exact Nat.le_refl 0
  | cons value values induction =>
      simp only [itemChars, lineBreak, List.length_append, List.length_cons]
      omega

theorem length_le_memberChars (level : Nat) (members : List (String × Value)) :
    members.length ≤ (memberChars level members).length := by
  induction members with
  | nil => exact Nat.le_refl 0
  | cons member members induction =>
      simp only [memberChars, lineBreak, List.length_append, List.length_cons]
      omega

end Value

/-! ## Sequences -/

variable {α σ ε : Type} {level : Nat} {blanks : List Char}

namespace Reader

theorem anotherItem_of_solid (blank : AllBlank blanks) {char : Char}
    (solid : isBlank char = false) (notComma : char ≠ ',') (notClose : char ≠ ']') (first : Bool)
    (rest : List Char) :
    anotherItem first (Value.separator first ++ (blanks ++ char :: rest)) =
      .ok (true, char :: rest) := by
  cases first with
  | true =>
      change anotherItem true (blanks ++ char :: rest) = _
      rw [anotherItem, bind_of_ok (peek_of_solid blank char solid rest)]
      simp only [if_true]
      rfl
  | false =>
      have comma : peek (',' :: (blanks ++ char :: rest)) =
          .ok (some ',', ',' :: (blanks ++ char :: rest)) :=
        peek_of_solid .nil ',' (by decide) _
      change anotherItem false (',' :: (blanks ++ char :: rest)) = _
      rw [anotherItem, bind_of_ok comma]
      simp only [Bool.false_eq_true, if_false]
      rw [bind_of_ok (advance_cons ',' _), bind_of_ok (peek_of_solid blank char solid rest)]
      simp only
      rfl

theorem anotherItem_of_close (blank : AllBlank blanks) (first : Bool) (rest : List Char) :
    anotherItem first (blanks ++ ']' :: rest) = .ok (false, ']' :: rest) := by
  rw [anotherItem, bind_of_ok (peek_of_solid blank ']' (by decide) rest)]
  rfl

theorem foldItems_of_close (item : Reader α) (blank : AllBlank blanks) (fuel : Nat)
    (first : Bool) (before : List α) (rest : List Char) :
    foldItems item (fuel + 1) first before (blanks ++ ']' :: rest) =
      .ok (before.reverse, rest) := by
  rw [foldItems, bind_of_ok (anotherItem_of_close blank first rest)]
  simp only [Bool.false_eq_true, if_false]
  rw [bind_of_ok (advance_cons ']' rest)]
  rfl

/-- The comma that is printed after an item is read before the next one. -/
theorem foldItems_of_item {item : Reader α} {value : Value} {result : α}
    (numberless : value.Numberless) (reads : item.Reads (value.chars level) result)
    (fuel : Nat) (first : Bool) (before : List α) (later : List Char) :
    foldItems item (fuel + 1) first before
        (Value.separator first ++ (Value.lineBreak level ++ (value.chars level ++ later))) =
      foldItems item fuel false (result :: before) later := by
  rcases Value.chars_eq_cons numberless level with ⟨char, tail, starts, solid, notComma, notClose⟩
  have another := anotherItem_of_solid (Value.allBlank_lineBreak level) solid notComma notClose
    first (tail ++ later)
  rw [← List.cons_append, ← starts] at another
  rw [foldItems, bind_of_ok another]
  simp only [if_true]
  rw [bind_of_ok (reads later)]

/-- Items are read from their printed form, one after another. -/
theorem foldItems_itemChars {item : Reader α} {values : List Value} {results : List α}
    (reads : List.Forall₂
      (fun value result => value.Numberless ∧ item.Reads (value.chars level) result)
      values results)
    (blank : AllBlank blanks) {fuel : Nat} (enough : values.length < fuel) (first : Bool)
    (before : List α) (rest : List Char) :
    foldItems item fuel first before
        (Value.separator (first || values.isEmpty) ++ Value.itemChars level values ++
          (blanks ++ ']' :: rest)) =
      .ok (before.reverse ++ results, rest) := by
  induction reads generalizing fuel first before with
  | nil =>
      cases fuel with
      | zero => cases enough
      | succ fuel =>
          rw [List.isEmpty_nil, Bool.or_true, List.append_nil]
          exact foldItems_of_close item blank fuel first before rest
  | @cons value result values results head _ induction =>
      cases fuel with
      | zero => cases enough
      | succ fuel =>
          let later := Value.separator values.isEmpty ++ Value.itemChars level values ++
            (blanks ++ ']' :: rest)
          have text : Value.separator (first || (value :: values).isEmpty) ++
              Value.itemChars level (value :: values) ++ (blanks ++ ']' :: rest) =
              Value.separator first ++
                (Value.lineBreak level ++ (value.chars level ++ later)) := by
            simp [later, Value.itemChars]
          have remaining := induction (Nat.lt_of_succ_lt_succ enough) false (result :: before)
          rw [Bool.false_or] at remaining
          rw [text, foldItems_of_item head.1 head.2, remaining, List.reverse_cons,
            List.append_assoc, List.singleton_append]

theorem reads_items {item : Reader α} {values : List Value} {results : List α}
    (reads : List.Forall₂
      (fun value result => value.Numberless ∧ item.Reads (value.chars (level + 1)) result)
      values results) :
    (items item true).Reads
      (Value.itemChars (level + 1) values ++ Value.ending level values.isEmpty ']') results := by
  intro rest
  rcases Value.ending_eq level values.isEmpty ']' with ⟨blanks, blank, ending⟩
  let text := Value.itemChars (level + 1) values ++ (blanks ++ ']' :: rest)
  have enough : values.length < text.length + 1 := by
    have longer := Value.length_le_itemChars (level + 1) values
    rw [List.length_append]
    omega
  have read := foldItems_itemChars reads blank enough true [] rest
  have whole : Value.itemChars (level + 1) values ++ Value.ending level values.isEmpty ']' ++
      rest = text := by
    simp [text, ending]
  rw [whole]
  exact read

/-! ## Members -/

theorem nextKey_of_key (care : Care) (blank : AllBlank blanks) (first : Bool) (key : String)
    (rest : List Char) :
    nextKey care first (Value.separator first ++ (blanks ++ (Text.written key ++ rest))) =
      .ok (some key, rest) := by
  have quoted : Text.written key ++ rest =
      '"' :: (key.toList.flatMap Text.writtenChar ++ ['"'] ++ rest) := rfl
  have named : (some <$> text care) (Text.written key ++ rest) = .ok (some key, rest) :=
    (reads_text care key).map some rest
  have quote := peek_of_solid blank '"' (by decide)
    (key.toList.flatMap Text.writtenChar ++ ['"'] ++ rest)
  rw [← quoted] at quote
  cases first with
  | true =>
      change nextKey care true (blanks ++ (Text.written key ++ rest)) = _
      rw [nextKey, bind_of_ok quote]
      exact named
  | false =>
      have comma : peek (',' :: (blanks ++ (Text.written key ++ rest))) =
          .ok (some ',', ',' :: (blanks ++ (Text.written key ++ rest))) :=
        peek_of_solid .nil ',' (by decide) _
      change nextKey care false (',' :: (blanks ++ (Text.written key ++ rest))) = _
      rw [nextKey, bind_of_ok comma]
      simp only [Bool.false_eq_true, if_false]
      rw [bind_of_ok (advance_cons ',' _), bind_of_ok quote]
      exact named

theorem nextKey_of_close (care : Care) (blank : AllBlank blanks) (first : Bool)
    (rest : List Char) :
    nextKey care first (blanks ++ '\x7d' :: rest) = .ok (none, '\x7d' :: rest) := by
  rw [nextKey, bind_of_ok (peek_of_solid blank '\x7d' (by decide) rest)]
  rfl

theorem foldMembers_of_close (care : Care) (step : σ → String → Reader σ)
    (blank : AllBlank blanks) (fuel : Nat) (first : Bool) (state : σ) (rest : List Char) :
    foldMembers care step (fuel + 1) first state (blanks ++ '\x7d' :: rest) =
      .ok (state, rest) := by
  rw [foldMembers, bind_of_ok (nextKey_of_close care blank first rest)]
  simp only
  rw [bind_of_ok (advance_cons '\x7d' rest)]
  rfl

/-- The comma that is printed after a member is read before the next one. -/
theorem foldMembers_of_member (care : Care) {step : σ → String → Reader σ} {key : String}
    {value : Value} {state next : σ}
    (reads : (step state key).Reads ([':', ' '] ++ value.chars level) next) (fuel : Nat)
    (first : Bool) (later : List Char) :
    foldMembers care step (fuel + 1) first state
        (Value.separator first ++ (Value.lineBreak level ++ (Text.written key ++
          ([':', ' '] ++ value.chars level ++ later)))) =
      foldMembers care step fuel false next later := by
  rw [foldMembers, bind_of_ok (nextKey_of_key care (Value.allBlank_lineBreak level) first key _)]
  simp only
  rw [bind_of_ok (reads later)]

/-- Members are read from their printed form, and what a step takes from each is what it would
take from the value. -/
theorem foldMembers_memberChars (care : Care) {step : σ → String → Reader σ}
    {take : σ → String × Value → Except ε σ} {members : List (String × Value)}
    (steps : ∀ member ∈ members, ∀ state next, take state member = .ok next →
      (step state member.1).Reads ([':', ' '] ++ member.2.chars level) next)
    (blank : AllBlank blanks) {start final : σ} (taken : members.foldlM take start = .ok final)
    {fuel : Nat} (enough : members.length < fuel) (first : Bool) (rest : List Char) :
    foldMembers care step fuel first start
        (Value.separator (first || members.isEmpty) ++ Value.memberChars level members ++
          (blanks ++ '\x7d' :: rest)) =
      .ok (final, rest) := by
  induction members generalizing fuel first start with
  | nil =>
      cases fuel with
      | zero => cases enough
      | succ fuel =>
          cases taken
          rw [List.isEmpty_nil, Bool.or_true]
          exact foldMembers_of_close care step blank fuel first final rest
  | cons member members induction =>
      cases fuel with
      | zero => cases enough
      | succ fuel =>
          rcases member with ⟨key, value⟩
          rw [List.foldlM_cons] at taken
          cases here : take start (key, value) with
          | error fault =>
              rw [here] at taken
              cases taken
          | ok next =>
              rw [here] at taken
              let later := Value.separator members.isEmpty ++
                Value.memberChars level members ++ (blanks ++ '\x7d' :: rest)
              have text : Value.separator (first || ((key, value) :: members).isEmpty) ++
                  Value.memberChars level ((key, value) :: members) ++
                  (blanks ++ '\x7d' :: rest) =
                  Value.separator first ++ (Value.lineBreak level ++ (Text.written key ++
                    ([':', ' '] ++ value.chars level ++ later))) := by
                simp [later, Value.memberChars]
              have remaining := induction
                (fun member present => steps member (List.mem_cons_of_mem _ present)) taken
                (Nat.lt_of_succ_lt_succ enough) false
              rw [Bool.false_or] at remaining
              rw [text, foldMembers_of_member care (steps _ List.mem_cons_self start next here)]
              exact remaining

theorem reads_members (care : Care) {step : σ → String → Reader σ}
    {take : σ → String × Value → Except ε σ} {members : List (String × Value)}
    (steps : ∀ member ∈ members, ∀ state next, take state member = .ok next →
      (step state member.1).Reads ([':', ' '] ++ member.2.chars (level + 1)) next)
    {start final : σ} (taken : members.foldlM take start = .ok final) :
    (Reader.members care start step).Reads
      (Value.memberChars (level + 1) members ++ Value.ending level members.isEmpty '\x7d')
      final := by
  intro rest
  rcases Value.ending_eq level members.isEmpty '\x7d' with ⟨blanks, blank, ending⟩
  let text := Value.memberChars (level + 1) members ++ (blanks ++ '\x7d' :: rest)
  have enough : members.length < text.length + 1 := by
    have longer := Value.length_le_memberChars (level + 1) members
    rw [List.length_append]
    omega
  have read := foldMembers_memberChars care steps blank taken enough true rest
  have whole : Value.memberChars (level + 1) members ++
      Value.ending level members.isEmpty '\x7d' ++ rest = text := by
    simp [text, ending]
  rw [whole]
  exact read

/-! ## Values -/

theorem value_eq_level (care : Care) (depth : Nat) :
    ∃ inner, Reader.value care depth = Reader.level care inner := by
  cases depth with
  | zero => exact ⟨none, rfl⟩
  | succ depth => exact ⟨some (Reader.value care depth), rfl⟩

theorem reads_literal (first : Char) (letters : List Char) (value : Value) :
    (do advance; word letters; return value : Reader Value).Reads (first :: letters) value :=
  (reads_advance first).bind ((reads_word letters).andThen (.pure value))

section

variable (care : Care) (inner : Option (Reader Value)) (blank : AllBlank blanks)
include blank

theorem reads_null : (Reader.level care inner).Reads (blanks ++ ['n', 'u', 'l', 'l']) .null :=
  .peek blank 'n' (by decide) (reads_literal 'n' ['u', 'l', 'l'] .null)

theorem reads_bool (value : Bool) (indent : Nat) :
    (Reader.level care inner).Reads (blanks ++ (Value.bool value).chars indent) (.bool value) := by
  cases value with
  | true => exact .peek blank 't' (by decide) (reads_literal 't' ['r', 'u', 'e'] (.bool true))
  | false =>
      exact .peek blank 'f' (by decide) (reads_literal 'f' ['a', 'l', 's', 'e'] (.bool false))

theorem reads_string (content : String) :
    (Reader.level care inner).Reads (blanks ++ Text.written content) (.text content) :=
  .peek blank '"' (by decide) ((reads_text care content).map Value.text)

end

/-- The members of an object are collected last first. -/
theorem reads_memberList (care : Care) (item : Reader Value) {members : List (String × Value)}
    (reads : ∀ member ∈ members, item.Reads ([' '] ++ member.2.chars (level + 1)) member.2) :
    (Reader.members care [] fun before key => do
      colon
      let value ← item
      return (key, value) :: before).Reads
      (Value.memberChars (level + 1) members ++ Value.ending level members.isEmpty '\x7d')
      members.reverse := by
  have taken : members.foldlM
      (fun before member => (pure (member :: before) : Except Unit (List (String × Value)))) [] =
        .ok members.reverse := by
    rw [List.foldlM_pure, List.foldl_flip_cons_eq_append', List.append_nil]
    rfl
  apply reads_members care _ taken
  rintro ⟨key, value⟩ member before next step
  have same : (key, value) :: before = next := Except.ok.inj step
  rw [← same]
  exact reads_colon.bind ((reads (key, value) member).map fun value => (key, value) :: before)

mutual

/-- A value without numbers is read from its printed form by a reader that allows its depth. -/
theorem reads_value (care : Care) (depth : Nat) (value : Value) (numberless : value.Numberless)
    (allowed : value.nesting ≤ depth) (level : Nat) (blanks : List Char)
    (blank : AllBlank blanks) :
    (Reader.value care depth).Reads (blanks ++ value.chars level) value := by
  rcases value_eq_level care depth with ⟨inner, same⟩
  cases value with
  | null => exact same ▸ reads_null care inner blank
  | bool value => exact same ▸ reads_bool care inner blank value level
  | number value => exact numberless.elim
  | text content => exact same ▸ reads_string care inner blank content
  | array items =>
      cases depth with
      | zero => exact absurd allowed (by simp [Value.nesting])
      | succ depth =>
          rw [Value.nesting, Nat.add_le_add_iff_right] at allowed
          have inside := reads_values care depth items numberless allowed (level + 1)
          have read := reads_items inside
          exact .peek blank '[' (by decide)
            ((Reads.pure _).bind ((reads_advance '[').bind (read.map Value.array)))
  | object members =>
      cases depth with
      | zero => exact absurd allowed (by simp [Value.nesting])
      | succ depth =>
          rw [Value.nesting, Nat.add_le_add_iff_right] at allowed
          have inside := reads_memberValues care depth members numberless allowed (level + 1)
          have read := reads_memberList care (Reader.value care depth) inside
          have whole := read.map fun found => Value.object found.reverse
          rw [List.reverse_reverse] at whole
          exact .peek blank '\x7b' (by decide)
            ((Reads.pure _).bind ((reads_advance '\x7b').bind whole))

theorem reads_values (care : Care) (depth : Nat) (values : List Value)
    (numberless : Value.NumberlessAll values) (allowed : Value.nestingAll values ≤ depth)
    (level : Nat) :
    List.Forall₂ (fun value result => value.Numberless ∧
      (Reader.value care depth).Reads (value.chars level) result) values values := by
  cases values with
  | nil => exact .nil
  | cons value rest =>
      rw [Value.nestingAll, Nat.max_le] at allowed
      have head := reads_value care depth value numberless.1 allowed.1 level [] .nil
      exact .cons ⟨numberless.1, head⟩
        (reads_values care depth rest numberless.2 allowed.2 level)

theorem reads_memberValues (care : Care) (depth : Nat) (members : List (String × Value))
    (numberless : Value.NumberlessMembers members)
    (allowed : Value.nestingMembers members ≤ depth) (level : Nat) :
    ∀ member ∈ members,
      (Reader.value care depth).Reads ([' '] ++ member.2.chars level) member.2 := by
  cases members with
  | nil => simp
  | cons member rest =>
      rcases member with ⟨key, value⟩
      rw [Value.nestingMembers, Nat.max_le] at allowed
      have head := reads_value care depth value numberless.1 allowed.1 level [' ']
        (by simp [AllBlank, isBlank])
      exact List.forall_mem_cons.mpr
        ⟨head, reads_memberValues care depth rest numberless.2 allowed.2 level⟩

end

end Reader

end HtmlConformance.Json
