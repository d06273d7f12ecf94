import HtmlConformance.Json.Read
import Mathlib

namespace HtmlConformance.Json

/-! Readers that take back what was written: how such readers are put together, and that a
string is read from its written form. -/

variable {α β : Type}

/-! ## Running readers -/

namespace Reader

theorem bind_of_ok {first : Reader α} {text rest : List Char} {result : α}
    (read : first text = .ok (result, rest)) (next : α → Reader β) :
    (first >>= next) text = next result rest := by
  change Reader.bind first next text = _
  rw [Reader.bind, read]

/-- The reader takes the text off the front of all that begins with it, and gives the
result. -/
def Reads (reader : Reader α) (text : List Char) (result : α) : Prop :=
  ∀ rest, reader (text ++ rest) = .ok (result, rest)

namespace Reads

variable {first : Reader α} {next : α → Reader β} {left right : List Char} {between : α}
    {result : β}

theorem pure (result : α) : Reads (Pure.pure result) [] result := fun _ => rfl

theorem bind (before : first.Reads left between) (after : (next between).Reads right result) :
    (first >>= next).Reads (left ++ right) result := by
  intro rest
  rw [List.append_assoc, bind_of_ok (before (right ++ rest)), after rest]

/-- What comes after may need no more text. -/
theorem andThen (before : first.Reads left between) (after : (next between).Reads [] result) :
    (first >>= next).Reads left result := by
  have whole := before.bind after
  rwa [List.append_nil] at whole

theorem map (change : α → β) (before : first.Reads left between) :
    (change <$> first).Reads left (change between) :=
  before.andThen (pure (change between))

end Reads

/-! ## Blanks and single characters -/

def AllBlank (blanks : List Char) : Prop := ∀ char ∈ blanks, isBlank char = true

theorem AllBlank.nil : AllBlank [] := by simp [AllBlank]

theorem peek_of_solid {blanks : List Char} (blank : AllBlank blanks) (char : Char)
    (solid : isBlank char = false) (rest : List Char) :
    peek (blanks ++ char :: rest) = .ok (some char, char :: rest) := by
  have dropped : (blanks ++ char :: rest).dropWhile isBlank = char :: rest := by
    rw [List.dropWhile_append_of_pos blank, List.dropWhile_cons_of_neg (by simp [solid])]
  rw [peek, dropped, List.head?_cons]

theorem Reads.peek {blanks : List Char} (blank : AllBlank blanks) (char : Char)
    (solid : isBlank char = false) {next : Option Char → Reader β} {text : List Char}
    {result : β} (after : (next (some char)).Reads (char :: text) result) :
    (Reader.peek >>= next).Reads (blanks ++ char :: text) result := by
  intro rest
  have peeked := peek_of_solid blank char solid (text ++ rest)
  rw [List.append_assoc, List.cons_append, bind_of_ok peeked, ← List.cons_append, after rest]

theorem advance_cons (char : Char) (rest : List Char) :
    advance (char :: rest) = .ok ((), rest) := rfl

theorem finish_of_blank {blanks : List Char} (blank : AllBlank blanks) :
    finish blanks = .ok ((), []) := by
  have nothing : peek blanks = .ok (none, []) := by
    rw [peek, List.dropWhile_eq_nil_iff.mpr blank, List.head?_nil]
  rw [finish, bind_of_ok nothing]
  rfl

theorem reads_advance (char : Char) : advance.Reads [char] () := advance_cons char

theorem reads_word (letters : List Char) : (word letters).Reads letters () := by
  induction letters with
  | nil => exact fun _ => rfl
  | cons letter letters induction =>
      intro rest
      rw [word, List.cons_append]
      simpa using induction rest

theorem reads_colon : colon.Reads [':'] () :=
  Reads.peek .nil ':' (by decide) (reads_advance ':')

end Reader

/-! ## Strings -/

namespace Text

/-- The two last digits of a control character, which are the only ones that count. -/
theorem hexNumber?_of_control {code : Nat} (control : code < 0x20) :
    hexNumber? '0' '0' (hexDigit (code / 16)) (hexDigit code) = some code := by
  have all : ∀ code : Fin 0x20,
      hexNumber? '0' '0' (hexDigit (code / 16)) (hexDigit code) = some code.val := by decide
  exact all ⟨code, control⟩

variable (care : Care)

theorem numbered_of_control {char : Char} (control : char.toNat < 0x20) (rest : List Char) :
    numbered care ('0' :: '0' :: hexDigit (char.toNat / 16) :: hexDigit char.toNat :: rest) =
      .ok (char, rest) := by
  have unit : hexUnit ('0' :: '0' :: hexDigit (char.toNat / 16) :: hexDigit char.toNat :: rest) =
      .ok (char.toNat, rest) := by
    rw [hexUnit, hexNumber?_of_control control]
  have low : isLowHalf char.toNat = false := by
    simp [isLowHalf]
    omega
  have high : isHighHalf char.toNat = false := by
    simp [isHighHalf]
    omega
  rw [numbered, Reader.bind_of_ok unit, low, high, Bool.and_false]
  simp only [Bool.false_eq_true, if_false, Char.ofNat_toNat]
  rfl

theorem escape_of_letter {letter char : Char} (other : letter ≠ 'u')
    (meant : escaped? letter = some char) (rest : List Char) :
    escape care (letter :: rest) = .ok (char, rest) := by
  unfold escape
  split
  next empty => cases empty
  next same => exact absurd (List.cons.inj same).1 other
  next same =>
    rcases List.cons.inj same with ⟨rfl, rfl⟩
    rw [meant]

/-- The forms in which characters are written: with a letter of their own, by number, and as
they are. -/
theorem writtenChar_cases (char : Char) :
    (∃ letter, letter ≠ 'u' ∧ escaped? letter = some char ∧ writtenChar char = ['\\', letter]) ∨
      (char.toNat < 0x20 ∧ writtenChar char =
        ['\\', 'u', '0', '0', hexDigit (char.toNat / 16), hexDigit char.toNat]) ∨
      (char ≠ '"' ∧ char ≠ '\\' ∧ 0x20 ≤ char.toNat ∧ writtenChar char = [char]) := by
  unfold writtenChar
  split_ifs with quote backslash erase feed line carriage tab control
  · exact .inl ⟨'"', by decide, by rw [quote]; rfl, rfl⟩
  · exact .inl ⟨'\\', by decide, by rw [backslash]; rfl, rfl⟩
  · exact .inl ⟨'b', by decide, by rw [erase]; rfl, rfl⟩
  · exact .inl ⟨'f', by decide, by rw [feed]; rfl, rfl⟩
  · exact .inl ⟨'n', by decide, by rw [line]; rfl, rfl⟩
  · exact .inl ⟨'r', by decide, by rw [carriage]; rfl, rfl⟩
  · exact .inl ⟨'t', by decide, by rw [tab]; rfl, rfl⟩
  · exact .inr (.inl ⟨control, rfl⟩)
  · exact .inr (.inr ⟨quote, backslash, Nat.le_of_not_lt control, rfl⟩)

theorem charsFrom_escape {text rest : List Char} {char : Char}
    (read : escape care text = .ok (char, rest)) (fuel : Nat) (before : List Char) :
    charsFrom care (fuel + 1) before ('\\' :: text) =
      charsFrom care fuel (char :: before) rest := by
  simp only [charsFrom, read]

/-- A character is read from its written form in one step. -/
theorem charsFrom_writtenChar (fuel : Nat) (before rest : List Char) (char : Char) :
    charsFrom care (fuel + 1) before (writtenChar char ++ rest) =
      charsFrom care fuel (char :: before) rest := by
  rcases writtenChar_cases char with ⟨letter, other, meant, form⟩ | ⟨control, form⟩ |
    ⟨unquoted, unescaped, printed, form⟩
  · rw [form]
    exact charsFrom_escape care (escape_of_letter care other meant rest) fuel before
  · rw [form]
    have read : escape care ('u' :: '0' :: '0' :: hexDigit (char.toNat / 16) ::
        hexDigit char.toNat :: rest) = .ok (char, rest) :=
      numbered_of_control care control rest
    exact charsFrom_escape care read fuel before
  · rw [form, List.singleton_append]
    simp [charsFrom, Nat.not_lt.mpr printed]

theorem charsFrom_written (chars : List Char) {fuel : Nat} (enough : chars.length < fuel)
    (before rest : List Char) :
    charsFrom care fuel before (chars.flatMap writtenChar ++ '"' :: rest) =
      .ok (before.reverse ++ chars, rest) := by
  induction chars generalizing fuel before with
  | nil =>
      cases fuel with
      | zero => cases enough
      | succ fuel => simp [charsFrom]
  | cons char chars induction =>
      cases fuel with
      | zero => cases enough
      | succ fuel =>
          rw [List.flatMap_cons, List.append_assoc, charsFrom_writtenChar,
            induction (Nat.lt_of_succ_lt_succ enough), List.reverse_cons, List.append_assoc,
            List.singleton_append]

theorem length_le_written (chars : List Char) :
    chars.length ≤ (chars.flatMap writtenChar).length := by
  induction chars with
  | nil => exact Nat.le_refl 0
  | cons char chars induction =>
      have some : 1 ≤ (writtenChar char).length := by
        rcases writtenChar_cases char with ⟨_, _, _, form⟩ | ⟨_, form⟩ | ⟨_, _, _, form⟩ <;>
          simp [form]
      rw [List.flatMap_cons, List.length_append, List.length_cons]
      omega

end Text

theorem Reader.reads_text (care : Care) (content : String) :
    (Reader.text care).Reads (Text.written content) content := by
  intro rest
  have enough : content.toList.length <
      (content.toList.flatMap Text.writtenChar ++ '"' :: rest).length + 1 := by
    have longer := Text.length_le_written content.toList
    rw [List.length_append]
    omega
  have read := Text.charsFrom_written care content.toList enough [] rest
  have whole : Text.written content ++ rest =
      '"' :: (content.toList.flatMap Text.writtenChar ++ '"' :: rest) := by
    simp [Text.written]
  rw [whole, text, bind_of_ok (advance_cons '"' _), Text.read, read]
  simp

end HtmlConformance.Json
