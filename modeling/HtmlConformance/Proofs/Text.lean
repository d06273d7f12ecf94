import HtmlConformance.Proofs.Lists
import Mathlib

namespace HtmlConformance.Text

/-! Texts as they are stored: the bytes that encode their characters, and the places at which the
characters begin. A test that no character but an ASCII one passes may be made on the bytes, and a
cut after some characters never falls inside of one. Only ASCII letters have two cases. -/

/-! ## Letter case -/

theorem folded_folded (text : String) : folded (folded text) = folded text := by
  have settled : Char.toLower ∘ Char.toLower = Char.toLower :=
    funext Char.toLower_toLower_eq_toLower
  simp only [folded, String.map_map, settled]

theorem alike_folded (text : String) : alike (folded text) text = true := by
  rw [alike_iff, folded_folded]

theorem isUpper_iff (char : Char) :
    char.isUpper = true ↔ 65 ≤ char.toNat ∧ char.toNat ≤ 90 := by
  simp [Char.isUpper, UInt32.le_iff_toNat_le]

theorem isUpper_of_wide {char : Char} (wide : 128 ≤ char.toNat) : char.isUpper = false := by
  rw [← Bool.not_eq_true, isUpper_iff]
  omega

theorem toNat_toLower (char : Char) :
    char.toLower.toNat = if char.isUpper then char.toNat + 32 else char.toNat := by
  split
  case isFalse small => rw [Char.toLower_eq_of_not_isUpper small]
  case isTrue capital =>
    have range := (isUpper_iff char).mp capital
    rw [Char.toLower_eq_of_isUpper capital, Char.toNat_ofNat, if_pos (.inl (by omega))]

/-- The characters are equal, or one letter of ASCII in its two cases. -/
def SameLetter (left right : Char) : Prop :=
  left = right ∨
    (left.isUpper = true ∧ right.toNat = left.toNat + 32) ∨
    (right.isUpper = true ∧ left.toNat = right.toNat + 32)

theorem toLower_eq_toLower_iff (left right : Char) :
    left.toLower = right.toLower ↔ SameLetter left right := by
  rw [SameLetter, ← Char.toNat_inj, ← Char.toNat_inj, toNat_toLower, toNat_toLower]
  simp only [isUpper_iff]
  split <;> split <;> omega

/-- Texts are alike if they agree character by character up to the case of ASCII letters. -/
theorem alike_iff_forall₂ (left right : String) :
    alike left right = true ↔ List.Forall₂ SameLetter left.toList right.toList := by
  rw [alike_iff, ← String.toList_inj, folded, folded, String.toList_map, String.toList_map,
    map_eq_map_iff_forall₂]
  simp only [toLower_eq_toLower_iff]

theorem folded_of_small {text : String} (small : text.toList.any Char.isUpper = false) :
    folded text = text := by
  have same : text.toList.map Char.toLower = text.toList.map id := by
    apply List.map_congr_left
    intro char member
    exact Char.toLower_eq_of_not_isUpper (List.any_eq_false.mp small char member)
  rw [← String.toList_inj, folded, String.toList_map, same, List.map_id]

/-! ## Beginnings -/

theorem length_of_alike {left right : String} (same : alike left right = true) :
    left.length = right.length := by
  have lists := congrArg String.toList ((alike_iff left right).mp same)
  rw [folded, folded, String.toList_map, String.toList_map] at lists
  have lengths := congrArg List.length lists
  rwa [List.length_map, List.length_map, String.length_toList, String.length_toList] at lengths

/-- The text begins with the word, in any letter case. -/
def BeginsWith (text word : String) : Prop :=
  ∃ head rest, text = head ++ rest ∧ alike head word = true

theorem BeginsWith.isPrefix {text word : String} (begins : BeginsWith text word) :
    (folded word).toList <+: (folded text).toList := by
  obtain ⟨first, rest, rfl, same⟩ := begins
  rw [← (alike_iff first word).mp same]
  simp only [folded, String.toList_map, String.toList_append, List.map_append]
  exact List.prefix_append _ _

/-- The first characters of a text, as many as there are but no more than counted. -/
def head (count : Nat) (text : String) : String := String.ofList (text.toList.take count)

def afterHead (count : Nat) (text : String) : String := String.ofList (text.toList.drop count)

theorem head_append_afterHead (count : Nat) (text : String) :
    text = head count text ++ afterHead count text := by
  rw [head, afterHead, ← String.ofList_append, List.take_append_drop, String.ofList_toList]

/-- To compare as many characters as a word has is to ask whether a text begins with it. -/
theorem alike_head_iff_beginsWith (text word : String) :
    alike (head word.length text) word = true ↔ BeginsWith text word := by
  constructor
  · intro same
    exact ⟨_, _, head_append_afterHead word.length text, same⟩
  · rintro ⟨first, rest, rfl, same⟩
    have whole : head word.length (first ++ rest) = first := by
      rw [head, String.toList_append, List.take_left' (length_of_alike same),
        String.ofList_toList]
    rwa [whole]

/-- To compare more characters than a word has is to compare the whole text with it. -/
theorem alike_head_iff_alike (text : String) {word : String} {count : Nat}
    (longer : word.length < count) :
    alike (head count text) word = true ↔ alike text word = true := by
  have whole (short : text.length ≤ count) : head count text = text := by
    rw [head, List.take_of_length_le (String.length_toList ▸ short), String.ofList_toList]
  constructor
  · intro same
    have length := length_of_alike same
    rw [head, String.length_ofList, List.length_take, String.length_toList] at length
    rwa [whole (by omega)] at same
  · intro same
    rwa [whole (by rw [length_of_alike same]; omega)]

/-! ## Places -/

/-- The places, counted in bytes from an offset, at which characters begin. -/
def startsFrom (offset : Nat) : List Char → List Nat
  | [] => []
  | char :: later => offset :: startsFrom (offset + char.utf8Size) later

def starts (text : String) : List Nat := startsFrom 0 text.toList

theorem utf8ByteSize_cons (char : Char) (later : List Char) :
    (String.ofList (char :: later)).utf8ByteSize =
      char.utf8Size + (String.ofList later).utf8ByteSize := by
  rw [← List.singleton_append, String.ofList_append, String.utf8ByteSize_append,
    ← String.singleton_eq_ofList, String.utf8ByteSize_singleton]

theorem getElem?_startsFrom (offset : Nat) (chars : List Char) (index : Nat) :
    ((startsFrom offset chars)[index]?).getD
        (offset + (String.ofList chars).utf8ByteSize) =
      offset + (String.ofList (chars.take index)).utf8ByteSize := by
  induction chars generalizing offset index with
  | nil => simp [startsFrom]
  | cons char later induction =>
      cases index with
      | zero => simp [startsFrom]
      | succ index =>
          rw [startsFrom, List.getElem?_cons_succ, List.take_succ_cons, utf8ByteSize_cons,
            utf8ByteSize_cons, ← Nat.add_assoc, ← Nat.add_assoc, induction]

/-- The place at which a character begins, or the end of a text that is too short, lies between
two characters: before it stand as many characters as are counted, or all. -/
theorem splits_head (count : Nat) (text : String) :
    ∃ cut : text.Pos, cut.Splits (head count text) (afterHead count text) ∧
      cut.offset.byteIdx = ((starts text)[count]?).getD text.utf8ByteSize := by
  refine ⟨.ofEqAppend (head_append_afterHead count text), String.Pos.splits_ofEqAppend _, ?_⟩
  have start := getElem?_startsFrom 0 text.toList count
  rw [String.ofList_toList, Nat.zero_add, Nat.zero_add] at start
  rw [(String.Pos.splits_ofEqAppend _).offset_eq_rawEndPos, starts, start]
  rfl

/-! ## Bytes -/

def bytes (text : String) : List UInt8 := text.toByteArray.data.toList

theorem bytes_eq (text : String) : bytes text = text.toList.flatMap String.utf8EncodeChar := by
  rw [bytes, ← String.utf8Encode_toList, List.utf8Encode]
  simp

theorem utf8EncodeChar_of_ascii {char : Char} (narrow : char.toNat < 128) :
    String.utf8EncodeChar char = [UInt8.ofNat char.toNat] :=
  if_pos (Nat.le_of_lt_succ narrow)

theorem le_of_mem_utf8EncodeChar {char : Char} (wide : 128 ≤ char.toNat) {byte : UInt8}
    (member : byte ∈ String.utf8EncodeChar char) : 128 ≤ byte.toNat := by
  rw [Char.toNat] at wide
  rw [String.utf8EncodeChar, if_neg (by omega)] at member
  split at member
  · simp only [List.mem_cons, List.not_mem_nil, or_false] at member
    rcases member with rfl | rfl <;> rw [UInt8.toNat_ofNat'] <;> omega
  · split at member
    · simp only [List.mem_cons, List.not_mem_nil, or_false] at member
      rcases member with rfl | rfl | rfl <;> rw [UInt8.toNat_ofNat'] <;> omega
    · simp only [List.mem_cons, List.not_mem_nil, or_false] at member
      rcases member with rfl | rfl | rfl | rfl <;> rw [UInt8.toNat_ofNat'] <;> omega

/-- A text of ASCII characters has one byte for each of them. -/
theorem utf8ByteSize_of_ascii {text : String} (narrow : ∀ char ∈ text.toList, char.toNat < 128) :
    text.utf8ByteSize = text.length := by
  have single : bytes text = text.toList.map fun char => UInt8.ofNat char.toNat := by
    rw [bytes_eq, List.map_eq_flatMap]
    exact List.flatMap_congr fun char member => utf8EncodeChar_of_ascii (narrow char member)
  rw [← String.length_toList, ← List.length_map, ← single]
  rfl

/-- A test of bytes and a test of characters that pass the same ASCII characters, and nothing
else. -/
structure Agree (onByte : UInt8 → Bool) (onChar : Char → Bool) : Prop where
  ascii : ∀ code < 128, onByte (UInt8.ofNat code) = onChar (Char.ofNat code)
  byte : ∀ byte : UInt8, 128 ≤ byte.toNat → onByte byte = false
  char : ∀ char : Char, 128 ≤ char.toNat → onChar char = false

namespace Agree

variable {onByte : UInt8 → Bool} {onChar : Char → Bool} (agree : Agree onByte onChar)
include agree

theorem all_utf8EncodeChar (char : Char) :
    (String.utf8EncodeChar char).all onByte = onChar char := by
  by_cases narrow : char.toNat < 128
  · have same := agree.ascii char.toNat narrow
    rw [Char.ofNat_toNat] at same
    rw [utf8EncodeChar_of_ascii narrow, ← same]
    exact Bool.and_true _
  · rw [agree.char char (by omega), ← Bool.not_eq_true, List.all_eq_true]
    intro all
    obtain ⟨byte, member⟩ := List.exists_mem_of_ne_nil _ (@String.utf8EncodeChar_ne_nil char)
    have wide := le_of_mem_utf8EncodeChar (by omega) member
    exact absurd ((agree.byte byte wide).symm.trans (all byte member)) Bool.false_ne_true

theorem all_bytes (text : String) : (bytes text).all onByte = text.toList.all onChar := by
  rw [bytes_eq, List.all_flatMap]
  simp only [agree.all_utf8EncodeChar]

theorem any_utf8EncodeChar (char : Char) :
    (String.utf8EncodeChar char).any onByte = onChar char := by
  by_cases narrow : char.toNat < 128
  · have same := agree.ascii char.toNat narrow
    rw [Char.ofNat_toNat] at same
    rw [utf8EncodeChar_of_ascii narrow, ← same]
    exact Bool.or_false _
  · rw [agree.char char (by omega), List.any_eq_false]
    intro byte member
    rw [agree.byte byte (le_of_mem_utf8EncodeChar (by omega) member)]
    exact Bool.false_ne_true

theorem any_bytes (text : String) : (bytes text).any onByte = text.toList.any onChar := by
  rw [bytes_eq, List.any_flatMap]
  simp only [agree.any_utf8EncodeChar]

/-- It makes no difference whether characters are tested and counted or the bytes that encode
them. -/
theorem sized_all_bytes (size : Nat) (text : String) :
    (text.utf8ByteSize == size && (bytes text).all onByte) =
      (text.length == size && text.toList.all onChar) := by
  rw [agree.all_bytes]
  cases all : text.toList.all onChar with
  | false => rw [Bool.and_false, Bool.and_false]
  | true =>
      rw [utf8ByteSize_of_ascii]
      intro char member
      by_contra wide
      have passed := List.all_eq_true.mp all char member
      exact absurd ((agree.char char (by omega)).symm.trans passed) Bool.false_ne_true

end Agree

def isDigitByte (byte : UInt8) : Bool := 48 ≤ byte && byte ≤ 57

def isHexByte (byte : UInt8) : Bool :=
  isDigitByte byte || (97 ≤ byte && byte ≤ 102) || (65 ≤ byte && byte ≤ 70)

theorem agree_digit : Agree isDigitByte Char.isDigit where
  ascii := by decide
  byte byte wide := by
    by_contra passed
    simp only [Bool.not_eq_false, isDigitByte, Bool.and_eq_true, decide_eq_true_eq,
      UInt8.le_iff_toNat_le, UInt8.reduceToNat] at passed
    omega
  char char wide := by
    by_contra passed
    simp only [Bool.not_eq_false, Char.isDigit, Bool.and_eq_true, decide_eq_true_eq, ge_iff_le,
      UInt32.le_iff_toNat_le, Char.toNat_val, Char.reduceToNat] at passed
    omega

theorem agree_hexDigit : Agree isHexByte Char.isHexDigit where
  ascii := by decide
  byte byte wide := by
    by_contra passed
    simp only [Bool.not_eq_false, isHexByte, isDigitByte, Bool.or_eq_true, Bool.and_eq_true,
      decide_eq_true_eq, UInt8.le_iff_toNat_le, UInt8.reduceToNat] at passed
    omega
  char char wide := by
    by_contra passed
    simp only [Bool.not_eq_false, Char.isHexDigit, Char.isDigit, Bool.or_eq_true,
      Bool.and_eq_true, decide_eq_true_eq, ge_iff_le, UInt32.le_iff_toNat_le, Char.toNat_val,
      Char.reduceToNat] at passed
    omega

def isCapitalByte (byte : UInt8) : Bool := 65 ≤ byte && byte ≤ 90

theorem agree_capital : Agree isCapitalByte Char.isUpper where
  ascii := by decide
  byte byte wide := by
    by_contra passed
    simp only [Bool.not_eq_false, isCapitalByte, Bool.and_eq_true, decide_eq_true_eq,
      UInt8.le_iff_toNat_le, UInt8.reduceToNat] at passed
    omega
  char _ := isUpper_of_wide

end HtmlConformance.Text
