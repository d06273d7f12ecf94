import HtmlConformance.Rule.Value
import Mathlib

namespace HtmlConformance

/-! The languages of values. Each grammar test is compared with a regular expression over
characters, and each rule with the set of values that it admits, on an element that is or is not
image-like. -/

/-! ## Regular expressions over character sets -/

namespace ValueGrammar

open RegularExpression

def anyOf (chars : List Char) : RegularExpression Char :=
  chars.foldr (fun char others => .char char + others) 0

def optional (expression : RegularExpression Char) : RegularExpression Char := 1 + expression

def repeated (expression : RegularExpression Char) : RegularExpression Char :=
  expression * expression.star

variable {chars : List Char} {expression : RegularExpression Char} {word : List Char}

theorem mem_char {char : Char} :
    word ∈ (RegularExpression.char char).matches' ↔ word = [char] := by
  rw [matches'_char]
  exact Set.mem_singleton_iff

theorem mem_anyOf :
    word ∈ (anyOf chars).matches' ↔ ∃ char ∈ chars, word = [char] := by
  unfold anyOf
  induction chars with
  | nil => simp
  | cons head tail induction =>
      rw [List.foldr_cons, matches'_add, Language.mem_add, mem_char, induction]
      simp

theorem mem_optional :
    word ∈ (optional expression).matches' ↔ word = [] ∨ word ∈ expression.matches' := by
  rw [optional, matches'_add, matches'_epsilon, Language.mem_add, Language.mem_one]

theorem mem_star_anyOf :
    word ∈ (anyOf chars).star.matches' ↔ ∀ char ∈ word, char ∈ chars := by
  rw [matches'_star, Language.mem_kstar]
  constructor
  · rintro ⟨parts, rfl, each⟩ char member
    obtain ⟨part, listed, here⟩ := List.mem_flatten.mp member
    obtain ⟨only, known, rfl⟩ := mem_anyOf.mp (each part listed)
    rwa [List.mem_singleton.mp here]
  · intro each
    refine ⟨word.map fun char => [char], ?_, ?_⟩
    · exact (List.flatMap_singleton' word).symm
    · intro part listed
      obtain ⟨char, member, rfl⟩ := List.mem_map.mp listed
      exact mem_anyOf.mpr ⟨char, each char member, rfl⟩

theorem mem_repeated_anyOf :
    word ∈ (repeated (anyOf chars)).matches' ↔
      word ≠ [] ∧ ∀ char ∈ word, char ∈ chars := by
  rw [repeated, matches'_mul, Language.mem_mul]
  constructor
  · rintro ⟨first, one, rest, others, rfl⟩
    obtain ⟨char, known, rfl⟩ := mem_anyOf.mp one
    exact ⟨List.cons_ne_nil _ _, List.forall_mem_cons.mpr ⟨known, mem_star_anyOf.mp others⟩⟩
  · rintro ⟨filled, each⟩
    obtain ⟨char, rest, rfl⟩ := List.exists_cons_of_ne_nil filled
    obtain ⟨known, others⟩ := List.forall_mem_cons.mp each
    exact ⟨[char], mem_anyOf.mpr ⟨char, known, rfl⟩, rest, mem_star_anyOf.mpr others, rfl⟩

theorem mem_pow_anyOf (count : Nat) :
    word ∈ (anyOf chars ^ count).matches' ↔
      word.length = count ∧ ∀ char ∈ word, char ∈ chars := by
  rw [matches'_pow]
  induction count generalizing word with
  | zero =>
      rw [pow_zero, Language.mem_one, List.length_eq_zero_iff]
      constructor
      · rintro rfl
        simp
      · exact And.left
  | succ count induction =>
      rw [pow_succ', Language.mem_mul]
      constructor
      · rintro ⟨first, one, rest, others, rfl⟩
        obtain ⟨char, known, rfl⟩ := mem_anyOf.mp one
        obtain ⟨length, each⟩ := induction.mp others
        exact ⟨congrArg (· + 1) length, List.forall_mem_cons.mpr ⟨known, each⟩⟩
      · rintro ⟨length, each⟩
        obtain ⟨char, rest, rfl⟩ := List.exists_cons_of_length_eq_add_one length
        obtain ⟨known, others⟩ := List.forall_mem_cons.mp each
        refine ⟨[char], mem_anyOf.mpr ⟨char, known, rfl⟩, rest, induction.mpr ⟨?_, others⟩, rfl⟩
        exact Nat.succ.inj length

/-! ## Grammars -/

/-- All characters from the first to the last. -/
def range (first last : Char) : List Char :=
  (List.range' first.toNat (last.toNat + 1 - first.toNat)).map Char.ofNat

def digits : List Char := range '0' '9'

def hexDigits : List Char := range '0' '9' ++ range 'a' 'f' ++ range 'A' 'F'

def letters : List Char := range 'a' 'z' ++ range 'A' 'Z'

def number : RegularExpression Char := optional (.char '-') * repeated (anyOf digits)

def length : RegularExpression Char :=
  repeated (anyOf digits) * optional (anyOf ['%', '*']) + .char '*'

def colorNumber : RegularExpression Char :=
  .char '#' * (anyOf hexDigits ^ 3 + anyOf hexDigits ^ 6)

def sixHex : RegularExpression Char := anyOf hexDigits ^ 6

/-- The value is one of the words, in any letter case. -/
def IsWord (words : List String) (value : String) : Prop :=
  ∃ word ∈ words, Text.alike value word = true

/-- The value begins with an ASCII letter, or it is the name of a reserved frame. -/
def IsTarget (value : String) : Prop :=
  (∃ first ∈ letters, ∃ rest, value.toList = first :: rest) ∨
    IsWord ["_blank", "_self", "_parent", "_top"] value

/-- The value is a place on a line; beside the line is for images only. -/
def IsPlace (imageLike : Bool) (value : String) : Prop :=
  IsWord ["top", "middle", "bottom", "baseline"] value ∨
    imageLike = true ∧ IsWord ["left", "right"] value

/-! ## Tests of characters -/

theorem mem_range {first last char : Char} (plain : last.toNat < 0xd800) :
    char ∈ range first last ↔ first.toNat ≤ char.toNat ∧ char.toNat ≤ last.toNat := by
  rw [range, List.mem_map]
  constructor
  · rintro ⟨code, listed, rfl⟩
    rw [List.mem_range'_1] at listed
    have valid : code.isValidChar := .inl (by omega)
    rw [Char.toNat_ofNat, if_pos valid]
    omega
  · intro between
    refine ⟨char.toNat, ?_, Char.ofNat_toNat char⟩
    rw [List.mem_range'_1]
    omega

theorem mem_digits {char : Char} : char ∈ digits ↔ char.isDigit = true := by
  rw [digits, mem_range (by decide)]
  simp [Char.isDigit, UInt32.le_iff_toNat_le]

theorem mem_hexDigits {char : Char} : char ∈ hexDigits ↔ char.isHexDigit = true := by
  rw [hexDigits, List.mem_append, List.mem_append, mem_range (by decide),
    mem_range (by decide), mem_range (by decide)]
  simp [Char.isHexDigit, Char.isDigit, UInt32.le_iff_toNat_le]

theorem mem_letters {char : Char} : char ∈ letters ↔ char.isAlpha = true := by
  rw [letters, List.mem_append, mem_range (by decide), mem_range (by decide), Char.isAlpha,
    Bool.or_comm]
  simp [Char.isUpper, Char.isLower, UInt32.le_iff_toNat_le]

theorem all_isDigit : word.all Char.isDigit = true ↔ ∀ char ∈ word, char ∈ digits := by
  simp only [List.all_eq_true, mem_digits]

theorem all_isHexDigit : word.all Char.isHexDigit = true ↔ ∀ char ∈ word, char ∈ hexDigits := by
  simp only [List.all_eq_true, mem_hexDigits]

/-! ## Tests of grammars -/

theorem isNumeral_iff (value : List Char) :
    (!value.isEmpty && value.all Char.isDigit) = true ↔
      value ∈ (repeated (anyOf digits)).matches' := by
  rw [mem_repeated_anyOf, Bool.and_eq_true, all_isDigit]
  simp

theorem isNumber_iff : isNumber word = true ↔ word ∈ number.matches' := by
  rw [number, matches'_mul, Language.mem_mul]
  simp only [isNumber, isNumeral_iff]
  constructor
  · intro passed
    split at passed
    next rest => exact ⟨['-'], mem_optional.mpr (.inr (mem_char.mpr rfl)), rest, passed, rfl⟩
    next => exact ⟨[], mem_optional.mpr (.inl rfl), word, passed, rfl⟩
  · rintro ⟨sign, signed, value, numeral, rfl⟩
    rcases mem_optional.mp signed with rfl | minus
    · split
      next rest here =>
        -- A sign is not a digit.
        rw [List.nil_append] at here
        have digit := (mem_repeated_anyOf.mp numeral).2 '-' (here ▸ List.mem_cons_self)
        exact absurd (mem_digits.mp digit) (by decide)
      next => exact numeral
    · rw [mem_char.mp minus]
      exact numeral

theorem isSixHex_iff : isSixHex word = true ↔ word ∈ sixHex.matches' := by
  rw [isSixHex, sixHex, mem_pow_anyOf, Bool.and_eq_true, beq_iff_eq, all_isHexDigit]

theorem isColorNumber_iff : isColorNumber word = true ↔ word ∈ colorNumber.matches' := by
  have short (value : List Char) :
      ((value.length == 3 || value.length == 6) && value.all Char.isHexDigit) = true ↔
        value ∈ (anyOf hexDigits ^ 3 + anyOf hexDigits ^ 6).matches' := by
    rw [matches'_add, Language.mem_add, mem_pow_anyOf, mem_pow_anyOf, Bool.and_eq_true,
      Bool.or_eq_true, beq_iff_eq, beq_iff_eq, all_isHexDigit]
    tauto
  rw [colorNumber, matches'_mul, Language.mem_mul]
  constructor
  · intro passed
    unfold isColorNumber at passed
    split at passed
    next value => exact ⟨['#'], mem_char.mpr rfl, value, (short value).mp passed, rfl⟩
    next => cases passed
  · rintro ⟨sign, signed, value, hex, rfl⟩
    rw [mem_char.mp signed]
    exact (short value).mpr hex

/-- With a unit behind it a numeral is a length, and so is a star alone. -/
theorem isLength_concat {unit : Char} (listed : unit ∈ ['%', '*']) :
    isLength (word ++ [unit]) = true ↔
      word ∈ (repeated (anyOf digits)).matches' ∨ word = [] ∧ unit = '*' := by
  have marked : (decide ((word ++ [unit]).getLast? = some '%') ||
      decide ((word ++ [unit]).getLast? = some '*')) = true := by
    simpa using listed
  simp only [isLength, marked, if_true, List.dropLast_concat, ← isNumeral_iff]
  cases word with
  | nil => simp
  | cons head tail => simp

theorem isLength_of_unmarked (unmarked : ∀ unit ∈ ['%', '*'], word.getLast? ≠ some unit) :
    isLength word = true ↔ word ∈ (repeated (anyOf digits)).matches' := by
  have plain : (decide (word.getLast? = some '%') || decide (word.getLast? = some '*')) =
      false := by
    simpa using unmarked
  simp only [isLength, plain, Bool.false_eq_true, if_false, ← isNumeral_iff]
  cases word with
  | nil => simp
  | cons head tail => simp

theorem isLength_iff : isLength word = true ↔ word ∈ length.matches' := by
  rw [length, matches'_add, Language.mem_add, mem_char, matches'_mul, Language.mem_mul]
  constructor
  · intro passed
    by_cases marked : ∃ unit ∈ ['%', '*'], word.getLast? = some unit
    · obtain ⟨unit, listed, last⟩ := marked
      obtain ⟨value, rfl⟩ := List.getLast?_eq_some_iff.mp last
      rcases (isLength_concat listed).mp passed with numeral | ⟨rfl, rfl⟩
      · exact .inl ⟨value, numeral, [unit],
          mem_optional.mpr (.inr (mem_anyOf.mpr ⟨unit, listed, rfl⟩)), rfl⟩
      · exact .inr rfl
    · have numeral := (isLength_of_unmarked (by simpa using marked)).mp passed
      exact .inl ⟨word, numeral, [], mem_optional.mpr (.inl rfl), word.append_nil⟩
  · rintro (⟨value, numeral, unit, united, rfl⟩ | rfl)
    · rcases mem_optional.mp united with rfl | marked
      · rw [List.append_nil, isLength_of_unmarked]
        · exact numeral
        · -- A unit is not a digit.
          intro unit listed last
          have digit := (mem_repeated_anyOf.mp numeral).2 unit (List.mem_of_getLast? last)
          rw [mem_digits] at digit
          fin_cases listed <;> cases digit
      · obtain ⟨mark, listed, rfl⟩ := mem_anyOf.mp marked
        exact (isLength_concat listed).mpr (.inl numeral)
    · rfl

example : (["", "%", "%*", "*%", "**", "5*%", "-5"].any fun value =>
    isLength value.toList) = false := by
  cbv

theorem isOneOf_iff {words : List String} {value : String} :
    Text.isOneOf value words = true ↔ IsWord words value :=
  List.any_eq_true

theorem isTarget_iff {value : String} : isTarget value = true ↔ IsTarget value := by
  rw [isTarget, IsTarget, Bool.or_eq_true, isOneOf_iff, Option.any_eq_true]
  simp only [List.head?_eq_some_iff, ← mem_letters, and_comm]

theorem isColor_iff {value : String} :
    isColor value = true ↔
      value.toList ∈ colorNumber.matches' ∨ IsWord colorNames value ∨
        value.toList ∈ sixHex.matches' := by
  rw [isColor, Bool.or_eq_true, Bool.or_eq_true, isColorNumber_iff, isSixHex_iff, isOneOf_iff]
  tauto

theorem judgePlace_eq_accepted {imageLike : Bool} {value : String} :
    judgePlace imageLike value = .accepted ↔ IsPlace imageLike value := by
  rw [IsPlace, ← isOneOf_iff, ← isOneOf_iff, judgePlace]
  split
  next placed => simp [placed]
  next unplaced =>
    split
    next beside => cases imageLike <;> simp [unplaced, beside]
    next notBeside => split <;> simp [unplaced, notBeside]

end ValueGrammar

/-! ## Rules -/

namespace ValueRule

open ValueGrammar

/-- What a rule admits as a value on an element that is or is not image-like. -/
def Admits (imageLike : Bool) (value : String) : ValueRule → Prop
  | url | script | bool | id | name => True
  | align =>
      if imageLike then IsPlace imageLike value
      else IsWord ["left", "center", "right", "justify"] value
  | valign => IsPlace imageLike value
  | number => value.toList ∈ ValueGrammar.number.matches'
  | length => value.toList ∈ ValueGrammar.length.matches'
  | color =>
      value.toList ∈ colorNumber.matches' ∨ IsWord colorNames value ∨
        value.toList ∈ sixHex.matches'
  | target => IsTarget value
  | scope => IsWord ["row", "col", "rowgroup", "colgroup"] value
  | shape => IsWord ["rect", "circle", "poly", "default"] value
  | textDirection => IsWord ["ltr", "rtl"] value
  | scrolling => IsWord ["yes", "no", "auto"] value
  | clear => IsWord ["none", "left", "right", "all"] value
  | valueType => IsWord ["data", "ref", "object"] value
  | outerFrame =>
      IsWord ["void", "above", "below", "hsides", "lhs", "rhs", "vsides", "box", "border"] value
  | innerRules => IsWord ["none", "groups", "rows", "cols", "all"] value

theorem judgeValue_eq_accepted (rule : ValueRule) (imageLike : Bool) (value : String) :
    rule.judgeValue imageLike value = .accepted ↔ rule.Admits imageLike value := by
  have accept (test : Bool) :
      (if test then Judgement.accepted else .bad) = .accepted ↔ test = true := by
    cases test <;> simp
  cases rule with
  | url | script | bool | id | name => simp [judgeValue, Admits]
  | align =>
      cases imageLike with
      | true => exact judgePlace_eq_accepted
      | false => exact (accept _).trans isOneOf_iff
  | valign => exact judgePlace_eq_accepted
  | number => exact (accept _).trans isNumber_iff
  | length => exact (accept _).trans isLength_iff
  | color => exact (accept _).trans isColor_iff
  | target => exact (accept _).trans isTarget_iff
  | _ => exact (accept _).trans isOneOf_iff

theorem judgeValue_ne_missing (rule : ValueRule) (imageLike : Bool) (value : String) :
    rule.judgeValue imageLike value ≠ .missing := by
  have accept (test : Bool) : (if test then Judgement.accepted else .bad) ≠ .missing := by
    cases test <;> simp
  have place : judgePlace imageLike value ≠ .missing := by
    unfold judgePlace
    split
    · simp
    · split <;> split <;> simp
  cases rule with
  | url | script | bool | id | name => simp [judgeValue]
  | align =>
      cases imageLike with
      | true => exact place
      | false => exact accept _
  | valign => exact place
  | _ => exact accept _

theorem judge_eq_missing (rule : ValueRule) (imageLike : Bool) (value : Option String) :
    rule.judge imageLike value = .missing ↔
      rule ∉ [script, bool, id, name] ∧ value = none := by
  cases value with
  | none => cases rule <;> decide +revert
  | some value => simp [judge, judgeValue_ne_missing]

end ValueRule

end HtmlConformance
