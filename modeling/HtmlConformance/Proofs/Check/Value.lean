import HtmlConformance.Proofs.Rule.Value
import HtmlConformance.Proofs.Text
import HtmlConformance.Proofs.Verdict

namespace HtmlConformance

/-! What is said about the value of an attribute, and what becomes of it. A rule judges a value by
the language that it admits; four rules recognise languages that no element has a say in. -/

def Attribute.withValue (attr : Attribute) (value : String) : Attribute :=
  { attr with value := some value }

/-! ## Judgements -/

/-- The report that a judgement calls for. -/
def Judgement.kind? : Judgement → Option DiagnosticKind
  | accepted => none
  | missing => some .missingAttributeValue
  | bad => some .badAttributeValue
  | proprietary => some .proprietaryAttributeValue

namespace ValueRule

open ValueGrammar

variable {rule : ValueRule} {owner : Owner} {attr : Attribute} {imageLike : Bool}

theorem diagnostics_findings (rule : ValueRule) (owner : Owner) (attr : Attribute) :
    (rule.findings owner attr).diagnostics =
      (rule.judge owner.isImageLike attr.value).kind?.toList.map
        fun kind => .onAttribute kind owner.tag attr := by
  unfold findings
  cases rule.judge owner.isImageLike attr.value <;> rfl

/-- A value is bad if the rule does not admit it and no vendor does. -/
theorem judge_eq_bad (value : Option String) :
    rule.judge imageLike value = .bad ↔
      ∃ text, value = some text ∧ ¬rule.Admits imageLike text ∧
        ¬((rule = .valign ∨ rule = .align ∧ imageLike = true) ∧ IsWord vendorPlaces text) := by
  cases value with
  | none => cases rule <;> simp [judge, needsValue]
  | some text =>
      have accepted := rule.judgeValue_eq_accepted imageLike text
      have present := rule.judgeValue_ne_missing imageLike text
      have vendor := rule.judge_eq_proprietary imageLike (some text)
      simp only [judge, Option.any_some, isOneOf_iff] at vendor
      simp only [judge, Option.some.injEq, exists_eq_left', ← accepted, ← vendor]
      cases verdict : rule.judgeValue imageLike text <;> simp_all

/-! ## Rules that know no vendors -/

section

variable {value : String} (level : rule ≠ .align) (upright : rule ≠ .valign)

theorem findings_of_admits (admitted : rule.Admits owner.isImageLike value) :
    rule.findings owner (attr.withValue value) = ∅ := by
  have accepted := (rule.judgeValue_eq_accepted _ _).mpr admitted
  simp only [findings, judge, Attribute.withValue, accepted]

include level upright

theorem findings_of_not_admits (refused : ¬rule.Admits owner.isImageLike value) :
    rule.findings owner (attr.withValue value) =
      owner.report .badAttributeValue (attr.withValue value) := by
  have bad : rule.judge owner.isImageLike (some value) = .bad :=
    (judge_eq_bad _).mpr ⟨value, rfl, refused, by simp [level, upright]⟩
  rw [findings, Attribute.withValue, bad]

end

/-- A rule recognises a language if it is silent on the values in it, and reports every other value
as bad, once. What a pass has found out about the document is of no concern to it. -/
structure Recognises (rule : ValueRule) (language : String → Prop) : Prop where
  silent : ∀ (pass : Pass) (owner : Owner) (attr : Attribute) (value : String),
    (pass.absorb (rule.findings owner (attr.withValue value))).diagnostics = pass.diagnostics ↔
      language value
  reported : ∀ (pass : Pass) (owner : Owner) (attr : Attribute) (value : String),
    ¬language value →
      (pass.absorb (rule.findings owner (attr.withValue value))).diagnostics =
        pass.diagnostics.push
          { kind := .badAttributeValue, element := owner.tag, attributeName := some attr.name,
            value := some value }
  state : ∀ (pass : Pass) (owner : Owner) (attr : Attribute) (value : String),
    (pass.absorb (rule.findings owner (attr.withValue value))).state = pass.state

theorem recognises_admitted (level : rule ≠ .align) (upright : rule ≠ .valign)
    {language : String → Prop}
    (same : ∀ imageLike value, rule.Admits imageLike value ↔ language value) :
    rule.Recognises language where
  silent pass owner attr value := by
    rw [← same owner.isImageLike]
    constructor
    · intro unchanged
      by_contra refused
      rw [findings_of_not_admits level upright refused, Owner.report, Pass.absorb_raise]
        at unchanged
      exact absurd (congrArg Array.size unchanged) (by simp)
    · intro admitted
      rw [findings_of_admits admitted, Pass.absorb_empty]
  reported pass owner attr value refused := by
    rw [← same owner.isImageLike] at refused
    rw [findings_of_not_admits level upright refused, Owner.report, Pass.absorb_raise]
    rfl
  state pass owner attr value := by
    by_cases admitted : rule.Admits owner.isImageLike value
    · rw [findings_of_admits admitted, Pass.absorb_empty]
    · rw [findings_of_not_admits level upright admitted, Owner.report, Pass.absorb_raise]

/-! ## Repairs of colours -/

section

variable (options : Options) (attr : Attribute) {value : String}

theorem repair_color_of_sixHex (six : value.toList ∈ sixHex.matches') :
    color.repair options (attr.withValue value) = attr.withValue ("#" ++ value) := by
  have passed : isSixHex value.toList = true := isSixHex_iff.mpr six
  simp [repair, repairValue, Attribute.withValue, passed]

theorem repair_color_of_not_sixHex (other : value.toList ∉ sixHex.matches') :
    color.repair options (attr.withValue value) = attr.withValue value := by
  have failed : isSixHex value.toList = false := by
    rwa [← Bool.not_eq_true, isSixHex_iff]
  simp [repair, repairValue, Attribute.withValue, failed]

theorem signed_of_sixHex (six : value.toList ∈ sixHex.matches') :
    ("#" ++ value).toList ∈ colorNumber.matches' ∧ ("#" ++ value).toList ∉ sixHex.matches' := by
  rw [← isColorNumber_iff, ← isSixHex_iff, String.toList_append]
  have signed := sign_of_isSixHex (isSixHex_iff.mpr six)
  exact ⟨signed.1, Bool.eq_false_iff.mp signed.2⟩

end

end ValueRule

/-! ## Digits as bytes -/

namespace ValueGrammar

theorem isSixHex_eq_bytes (value : String) :
    isSixHex value.toList =
      (value.utf8ByteSize == 6 && (Text.bytes value).all Text.isHexByte) := by
  rw [Text.agree_hexDigit.sized_all_bytes, ← String.length_toList]
  rfl

theorem isColorNumber_eq_bytes (digits : String) :
    isColorNumber ("#" ++ digits).toList =
      ((digits.utf8ByteSize == 3 || digits.utf8ByteSize == 6) &&
        (Text.bytes digits).all Text.isHexByte) := by
  rw [Bool.and_or_distrib_right, Text.agree_hexDigit.sized_all_bytes,
    Text.agree_hexDigit.sized_all_bytes, ← Bool.and_or_distrib_right, ← String.length_toList,
    String.toList_append]
  rfl

end ValueGrammar

/-! ## Grammars -/

namespace ValueRule

open ValueGrammar

/-- Numbers, lengths, frame names and colours are recognised exactly. Of such a value nothing is
changed, except that six digits of a colour get a number sign, with which they are admitted and
left alone. Digits may be counted and tested as characters or as the bytes that encode them. -/
theorem grammars_recognised :
    number.Recognises (fun value => value.toList ∈ ValueGrammar.number.matches') ∧
      length.Recognises (fun value => value.toList ∈ ValueGrammar.length.matches') ∧
      target.Recognises IsTarget ∧
      color.Recognises (fun value => value.toList ∈ colorNumber.matches' ∨
        IsWord colorNames value ∨ value.toList ∈ sixHex.matches') ∧
      (∀ rule ∈ [number, length, target, color],
        ∀ (options : Options) (attr : Attribute) (value : String),
          ¬(rule = color ∧ value.toList ∈ sixHex.matches') →
            rule.repair options (attr.withValue value) = attr.withValue value) ∧
      (∀ (options : Options) (attr : Attribute) (value : String),
        value.toList ∈ sixHex.matches' →
          let signed := attr.withValue ("#" ++ value)
          color.repair options (attr.withValue value) = signed ∧
            color.repair options signed = signed ∧
            ∀ (pass : Pass) (owner : Owner),
              pass.absorb (color.findings owner signed) = pass) ∧
      ∀ text : String,
        text.toList.all Char.isDigit = (Text.bytes text).all Text.isDigitByte ∧
          isSixHex text.toList =
            (text.utf8ByteSize == 6 && (Text.bytes text).all Text.isHexByte) ∧
          isColorNumber ("#" ++ text).toList =
            ((text.utf8ByteSize == 3 || text.utf8ByteSize == 6) &&
              (Text.bytes text).all Text.isHexByte) := by
  refine ⟨recognises_admitted (by decide) (by decide) fun _ _ => Iff.rfl,
    recognises_admitted (by decide) (by decide) fun _ _ => Iff.rfl,
    recognises_admitted (by decide) (by decide) fun _ _ => Iff.rfl,
    recognises_admitted (by decide) (by decide) fun _ _ => Iff.rfl, ?_, ?_, ?_⟩
  · intro rule listed options attr value plain
    simp only [List.mem_cons, List.not_mem_nil, or_false] at listed
    rcases listed with rfl | rfl | rfl | rfl
    · rfl
    · rfl
    · rfl
    · exact repair_color_of_not_sixHex options attr fun six => plain ⟨rfl, six⟩
  · intro options attr value six signed
    obtain ⟨numbered, longer⟩ := signed_of_sixHex six
    refine ⟨repair_color_of_sixHex options attr six,
      repair_color_of_not_sixHex options attr longer, fun pass owner => ?_⟩
    have admitted : color.Admits owner.isImageLike ("#" ++ value) := Or.inl numbered
    rw [findings_of_admits admitted, Pass.absorb_empty]
  · intro text
    exact ⟨(Text.agree_digit.all_bytes text).symm, isSixHex_eq_bytes text,
      isColorNumber_eq_bytes text⟩

end ValueRule

end HtmlConformance
