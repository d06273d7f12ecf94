import HtmlConformance.Proofs.Checking.Element
import HtmlConformance.Proofs.Check.Effect
import HtmlConformance.Proofs.Rule.Element
import HtmlConformance.Proofs.Text

namespace HtmlConformance

/-! Scripts without a type. A script is taken for JavaScript by its first language or for want of
one; the ten characters that the check looks at are enough to tell. -/

/-! ## Names of the language -/

namespace Text

/-- Ten characters are all of the longer name, and more than the shorter one has: a value may go on
after the longer name, but it has to be the shorter one as a whole. -/
theorem isOneOf_head_iff (text : String) :
    isOneOf (head 10 text) ["javascript", "jscript"] = true ↔
      BeginsWith text "javascript" ∨ alike text "jscript" = true := by
  have longer : alike (head 10 text) "javascript" = true ↔ BeginsWith text "javascript" :=
    alike_head_iff_beginsWith text "javascript"
  have shorter := alike_head_iff_alike text (by decide : "jscript".length < 10)
  rw [isOneOf, List.any_cons, List.any_cons, List.any_nil, Bool.or_false, Bool.or_eq_true, longer,
    shorter]

theorem not_beginsWith_both {text : String} (short : BeginsWith text "jscript") :
    ¬BeginsWith text "javascript" := by
  intro long
  have apart : ((folded "jscript").toList.isPrefixOf (folded "javascript").toList ||
      (folded "javascript").toList.isPrefixOf (folded "jscript").toList) = false := by cbv
  have nested := List.prefix_or_prefix_of_prefix short.isPrefix long.isPrefix
  rw [← List.isPrefixOf_iff_prefix, ← List.isPrefixOf_iff_prefix, ← Bool.or_eq_true, apart]
    at nested
  cases nested

/-- A value that goes on after the shorter name is none of the two. -/
theorem not_named_of_longer {first rest : String} (short : alike first "jscript" = true)
    (longer : rest ≠ "") :
    ¬(BeginsWith (first ++ rest) "javascript" ∨ alike (first ++ rest) "jscript" = true) := by
  rintro (begins | equals)
  · exact not_beginsWith_both ⟨first, rest, rfl, short⟩ begins
  · have whole := length_of_alike equals
    rw [← length_of_alike short, String.length_append] at whole
    exact longer (String.length_eq_zero_iff.mp (by omega))

end Text

/-! ## Scripts -/

/-- A script is in JavaScript if it names no language, or if the first language that it names
begins with the one name of JavaScript or is the other. -/
inductive Element.InfersJavaScript (element : Element) : Prop
  | unnamed (missing : element.has "language" = false)
  | begins {language : Attribute} {text : String} (first : element.find? "language" = some language)
      (valued : language.value = some text) (named : Text.BeginsWith text "javascript")
  | equals {language : Attribute} {text : String} (first : element.find? "language" = some language)
      (valued : language.value = some text) (named : Text.alike text "jscript" = true)

namespace Element

variable {element : Element} {language : Attribute}

theorem infersJavaScript_iff_of_first (first : element.find? "language" = some language) :
    element.InfersJavaScript ↔ ∃ text, language.value = some text ∧
      (Text.BeginsWith text "javascript" ∨ Text.alike text "jscript" = true) := by
  constructor
  · intro infers
    cases infers with
    | unnamed missing =>
        rw [has_eq_isSome, first] at missing
        cases missing
    | begins found valued named =>
        cases first.symm.trans found
        exact ⟨_, valued, .inl named⟩
    | equals found valued named =>
        cases first.symm.trans found
        exact ⟨_, valued, .inr named⟩
  · rintro ⟨text, valued, begins | equals⟩
    · exact .begins first valued begins
    · exact .equals first valued equals

theorem isJavaScript_iff : ElementCheck.isJavaScript element = true ↔ element.InfersJavaScript := by
  cases found : element.find? "language" with
  | none =>
      have missing : element.has "language" = false := by
        rw [has_eq_isSome, found]
        rfl
      exact iff_of_true (by rw [ElementCheck.isJavaScript, found]) (.unnamed missing)
  | some language =>
      rw [infersJavaScript_iff_of_first found, ElementCheck.isJavaScript, found, Option.any_eq_true]
      exact exists_congr fun text => and_congr_right' (Text.isOneOf_head_iff text)

/-- Of several languages the first one counts. -/
theorem infersJavaScript_append (first : element.find? "language" = some language)
    (later : List Attribute) :
    ({ element with attributes := element.attributes ++ later } : Element).InfersJavaScript ↔
      element.InfersJavaScript := by
  have still : ({ element with attributes := element.attributes ++ later } : Element).find?
      "language" = some language := by
    rw [find?] at first
    rw [find?, List.find?_append, first, Option.some_or]
  rw [infersJavaScript_iff_of_first still, infersJavaScript_iff_of_first first]

end Element

/-! ## Types of scripts -/

namespace ElementCheck

theorem attributes_repair_script (options : Options) (hook : IdRepair) (owner : Owner)
    (element : Element) :
    (script.repair options hook owner element).attributes =
      element.attributes.map (fun attr => attr.repair options) ++
        if !element.has "type" && isJavaScript element then [.valued "type" "text/javascript"]
        else [] := by
  have typed : (script.sweep options owner element).has "type" = element.has "type" :=
    script.has_sweep options owner element Supplied.type.isKnown_name
  have inferred : isJavaScript (script.swept options owner element) = isJavaScript element :=
    script.isJavaScript_rewrite options owner element (by decide)
  rw [← script.attributes_swept options owner element]
  simp only [repair, inserted, typed, inferred]
  cases !element.has "type" && isJavaScript element with
  | true => rfl
  | false => exact (List.append_nil _).symm

end ElementCheck

/-- A visit appends a type to a script if and only if the script has no type and is in JavaScript,
by its first language or for want of one. A first language without a value does not count, nor does
what only begins with the shorter name, and no later language matters. The characters that are
looked at end where the next one begins. -/
theorem Pass.visit_infers_script_type (pass : Pass) (hook : IdRepair) (element : Element)
    (scripted : element.isTagged "script" = true) :
    let before := element.attributes.map fun attr => attr.repair pass.state.options
    let typed := before ++ [.valued "type" "text/javascript"]
    let after := (pass.visit hook element).1.attributes
    (after = before ∨ after = typed) ∧
      (after = typed ↔ element.has "type" = false ∧ element.InfersJavaScript) ∧
      (∀ language, element.find? "language" = some language →
        (language.value = none → after = before) ∧
          (∀ first rest, language.value = some (first ++ rest) →
            Text.alike first "jscript" = true → rest ≠ "" → after = before) ∧
          ∀ later, ({ element with attributes := element.attributes ++ later } :
            Element).InfersJavaScript ↔ element.InfersJavaScript) ∧
      ∀ text : String, ∃ cut : text.Pos,
        cut.Splits (Text.head 10 text) (Text.afterHead 10 text) ∧
          cut.offset.byteIdx = ((Text.starts text)[10]?).getD text.utf8ByteSize := by
  rw [visit_eq]
  intro before typed after
  have checked : element.check = .script :=
    eq_of_beq (element.check_beq_script.trans scripted)
  have parts : after = before ++
      if !element.has "type" && ElementCheck.isJavaScript element then
        [.valued "type" "text/javascript"]
      else [] := by
    rw [← ElementCheck.attributes_repair_script pass.state.options hook (.ofTag element.tag),
      ← checked]
    rfl
  have adds (untyped : element.has "type" = false) (infers : element.InfersJavaScript) :
      after = typed := by
    rw [parts, untyped, Element.isJavaScript_iff.mpr infers]
    rfl
  have keeps (other : ¬(element.has "type" = false ∧ element.InfersJavaScript)) :
      after = before := by
    rw [parts, if_neg, List.append_nil]
    rwa [Bool.and_eq_true, Bool.not_eq_true', Element.isJavaScript_iff]
  refine ⟨?_, ⟨fun appended => ?_, fun inferred => adds inferred.1 inferred.2⟩,
    fun language first => ⟨fun bare => ?_, fun name rest valued short longer => ?_,
      Element.infersJavaScript_append first⟩, Text.splits_head 10⟩
  · by_cases inferred : element.has "type" = false ∧ element.InfersJavaScript
    · exact .inr (adds inferred.1 inferred.2)
    · exact .inl (keeps inferred)
  · by_contra other
    have length := congrArg List.length ((keeps other).symm.trans appended)
    simp [typed] at length
  · apply keeps
    rintro ⟨_, infers⟩
    obtain ⟨text, valued, _⟩ := (Element.infersJavaScript_iff_of_first first).mp infers
    rw [bare] at valued
    cases valued
  · apply keeps
    rintro ⟨_, infers⟩
    obtain ⟨text, same, named⟩ := (Element.infersJavaScript_iff_of_first first).mp infers
    cases valued.symm.trans same
    exact Text.not_named_of_longer short longer named

/-- The version of a language does not matter, nor that another one follows. -/
theorem Pass.visit_infers_script_type_of_version :
    let element : Element :=
      ⟨"SCRIPT", [.valued "LANGUAGE" "JavaScript1.2", .valued "language" "VBScript"]⟩
    element.isTagged "script" = true ∧
      ((Pass.start {}).visit IdRepair.copyName element).1.attributes =
        element.attributes ++ [.valued "type" "text/javascript"] := by
  intro element
  have scripted : element.isTagged "script" = true := by cbv
  have untyped : element.has "type" = false := by cbv
  have languages (attr : Attribute) (member : attr ∈ element.attributes) :
      attr.isNamed "language" = true := by
    fin_cases member <;> cbv
  have first : element.find? "language" = some (.valued "LANGUAGE" "JavaScript1.2") :=
    List.find?_cons_of_pos (languages _ List.mem_cons_self)
  have named : Text.BeginsWith "JavaScript1.2" "javascript" :=
    ⟨"JavaScript", "1.2", by decide, by cbv⟩
  -- There is no rule for the values of languages, so nothing becomes of them.
  have kept (attr : Attribute) (member : attr ∈ element.attributes) : attr.repair {} = attr :=
    attr.repair_of_no_valueRule? {}
      (Attribute.valueRule?_of_isNamed (by cbv) (languages attr member))
  obtain ⟨_, inferred, _⟩ :=
    visit_infers_script_type (.start {}) IdRepair.copyName element scripted
  refine ⟨scripted, (inferred.mpr ⟨untyped, .begins first rfl named⟩).trans ?_⟩
  exact congrArg (· ++ _) ((List.map_congr_left kept).trans (List.map_id _))

end HtmlConformance
