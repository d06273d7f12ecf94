import HtmlConformance.Proofs.Check.Repair

namespace HtmlConformance

/-! What a check does to an element, exactly: which values it puts in the place of which others,
and which attribute it appends. All else stays as and where it is. -/

/-- The value that a check gives to an attribute, which has other attributes of the element
before it. -/
inductive ElementCheck.Rewrites (check : ElementCheck) (options : Options)
    (before : List Attribute) (attr : Attribute) : String → Prop
  | slashes {value : String} (rule : attr.valueRule? = some .url)
      (asked : options.slashUrls = true) (valued : attr.value = some value) :
      Rewrites check options before attr
        (value.map fun char => if char = '\\' then '/' else char)
  | sign {value : String} (rule : attr.valueRule? = some .color)
      (valued : attr.value = some value) (six : ValueGrammar.isSixHex value.toList = true) :
      Rewrites check options before attr ("#" ++ value)
  | width (tabled : check = .table) (output : options.xmlOutput = true)
      (border : attr.isNamed "border" = true) (bare : attr.value = none)
      (first : ∀ other ∈ before, other.isNamed "border" = false) :
      Rewrites check options before attr "1"

/-- The attribute that a check appends to an element. -/
inductive ElementCheck.Appends (options : Options) (hook : IdRepair.BuiltIn) (element : Element) :
    ElementCheck → Attribute → Prop
  | style (untyped : element.has "type" = false) :
      Appends options hook element .style (.valued "type" "text/css")
  | link {relation : Attribute} (untyped : element.has "type" = false)
      (related : element.find? "rel" = some relation)
      (sheet : relation.value = some "stylesheet") :
      Appends options hook element .link (.valued "type" "text/css")
  | script (untyped : element.has "type" = false)
      (inferred : ElementCheck.isJavaScript element = true) :
      Appends options hook element .script (.valued "type" "text/javascript")
  | image {text : String} (undescribed : element.has "alt" = false)
      (fallback : options.fallbackAlt = some text) :
      Appends options hook element .image (.valued "alt" text)
  | id {check : ElementCheck} {name : Attribute} {value : String}
      (pointed : check = .anchor ∨ check = .map) (copies : hook = .copyName)
      (output : options.xmlOutput = true) (named : element.find? "name" = some name)
      (valued : name.value = some value) (unidentified : element.has "id" = false) :
      Appends options hook element check (.valued "id" value)

/-- An attribute before and after a check. -/
structure ElementCheck.RepairsTo (check : ElementCheck) (options : Options)
    (before : List Attribute) (attr changed : Attribute) : Prop where
  name : changed.name = attr.name
  delimiter : changed.delimiter = attr.delimiter
  fragment : changed.fragment = attr.fragment
  rewritten : ∀ value, check.Rewrites options before attr value → changed.value = some value
  kept : (∀ value, ¬check.Rewrites options before attr value) → changed.value = attr.value

namespace ElementCheck

variable (check : ElementCheck) (options : Options) (hook : IdRepair.BuiltIn) (owner : Owner)
    (element : Element)

/-! ## Values -/

/-- Whether an attribute is the first border of a table that is to become XHTML. -/
def widens (before : List Attribute) (attr : Attribute) : Bool :=
  (check == .table && options.xmlOutput) &&
    (attr.isNamed "border" && before.all fun other => !other.isNamed "border")

theorem getElem?_rewrite (index : Nat) :
    (check.rewrite options owner element).attributes[index]? =
      element.attributes[index]?.map fun attr =>
        if check.widens options (element.attributes.take index) attr then widen attr
        else attr.repair options := by
  have swept : (check.swept options owner element).attributes[index]? =
      element.attributes[index]?.map fun attr => attr.repair options := by
    rw [attributes_swept, List.getElem?_map]
  cases tabled : check == .table && options.xmlOutput with
  | false =>
      have plain : check.rewrite options owner element = check.swept options owner element := by
        cases check <;> simp_all [rewrite]
      simp only [plain, swept, widens, tabled, Bool.false_and, Bool.false_eq_true, if_false]
  | true =>
      have modified : check.rewrite options owner element =
          (check.swept options owner element).modify "border" widen := by
        rw [Bool.and_eq_true, beq_iff_eq] at tabled
        obtain ⟨rfl, output⟩ := tabled
        exact if_pos output
      have before : ((check.swept options owner element).attributes.take index).all
          (fun other => !other.isNamed "border") =
            (element.attributes.take index).all fun other => !other.isNamed "border" := by
        rw [attributes_swept, ← List.map_take, List.all_map]
        simp only [Function.comp_def, Attribute.isNamed_repair]
      rw [modified, Element.modify, getElem?_updateFirst, before, swept, Option.map_map]
      congr 1
      funext attr
      simp only [Function.comp_apply, Attribute.isNamed_repair, widens, tabled, Bool.true_and]
      split
      next border =>
        rw [Attribute.repair_border options (Bool.and_eq_true_iff.mp border).1]
      next => rfl

theorem repairsTo_widen {before : List Attribute} {attr : Attribute}
    (widens : check.widens options before attr = true) :
    check.RepairsTo options before attr (widen attr) where
  name := rfl
  delimiter := rfl
  fragment := rfl
  rewritten value rewrites := by
    simp only [ElementCheck.widens, Bool.and_eq_true] at widens
    have rule := Attribute.valueRule?_border widens.2.1
    cases rewrites with
    | slashes other => rw [rule] at other; cases other
    | sign other => rw [rule] at other; cases other
    | width _ _ _ bare _ => rw [widen, bare, Option.getD_none]
  kept none := by
    simp only [ElementCheck.widens, Bool.and_eq_true, beq_iff_eq, List.all_eq_true,
      Bool.not_eq_true'] at widens
    cases bare : attr.value with
    | none =>
        exact absurd (.width widens.1.1 widens.1.2 widens.2.1 bare widens.2.2) (none "1")
    | some value => rw [widen, bare, Option.getD_some]

theorem repairsTo_repair {before : List Attribute} {attr : Attribute}
    (narrow : check.widens options before attr = false) :
    check.RepairsTo options before attr (attr.repair options) where
  name := attr.name_repair options
  delimiter := attr.delimiter_repair options
  fragment := attr.fragment_repair options
  rewritten value rewrites := by
    cases rewrites with
    | slashes rule asked valued =>
        rw [attr.repair_of_valueRule? options rule]
        simp [ValueRule.repair, ValueRule.repairValue, valued, asked]
    | sign rule valued six =>
        rw [attr.repair_of_valueRule? options rule]
        simp [ValueRule.repair, ValueRule.repairValue, valued, six]
    | width tabled output border _ first =>
        have widens : check.widens options before attr = true := by
          simpa [ElementCheck.widens, tabled, output, border] using first
        exact absurd (narrow.symm.trans widens) Bool.false_ne_true
  kept none := by
    cases found : attr.valueRule? with
    | none => rw [attr.repair_of_no_valueRule? options found]
    | some rule =>
        rw [attr.repair_of_valueRule? options found, ValueRule.repair]
        cases valued : attr.value with
        | none => rfl
        | some value =>
            have same : rule.repairValue options value = value := by
              cases rule with
              | url =>
                  apply if_neg
                  intro asked
                  exact none _ (.slashes found asked valued)
              | color =>
                  apply if_neg
                  intro six
                  exact none _ (.sign found valued six)
              | _ => rfl
            rw [Option.map_some, same]

theorem repairsTo_rewrite (before : List Attribute) (attr : Attribute) :
    check.RepairsTo options before attr
      (if check.widens options before attr then widen attr else attr.repair options) := by
  cases widens : check.widens options before attr with
  | true => exact repairsTo_widen check options widens
  | false => exact repairsTo_repair check options widens

/-! ## Appended attributes -/

theorem find?_rewrite {name : String} (untabled : check ≠ .table)
    (fixed : ∀ {attr : Attribute}, attr.isNamed name = true → attr.repair options = attr) :
    (check.rewrite options owner element).find? name = element.find? name := by
  rw [rewrite_eq_swept check options owner element untabled, find?_swept]
  cases found : element.find? name with
  | none => rfl
  | some attr => rw [Option.map_some, fixed (Element.isNamed_of_find? found)]

/-- Rules read the values of attributes in which there is nothing to rewrite. -/
theorem find?_rewrite_of_read {name : String} (untabled : check ≠ .table)
    (read : name ∈ ["language", "name", "rel"]) :
    (check.rewrite options owner element).find? name = element.find? name := by
  apply find?_rewrite check options owner element untabled
  intro attr named
  simp only [List.mem_cons, List.not_mem_nil, or_false] at read
  rcases read with rfl | rfl | rfl
  · exact attr.repair_of_no_valueRule? options (Attribute.valueRule?_of_isNamed (by cbv) named)
  · exact Attribute.repair_name options named
  · exact attr.repair_of_no_valueRule? options (Attribute.valueRule?_of_isNamed (by cbv) named)

theorem isJavaScript_rewrite (untabled : check ≠ .table) :
    isJavaScript (check.rewrite options owner element) = isJavaScript element := by
  rw [isJavaScript, find?_rewrite_of_read check options owner element untabled (by simp),
    isJavaScript]

theorem isStyleSheet_rewrite (untabled : check ≠ .table) :
    isStyleSheet (check.rewrite options owner element) = isStyleSheet element := by
  rw [isStyleSheet, find?_rewrite_of_read check options owner element untabled (by simp),
    isStyleSheet]

/-- Whatever a check may supply is missing after the rewriting if it was missing before. -/
theorem has_sweep_rewrite (supplied : Supplied) :
    (check.sweep options owner (check.rewrite options owner element)).has supplied.name =
      element.has supplied.name := by
  rw [has_sweep _ _ _ _ supplied.isKnown_name, has_rewrite]

theorem appended_hook_rewrite (untabled : check ≠ .table) :
    hook.appended options (check.rewrite options owner element) =
      hook.appended options element := by
  cases hook with
  | none => rfl
  | copyName =>
      rw [IdRepair.BuiltIn.appended, IdRepair.nameValue?, has_rewrite,
        find?_rewrite_of_read check options owner element untabled (by simp)]
      rfl

/-- Elements that links can point at get what the hook gives them. -/
theorem appended_rewrite_of_pointed (pointed : check = .anchor ∨ check = .map) :
    check.appended options hook owner (check.rewrite options owner element) =
      hook.appended options element := by
  rcases pointed with rfl | rfl
  · exact appended_hook_rewrite anchor options hook owner element (by decide)
  · exact appended_hook_rewrite map options hook owner element (by decide)

section

variable {check options hook element} {attr : Attribute}

theorem appends_of_appended_hook (pointed : check = .anchor ∨ check = .map)
    (appends : hook.appended options element = some attr) :
    Appends options hook element check attr := by
  cases hook with
  | none => cases appends
  | copyName =>
      simp only [IdRepair.BuiltIn.appended] at appends
      split at appends
      next free =>
        rw [Bool.and_eq_true, Bool.not_eq_true'] at free
        obtain ⟨value, named, rfl⟩ := Option.map_eq_some_iff.mp appends
        obtain ⟨name, found, valued⟩ := Option.bind_eq_some_iff.mp named
        exact .id pointed rfl free.1 found valued free.2
      next => cases appends

theorem appends_of_appended
    (appends : check.appended options hook owner (check.rewrite options owner element) =
      some attr) :
    Appends options hook element check attr := by
  have typed := has_sweep_rewrite check options owner element .type
  have described := has_sweep_rewrite check options owner element .alt
  simp only [Supplied.name] at typed described
  cases check with
  | style =>
      simp only [appended, inserted, typed] at appends
      split at appends
      next => cases appends
      next untyped =>
        rw [← Option.some.inj appends]
        exact .style (eq_false_of_ne_true untyped)
  | script =>
      simp only [appended, inserted, typed] at appends
      split at appends
      next inferred =>
        rw [Bool.and_eq_true, Bool.not_eq_true',
          isJavaScript_rewrite script options owner element (by decide)] at inferred
        rw [← Option.some.inj appends]
        exact .script inferred.1 inferred.2
      next => cases appends
  | link =>
      simp only [appended, inserted, typed] at appends
      split at appends
      next sheet =>
        rw [Bool.and_eq_true, Bool.not_eq_true',
          isStyleSheet_rewrite link options owner element (by decide), isStyleSheet,
          Option.any_eq_true] at sheet
        obtain ⟨⟨relation, found, valued⟩, untyped⟩ := sheet
        rw [← Option.some.inj appends]
        exact .link untyped found (eq_of_beq valued)
      next => cases appends
  | image =>
      simp only [appended, inserted, described] at appends
      split at appends
      next => cases appends
      next undescribed =>
        obtain ⟨text, fallback, rfl⟩ := Option.map_eq_some_iff.mp appends
        exact .image (eq_false_of_ne_true undescribed) fallback
  | anchor =>
      rw [appended_rewrite_of_pointed anchor options hook owner element (.inl rfl)] at appends
      exact appends_of_appended_hook (.inl rfl) appends
  | map =>
      rw [appended_rewrite_of_pointed map options hook owner element (.inr rfl)] at appends
      exact appends_of_appended_hook (.inr rfl) appends
  | _ => cases appends

theorem appended_of_appends (appends : Appends options hook element check attr) :
    check.appended options hook owner (check.rewrite options owner element) = some attr := by
  have typed := has_sweep_rewrite check options owner element .type
  have described := has_sweep_rewrite check options owner element .alt
  simp only [Supplied.name] at typed described
  cases appends with
  | style untyped => simp [appended, inserted, typed, untyped]
  | link untyped related sheet =>
      have valued : isStyleSheet element = true := by simp [isStyleSheet, related, sheet]
      simp [appended, inserted, typed, untyped, isStyleSheet_rewrite, valued]
  | script untyped inferred =>
      simp [appended, inserted, typed, untyped, isJavaScript_rewrite, inferred]
  | image undescribed fallback => simp [appended, inserted, described, undescribed, fallback]
  | id pointed copies output named valued unidentified =>
      rw [appended_rewrite_of_pointed check options hook owner element pointed, copies]
      simp [IdRepair.BuiltIn.appended, IdRepair.nameValue?, output, named, unidentified, valued]

theorem appends_fresh (appends : Appends options hook element check attr) :
    attr.delimiter = '"' ∧ attr.fragment = none ∧
      ∀ other ∈ element.attributes, other.isNamed attr.name = false := by
  have absent {name : String} (missing : element.has name = false) :
      ∀ other ∈ element.attributes, other.isNamed name = false :=
    fun _ member => Element.isNamed_eq_false_of_not_has missing member
  cases appends with
  | style untyped => exact ⟨rfl, rfl, absent untyped⟩
  | link untyped => exact ⟨rfl, rfl, absent untyped⟩
  | script untyped => exact ⟨rfl, rfl, absent untyped⟩
  | image undescribed => exact ⟨rfl, rfl, absent undescribed⟩
  | id _ _ _ _ _ unidentified => exact ⟨rfl, rfl, absent unidentified⟩

end

/-- A check leaves the tag and every attribute where it is, under its name, in its quotes and with
its template code. A value changes only if it is a URL whose backslashes become slashes, six
digits of a colour that get a number sign, or the width of a table's border that was left open;
and then it does. At most one attribute is appended, behind all others and under a name that none
of them has: a type, a text or an id, as the kind of element asks for it. -/
theorem repair_effect :
    let after := check.repair options hook.rule owner element
    after.tag = element.tag ∧
      (∀ index attr, element.attributes[index]? = some attr →
        ∃ changed, after.attributes[index]? = some changed ∧
          check.RepairsTo options (element.attributes.take index) attr changed) ∧
      ∃ appended : Option Attribute,
        after.attributes.drop element.attributes.length = appended.toList ∧
        (∀ attr, appended = some attr ↔ Appends options hook element check attr) ∧
        ∀ attr, appended = some attr → attr.delimiter = '"' ∧ attr.fragment = none ∧
          ∀ other ∈ element.attributes, other.isNamed attr.name = false := by
  intro after
  let rewritten := check.rewrite options owner element
  have parts : after.attributes = rewritten.attributes ++
      (check.appended options hook owner rewritten).toList :=
    attributes_repair check options hook owner element
  have length : rewritten.attributes.length = element.attributes.length :=
    (sameButValues_rewrite check options owner element).length_eq.symm
  have appends (attr : Attribute) : check.appended options hook owner rewritten = some attr ↔
      Appends options hook element check attr :=
    ⟨appends_of_appended owner, appended_of_appends owner⟩
  refine ⟨tag_repair check options hook owner element, ?_,
    check.appended options hook owner rewritten, ?_, appends,
    fun attr appended => appends_fresh ((appends attr).mp appended)⟩
  · intro index attr found
    have rewrites := getElem?_rewrite check options owner element index
    have inside : index < rewritten.attributes.length := by
      rw [length]
      exact (List.getElem?_eq_some_iff.mp found).1
    rw [found, Option.map_some] at rewrites
    refine ⟨_, ?_, repairsTo_rewrite check options (element.attributes.take index) attr⟩
    rw [parts, List.getElem?_append_left inside, rewrites]
  · rw [parts, ← length, List.drop_left]

/-- An image gets slashes in its source and the text it lacks. -/
theorem repair_effect_of_image :
    let options : Options := { slashUrls := true, fallbackAlt := some "a photo" }
    let element : Element := ⟨"IMG", [.bare "ismap", .valued "SRC" "img\\a.png"]⟩
    let after := image.repair options IdRepair.none (.ofTag "IMG") element
    element.attributes[1]? = some (.valued "SRC" "img\\a.png") ∧
      (∃ changed, after.attributes[1]? = some changed ∧ changed.value = some "img/a.png") ∧
      after.attributes.drop 2 = [.valued "alt" "a photo"] := by
  intro options element after
  obtain ⟨_, repairs, appended, last, appends, _⟩ :=
    repair_effect image options .none (.ofTag "IMG") element
  have second : element.attributes[1]? = some (.valued "SRC" "img\\a.png") := by simp [element]
  obtain ⟨changed, found, repaired⟩ := repairs 1 _ second
  have row : (AttributeRule.find? "src").bind AttributeRule.value = some .url := by cbv
  have source : (Attribute.valued "SRC" "img\\a.png").isNamed "src" = true := by cbv
  have url := Attribute.valueRule?_of_isNamed row source
  have valued : (Attribute.valued "SRC" "img\\a.png").value = some "img\\a.png" := rfl
  have slashed := repaired.rewritten _ (.slashes url rfl valued)
  have undescribed : element.has "alt" = false := by cbv
  refine ⟨second, ⟨changed, found, slashed.trans (by cbv)⟩, last.trans ?_⟩
  rw [(appends _).mpr (.image undescribed rfl), Option.toList_some]

end ElementCheck

end HtmlConformance
