import HtmlConformance.Proofs.Check.RuleFindings

namespace HtmlConformance

/-! What a check finds on an element that it has repaired, compared with what it found
before: values aside, the only difference is the attribute that it supplied. -/

namespace IdRepair.BuiltIn

/-- Where a rule for ids appends one it narrows the versions, and with the id in place it has
nothing to say. -/
theorem findings_of_appended {hook : BuiltIn} {options : Options} {element : Element}
    {attr : Attribute} (appends : hook.appended options element = some attr) (owner : Owner) :
    hook.rule.findings options owner element = .narrow .from40 ∧
      hook.rule.findings options owner (element.push attr) = ∅ := by
  cases hook with
  | none => cases appends
  | copyName =>
      simp only [appended] at appends
      split at appends
      next absent =>
        rcases Option.map_eq_some_iff.mp appends with ⟨value, named, rfl⟩
        rw [Bool.and_eq_true, Bool.not_eq_true', Element.has_eq_isSome,
          Option.isSome_eq_false_iff, Option.isNone_iff_eq_none] at absent
        have other : (Attribute.valued "id" value).isNamed "name" = false := by cbv
        have same : (Attribute.valued "id" value).isNamed "id" = true := Text.alike_self "id"
        have stillNamed : nameValue? (element.push (.valued "id" value)) = some value := by
          rw [nameValue?, Element.find?_push, other]
          simpa [nameValue?] using named
        have placed : (element.push (.valued "id" value)).find? "id" =
            some (.valued "id" value) := by
          rw [Element.find?_push, absent.2, same, Option.none_or, if_pos rfl]
        constructor
        · simp only [rule, IdRepair.copyName, named, absent.2, absent.1, if_true]
          rfl
        · simp only [rule, IdRepair.copyName, stillNamed, placed]
          exact if_pos (beq_self_eq_true (some value))
      next => cases appends

end IdRepair.BuiltIn

namespace Supplied

def answers (supplied : Supplied) (diagnostic : Diagnostic) : Bool :=
  diagnostic.kind == .missingAttribute &&
    diagnostic.attributeName.any fun name => Text.alike supplied.name name

theorem filter_absence (supplied : Supplied) (owner : Owner) :
    ((supplied.absence owner).diagnostics.filter fun diagnostic =>
      !supplied.answers diagnostic) = [] := by
  apply List.filter_eq_nil_iff.mpr
  intro diagnostic member
  rw [Bool.not_eq_true, Bool.not_eq_false']
  cases supplied with
  | type =>
      rw [List.mem_singleton.mp member]
      exact Text.alike_self "type"
  | alt =>
      rw [List.mem_singleton.mp member]
      exact Text.alike_self "alt"
  | id => cases member

theorem filter_unanswered {supplied : Supplied} {findings : Findings}
    (unanswered : ∀ diagnostic ∈ findings.diagnostics, supplied.answers diagnostic = false) :
    (findings.diagnostics.filter fun diagnostic => !supplied.answers diagnostic) =
      findings.diagnostics := by
  apply List.filter_eq_self.mpr
  intro diagnostic member
  rw [unanswered diagnostic member, Bool.not_false]

end Supplied

namespace ElementCheck

variable (check : ElementCheck) (options : Options) (hook : IdRepair.BuiltIn) (owner : Owner)
    (element : Element)

theorem ruleFindings_congr {left right : Sweep}
    (alike : ∀ name ∈ consultedNames, left.has name = right.has name) :
    check.ruleFindings options hook.rule owner left element =
      check.ruleFindings options hook.rule owner right element := by
  simp only [consultedNames, List.forall_mem_cons] at alike
  cases check <;> simp only [ruleFindings, unlessSeen, imageFindings, alike]

theorem ruleFindings_rewrite :
    check.ruleFindings options hook.rule owner
        (check.sweep options owner (check.rewrite options owner element))
        (check.rewrite options owner element) =
      check.ruleFindings options hook.rule owner (check.sweep options owner element)
        (check.swept options owner element) := by
  have seen : ∀ name ∈ consultedNames,
      (check.sweep options owner (check.rewrite options owner element)).has name =
        (check.sweep options owner element).has name := by
    intro name consulted
    have known := isKnown_of_consulted consulted
    rw [has_sweep _ _ _ _ known, has_sweep _ _ _ _ known, has_rewrite]
  rw [ruleFindings_congr check options hook owner _ seen]
  by_cases tabled : check = .table
  · subst tabled
    rfl
  · rw [rewrite_eq_swept check options owner element tabled]

theorem findings_rewrite_withoutValue :
    (check.findings options hook.rule owner
        (check.rewrite options owner element)).mapDiagnostics .withoutValue =
      (check.findings options hook.rule owner element).mapDiagnostics .withoutValue := by
  have same := sameButValues_rewrite check options owner element
  simp only [findings, Findings.mapDiagnostics_append, swept_rewrite, ruleFindings_rewrite,
    same.repeats_withoutValue owner]
  rw [sweep, same.sweep_withoutValue owner check.skips, sweep]

theorem unlessSeen_of_absent {sweep : Sweep} {name : String} (absent : sweep.has name = false)
    (findings : Findings) : unlessSeen sweep name findings = findings := by
  simp [unlessSeen, absent]

theorem unlessSeen_of_seen {sweep : Sweep} {name : String} (seen : sweep.has name = true)
    (findings : Findings) : unlessSeen sweep name findings = ∅ := by
  simp [unlessSeen, seen]

theorem has_sweep_push (supplied : Supplied) (value : String) {name : String}
    (known : AttributeRule.IsKnown name) :
    (check.sweep options owner (element.push (.valued supplied.name value))).has name =
      ((check.sweep options owner element).has name || supplied.name == name) := by
  rw [has_sweep _ _ _ _ known, has_sweep _ _ _ _ known, Element.has_push, Attribute.isNamed,
    Attribute.valued, supplied.isKnown_name.alike_eq known]

theorem isStyleSheet_push (value : String) :
    isStyleSheet (element.push (.valued "type" value)) = isStyleSheet element := by
  have other : (Attribute.valued "type" value).isNamed "rel" = false := by cbv
  simp [isStyleSheet, Element.find?_push, other]

theorem isStyleSheet_of_appended {attr : Attribute}
    (appends : link.appended options hook owner element = some attr) :
    isStyleSheet element = true := by
  simp only [appended, inserted] at appends
  split at appends
  next both => exact (Bool.and_eq_true_iff.mp both).1
  next => cases appends

/-- An image is searched for its text, and for more that the text does not bear on. -/
theorem imageFindings_eq {sweep larger : Sweep} (absent : sweep.has "alt" = false)
    (seen : larger.has "alt" = true)
    (others : ∀ name ∈ consultedNames, name ≠ "alt" → larger.has name = sweep.has name) :
    ∃ lead rest,
      imageFindings owner sweep = lead ++ Supplied.alt.absence owner ++ rest ∧
      imageFindings owner larger = lead ++ rest ∧
      ∀ diagnostic ∈ (lead ++ rest).diagnostics, Supplied.alt.answers diagnostic = false := by
  simp only [consultedNames, List.forall_mem_cons] at others
  refine ⟨if sweep.has "width" || sweep.has "height" then
      .narrow (.everything \ .only .html20) else ∅,
    unlessSeen sweep "src" (unlessSeen sweep "datafld" (owner.reportMissing "src")) ++
      (if sweep.has "ismap" && !sweep.has "usemap" then
        .flag .missingImageMap ++ .raise (.onElement .missingImagemap owner.tag)
      else
        ∅), ?_, ?_, ?_⟩
  · rw [imageFindings, unlessSeen_of_absent absent, Supplied.absence]
    simp only [Findings.append_assoc]
  · rw [imageFindings, unlessSeen_of_seen seen]
    simp [unlessSeen, others, Findings.append_assoc]
  · intro diagnostic member
    simp only [Findings.diagnostics_append, List.mem_append] at member
    rcases member with sized | sourced | mapped
    · split at sized <;> cases sized
    · unfold unlessSeen at sourced
      split at sourced
      · cases sourced
      · split at sourced
        · cases sourced
        · rw [List.mem_singleton.mp sourced]
          have other : Text.alike "alt" "src" = false := by cbv
          simp [Supplied.answers, Supplied.name, Diagnostic.onName, other]
    · split at mapped
      · rw [List.mem_singleton.mp mapped]
        rfl
      · cases mapped

/-- Where an attribute is appended, the rule of the check has complained of its absence, and
that complaint is all that its presence takes away. -/
theorem ruleFindings_of_appended {attr : Attribute} {supplied : Supplied}
    (appends : check.appended options hook owner element = some attr)
    (supplies : check.supplied? = some supplied) :
    ∃ lead rest,
      check.ruleFindings options hook.rule owner (check.sweep options owner element) element =
        lead ++ supplied.absence owner ++ rest ∧
      check.ruleFindings options hook.rule owner
        (check.sweep options owner (element.push attr)) (element.push attr) = lead ++ rest ∧
      ∀ diagnostic ∈ (lead ++ rest).diagnostics, supplied.answers diagnostic = false := by
  rcases supplied_of_appended check options hook owner element appends with
    ⟨other, value, same, rfl, absent⟩
  rw [Option.some.inj (same.symm.trans supplies)] at absent appends ⊢
  have before := has_sweep check options owner element supplied.isKnown_name
  have after := has_sweep_push check options owner element supplied value supplied.isKnown_name
  rw [absent] at before
  rw [beq_self_eq_true, Bool.or_true] at after
  cases check with
  | style | script =>
      cases supplies
      refine ⟨∅, ∅, ?_, ?_, by simp⟩
      · rw [Findings.empty_append, Findings.append_empty]
        exact unlessSeen_of_absent before _
      · exact unlessSeen_of_seen after _
  | link =>
      cases supplies
      have styled := isStyleSheet_of_appended options hook owner element appends
      have stillStyled := (isStyleSheet_push element value).trans styled
      refine ⟨∅, ∅, ?_, ?_, by simp⟩
      · rw [ruleFindings, styled, if_pos rfl, Findings.empty_append, Findings.append_empty]
        exact unlessSeen_of_absent before _
      · rw [ruleFindings, Supplied.name, stillStyled, if_pos rfl]
        exact unlessSeen_of_seen after _
  | image =>
      cases supplies
      apply imageFindings_eq owner before after
      intro name consulted different
      have known := isKnown_of_consulted consulted
      have other : (Supplied.alt.name == name) = false := beq_false_of_ne (Ne.symm different)
      rw [has_sweep_push _ _ _ _ _ _ known, other, Bool.or_false]
  | anchor | map =>
      cases supplies
      rcases hook.findings_of_appended appends owner with ⟨complaint, silence⟩
      refine ⟨∅, ∅, ?_, ?_, by simp⟩
      · rw [Findings.empty_append, Findings.append_empty]
        exact complaint
      · exact silence
  | _ => cases supplies

end ElementCheck

/-! ## Findings before and after a repair -/

def Element.gains (before after : Element) (name : String) : Bool :=
  after.has name && !before.has name

def Element.gainsTypeOrText (before after : Element) : Bool :=
  before.gains after "type" || before.gains after "alt"

/-- Whether a diagnostic on an element says that an attribute is absent which the later form
of the element has gained. -/
def Diagnostic.isAnswered (diagnostic : Diagnostic) (before after : Element) : Bool :=
  diagnostic.kind == .missingAttribute && diagnostic.attributeName.any (before.gains after)

/-- How the findings on an element and on its repaired form belong together. -/
inductive Rechecked (owner : Owner) (before after : Element) (first second : Findings) : Prop
  /-- No attribute was supplied, and the same is found again, values aside. -/
  | again (names : ∀ name, after.has name = before.has name)
      (same : second.mapDiagnostics .withoutValue = first.mapDiagnostics .withoutValue)
  /-- An attribute was supplied; what is found on it takes the place of what was found on its
  absence. -/
  | supplied (supplied : Supplied) (lead rest : Findings)
      (absent : before.has supplied.name = false)
      (names : ∀ name, after.has name = (before.has name || Text.alike supplied.name name))
      (found : first = lead ++ supplied.absence owner ++ rest)
      (remains : second.mapDiagnostics .withoutValue =
        (supplied.presence ++ (lead ++ rest)).mapDiagnostics .withoutValue)
      (unanswered : ∀ diagnostic ∈ (lead ++ rest).diagnostics,
        supplied.answers diagnostic = false)

namespace Supplied

variable (supplied : Supplied)

/-- An absent type or text narrows nothing, and an absent id all that its presence does. -/
theorem absence_inter (owner : Owner) :
    (supplied.absence owner).allowed ∩
        (if Text.alike supplied.name "type" || Text.alike supplied.name "alt" then .standard
          else .everything) =
      supplied.presence.allowed := by
  cases supplied with
  | type =>
      have late : (Text.alike "type" "type" || Text.alike "type" "alt") = true := by cbv
      rw [name, late]
      exact VersionSet.everything_inter .standard
  | alt =>
      have late : (Text.alike "alt" "type" || Text.alike "alt" "alt") = true := by cbv
      have both : (alt.absence owner).allowed = .everything :=
        VersionSet.everything_inter .everything
      rw [name, late, both]
      exact VersionSet.everything_inter .standard
  | id =>
      have soon : (Text.alike "id" "type" || Text.alike "id" "alt") = false := by cbv
      rw [name, soon]
      exact VersionSet.inter_everything .from40

theorem answers_eq_false_of_kind {diagnostic : Diagnostic}
    (kind : diagnostic.kind ≠ .missingAttribute) : supplied.answers diagnostic = false := by
  simp [answers, kind]

theorem gains_eq {before after : Element} (absent : before.has supplied.name = false)
    (names : ∀ name, after.has name = (before.has name || Text.alike supplied.name name)) :
    before.gains after = Text.alike supplied.name := by
  funext name
  rw [Element.gains, names]
  cases alike : Text.alike supplied.name name with
  | false => simp
  | true =>
      have same : before.has name = false := (before.has_congr alike).symm.trans absent
      simp [same]

end Supplied

namespace Rechecked

variable {owner : Owner} {before after : Element} {first second : Findings}

theorem diagnostics (rechecked : Rechecked owner before after first second) :
    second.diagnostics.map Diagnostic.withoutValue =
      (first.diagnostics.filter fun diagnostic =>
        !diagnostic.isAnswered before after).map Diagnostic.withoutValue := by
  cases rechecked with
  | again names same =>
      have all : ∀ diagnostic ∈ first.diagnostics,
          (!diagnostic.isAnswered before after) = true := by
        intro diagnostic _
        have gains : before.gains after = fun _ => false := by
          funext name
          simp [Element.gains, names]
        simp [Diagnostic.isAnswered, gains]
      rw [List.filter_eq_self.mpr all]
      exact congrArg Findings.diagnostics same
  | supplied supplied lead rest absent names found remains unanswered =>
      have answered : (fun diagnostic : Diagnostic => !diagnostic.isAnswered before after) =
          fun diagnostic => !supplied.answers diagnostic := by
        funext diagnostic
        rw [Diagnostic.isAnswered, supplied.gains_eq absent names, Supplied.answers]
      have kept := Supplied.filter_unanswered unanswered
      rw [Findings.diagnostics_append, List.filter_append] at kept
      rw [found, answered, Findings.diagnostics_append, Findings.diagnostics_append,
        List.filter_append, List.filter_append, supplied.filter_absence, List.append_nil, kept]
      exact congrArg Findings.diagnostics remains

theorem xhtml (rechecked : Rechecked owner before after first second) :
    second.xhtml = first.xhtml := by
  rw [← second.xhtml_mapDiagnostics .withoutValue]
  cases rechecked with
  | again names same => rw [same, Findings.xhtml_mapDiagnostics]
  | supplied supplied lead rest absent names found remains unanswered =>
      have quiet : (supplied.absence owner).xhtml = false := by
        cases supplied <;> rfl
      rw [remains, found]
      simp [quiet, Supplied.presence, Findings.narrow]

theorem contains_defects (rechecked : Rechecked owner before after first second)
    {defect : Defect} (other : defect ≠ .missingImageAlt) :
    second.defects.contains defect = first.defects.contains defect := by
  rw [← second.defects_mapDiagnostics .withoutValue]
  cases rechecked with
  | again names same => rw [same, Findings.defects_mapDiagnostics]
  | supplied supplied lead rest absent names found remains unanswered =>
      have quiet : (supplied.absence owner).defects.contains defect = false := by
        cases supplied with
        | type => exact FlagSet.contains_empty defect
        | alt => simp [Supplied.absence, Findings.flag, Owner.reportMissing, Findings.raise, other]
        | id => exact FlagSet.contains_empty defect
      rw [remains, found]
      simp [quiet, Supplied.presence, Findings.narrow]

/-- A supplied type or text narrows the versions only once it is there, a supplied id in the
check that appends it. -/
theorem allowed (rechecked : Rechecked owner before after first second) :
    second.allowed = first.allowed ∩
      (if before.gainsTypeOrText after then .standard else .everything) := by
  rw [← second.allowed_mapDiagnostics .withoutValue, Element.gainsTypeOrText]
  cases rechecked with
  | again names same =>
      rw [same]
      simp [Element.gains, names]
  | supplied supplied lead rest absent names found remains unanswered =>
      rw [remains, found, supplied.gains_eq absent names]
      simp only [Findings.allowed_mapDiagnostics, Findings.allowed_append,
        ← supplied.absence_inter owner, FlagSet.inter_assoc, FlagSet.inter_comm,
        FlagSet.inter_left_comm]

theorem append_left {warned : Findings} (quiet : warned.diagnostics = [])
    (rechecked : Rechecked owner before after first second) :
    Rechecked owner before after (warned ++ first) (warned ++ second) := by
  cases rechecked with
  | again names same => exact .again names (by simp [same])
  | supplied supplied lead rest absent names found remains unanswered =>
      refine .supplied supplied (warned ++ lead) rest absent names ?_ ?_ ?_
      · simp only [found, Findings.append_assoc]
      · rw [Findings.mapDiagnostics_append, remains, ← Findings.mapDiagnostics_append,
          ← Findings.append_assoc, Supplied.presence, Findings.append_narrow]
        simp only [Findings.append_assoc]
      · intro diagnostic member
        rw [Findings.append_assoc, Findings.diagnostics_append, quiet, List.nil_append] at member
        exact unanswered diagnostic member

end Rechecked

namespace ElementCheck

variable (check : ElementCheck) (options : Options) (hook : IdRepair.BuiltIn) (owner : Owner)
    (element : Element)

theorem findings_push {supplied : Supplied} (supplies : check.supplied? = some supplied)
    (value : String) (absent : element.has supplied.name = false)
    (settled : check.swept options owner (element.push (.valued supplied.name value)) =
      element.push (.valued supplied.name value)) :
    check.findings options hook.rule owner (element.push (.valued supplied.name value)) =
      Repeats.findings owner element.attributes ++
        ((check.sweep options owner element).findings ++ supplied.presence) ++
        check.ruleFindings options hook.rule owner
          (check.sweep options owner (element.push (.valued supplied.name value)))
          (element.push (.valued supplied.name value)) := by
  have different : ∀ other ∈ element.attributes,
      other.isNamed (Attribute.valued supplied.name value).name = false :=
    fun _ member => Element.isNamed_eq_false_of_not_has absent member
  have fresh := Repeats.findings_append_fresh different owner
  have unskipped : check.skips = none := by
    cases check with
    | caption => cases supplies
    | _ => rfl
  have last : (check.sweep options owner
        (element.push (.valued supplied.name value))).findings =
      (check.sweep options owner element).findings ++ supplied.presence := by
    rw [sweep, sweep, Element.push, Sweep.findings_append, unskipped]
    congr 1
    simp [Sweep.run, supplied.findings_valued value options owner]
  simp only [findings, settled, last]
  rw [Element.push, fresh]

theorem rechecked :
    Rechecked owner element (check.repair options hook.rule owner element)
      (check.findings options hook.rule owner element)
      (check.findings options hook.rule owner
        (check.repair options hook.rule owner element)) := by
  have settled := swept_repair check options hook owner element
  rw [repair_eq] at settled ⊢
  cases appends : check.appended options hook owner (check.rewrite options owner element) with
  | none =>
      exact .again (has_rewrite check options owner element)
        (findings_rewrite_withoutValue check options hook owner element)
  | some attr =>
      rcases supplied_of_appended check options hook owner _ appends with
        ⟨supplied, value, supplies, rfl, absent⟩
      rcases ruleFindings_of_appended check options hook owner _ appends supplies with
        ⟨lead, rest, complaint, silence, unanswered⟩
      rw [appends, Option.elim_some] at settled
      rw [Option.elim_some, findings_push check options hook owner _ supplies value absent settled,
        silence]
      rw [has_rewrite] at absent
      refine .supplied supplied
        (Repeats.findings owner element.attributes ++
          (check.sweep options owner element).findings ++ lead) rest absent ?_ ?_ ?_ ?_
      · intro name
        rw [Element.has_push, has_rewrite]
        rfl
      · rw [findings, ← ruleFindings_rewrite, complaint]
        simp only [Findings.append_assoc]
      · have same := sameButValues_rewrite check options owner element
        have swept := same.sweep_withoutValue owner check.skips
        rw [Supplied.presence, ← Findings.append_assoc (Repeats.findings owner _),
          Findings.append_narrow, sweep, sweep]
        simp only [Findings.mapDiagnostics_append, same.repeats_withoutValue owner, swept,
          Findings.append_assoc]
      · intro diagnostic member
        simp only [Findings.diagnostics_append, List.append_assoc, List.mem_append] at member
        rcases member with repeats | swept | rule
        · apply supplied.answers_eq_false_of_kind
          have kind := (Repeats.within_findings owner _).kind_mem repeats
          exact ne_of_mem_of_not_mem kind (by decide)
        · apply supplied.answers_eq_false_of_kind
          have kind := (Sweep.within_findings options owner check.skips _).kind_mem swept
          exact ne_of_mem_of_not_mem kind (by decide)
        · exact unanswered diagnostic (List.mem_append.mpr rule)

/-! ## Missing texts of images -/

theorem has_alt_repair :
    (image.repair options hook.rule owner element).has "alt" =
      (element.has "alt" || options.fallbackAlt.isSome) := by
  have described := has_sweep image options owner (image.rewrite options owner element)
    Supplied.alt.isKnown_name
  simp only [Supplied.name, has_rewrite] at described
  rw [repair_eq]
  simp only [appended, inserted, described]
  cases present : element.has "alt" with
  | true => simp [present]
  | false =>
      cases fallback : options.fallbackAlt with
      | none => simp [present]
      | some text => simp [present, Attribute.isNamed, Attribute.valued]

/-- A fallback text settles that images lack a text, and a repair settles no other defect. -/
theorem defects_repair :
    (check.findings options hook.rule owner
        (check.repair options hook.rule owner element)).defects =
      (check.findings options hook.rule owner element).defects \
        (if options.fallbackAlt.isSome then .only .missingImageAlt else ∅) := by
  have rechecked := rechecked check options hook owner element
  apply FlagSet.ext
  intro defect
  by_cases text : defect = .missingImageAlt
  · subst text
    rw [FlagSet.contains_diff, contains_defects_findings, contains_defects_findings]
    cases check with
    | image =>
        rw [hasDefect, hasDefect, has_alt_repair]
        cases options.fallbackAlt <;> simp
    | _ => rfl
  · rw [rechecked.contains_defects text, FlagSet.contains_diff]
    split <;> simp [text]

end ElementCheck

namespace Element

variable (element : Element) (options : Options) (hook : IdRepair.BuiltIn)

@[simp] theorem tag_repair : (element.repair options hook.rule).tag = element.tag :=
  element.check.tag_repair options hook _ element

@[simp] theorem check_repair : (element.repair options hook.rule).check = element.check := by
  rw [check, tag_repair, check]

theorem repair_repair :
    (element.repair options hook.rule).repair options hook.rule =
      element.repair options hook.rule := by
  rw [repair, check_repair, tag_repair]
  exact element.check.repair_repair options hook _ element

theorem rechecked :
    Rechecked (.ofTag element.tag) element (element.repair options hook.rule)
      (element.findings options hook.rule)
      ((element.repair options hook.rule).findings options hook.rule) := by
  rw [findings, findings, check_repair, tag_repair]
  apply Rechecked.append_left
  · split <;> rfl
  · exact element.check.rechecked options hook _ element

theorem defects_repair :
    ((element.repair options hook.rule).findings options hook.rule).defects =
      (element.findings options hook.rule).defects \
        (if options.fallbackAlt.isSome then .only .missingImageAlt else ∅) := by
  rw [findings, findings, check_repair, tag_repair, Findings.defects_append,
    Findings.defects_append, (within_warned element.tag).defects_eq_empty rfl,
    FlagSet.empty_union, FlagSet.empty_union]
  exact element.check.defects_repair options hook _ element

end Element

end HtmlConformance
