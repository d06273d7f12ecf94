import HtmlConformance.Proofs.Validation

namespace HtmlConformance

/-! The log of warnings to the operator. A warning is written when it is given for the first time
since the log was made or cleared, so a pass over a document writes one line for each tag that it
does not know, however often the tag stands there. -/

/-! ## Keys -/

namespace Warning

/-- There is no closing bracket in the component, so the first one in the key ends it. -/
def IsPlain (warning : Warning) : Prop := ']' ∉ warning.component.toList

theorem key_eq_key_iff {left right : Warning} (plainLeft : left.IsPlain)
    (plainRight : right.IsPlain) : left.key = right.key ↔ left = right := by
  obtain ⟨leftComponent, leftMessage⟩ := left
  obtain ⟨rightComponent, rightMessage⟩ := right
  have key_toList (component message : String) : (Warning.mk component message).key.toList =
      '[' :: component.toList ++ ']' :: (' ' :: message.toList) := by
    simp [key]
  have unmarkedLeft : ']' ∉ '[' :: leftComponent.toList := by
    simpa [IsPlain] using plainLeft
  have unmarkedRight : ']' ∉ '[' :: rightComponent.toList := by
    simpa [IsPlain] using plainRight
  rw [← String.toList_inj, key_toList, key_toList, append_cons_inj unmarkedLeft unmarkedRight]
  simp [String.toList_inj]

end Warning

/-! ## One call -/

namespace WarningLog

variable (log : WarningLog) (warning other : Warning)

theorem written_warn :
    (log.warn warning).written =
      log.written ++ if log.isNew warning then [warning] else [] := by
  unfold warn
  split
  · rfl
  · exact (List.append_nil _).symm

theorem isNew_warn :
    (log.warn warning).isNew other = (log.isNew other && other.key != warning.key) := by
  unfold warn
  by_cases same : other.key = warning.key
  · cases new : log.isNew warning <;> simp_all [isNew]
  · cases new : log.isNew warning <;> simp_all [isNew]

@[simp] theorem isNew_clear : log.clear.isNew warning = true := rfl

@[simp] theorem written_clear : log.clear.written = log.written := rfl

/-! ## Runs of calls -/

inductive Call where
  | warn (warning : Warning)
  | clear

def after (log : WarningLog) : Call → WarningLog
  | .warn warning => log.warn warning
  | .clear => log.clear

def afterAll (log : WarningLog) (calls : List Call) : WarningLog := calls.foldl after log

/-- Whether the calls have given the warning and not cleared the log since. -/
def Standing (calls : List Call) (warning : Warning) : Prop :=
  ∃ before later, calls = before ++ .warn warning :: later ∧ .clear ∉ later

theorem standing_snoc {calls : List Call} {last : Call} {warning : Warning} :
    Standing (calls ++ [last]) warning ↔
      last = .warn warning ∨ last ≠ .clear ∧ Standing calls warning := by
  constructor
  · rintro ⟨before, later, same, kept⟩
    rcases List.eq_nil_or_concat' later with rfl | ⟨between, final, rfl⟩
    · exact .inl (List.cons.inj (List.append_inj_right' same rfl)).1
    · rw [← List.cons_append, ← List.append_assoc] at same
      obtain rfl : last = final := (List.cons.inj (List.append_inj_right' same rfl)).1
      rw [List.mem_append, not_or] at kept
      exact .inr ⟨fun cleared => kept.2 (List.mem_singleton.mpr cleared.symm),
        before, between, List.append_inj_left' same rfl, kept.1⟩
  · rintro (rfl | ⟨uncleared, before, later, rfl, kept⟩)
    · exact ⟨calls, [], rfl, List.not_mem_nil⟩
    · refine ⟨before, later ++ [last], by simp, ?_⟩
      rw [List.mem_append, not_or]
      exact ⟨kept, fun cleared => uncleared (List.mem_singleton.mp cleared).symm⟩

theorem isNew_afterAll {calls : List Call}
    (plain : ∀ given, .warn given ∈ calls → given.IsPlain) {warning : Warning}
    (asked : warning.IsPlain) :
    (({} : WarningLog).afterAll calls).isNew warning = true ↔ ¬Standing calls warning := by
  induction calls using List.reverseRecOn with
  | nil =>
      refine ⟨?_, fun _ => rfl⟩
      rintro _ ⟨before, later, same, _⟩
      cases before <;> cases same
  | append_singleton calls last induction =>
      have earlier := induction fun given member => plain given (List.mem_append_left _ member)
      rw [afterAll, List.foldl_concat, standing_snoc]
      cases last with
      | clear => simp [after]
      | warn given =>
          have same := Warning.key_eq_key_iff asked (plain given (by simp))
          change ((({} : WarningLog).afterAll calls).warn given).isNew warning = true ↔ _
          rw [isNew_warn, Bool.and_eq_true, earlier, bne_iff_ne, ne_eq, same]
          simp only [Call.warn.injEq, ne_eq, reduceCtorEq, not_false_eq_true, true_and, not_or]
          rw [and_comm, eq_comm]

theorem written_after_warn {calls : List Call} {warning : Warning}
    (plain : ∀ given, .warn given ∈ calls ++ [.warn warning] → given.IsPlain) :
    let log := ({} : WarningLog).afterAll calls
    ((log.after (.warn warning)).written = log.written ++ [warning] ↔ ¬Standing calls warning) ∧
      ((log.after (.warn warning)).written = log.written ↔ Standing calls warning) := by
  intro log
  have new : log.isNew warning = true ↔ ¬Standing calls warning :=
    isNew_afterAll (fun given member => plain given (List.mem_append_left _ member))
      (plain warning (List.mem_append_right _ List.mem_cons_self))
  have writes : (log.after (.warn warning)).written =
      log.written ++ if log.isNew warning then [warning] else [] :=
    log.written_warn warning
  rw [writes, ← new, ← not_iff_not (b := Standing calls warning), ← new]
  cases log.isNew warning <;> simp

/-! ## Many warnings -/

theorem warnAll_cons (log : WarningLog) (warning : Warning) (rest : List Warning) :
    log.warnAll (warning :: rest) = (log.warn warning).warnAll rest := rfl

section

variable {α : Type} [BEq α] [LawfulBEq α] {warning : α → Warning}
    (keys : ∀ {first second}, (warning first).key = (warning second).key ↔ first = second)
include keys

theorem isNew_warn_map (log : WarningLog) (given entry : α) :
    (log.warn (warning given)).isNew (warning entry) =
      (!entry == given && log.isNew (warning entry)) := by
  have same : ((warning entry).key != (warning given).key) = !entry == given := by
    rw [Bool.eq_iff_iff, bne_iff_ne, ne_eq, keys, Bool.not_eq_true', beq_eq_false_iff_ne]
  rw [isNew_warn, same, Bool.and_comm]

/-- Of warnings that come one after another each is written where it comes first, unless the log
knows it from before. -/
theorem written_warnAll (log : WarningLog) (list : List α) :
    (log.warnAll (list.map warning)).written =
      log.written ++
        ((list.filter fun entry => log.isNew (warning entry)).eraseDups).map warning := by
  induction list generalizing log with
  | nil => simp [warnAll]
  | cons head tail induction =>
      let news := tail.filter fun entry => log.isNew (warning entry)
      have others : (tail.filter fun entry => (log.warn (warning head)).isNew (warning entry)) =
          news.filter fun entry => !entry == head := by
        simp only [news, List.filter_filter, isNew_warn_map keys]
      rw [List.map_cons, warnAll_cons, induction, others, written_warn, List.filter_cons]
      split
      next new => simp [List.eraseDups_cons, news]
      next known =>
        have unchanged : (news.filter fun entry => !entry == head) = news := by
          apply List.filter_eq_self.mpr
          intro entry member
          rw [Bool.not_eq_true', beq_eq_false_iff_ne]
          rintro rfl
          exact known (List.mem_filter.mp member).2
        rw [unchanged, List.append_nil]

theorem isNew_warnAll (log : WarningLog) (list : List α) (entry : α) :
    (log.warnAll (list.map warning)).isNew (warning entry) =
      (log.isNew (warning entry) && !list.contains entry) := by
  induction list generalizing log with
  | nil => simp [warnAll]
  | cons head tail induction =>
      rw [List.map_cons, warnAll_cons, induction, isNew_warn_map keys, List.contains_cons,
        Bool.not_or, Bool.and_comm (!entry == head), Bool.and_assoc]

end

end WarningLog

/-! ## What checks warn of -/

theorem ElementCheck.warnings_findings (check : ElementCheck) (options : Options)
    (hook : IdRepair.BuiltIn) (owner : Owner) (element : Element) :
    (check.findings options hook.rule owner element).warnings = [] := by
  apply (check.within_findings options hook owner element).warnings_eq_nil
  cases check <;> rfl

theorem Element.warnings_findings (element : Element) (options : Options)
    (hook : IdRepair.BuiltIn) :
    (element.findings options hook.rule).warnings =
      if (ElementRule.find? element.tag).isNone then [unknownTagWarning element.tag] else [] := by
  rw [findings, Findings.warnings_append, element.check.warnings_findings, List.append_nil,
    Owner.ofTag]
  split <;> rfl

theorem Element.isPlain_unknownTagWarning (tag : String) : (unknownTagWarning tag).IsPlain := by
  change ']' ∉ "Validator".toList
  decide

theorem Element.key_unknownTagWarning {first second : String} :
    (unknownTagWarning first).key = (unknownTagWarning second).key ↔ first = second := by
  rw [Warning.key_eq_key_iff (isPlain_unknownTagWarning first) (isPlain_unknownTagWarning second)]
  simp [unknownTagWarning]

namespace Node

/-- The tags of a document for which there is no rule, as they are written, in document order. -/
def unknownTags (nodes : List Node) : List String :=
  ((elementsAll nodes).map Element.tag).filter fun tag => (ElementRule.find? tag).isNone

theorem warnings_findingsAll (options : Options) (hook : IdRepair.BuiltIn) (nodes : List Node) :
    (findingsAll options hook.rule nodes).warnings =
      (unknownTags nodes).map Element.unknownTagWarning := by
  rw [findingsAll, Findings.warnings_joinAll, unknownTags]
  induction elementsAll nodes with
  | nil => rfl
  | cons element rest induction =>
      rw [List.map_cons, List.flatMap_cons, induction, element.warnings_findings, List.map_cons,
        List.filter_cons]
      split <;> rfl

theorem unknownTags_validateAll (hook : IdRepair.BuiltIn) (pass : Pass) (nodes : List Node) :
    unknownTags (validateAll hook.rule pass nodes).1 = unknownTags nodes := by
  rw [validateAll_eq, unknownTags, elementsAll_mapElementsAll, List.map_map, unknownTags]
  congr 1
  apply List.map_congr_left
  intro element _
  exact element.tag_repair pass.state.options hook

end Node

/-! ## Passes -/

namespace Arena

variable {arena : Arena} {nodes : List Node}

theorem Represents.log_validate (represents : arena.Represents nodes) (hook : IdRepair.BuiltIn)
    (pass : Pass) :
    (arena.validate hook.rule pass).2.log =
      pass.log.warnAll ((Node.unknownTags nodes).map Element.unknownTagWarning) := by
  rw [(represents.validate hook.rule pass).2, Node.validateAll_eq, ← Node.warnings_findingsAll]
  rfl

theorem Represents.written_validate (represents : arena.Represents nodes)
    (hook : IdRepair.BuiltIn) (pass : Pass) :
    (arena.validate hook.rule pass).2.log.written =
      pass.log.written ++
        (((Node.unknownTags nodes).filter fun tag =>
          pass.log.isNew (Element.unknownTagWarning tag)).eraseDups).map
            Element.unknownTagWarning := by
  rw [represents.log_validate, WarningLog.written_warnAll Element.key_unknownTagWarning]

theorem written_validate_cleared (hook : IdRepair.BuiltIn) (pass : Pass) (nodes : List Node) :
    ((ofNodes nodes).validate hook.rule { pass with log := pass.log.clear }).2.log.written =
      pass.log.written ++ (Node.unknownTags nodes).eraseDups.map Element.unknownTagWarning := by
  have everything : ((Node.unknownTags nodes).filter fun tag =>
      pass.log.clear.isNew (Element.unknownTagWarning tag)) = Node.unknownTags nodes :=
    List.filter_eq_self.mpr fun _ _ => rfl
  rw [(represents_ofNodes nodes).written_validate, everything, WarningLog.written_clear]

end Arena

/-- A warning is written by a call exactly if no earlier call has given it since the log was last
cleared. So a pass that starts on a cleared log writes one line for each spelling of a tag that it
does not know, in the order in which they first come in the document, and a later pass, over the
document as it was left or over another one, writes none of these again. -/
theorem WarningLog.written_once :
    (∀ (calls : List Call) (warning : Warning),
      (∀ given, .warn given ∈ calls ++ [.warn warning] → given.IsPlain) →
      let log := ({} : WarningLog).afterAll calls
      ((log.after (.warn warning)).written = log.written ++ [warning] ↔
          ¬Standing calls warning) ∧
        ((log.after (.warn warning)).written = log.written ↔ Standing calls warning)) ∧
    ∀ (hook later : IdRepair.BuiltIn) (pass again : Pass) (nodes others : List Node),
      let first := (Arena.ofNodes nodes).validate hook.rule { pass with log := pass.log.clear }
      let next : Pass := { again with log := first.2.log }
      first.2.log.written =
          pass.log.written ++ (Node.unknownTags nodes).eraseDups.map Element.unknownTagWarning ∧
        (first.1.validate later.rule next).2.log.written = first.2.log.written ∧
        ((Arena.ofNodes others).validate later.rule next).2.log.written =
          first.2.log.written ++
            (((Node.unknownTags others).filter fun tag =>
              !(Node.unknownTags nodes).contains tag).eraseDups).map
                Element.unknownTagWarning := by
  refine ⟨fun calls warning plain => written_after_warn plain, ?_⟩
  intro hook later pass again nodes others first next
  have built := Arena.represents_ofNodes nodes
  have left := (built.validate hook.rule { pass with log := pass.log.clear }).1
  have known (tag : String) : next.log.isNew (Element.unknownTagWarning tag) =
      !(Node.unknownTags nodes).contains tag := by
    change first.2.log.isNew _ = _
    rw [built.log_validate, isNew_warnAll Element.key_unknownTagWarning]
    rfl
  refine ⟨Arena.written_validate_cleared hook pass nodes, ?_, ?_⟩
  · have nothing : ((Node.unknownTags nodes).filter fun tag =>
        next.log.isNew (Element.unknownTagWarning tag)) = [] := by
      rw [List.filter_eq_nil_iff]
      intro tag member
      simp [known, member]
    rw [left.written_validate, Node.unknownTags_validateAll, nothing]
    exact List.append_nil _
  · rw [(Arena.represents_ofNodes others).written_validate]
    simp only [known, next]

/-- A cleared log writes a warning anew, and of three tags in two spellings it tells two. -/
theorem WarningLog.written_once_after_clear :
    let told : Warning := ⟨"CLI", "odd input"⟩
    let calls : List Call := [.warn told, .warn ⟨"Loader", "odd input"⟩, .clear]
    let nodes : List Node :=
      [.element ⟨"blink2", []⟩ [.element ⟨"p", []⟩ [], .element ⟨"Blink2", []⟩ []],
        .element ⟨"blink2", []⟩ []]
    (∀ given, .warn given ∈ calls ++ [.warn told] → given.IsPlain) ∧
      ¬Standing calls told ∧
      ((Arena.ofNodes nodes).validate IdRepair.copyName (.start {})).2.log.written =
        [Element.unknownTagWarning "blink2", Element.unknownTagWarning "Blink2"] := by
  intro told calls nodes
  have plain : ∀ given, .warn given ∈ calls ++ [.warn told] → given.IsPlain := by
    simp [calls, told, Warning.IsPlain]
  have spelled : (Node.unknownTags nodes).eraseDups = ["blink2", "Blink2"] := by cbv
  have lines := (written_once.2 .copyName .copyName (.start {}) {} nodes []).1
  rw [spelled] at lines
  exact ⟨plain, (written_once.1 calls told plain).1.mp rfl, lines⟩

end HtmlConformance
