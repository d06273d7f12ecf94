import HtmlConformance.Proofs.Check.Unmixed

namespace HtmlConformance

/-! The versions that are left while a pass is under way. They are unmixed after every element,
and a place that only vendors have ends all claims. -/

/-! ## Visits -/

namespace Pass

/-- What every visit keeps: the versions left are unmixed, and none are left once a place has
been reported that only vendors have. -/
structure Consistent (pass : Pass) : Prop where
  unmixed : pass.state.versions.Unmixed
  placed : ∀ diagnostic ∈ pass.diagnostics.toList, diagnostic.isVendorPlace = true →
    pass.state.versions = ∅

theorem consistent_start (options : Options) : (start options).Consistent where
  unmixed := .inl rfl
  placed _ member := by cases member

theorem Consistent.visit {pass : Pass} (consistent : pass.Consistent)
    (hook : IdRepair.BuiltIn) (element : Element) :
    (pass.visit hook.rule element).2.Consistent := by
  let findings := element.findings pass.state.options hook.rule
  rw [Pass.visit_eq]
  constructor
  · exact consistent.unmixed.inter (element.unmixed_findings pass.state.options hook)
  · intro diagnostic member placed
    change pass.state.versions ∩ findings.allowed = ∅
    rw [diagnostics_absorb, List.mem_append] at member
    rcases member with before | raised
    · rw [consistent.placed diagnostic before placed]
      exact FlagSet.empty_inter _
    · have nothing := element.allowed_of_raised pass.state.options hook raised placed
      rw [nothing]
      exact FlagSet.inter_empty _

end Pass

namespace Arena

/-- A pass over the document built from the nodes, once it has visited so many elements. -/
def passAfter (options : Options) (hook : IdRepair) (nodes : List Node) (count : Nat) : Pass :=
  (((ofNodes nodes).elementsFrom root |>.take count).foldl (visit hook)
    (ofNodes nodes, .start options)).2

theorem consistent_visit {progress : Arena × Pass} (consistent : progress.2.Consistent)
    (hook : IdRepair.BuiltIn) (id : NodeId) :
    (visit hook.rule progress id).2.Consistent := by
  unfold visit
  split
  · exact consistent
  next element _ => exact consistent.visit hook element

theorem consistent_foldl_visit {progress : Arena × Pass} (consistent : progress.2.Consistent)
    (hook : IdRepair.BuiltIn) (ids : List NodeId) :
    (ids.foldl (visit hook.rule) progress).2.Consistent := by
  induction ids generalizing progress with
  | nil => exact consistent
  | cons id rest induction => exact induction (consistent_visit consistent hook id)

theorem diagnostics_subset_visit (progress : Arena × Pass) (hook : IdRepair) (id : NodeId) :
    progress.2.diagnostics.toList ⊆ (visit hook progress id).2.diagnostics.toList := by
  unfold visit
  split
  · exact List.Subset.refl _
  · rw [Pass.visit_eq, Pass.diagnostics_absorb]
    exact List.subset_append_left _ _

theorem diagnostics_subset_foldl_visit (progress : Arena × Pass) (hook : IdRepair)
    (ids : List NodeId) :
    progress.2.diagnostics.toList ⊆ (ids.foldl (visit hook) progress).2.diagnostics.toList := by
  induction ids generalizing progress with
  | nil => exact List.Subset.refl _
  | cons id rest induction =>
      exact List.Subset.trans (diagnostics_subset_visit progress hook id) (induction _)

section

variable (options : Options) (nodes : List Node)

theorem consistent_passAfter (hook : IdRepair.BuiltIn) (count : Nat) :
    (passAfter options hook.rule nodes count).Consistent :=
  consistent_foldl_visit (Pass.consistent_start options) hook _

theorem diagnostics_subset_passAfter (hook : IdRepair) {count later : Nat}
    (order : count ≤ later) :
    (passAfter options hook nodes count).diagnostics.toList ⊆
      (passAfter options hook nodes later).diagnostics.toList := by
  let ids := (ofNodes nodes).elementsFrom root
  have split : ids.take later = ids.take count ++ (ids.take later).drop count := by
    have parts := (List.take_append_drop count (ids.take later)).symm
    rwa [List.take_take, Nat.min_eq_left order] at parts
  rw [passAfter, passAfter]
  change _ ⊆ ((ids.take later).foldl (visit hook) _).2.diagnostics.toList
  rw [split, List.foldl_append]
  exact diagnostics_subset_foldl_visit _ hook _

theorem passAfter_length (hook : IdRepair) :
    passAfter options hook nodes ((ofNodes nodes).elementsFrom root).length =
      (firstPass options hook nodes).2 := by
  rw [passAfter, List.take_length]
  rfl

end

/-- After every element of a pass over a document the versions left are either all of them, or
standard ones only, or of vendors only. So XML and malformed markup can be claimed only as long
as nothing has been ruled out, and once a place has been reported that only vendors have,
nothing is left until the end of the pass. -/
theorem versions_unmixed (options : Options) (hook : IdRepair.BuiltIn) (nodes : List Node) :
    passAfter options hook.rule nodes ((ofNodes nodes).elementsFrom root).length =
        (firstPass options hook.rule nodes).2 ∧
      (∀ count, (passAfter options hook.rule nodes count).state.versions.Unmixed) ∧
      (∀ count version, version = .xml ∨ version = .malformed →
        version ∈ (Report.ofState (passAfter options hook.rule nodes count).state).claimable →
        (passAfter options hook.rule nodes count).state.versions = .everything) ∧
      ∀ count later, count ≤ later →
        ∀ diagnostic ∈ (passAfter options hook.rule nodes count).diagnostics.toList,
          diagnostic.isVendorPlace = true →
            (passAfter options hook.rule nodes later).state.versions = ∅ := by
  refine ⟨passAfter_length options nodes hook.rule, ?_, ?_, ?_⟩
  · exact fun count => (consistent_passAfter options nodes hook count).unmixed
  · intro count version mark claimed
    have left := (List.mem_filter.mp claimed).2
    exact (consistent_passAfter options nodes hook count).unmixed.eq_everything mark left
  · intro count later order diagnostic member placed
    have still := diagnostics_subset_passAfter options nodes hook.rule order member
    exact (consistent_passAfter options nodes hook later).placed diagnostic still placed

/-- A cell that vendors place: it is reported, and no version is left. -/
theorem versions_unmixed_of_cell :
    let cell : Element := ⟨"td", [.valued "valign" "absmiddle"]⟩
    let nodes : List Node := [.element cell []]
    let pass := passAfter {} IdRepair.copyName nodes ((ofNodes nodes).elementsFrom root).length
    (∃ diagnostic ∈ pass.diagnostics.toList, diagnostic.isVendorPlace = true) ∧
      pass.state.versions = ∅ := by
  intro cell nodes pass
  have raised : Diagnostic.onAttribute .proprietaryAttributeValue "td"
      (.valued "valign" "absmiddle") ∈ pass.diagnostics.toList := by
    rw [show pass = _ from (versions_unmixed {} .copyName nodes).1, firstPass_snd,
      Pass.diagnostics_absorb_start]
    have found : (Node.findingsAll {} IdRepair.copyName nodes).diagnostics =
        [.onAttribute .proprietaryAttributeValue "td" (.valued "valign" "absmiddle")] := by
      cbv
    exact found ▸ List.mem_singleton_self _
  have placed : (Diagnostic.onAttribute .proprietaryAttributeValue "td"
      (.valued "valign" "absmiddle")).isVendorPlace = true := by cbv
  exact ⟨⟨_, raised, placed⟩,
    (versions_unmixed {} .copyName nodes).2.2.2 _ _ (Nat.le_refl _) _ raised placed⟩

end Arena

end HtmlConformance
