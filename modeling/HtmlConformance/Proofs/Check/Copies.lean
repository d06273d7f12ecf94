import HtmlConformance.Proofs.Check.Subjects

namespace HtmlConformance.Repeats

/-! Repeated names, counted by places. The scan reports for each attribute the next one with its
name; taken together these are the attributes that have an earlier one with their name, each
once. -/

/-- The attribute at a place has an earlier one with its name. Neither carries template code. -/
def IsCopy (attributes : List Attribute) (place : Fin attributes.length) : Prop :=
  attributes[place].isTemplated = false ∧
    ∃ earlier < place, attributes[earlier].isTemplated = false ∧
      attributes[place].isNamed attributes[earlier].name = true

instance (attributes : List Attribute) : DecidablePred (IsCopy attributes) := fun _ =>
  inferInstanceAs (Decidable (_ ∧ _))

/-- The places of a list at which there are copies. -/
def copies (attributes : List Attribute) : Finset (Fin attributes.length) :=
  {place | IsCopy attributes place}

/-- Whether the scan takes an attribute for a repetition of a name. -/
def repeats (name : String) (attr : Attribute) : Bool := !attr.isTemplated && attr.isNamed name

theorem repeats_iff {name : String} {attr : Attribute} :
    repeats name attr = true ↔ attr.isTemplated = false ∧ attr.isNamed name = true := by
  rw [repeats, Bool.and_eq_true, Bool.not_eq_true']

/-! ## The first place of a name -/

section

variable {name : String} {later : List Attribute}

theorem isCopy_of_repeats {first place : Fin later.length} (before : first < place)
    (here : repeats name later[first] = true) (there : repeats name later[place] = true) :
    IsCopy later place := by
  rw [repeats_iff] at here there
  refine ⟨there.1, first, before, here.1, ?_⟩
  exact Text.alike_trans there.2 ((Text.alike_comm _ _).trans here.2)

theorem repeats_of_isCopy {place : Fin later.length} (copy : IsCopy later place)
    (there : repeats name later[place] = true) :
    ∃ first < place, repeats name later[first] = true := by
  obtain ⟨_, first, before, plain, named⟩ := copy
  refine ⟨first, before, repeats_iff.mpr ⟨plain, ?_⟩⟩
  exact Text.alike_trans ((Text.alike_comm _ _).trans named) (repeats_iff.mp there).2

/-- Of the attributes with one name just the first is no copy of another. -/
theorem map_filter_not_isCopy (name : String) (later : List Attribute) :
    ((Finset.univ.filter fun place : Fin later.length =>
        repeats name later[place] = true ∧ ¬IsCopy later place).val.map fun place =>
          later[place]) = (first? name later).toList := by
  cases found : first? name later with
  | none =>
      have nowhere : (Finset.univ.filter fun place : Fin later.length =>
          repeats name later[place] = true ∧ ¬IsCopy later place) = ∅ := by
        apply Finset.filter_eq_empty_iff.mpr
        intro place _ repeated
        exact List.find?_eq_none.mp found _ (List.getElem_mem place.isLt) repeated.1
      rw [nowhere]
      rfl
  | some attr =>
      obtain ⟨here, index, inside, rfl, before⟩ := List.find?_eq_some_iff_getElem.mp found
      have unmet (place : Fin later.length) (lower : place < ⟨index, inside⟩) :
          repeats name later[place] = false :=
        (Bool.not_eq_true' _).mp (before place lower)
      have only : (Finset.univ.filter fun place : Fin later.length =>
          repeats name later[place] = true ∧ ¬IsCopy later place) = {⟨index, inside⟩} := by
        rw [Finset.eq_singleton_iff_unique_mem]
        simp only [Finset.mem_filter, Finset.mem_univ, true_and]
        refine ⟨⟨here, fun copy => ?_⟩, ?_⟩
        · obtain ⟨first, lower, there⟩ := repeats_of_isCopy copy here
          exact absurd ((unmet first lower).symm.trans there) Bool.false_ne_true
        · rintro place ⟨there, original⟩
          rcases lt_trichotomy place ⟨index, inside⟩ with lower | same | upper
          · exact absurd ((unmet place lower).symm.trans there) Bool.false_ne_true
          · exact same
          · exact absurd (isCopy_of_repeats upper here there) original
      rw [only]
      rfl

end

/-! ## All copies -/

section

variable (attr : Attribute) (later : List Attribute)

theorem not_isCopy_zero : ¬IsCopy (attr :: later) (0 : Fin (later.length + 1)) := by
  rintro ⟨_, earlier, lower, _⟩
  exact absurd lower (Fin.not_lt_zero earlier)

theorem isCopy_succ_iff (place : Fin later.length) :
    IsCopy (attr :: later) place.succ ↔
      IsCopy later place ∨ attr.isTemplated = false ∧ repeats attr.name later[place] = true := by
  constructor
  · rintro ⟨plain, earlier, lower, known, named⟩
    cases earlier using Fin.cases with
    | zero => exact .inr ⟨known, repeats_iff.mpr ⟨plain, named⟩⟩
    | succ earlier => exact .inl ⟨plain, earlier, Fin.succ_lt_succ_iff.mp lower, known, named⟩
  · rintro (⟨plain, earlier, lower, known, named⟩ | ⟨known, repeated⟩)
    · exact ⟨plain, earlier.succ, Fin.succ_lt_succ_iff.mpr lower, known, named⟩
    · obtain ⟨plain, named⟩ := repeats_iff.mp repeated
      exact ⟨plain, (0 : Fin (later.length + 1)), Fin.succ_pos place, known, named⟩

theorem map_copies_cons :
    ((copies (attr :: later)).val.map fun place => (attr :: later)[place]) =
      (Finset.univ.filter fun place : Fin later.length =>
        IsCopy (attr :: later) place.succ).val.map fun place => later[place] := by
  have shifted : copies (attr :: later) =
      (Finset.univ.filter fun place : Fin later.length =>
        IsCopy (attr :: later) place.succ).map (Fin.succEmb later.length) := by
    ext place
    cases place using Fin.cases with
    | zero => simp [copies, not_isCopy_zero]
    | succ place => simp [copies]
  rw [shifted, Finset.map_val, Multiset.map_map]
  rfl

end

/-- What the scan reports are the copies, each at its place, though in another order. -/
theorem coe_subjects (attributes : List Attribute) :
    (subjects attributes : Multiset Attribute) =
      (copies attributes).val.map fun place => attributes[place] := by
  induction attributes with
  | nil => rfl
  | cons attr later induction =>
      rw [subjects, ← Multiset.coe_add, induction, map_copies_cons]
      simp only [isCopy_succ_iff]
      cases attr.isTemplated with
      | true => simp [copies]
      | false =>
          -- A copy of this attribute may be a copy of a later one too, all but the first.
          let originals : Finset (Fin later.length) :=
            {place | repeats attr.name later[place] = true ∧ ¬IsCopy later place}
          have apart : Disjoint originals (copies later) :=
            Finset.disjoint_filter.mpr fun _ _ original copy => original.2 copy
          have parts : (Finset.univ.filter fun place : Fin later.length =>
              IsCopy later place ∨ false = false ∧ repeats attr.name later[place] = true) =
                originals.disjUnion (copies later) apart := by
            ext place
            simp only [originals, copies, Finset.mem_disjUnion, Finset.mem_filter,
              Finset.mem_univ, true_and]
            tauto
          rw [parts, Finset.disjUnion_val, Multiset.map_add, map_filter_not_isCopy]
          rfl

/-! ## Reports -/

theorem diagnostics_findings (owner : Owner) (attributes : List Attribute) :
    (findings owner attributes).diagnostics =
      (subjects attributes).map (.onAttribute .repeatedAttribute owner.tag) := by
  rw [findings_eq, Findings.diagnostics_joinAll, List.flatMap_map, List.map_eq_flatMap]
  rfl

theorem findings_eq_diagnostics (owner : Owner) (attributes : List Attribute) :
    findings owner attributes = { diagnostics := (findings owner attributes).diagnostics } := by
  have within := within_findings owner attributes
  exact Findings.ext (within.allowed_eq_everything rfl) (within.defects_eq_empty rfl)
    (within.xhtml_eq_false rfl) rfl (within.warnings_eq_nil rfl)

/-- Attributes with template code are not reported, and none is reported because of them. -/
theorem subjects_filter (attributes : List Attribute) :
    subjects (attributes.filter fun attr => !attr.isTemplated) = subjects attributes := by
  induction attributes with
  | nil => rfl
  | cons attr later induction =>
      have unread : first? attr.name (later.filter fun other => !other.isTemplated) =
          first? attr.name later := by
        rw [first?, List.find?_filter, first?]
        congr 1
        funext other
        cases other.isTemplated <;> simp
      rw [List.filter_cons]
      cases templated : attr.isTemplated with
      | true => simpa [subjects, templated] using induction
      | false => simp [subjects, templated, unread, induction]

theorem countP_subjects (name : String) (attributes : List Attribute) :
    ((subjects attributes).countP fun attr => attr.isNamed name) =
      (attributes.countP fun attr => !attr.isTemplated && attr.isNamed name) - 1 := by
  have group := filter_subjects (Text.folded name) attributes
  rw [List.countP_eq_length_filter, List.countP_eq_length_filter, ← List.length_tail]
  exact congrArg List.length group

/-- The scan for repeated names reports every attribute without template code that has an earlier
one with its name, as it is written, once each, and nothing else. It takes no notice of
attributes with template code, and of all others with one name it reports all but one. -/
theorem findings_exact (owner : Owner) (attributes : List Attribute) :
    ((findings owner attributes).diagnostics : Multiset Diagnostic) =
        (copies attributes).val.map (fun place =>
          .onAttribute .repeatedAttribute owner.tag attributes[place]) ∧
      findings owner attributes = { diagnostics := (findings owner attributes).diagnostics } ∧
      findings owner (attributes.filter fun attr => !attr.isTemplated) =
        findings owner attributes ∧
      ∀ name, ((findings owner attributes).diagnostics.countP fun diagnostic =>
          diagnostic.attributeName.any fun written => Text.alike written name) =
        (attributes.countP fun attr => !attr.isTemplated && attr.isNamed name) - 1 := by
  refine ⟨?_, findings_eq_diagnostics owner attributes, ?_, ?_⟩
  · rw [diagnostics_findings, ← Multiset.map_coe, coe_subjects, Multiset.map_map]
    rfl
  · rw [findings_eq, subjects_filter, findings_eq]
  · intro name
    rw [diagnostics_findings, List.countP_map, ← countP_subjects]
    rfl

end HtmlConformance.Repeats
