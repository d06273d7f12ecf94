import HtmlConformance.Proofs.Rule.Dictionary

namespace HtmlConformance

/-! Look-ups in the attribute table. A name in any letter case has one row or none. -/

namespace AttributeRule

/-- A look-up finds the row with the name, in any letter case; there is one at most. -/
theorem find?_eq_some_iff {name : String} {rule : AttributeRule} :
    find? name = some rule ↔ rule ∈ table ∧ Text.alike name rule.name = true :=
  exact_find?.eq_some_iff name rule

theorem find?_eq_none_iff {name : String} :
    find? name = none ↔ ∀ rule ∈ table, Text.alike name rule.name = false := by
  rw [Option.eq_none_iff_forall_not_mem]
  simp only [Option.mem_def, find?_eq_some_iff, not_and, Bool.not_eq_true]

theorem get_identity {rule : AttributeRule} (listed : rule ∈ table) : get rule.identity = rule :=
  exact_find?.get_identity rule listed

/-- A row is told by its identity as well as by its name. -/
theorem identity_eq_iff {rule : AttributeRule} (listed : rule ∈ table) {identity : AttributeId} :
    rule.identity = identity ↔ rule.name = nameOf identity := by
  constructor
  · rintro rfl
    rw [nameOf, get_identity listed]
  · intro named
    have same : rule = get identity :=
      List.inj_on_of_nodup_map dictionary.names_nodup listed (indexed.get_mem identity) named
    rw [same]
    exact exact_find?.identity_get identity

/-- Attributes of XML are not checked for their values. -/
theorem value_of_xml {rule : AttributeRule} (listed : rule ∈ table)
    (foreign : rule.versions.contains .xml = true) : rule.value = none := by
  have rows : (table.all fun rule => !rule.versions.contains .xml || rule.value.isNone) = true := by
    cbv
  have row := List.all_eq_true.mp rows rule listed
  simpa [foreign] using row

end AttributeRule

end HtmlConformance
