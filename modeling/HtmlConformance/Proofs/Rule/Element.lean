import HtmlConformance.Check.Element
import HtmlConformance.Proofs.Rule.Dictionary

namespace HtmlConformance

/-! Look-ups in the element table, and which check belongs to which tags. -/

namespace ElementRule

/-- The table has a rule for the tag, which is written in small letters. -/
def IsKnown (tag : String) : Prop := (find? tag).map ElementRule.name = some tag

theorem name_of_find? {tag : String} {rule : ElementRule} (found : find? tag = some rule) :
    rule.name = Text.folded tag := by
  simpa using List.find?_some found

theorem mem_of_find? {tag : String} {rule : ElementRule} (found : find? tag = some rule) :
    rule ∈ table := by
  unfold find? at found
  exact List.mem_of_find?_eq_some found

theorem find?_congr {left right : String} (alike : Text.alike left right = true) :
    find? left = find? right := by
  simp only [find?, (Text.alike_iff left right).mp alike]

theorem IsKnown.folded_eq {tag : String} (known : IsKnown tag) : Text.folded tag = tag := by
  rcases Option.map_eq_some_iff.mp known with ⟨rule, found, named⟩
  exact (name_of_find? found).symm.trans named

/-- Tests that agree on every row of the table agree on the rule that is found. -/
theorem any_find?_congr {first second : ElementRule → Bool}
    (rows : (table.all fun rule => first rule == second rule) = true) (tag : String) :
    (find? tag).any first = (find? tag).any second := by
  cases found : find? tag with
  | none => rfl
  | some rule => exact eq_of_beq (List.all_eq_true.mp rows rule (mem_of_find? found))

end ElementRule

theorem ElementRule.any_name_find? {name : String} (known : IsKnown name) (tag : String) :
    ((find? tag).any fun rule => rule.name == name) = Text.alike tag name := by
  rw [Bool.eq_iff_iff]
  constructor
  · intro same
    rcases (Option.any_eq_true _ _).mp same with ⟨rule, found, named⟩
    rw [Text.alike_iff, known.folded_eq, ← name_of_find? found]
    exact eq_of_beq named
  · intro alike
    rcases Option.map_eq_some_iff.mp known with ⟨rule, found, named⟩
    rw [find?_congr alike, found, Option.any_some, named]
    exact beq_self_eq_true name

/-- An element has an identity if its tag is the name that the table gives to it. -/
theorem Owner.is_ofTag (identity : ElementId) (tag : String) :
    (Owner.ofTag tag).is identity = Text.alike tag (ElementRule.get identity).name := by
  rw [Bool.eq_iff_iff, is, Option.any_eq_true]
  constructor
  · rintro ⟨rule, found, same⟩
    have row := (ElementRule.exact_find?.eq_some_iff tag rule).mp found
    have here : ElementRule.get rule.identity = rule :=
      ElementRule.exact_find?.get_identity rule row.1
    rw [← eq_of_beq same, here]
    exact row.2
  · intro alike
    have listed := ElementRule.indexed.get_mem identity
    have same := ElementRule.exact_find?.identity_get identity
    exact ⟨_, (ElementRule.exact_find?.eq_some_iff tag _).mpr ⟨listed, alike⟩,
      beq_iff_eq.mpr same⟩

theorem Owner.isImageLike_of_caption {tag : String} (tagged : Text.alike tag "caption" = true) :
    (Owner.ofTag tag).isImageLike = false := by
  have rule : (Owner.ofTag tag).rule = ElementRule.find? "caption" :=
    ElementRule.find?_congr tagged
  rw [isImageLike, hasModel, rule]
  cbv

namespace Element

def isTagged (element : Element) (tag : String) : Bool := Text.alike element.tag tag

theorem check_eq_iff {check : ElementCheck} (special : check ≠ .generic) (element : Element) :
    element.check = check ↔
      ((ElementRule.find? element.tag).any fun rule => rule.check == check) = true := by
  unfold Element.check
  cases ElementRule.find? element.tag with
  | none => simp [Ne.symm special]
  | some rule => simp

/-- A special check belongs to the tags that the table gives it to. -/
theorem check_beq_eq_any_isTagged {check : ElementCheck} (tags : List String)
    (special : check ≠ .generic)
    (known : (tags.all fun tag =>
      (ElementRule.find? tag).map ElementRule.name == some tag) = true)
    (rows : (ElementRule.table.all fun rule =>
      (rule.check == check) == tags.contains rule.name) = true) (element : Element) :
    (element.check == check) = tags.any element.isTagged := by
  have each (tag : String) (member : tag ∈ tags) : ElementRule.IsKnown tag :=
    eq_of_beq (List.all_eq_true.mp known tag member)
  rw [Bool.eq_iff_iff, beq_iff_eq, check_eq_iff special, ElementRule.any_find?_congr rows,
    Option.any_eq_true, List.any_eq_true]
  constructor
  · rintro ⟨rule, found, listed⟩
    have member : rule.name ∈ tags := List.contains_iff_mem.mp listed
    refine ⟨rule.name, member, ?_⟩
    rw [isTagged, ← ElementRule.any_name_find? (each rule.name member)]
    exact (Option.any_eq_true _ _).mpr ⟨rule, found, beq_self_eq_true rule.name⟩
  · rintro ⟨tag, member, tagged⟩
    rw [isTagged, ← ElementRule.any_name_find? (each tag member)] at tagged
    rcases (Option.any_eq_true _ _).mp tagged with ⟨rule, found, named⟩
    exact ⟨rule, found, List.contains_iff_mem.mpr (eq_of_beq named ▸ member)⟩

variable (element : Element)

theorem check_beq_caption : (element.check == .caption) = element.isTagged "caption" := by
  rw [check_beq_eq_any_isTagged ["caption"] (by decide) (by cbv) (by cbv)]
  simp

theorem check_beq_image : (element.check == .image) = element.isTagged "img" := by
  rw [check_beq_eq_any_isTagged ["img"] (by decide) (by cbv) (by cbv)]
  simp

theorem check_beq_tableCell :
    (element.check == .tableCell) = (element.isTagged "td" || element.isTagged "th") := by
  rw [check_beq_eq_any_isTagged ["td", "th"] (by decide) (by cbv) (by cbv)]
  simp

theorem check_beq_anchor : (element.check == .anchor) = element.isTagged "a" := by
  rw [check_beq_eq_any_isTagged ["a"] (by decide) (by cbv) (by cbv)]
  simp

theorem check_beq_area : (element.check == .area) = element.isTagged "area" := by
  rw [check_beq_eq_any_isTagged ["area"] (by decide) (by cbv) (by cbv)]
  simp

theorem check_beq_html : (element.check == .html) = element.isTagged "html" := by
  rw [check_beq_eq_any_isTagged ["html"] (by decide) (by cbv) (by cbv)]
  simp

theorem check_beq_line : (element.check == .line) = element.isTagged "hr" := by
  rw [check_beq_eq_any_isTagged ["hr"] (by decide) (by cbv) (by cbv)]
  simp

theorem check_beq_table : (element.check == .table) = element.isTagged "table" := by
  rw [check_beq_eq_any_isTagged ["table"] (by decide) (by cbv) (by cbv)]
  simp

theorem check_beq_map : (element.check == .map) = element.isTagged "map" := by
  rw [check_beq_eq_any_isTagged ["map"] (by decide) (by cbv) (by cbv)]
  simp

theorem check_beq_script : (element.check == .script) = element.isTagged "script" := by
  rw [check_beq_eq_any_isTagged ["script"] (by decide) (by cbv) (by cbv)]
  simp

theorem check_beq_style : (element.check == .style) = element.isTagged "style" := by
  rw [check_beq_eq_any_isTagged ["style"] (by decide) (by cbv) (by cbv)]
  simp

theorem check_beq_link : (element.check == .link) = element.isTagged "link" := by
  rw [check_beq_eq_any_isTagged ["link"] (by decide) (by cbv) (by cbv)]
  simp

end Element

end HtmlConformance
