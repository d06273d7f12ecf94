import HtmlConformance.Proofs.Check.Retouch
import HtmlConformance.Proofs.Pairing
import HtmlConformance.Proofs.Rule.Element
import HtmlConformance.Proofs.Text

namespace HtmlConformance

/-! The spelling of names. It is of no account in which letter case tags and attribute names are
written, nor in which quotes values stand. Each thing has a plain form, in small letters and
double quotes, and two are spelled alike exactly if their plain forms are equal. -/

/-! ## Alike spellings -/

structure Attribute.SpelledAlike (left right : Attribute) : Prop where
  name : Text.alike left.name right.name = true
  value : left.value = right.value
  fragment : left.fragment = right.fragment

structure Element.SpelledAlike (left right : Element) : Prop where
  tag : Text.alike left.tag right.tag = true
  attributes : List.Forall₂ Attribute.SpelledAlike left.attributes right.attributes

/-- The diagnostics say the same, with names spelled alike. Their severity goes by their kind. -/
structure Diagnostic.SpelledAlike (left right : Diagnostic) : Prop where
  kind : left.kind = right.kind
  element : Text.alike left.element right.element = true
  attributeName : Option.Rel (fun left right => Text.alike left right = true)
    left.attributeName right.attributeName
  value : left.value = right.value

/-! ## Plain forms -/

def Attribute.plain (attr : Attribute) : Attribute where
  name := Text.folded attr.name
  value := attr.value
  fragment := attr.fragment

def Element.plain (element : Element) : Element :=
  element.retouched (Text.folded element.tag) Attribute.plain

def Diagnostic.plain (diagnostic : Diagnostic) : Diagnostic :=
  { diagnostic with
    element := Text.folded diagnostic.element
    attributeName := diagnostic.attributeName.map Text.folded }

def View.spellingless : View := .mapped Diagnostic.plain

theorem Attribute.spelledAlike_iff (left right : Attribute) :
    left.SpelledAlike right ↔ left.plain = right.plain := by
  simp only [plain, Attribute.mk.injEq, ← Text.alike_iff, true_and]
  exact ⟨fun alike => ⟨alike.name, alike.value, alike.fragment⟩,
    fun ⟨name, value, fragment⟩ => ⟨name, value, fragment⟩⟩

theorem Element.spelledAlike_iff (left right : Element) :
    left.SpelledAlike right ↔ left.plain = right.plain := by
  have attributes : left.attributes.map Attribute.plain = right.attributes.map Attribute.plain ↔
      List.Forall₂ Attribute.SpelledAlike left.attributes right.attributes := by
    simp only [map_eq_map_iff_forall₂, ← Attribute.spelledAlike_iff]
  simp only [plain, retouched, Element.mk.injEq, ← Text.alike_iff, attributes]
  exact ⟨fun alike => ⟨alike.tag, alike.attributes⟩, fun both => ⟨both.1, both.2⟩⟩

theorem Diagnostic.spelledAlike_of_plain {left right : Diagnostic}
    (same : left.plain = right.plain) : left.SpelledAlike right := by
  simp only [plain, Diagnostic.mk.injEq, ← Text.alike_iff] at same
  obtain ⟨kind, element, named, value⟩ := same
  refine ⟨kind, element, ?_, value⟩
  generalize left.attributeName = first, right.attributeName = second at named ⊢
  cases first with
  | none =>
      rw [Option.map_none, eq_comm, Option.map_eq_none_iff] at named
      rw [named]
      exact .none
  | some name =>
      rcases Option.map_eq_some_iff.mp named.symm with ⟨other, rfl, folded⟩
      exact .some ((Text.alike_iff _ _).mpr folded.symm)

/-! ## Checks of plain forms -/

theorem retouch_plain (tag : String) :
    Retouch .spellingless Attribute.plain (.ofTag tag) (.ofTag (Text.folded tag)) where
  name attr := Text.alike_folded attr.name
  value _ := rfl
  update _ _ := rfl
  supplied supplied text := by
    have small : Text.folded supplied.name = supplied.name := supplied.isKnown_name.folded_eq
    simp only [Attribute.plain, Attribute.valued, small]
  rule := ElementRule.find?_congr (Text.alike_folded tag)
  onAttribute kind attr := by
    simp [View.spellingless, View.mapped, Diagnostic.plain, Diagnostic.onAttribute, Attribute.plain,
      Owner.ofTag, Text.folded_folded]
  onName kind name := by
    simp [View.spellingless, View.mapped, Diagnostic.plain, Diagnostic.onName, Owner.ofTag,
      Text.folded_folded]
  onElement kind := by
    simp [View.spellingless, View.mapped, Diagnostic.plain, Diagnostic.onElement, Owner.ofTag,
      Text.folded_folded]
  templates := .inl fun _ => rfl

namespace Element

variable (options : Options) (hook : IdRepair.BuiltIn)

theorem findings_plain (element : Element) :
    (element.plain.findings options hook.rule).through .spellingless =
      (element.findings options hook.rule).through .spellingless :=
  findings_retouched (retouch_plain element.tag) options hook

theorem repair_plain (element : Element) :
    element.plain.repair options hook.rule = (element.repair options hook.rule).plain := by
  rw [plain, repair_retouched (retouch_plain element.tag), plain, tag_repair]

namespace SpelledAlike

variable {left right : Element} (alike : left.SpelledAlike right)
include alike

theorem findings :
    (left.findings options hook.rule).through .spellingless =
      (right.findings options hook.rule).through .spellingless := by
  rw [← left.findings_plain, ← right.findings_plain, (spelledAlike_iff left right).mp alike]

theorem repair :
    (left.repair options hook.rule).SpelledAlike (right.repair options hook.rule) := by
  rw [spelledAlike_iff, ← repair_plain, ← repair_plain, (spelledAlike_iff left right).mp alike]

end SpelledAlike

end Element

/-! ## Documents -/

namespace Arena

/-- Documents that differ only in the letter case of their tags and attribute names and in their
quotes come to the same verdict. Their diagnostics agree one by one, names again spelled alike,
and so do the repaired documents, place by place. -/
theorem spelling_is_immaterial (options : Options) (hook : IdRepair.BuiltIn)
    {nodes respelled : List Node}
    (alike : Node.PairedAll Element.SpelledAlike nodes respelled) :
    (firstPass options hook.rule nodes).2.SameVerdict
        (firstPass options hook.rule respelled).2 ∧
      List.Forall₂ Diagnostic.SpelledAlike
        (firstPass options hook.rule nodes).2.diagnostics.toList
        (firstPass options hook.rule respelled).2.diagnostics.toList ∧
      Node.PairedAll Element.SpelledAlike (firstPass options hook.rule nodes).1.toNodes
        (firstPass options hook.rule respelled).1.toNodes := by
  have found := alike.elementsAll.imp fun _ _ both => both.findings options hook
  obtain ⟨verdict, seen⟩ := seen_firstPass found
  refine ⟨verdict, View.forall₂_of_mapped Diagnostic.spelledAlike_of_plain seen, ?_⟩
  rw [toNodes_firstPass, toNodes_firstPass]
  exact alike.mapElementsAll fun _ _ both => both.repair options hook

/-- An image in capitals and in single quotes, with a place that only vendors have. -/
theorem spelling_is_immaterial_of_image :
    let small : List Node := [.element ⟨"img", [.valued "align" "absmiddle", .bare "ismap"]⟩ []]
    let capital : List Node :=
      [.element ⟨"IMG", [⟨"Align", some "absmiddle", Char.ofNat 39, none⟩, .bare "ISMAP"]⟩ []]
    Node.PairedAll Element.SpelledAlike small capital ∧
      (firstPass {} IdRepair.copyName small).2.SameVerdict
        (firstPass {} IdRepair.copyName capital).2 ∧
      List.Forall₂ Diagnostic.SpelledAlike
        (firstPass {} IdRepair.copyName small).2.diagnostics.toList
        (firstPass {} IdRepair.copyName capital).2.diagnostics.toList ∧
      Node.PairedAll Element.SpelledAlike (firstPass {} IdRepair.copyName small).1.toNodes
        (firstPass {} IdRepair.copyName capital).1.toNodes := by
  intro small capital
  have alike : Node.PairedAll Element.SpelledAlike small capital := by
    refine ⟨⟨⟨by cbv, .cons ⟨by cbv, rfl, rfl⟩ (.cons ⟨by cbv, rfl, rfl⟩ .nil)⟩, trivial⟩, trivial⟩
  exact ⟨alike, spelling_is_immaterial {} .copyName alike⟩

end Arena

end HtmlConformance
