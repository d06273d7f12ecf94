import HtmlConformance.Proofs.Json.Decoding

namespace HtmlConformance.Json.Decode

/-! The fields of records that are written as objects. What is found for a field depends only on
the members with its key, of which there may be one at most; neither their place nor the members
with other keys matter. -/

variable {α : Type}

theorem once_eq_ok_iff {name : String} {earlier next : Option α}
    {decoded : Except ShapeError α} :
    once name earlier decoded = .ok next ↔
      earlier = none ∧ ∃ result, decoded = .ok result ∧ some result = next := by
  cases earlier with
  | none => simp [once, map_ok_iff]
  | some found => simp [once]

theorem required_eq_ok_iff {name : String} {found : Option α} {result : α} :
    required name found = .ok result ↔ found = some result := by
  cases found <;> simp [required]

theorem optional_eq_ok_iff {decode : Value → Except ShapeError α} {value : Value}
    {found : Option α} :
    optional decode value = .ok found ↔
      (value = .null ∧ none = found) ∨
        (value ≠ .null ∧ ∃ result, decode value = .ok result ∧ some result = found) := by
  cases value <;> simp [optional, map_ok_iff]

/-! ## The members of a field -/

/-- The values that stand under a key, in the order of the object. -/
def valuesOf (key : String) (members : List (String × Value)) : List Value :=
  (members.filter fun member => member.1 == key).map Prod.snd

section

variable {key other : String} {value : Value} {members before after : List (String × Value)}

@[simp] theorem valuesOf_nil : valuesOf key [] = [] := rfl

@[simp] theorem valuesOf_cons_self :
    valuesOf key ((key, value) :: members) = value :: valuesOf key members := by
  simp [valuesOf]

theorem valuesOf_cons_of_ne (differs : other ≠ key) :
    valuesOf key ((other, value) :: members) = valuesOf key members := by
  simp [valuesOf, differs]

@[simp] theorem valuesOf_append :
    valuesOf key (before ++ after) = valuesOf key before ++ valuesOf key after := by
  simp [valuesOf]

theorem mem_valuesOf : value ∈ valuesOf key members ↔ (key, value) ∈ members := by
  simp [valuesOf, and_comm]

theorem valuesOf_perm {others : List (String × Value)} (order : members.Perm others) :
    (valuesOf key members).Perm (valuesOf key others) :=
  (order.filter _).map _

end

/-! ## What is found for a field -/

/-- With the members of an object, the content found for a field goes from one to the other. -/
def Fills (decode : Value → Except ShapeError α) (key : String) (members : List (String × Value))
    (earlier final : Option α) : Prop :=
  ∃ found, List.Forall₂ (fun value result => decode value = .ok result) (valuesOf key members)
    found ∧ final.toList = earlier.toList ++ found

/-- What an object has for a field: the content of its one member with this key, or nothing if
there is no such member. -/
def Finds (decode : Value → Except ShapeError α) (key : String) (members : List (String × Value))
    (found : Option α) : Prop :=
  List.Forall₂ (fun value result => decode value = .ok result) (valuesOf key members) found.toList

variable {decode : Value → Except ShapeError α} {key other : String} {value : Value}
    {members others : List (String × Value)} {earlier final found : Option α}

@[simp] theorem fills_nil : Fills decode key [] earlier final ↔ final = earlier := by
  cases earlier <;> cases final <;> simp [Fills]

theorem fills_cons_self :
    Fills decode key ((key, value) :: members) earlier final ↔
      ∃ next, once key earlier (decode value) = .ok next ∧
        Fills decode key members next final := by
  simp only [Fills, once_eq_ok_iff, valuesOf_cons_self]
  constructor
  · rintro ⟨found, each, whole⟩
    cases each with
    | @cons _ result _ results head tail =>
        cases earlier with
        | some before => cases final <;> simp at whole
        | none => exact ⟨some result, ⟨rfl, result, head, rfl⟩, results, tail, whole⟩
  · rintro ⟨_, ⟨rfl, result, head, rfl⟩, results, tail, whole⟩
    exact ⟨result :: results, .cons head tail, whole⟩

theorem fills_cons_of_ne (differs : other ≠ key) :
    Fills decode key ((other, value) :: members) earlier final ↔
      Fills decode key members earlier final := by
  rw [Fills, Fills, valuesOf_cons_of_ne differs]

@[simp] theorem fills_none :
    Fills decode key members none found ↔ Finds decode key members found := by
  simp [Fills, Finds]

namespace Finds

theorem mem {result : α} (finds : Finds decode key members (some result)) :
    ∃ value, (key, value) ∈ members ∧ decode value = .ok result := by
  obtain ⟨value, _, decoded, _, values⟩ := List.forall₂_cons_right_iff.mp finds
  exact ⟨value, mem_valuesOf.mp (values ▸ List.mem_cons_self), decoded⟩

theorem of_mem {result : α} (finds : Finds decode key members (some result))
    (member : (key, value) ∈ members) : decode value = .ok result := by
  obtain ⟨only, _, decoded, none, values⟩ := List.forall₂_cons_right_iff.mp finds
  rw [← mem_valuesOf, values, List.forall₂_nil_right_iff.mp none, List.mem_singleton] at member
  exact member ▸ decoded

theorem eq_none (finds : Finds decode key members found)
    (absent : key ∉ members.map Prod.fst) : found = none := by
  cases found with
  | none => rfl
  | some result =>
      obtain ⟨value, member, _⟩ := finds.mem
      exact absurd (List.mem_map_of_mem member) absent

theorem of_perm (finds : Finds decode key members found)
    (same : (valuesOf key members).Perm (valuesOf key others)) :
    Finds decode key others found := by
  have short := List.Forall₂.length_eq finds
  unfold Finds at finds ⊢
  cases found with
  | none =>
      rw [List.length_eq_zero_iff.mp short] at same finds
      rw [List.nil_perm.mp same]
      exact finds
  | some result =>
      obtain ⟨value, alone⟩ := List.length_eq_one_iff.mp short
      rw [alone] at same finds
      rw [List.perm_singleton.mp same.symm]
      exact finds

end Finds

/-! ## Objects that say the same -/

/-- Another object with the same fields: its members stand in another order, or there is a further
member whose key is none of the fields, or such a member has another value. -/
inductive Rearranged (fields : List String) :
    List (String × Value) → List (String × Value) → Prop where
  | permuted {members others : List (String × Value)} (order : members.Perm others) :
      Rearranged fields members others
  | inserted (before after : List (String × Value)) {key : String} (value : Value)
      (unknown : key ∉ fields) :
      Rearranged fields (before ++ after) (before ++ (key, value) :: after)
  | replaced (before after : List (String × Value)) {key : String} (value other : Value)
      (unknown : key ∉ fields) :
      Rearranged fields (before ++ (key, value) :: after) (before ++ (key, other) :: after)

theorem Rearranged.valuesOf_perm {fields : List String}
    (rearranged : Rearranged fields members others) (known : key ∈ fields) :
    (valuesOf key members).Perm (valuesOf key others) := by
  cases rearranged with
  | permuted order => exact Decode.valuesOf_perm order
  | inserted before after value unknown =>
      rw [valuesOf_append, valuesOf_append,
        valuesOf_cons_of_ne (ne_of_mem_of_not_mem known unknown).symm]
  | replaced before after value other unknown =>
      have differs := (ne_of_mem_of_not_mem known unknown).symm
      rw [valuesOf_append, valuesOf_append, valuesOf_cons_of_ne differs,
        valuesOf_cons_of_ne differs]

theorem Finds.rearranged {fields : List String} (finds : Finds decode key members found)
    (rearranged : Rearranged fields members others) (known : key ∈ fields) :
    Finds decode key others found :=
  finds.of_perm (rearranged.valuesOf_perm known)

/-- A member with another value, from which the same is decoded if it is that of the field. -/
theorem Finds.replaced {before after : List (String × Value)} {instead : Value}
    (finds : Finds decode key (before ++ (other, value) :: after) found)
    (same : other = key → ∀ result, decode value = .ok result → decode instead = .ok result) :
    Finds decode key (before ++ (other, instead) :: after) found := by
  unfold Finds at finds ⊢
  rw [valuesOf_append] at finds ⊢
  by_cases here : other = key
  · subst here
    rw [valuesOf_cons_self] at finds ⊢
    exact forall₂_replaced finds (same rfl)
  · rw [valuesOf_cons_of_ne here] at finds ⊢
    exact finds

/-- A sequence with another item, from which the same is decoded. -/
theorem sequence_replaced {before after : List Value} {instead : Value}
    (same : ∀ result, decode value = .ok result → decode instead = .ok result) {results : List α}
    (decoded : sequence decode (.array (before ++ value :: after)) = .ok results) :
    sequence decode (.array (before ++ instead :: after)) = .ok results :=
  mapM_ok_iff.mpr (forall₂_replaced (mapM_ok_iff.mp decoded) same)

end HtmlConformance.Json.Decode
