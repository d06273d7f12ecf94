namespace HtmlConformance

/-! Sets over a finite type whose values stand in a fixed order. A set is a bit
vector with one bit for each value, so it prints as a number, and every law about
its operations is a law about membership. -/

/-- A finite type with all its values in a fixed order. -/
class Enumerated (α : Type) where
  values : List α
  mem_values : ∀ value : α, value ∈ values
  nodup_values : values.Nodup

/-- A set of values of an enumerated type. Bit `i` stands for the value at position `i`. -/
structure FlagSet (α : Type) [Enumerated α] where
  bits : BitVec (Enumerated.values : List α).length

namespace FlagSet

variable {α : Type} [Enumerated α]

instance : DecidableEq (FlagSet α) := fun left right =>
  decidable_of_iff (left.bits = right.bits)
    ⟨fun same => by cases left; cases right; exact congrArg FlagSet.mk same,
      fun same => congrArg FlagSet.bits same⟩

def toNat (set : FlagSet α) : Nat := set.bits.toNat

def empty : FlagSet α := ⟨0#_⟩

def full : FlagSet α := ⟨BitVec.allOnes _⟩

def union (left right : FlagSet α) : FlagSet α := ⟨left.bits ||| right.bits⟩

def inter (left right : FlagSet α) : FlagSet α := ⟨left.bits &&& right.bits⟩

def complement (set : FlagSet α) : FlagSet α := ⟨~~~set.bits⟩

def diff (left right : FlagSet α) : FlagSet α := left.inter right.complement

instance : EmptyCollection (FlagSet α) := ⟨empty⟩
instance : Union (FlagSet α) := ⟨union⟩
instance : Inter (FlagSet α) := ⟨inter⟩
instance : SDiff (FlagSet α) := ⟨diff⟩

def isEmpty (set : FlagSet α) : Bool := set == ∅

def isSubset (left right : FlagSet α) : Bool := (left \ right).isEmpty

def intersects (left right : FlagSet α) : Bool := !(left ∩ right).isEmpty

variable [DecidableEq α]

def contains (set : FlagSet α) (value : α) : Bool :=
  set.bits.getLsbD (Enumerated.values.idxOf value)

def only (value : α) : FlagSet α := ⟨BitVec.twoPow _ (Enumerated.values.idxOf value)⟩

def ofList (values : List α) : FlagSet α :=
  values.foldr (fun value set => only value ∪ set) ∅

def toList (set : FlagSet α) : List α := Enumerated.values.filter set.contains

/-! ## Membership -/

theorem idxOf_lt (value : α) :
    (Enumerated.values : List α).idxOf value < (Enumerated.values : List α).length :=
  List.idxOf_lt_length_of_mem (Enumerated.mem_values value)

@[simp] theorem contains_empty (value : α) : (∅ : FlagSet α).contains value = false := by
  change (0#_ : BitVec _).getLsbD _ = false
  simp

@[simp] theorem contains_full (value : α) : (full : FlagSet α).contains value = true := by
  simp [full, contains, idxOf_lt]

@[simp] theorem contains_union (left right : FlagSet α) (value : α) :
    (left ∪ right).contains value = (left.contains value || right.contains value) :=
  BitVec.getLsbD_or

@[simp] theorem contains_inter (left right : FlagSet α) (value : α) :
    (left ∩ right).contains value = (left.contains value && right.contains value) :=
  BitVec.getLsbD_and

@[simp] theorem contains_complement (set : FlagSet α) (value : α) :
    set.complement.contains value = !set.contains value := by
  simp [complement, contains, idxOf_lt]

@[simp] theorem contains_diff (left right : FlagSet α) (value : α) :
    (left \ right).contains value = (left.contains value && !right.contains value) := by
  change (left ∩ right.complement).contains value = _
  simp

@[simp] theorem contains_only (member value : α) :
    (only member).contains value = (value == member) := by
  have bound := idxOf_lt member
  have injective : (Enumerated.values : List α).idxOf member =
      (Enumerated.values : List α).idxOf value → member = value := by
    intro equal
    have here := List.getElem_idxOf (idxOf_lt member)
    have there := List.getElem_idxOf (idxOf_lt value)
    rw [← here, ← there]
    congr 1
  by_cases same : value = member
  · subst same
    simp [only, contains, bound]
  · have differs : ¬(Enumerated.values : List α).idxOf member =
        (Enumerated.values : List α).idxOf value :=
      fun equal => same (injective equal).symm
    simp [only, contains, BitVec.getLsbD_twoPow, differs, same]

theorem ext {left right : FlagSet α}
    (members : ∀ value, left.contains value = right.contains value) : left = right := by
  obtain ⟨leftBits⟩ := left
  obtain ⟨rightBits⟩ := right
  congr 1
  apply BitVec.eq_of_getLsbD_eq
  intro index bound
  have member := members ((Enumerated.values : List α)[index])
  simpa [contains, Enumerated.nodup_values.idxOf_getElem] using member

@[simp] theorem full_inter (set : FlagSet α) : full ∩ set = set :=
  ext fun value => by simp

@[simp] theorem inter_full (set : FlagSet α) : set ∩ full = set :=
  ext fun value => by simp

@[simp] theorem empty_union (set : FlagSet α) : ∅ ∪ set = set :=
  ext fun value => by simp

@[simp] theorem union_empty (set : FlagSet α) : set ∪ ∅ = set :=
  ext fun value => by simp

end FlagSet

end HtmlConformance
