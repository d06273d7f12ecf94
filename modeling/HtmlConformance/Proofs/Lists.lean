import HtmlConformance.Element
import Mathlib

namespace HtmlConformance

/-! Laws of lists and arrays that the library's proofs share. -/

variable {α : Type}

theorem append_list_append (array : Array α) (first second : List α) :
    array ++ first ++ second = array ++ (first ++ second) :=
  Array.ext' (by simp)

/-- Lists that go up to the first occurrence of a mark can be told apart from what follows it. -/
theorem append_cons_inj {mark : α} {left right leftRest rightRest : List α}
    (unmarkedLeft : mark ∉ left) (unmarkedRight : mark ∉ right) :
    left ++ mark :: leftRest = right ++ mark :: rightRest ↔
      left = right ∧ leftRest = rightRest := by
  constructor
  · intro same
    rcases List.append_eq_append_iff.mp same with ⟨more, rfl, rest⟩ | ⟨more, rfl, rest⟩
    · cases more with
      | nil => simpa using rest
      | cons head tail =>
          have marked : head = mark := (List.cons.inj rest).1.symm
          simp [marked] at unmarkedRight
    · cases more with
      | nil => simpa using rest.symm
      | cons head tail =>
          have marked : head = mark := (List.cons.inj rest).1.symm
          simp [marked] at unmarkedLeft
  · rintro ⟨rfl, rfl⟩
    rfl

theorem mapM_of_forall_some {β : Type} {act : α → Option β} {result : α → β} {list : List α}
    (acts : ∀ entry ∈ list, act entry = some (result entry)) :
    list.mapM act = some (list.map result) := by
  induction list with
  | nil => rfl
  | cons head tail induction =>
      have first := acts head List.mem_cons_self
      have rest := induction fun entry member => acts entry (List.mem_cons_of_mem head member)
      rw [List.mapM_cons, first, rest]
      rfl

/-! ## Changing the first entry that satisfies a test -/

variable {test : α → Bool} {change : α → α}

theorem mem_of_mem_updateFirst {list : List α} {entry : α}
    (member : entry ∈ updateFirst test change list) :
    entry ∈ list ∨ ∃ old ∈ list, test old = true ∧ entry = change old := by
  induction list with
  | nil => cases member
  | cons head tail induction =>
      unfold updateFirst at member
      split at member
      next satisfied =>
        rcases List.mem_cons.mp member with rfl | later
        · exact .inr ⟨head, List.mem_cons_self, satisfied, rfl⟩
        · exact .inl (List.mem_cons_of_mem head later)
      next =>
        rcases List.mem_cons.mp member with rfl | later
        · exact .inl List.mem_cons_self
        · rcases induction later with old | ⟨old, present, satisfied, changed⟩
          · exact .inl (List.mem_cons_of_mem head old)
          · exact .inr ⟨old, List.mem_cons_of_mem head present, satisfied, changed⟩

theorem updateFirst_updateFirst (keeps : ∀ entry, test (change entry) = test entry)
    (settles : ∀ entry, change (change entry) = change entry) (list : List α) :
    updateFirst test change (updateFirst test change list) = updateFirst test change list := by
  induction list with
  | nil => rfl
  | cons head tail induction =>
      by_cases satisfied : test head = true <;>
        simp [updateFirst, satisfied, keeps, settles, induction]

theorem updateFirst_map {β : Type} {touch : α → β} {other : β → Bool} {instead : β → β}
    (keeps : ∀ entry, other (touch entry) = test entry)
    (commutes : ∀ entry, instead (touch entry) = touch (change entry)) (list : List α) :
    updateFirst other instead (list.map touch) = (updateFirst test change list).map touch := by
  induction list with
  | nil => rfl
  | cons head tail induction =>
      by_cases satisfied : test head = true <;>
        simp [updateFirst, satisfied, keeps, commutes, induction]

/-- Of the entries that satisfy the test the first one is changed. -/
theorem filter_updateFirst (keeps : ∀ entry, test (change entry) = test entry) (list : List α) :
    (updateFirst test change list).filter test = (list.filter test).modifyHead change := by
  induction list with
  | nil => rfl
  | cons head tail induction =>
      by_cases satisfied : test head = true <;>
        simp [updateFirst, satisfied, keeps, induction]

theorem filter_updateFirst_of_apart {other : α → Bool}
    (apart : ∀ entry, test entry = true → other entry = false ∧ other (change entry) = false)
    (list : List α) : (updateFirst test change list).filter other = list.filter other := by
  induction list with
  | nil => rfl
  | cons head tail induction =>
      unfold updateFirst
      split
      next satisfied => simp [apart head satisfied]
      next => rw [List.filter_cons, List.filter_cons, induction]

theorem filter_eraseP (list : List α) :
    (list.eraseP test).filter test = (list.filter test).tail := by
  induction list with
  | nil => rfl
  | cons head tail induction =>
      by_cases satisfied : test head = true <;> simp [satisfied, induction]

theorem filter_eraseP_of_apart {other : α → Bool}
    (apart : ∀ entry, test entry = true → other entry = false) (list : List α) :
    (list.eraseP test).filter other = list.filter other := by
  induction list with
  | nil => rfl
  | cons head tail induction =>
      cases satisfied : test head with
      | true => simp [satisfied, apart head satisfied]
      | false => simp [satisfied, List.filter_cons, induction]

theorem getElem?_updateFirst (list : List α) (index : Nat) :
    (updateFirst test change list)[index]? = list[index]?.map fun entry =>
      if test entry && (list.take index).all (fun other => !test other) then change entry
      else entry := by
  induction list generalizing index with
  | nil => rfl
  | cons head tail induction =>
      unfold updateFirst
      cases met : test head with
      | true => cases index <;> simp [met]
      | false => cases index <;> simp [met, induction]

/-- A list is related to its update if entries are related to themselves and to what the
change makes of them. -/
theorem forall₂_updateFirst {related : α → α → Prop} (refl : ∀ entry, related entry entry)
    (changed : ∀ entry, test entry = true → related entry (change entry)) (list : List α) :
    List.Forall₂ related list (updateFirst test change list) := by
  induction list with
  | nil => exact .nil
  | cons head tail induction =>
      unfold updateFirst
      split
      next satisfied =>
        exact .cons (changed head satisfied) (List.forall₂_same.mpr fun entry _ => refl entry)
      next => exact .cons (refl head) induction

theorem forall₂_trans {related : α → α → Prop}
    (trans : ∀ first second third, related first second → related second third →
      related first third)
    {left middle right : List α} (before : List.Forall₂ related left middle)
    (after : List.Forall₂ related middle right) : List.Forall₂ related left right := by
  induction before generalizing right with
  | nil => cases after; exact .nil
  | cons head _ induction =>
      cases after with
      | cons next rest => exact .cons (trans _ _ _ head next) (induction rest)

theorem map_eq_map_iff_forall₂ {β γ : Type} {first : α → γ} {second : β → γ} {left : List α}
    {right : List β} :
    left.map first = right.map second ↔
      List.Forall₂ (fun before after => first before = second after) left right := by
  rw [← List.forall₂_eq_eq_eq, List.forall₂_map_left_iff, List.forall₂_map_right_iff]

/-- Each entry is smaller than the next. -/
def rises [LT α] [DecidableLT α] (list : List α) : Bool :=
  (list.dropLast.zip list.tail).all fun step => decide (step.1 < step.2)

theorem nodup_of_rises [Preorder α] [DecidableLT α] {list : List α}
    (rising : rises list = true) : list.Nodup := by
  have chain : list.IsChain (· < ·) := by
    rw [List.isChain_iff_forall₂, List.forall₂_iff_zip]
    refine ⟨by simp, fun listed => ?_⟩
    exact of_decide_eq_true (List.all_eq_true.mp rising _ listed)
  exact chain.pairwise.imp ne_of_lt

/-- Where no entry is listed twice, the first place at which the test is met is the place of the
first entry that meets it. -/
theorem findIdx?_eq_some_iff_of_nodup {list : List α} (distinct : list.Nodup)
    {index : Nat} :
    list.findIdx? test = some index ↔
      ∃ first, list.find? test = some first ∧ list[index]? = some first := by
  rw [List.findIdx?_eq_some_iff_getElem]
  constructor
  · rintro ⟨within, met, before⟩
    refine ⟨list[index], ?_, List.getElem?_eq_getElem within⟩
    rw [List.find?_eq_some_iff_getElem]
    exact ⟨met, index, within, rfl, fun earlier less => by simpa using before earlier less⟩
  · rintro ⟨first, found, here⟩
    obtain ⟨met, place, within, equal, before⟩ := List.find?_eq_some_iff_getElem.mp found
    obtain ⟨inside, same⟩ := List.getElem?_eq_some_iff.mp here
    obtain rfl := distinct.getElem_inj_iff.mp (same.trans equal.symm)
    exact ⟨within, by rw [equal]; exact met, fun earlier less => by simpa using before earlier less⟩

/-! ## Lists without their order -/

theorem map_subperm {β : Type} (change : α → β) {left right : List α}
    (fewer : left.Subperm right) : (left.map change).Subperm (right.map change) := by
  obtain ⟨list, permuted, sublist⟩ := fewer
  exact ⟨list.map change, permuted.map change, sublist.map change⟩

/-- Entries can be compared by number in groups, each of the entries with one key. -/
theorem subperm_of_groups {β : Type} [DecidableEq α] [DecidableEq β] (key : α → β)
    {left right : List α}
    (groups : ∀ value, (left.filter fun entry => key entry == value).Subperm
      (right.filter fun entry => key entry == value)) :
    left.Subperm right := by
  rw [List.subperm_ext_iff]
  intro entry _
  have inGroup : (key entry == key entry) = true := beq_self_eq_true _
  simpa only [List.count_filter (p := fun other => key other == key entry) inGroup] using
    (groups (key entry)).count_le entry

theorem flatMap_subperm {β γ : Type} {first : α → List γ} {second : β → List γ} {left : List α}
    {right : List β}
    (fewer : List.Forall₂ (fun before after => (first before).Subperm (second after)) left right) :
    (left.flatMap first).Subperm (right.flatMap second) := by
  induction fewer with
  | nil => exact .refl []
  | cons head _ induction => exact List.Subperm.append head induction

/-- Lists that agree where a test is passed lack nothing of each other that passes it. -/
theorem eq_false_of_mem_diff [DecidableEq α] {left right : List α}
    (agree : left.filter test = right.filter test) {entry : α}
    (missing : entry ∈ left.diff right) : test entry = false := by
  by_contra passes
  rw [Bool.not_eq_false] at passes
  have more := List.count_pos_iff.mpr missing
  rw [List.count_diff, ← List.count_filter passes, agree, List.count_filter passes,
    Nat.sub_self] at more
  exact Nat.lt_irrefl 0 more

end HtmlConformance
