import HtmlConformance.Proofs.Lists

namespace HtmlConformance

/-! The attribute list of an element under any edits. The attributes with one name, in whatever
letter case, are a list of their own: its head is what is read, overwritten and removed, and edits
under other names pass it by. Attributes stand in the order in which they came, and no edit makes
two of them change places. -/

/-! ## Reading by name -/

namespace Element

variable (element : Element) (attr : Attribute) (name : String)

theorem has_eq_isSome : element.has name = (element.find? name).isSome := by
  rw [has, find?, List.isSome_find?]

theorem has_congr {left right : String} (alike : Text.alike left right = true) :
    element.has left = element.has right := by
  simp only [has, Attribute.isNamed, Text.alike, (Text.alike_iff left right).mp alike]

@[simp] theorem has_push :
    (element.push attr).has name = (element.has name || attr.isNamed name) := by
  simp [has, push]

theorem isNamed_of_find? {element : Element} {attr : Attribute} {name : String}
    (found : element.find? name = some attr) : attr.isNamed name = true := by
  unfold find? at found
  simpa using List.find?_some found

theorem find?_push :
    (element.push attr).find? name =
      (element.find? name).or (if attr.isNamed name then some attr else none) := by
  simp only [find?, push, List.find?_append, List.find?_singleton]

/-- What is removed is what is found, and no other attribute goes with it. -/
theorem remove_eq :
    element.remove name =
      (element.find? name,
        { element with
          attributes := element.attributes.eraseP fun attr => attr.isNamed name }) := by
  rw [find?, List.find?_eq_bind_findIdx?_getElem?, List.eraseP_eq_eraseIdx, remove, position?]
  cases element.attributes.findIdx? fun attr => attr.isNamed name <;> rfl

theorem isNamed_eq_false_of_not_has {element : Element} {name : String}
    (absent : element.has name = false) {other : Attribute}
    (member : other ∈ element.attributes) : other.isNamed name = false := by
  simpa using List.any_eq_false.mp absent other member

end Element

/-! ## Edits -/

/-- A change of an attribute list. -/
inductive Edit where
  | set (name value : String)
  | remove (name : String)
  | push (attr : Attribute)

namespace Edit

def after (element : Element) : Edit → Element
  | set name value => element.set name value
  | remove name => (element.remove name).2
  | push attr => element.push attr

end Edit

def Element.afterAll (element : Element) (edits : List Edit) : Element :=
  edits.foldl Edit.after element

/-! ## Attributes that are told apart -/

/-- An attribute of an element, told from others like it by the turn at which it came. -/
structure Occurrence where
  turn : Nat
  attr : Attribute

namespace Occurrence

def isNamed (occurrence : Occurrence) (name : String) : Bool := occurrence.attr.isNamed name

def withValue (occurrence : Occurrence) (value : String) : Occurrence :=
  { occurrence with attr := { occurrence.attr with value := some value } }

end Occurrence

/-- The attributes of an element, and the number of the turn that comes next. -/
structure History where
  turn : Nat
  occurrences : List Occurrence

namespace History

/-- The attributes that an element begins with have come one after another. -/
def start (element : Element) : History where
  turn := element.attributes.length
  occurrences := element.attributes.zipIdx.map fun entry => ⟨entry.2, entry.1⟩

def attributes (history : History) : List Attribute := history.occurrences.map Occurrence.attr

def turns (history : History) : List Nat := history.occurrences.map Occurrence.turn

def after (history : History) (edit : Edit) : History where
  turn := history.turn + 1
  occurrences :=
    match edit with
    | .set name value =>
        if history.occurrences.any fun occurrence => occurrence.isNamed name then
          updateFirst (fun occurrence => occurrence.isNamed name)
            (fun occurrence => occurrence.withValue value) history.occurrences
        else
          history.occurrences ++ [⟨history.turn, .valued name value⟩]
    | .remove name => history.occurrences.eraseP fun occurrence => occurrence.isNamed name
    | .push attr => history.occurrences ++ [⟨history.turn, attr⟩]

def afterAll (history : History) (edits : List Edit) : History := edits.foldl after history

/-! ## Attributes with one name -/

def named (history : History) (key : String) : History :=
  { history with
    occurrences := history.occurrences.filter fun occurrence => occurrence.isNamed key }

def first? (history : History) : Option Attribute :=
  history.occurrences.head?.map Occurrence.attr

/-- An edit as the attributes with one name see it. Setting overwrites the value of the head, or
adds one attribute where there is none; removing takes the head; and what is pushed goes to the
end. Edits under other names do nothing. -/
def afterNamed (key : String) (queue : History) (edit : Edit) : History where
  turn := queue.turn + 1
  occurrences :=
    match edit with
    | .set name value =>
        if Text.alike name key then
          match queue.occurrences with
          | [] => [⟨queue.turn, .valued name value⟩]
          | head :: rest => head.withValue value :: rest
        else
          queue.occurrences
    | .remove name => if Text.alike name key then queue.occurrences.tail else queue.occurrences
    | .push attr =>
        if attr.isNamed key then queue.occurrences ++ [⟨queue.turn, attr⟩] else queue.occurrences

end History

/-! ## Names that agree, and names that do not -/

namespace Occurrence

theorem isNamed_congr {name key : String} (same : Text.alike name key = true) :
    (fun occurrence : Occurrence => occurrence.isNamed name) =
      fun occurrence => occurrence.isNamed key := by
  funext occurrence
  rw [isNamed, isNamed, Attribute.isNamed, Attribute.isNamed, Text.alike, Text.alike,
    (Text.alike_iff name key).mp same]

theorem isNamed_of_apart {name key : String} (apart : Text.alike name key = false)
    {occurrence : Occurrence} (named : occurrence.isNamed name = true) :
    occurrence.isNamed key = false := by
  rw [← Bool.not_eq_true]
  intro other
  rw [isNamed, Attribute.isNamed, Text.alike_comm] at named
  have same := Text.alike_trans named other
  rw [apart] at same
  cases same

end Occurrence

namespace History

variable {history : History} {element : Element} {key : String}

/-! ## One edit -/

/-- The attributes with a name are overwritten at their head only, and attributes with other names
are not. -/
theorem named_after_set (history : History) (name value key : String) :
    (history.after (.set name value)).named key =
      (history.named key).afterNamed key (.set name value) := by
  rcases history with ⟨turn, list⟩
  simp only [named, after, afterNamed, History.mk.injEq, true_and]
  cases same : Text.alike name key with
  | true =>
      have valued : (Occurrence.mk turn (.valued name value)).isNamed key = true := same
      rw [Occurrence.isNamed_congr same, if_pos rfl]
      cases queue : list.filter fun occurrence => occurrence.isNamed key with
      | nil =>
          have missing := List.any_eq_false.mpr (List.filter_eq_nil_iff.mp queue)
          rw [missing, if_neg Bool.false_ne_true, List.filter_append, queue]
          simp [valued]
      | cons head rest =>
          have present : (list.any fun occurrence => occurrence.isNamed key) = true := by
            rw [← Bool.not_eq_false, List.any_eq_false, ← List.filter_eq_nil_iff, queue]
            exact List.cons_ne_nil head rest
          have keeps (occurrence : Occurrence) :
              (occurrence.withValue value).isNamed key = occurrence.isNamed key := rfl
          rw [present, if_pos rfl, filter_updateFirst keeps, queue, List.modifyHead_cons]
  | false =>
      have other : (Occurrence.mk turn (.valued name value)).isNamed key = false := same
      rw [if_neg Bool.false_ne_true]
      split
      · apply filter_updateFirst_of_apart
        intro occurrence named
        have apart := Occurrence.isNamed_of_apart same named
        exact ⟨apart, apart⟩
      · rw [List.filter_append]
        simp [other]

theorem named_after (history : History) (edit : Edit) (key : String) :
    (history.after edit).named key = (history.named key).afterNamed key edit := by
  cases edit with
  | set name value => exact history.named_after_set name value key
  | remove name =>
      simp only [named, after, afterNamed, History.mk.injEq, true_and]
      cases same : Text.alike name key with
      | true =>
          rw [Occurrence.isNamed_congr same, if_pos rfl]
          exact filter_eraseP _
      | false =>
          rw [if_neg Bool.false_ne_true]
          exact filter_eraseP_of_apart (fun _ => Occurrence.isNamed_of_apart same) _
  | push attr =>
      have single : (Occurrence.mk history.turn attr).isNamed key = attr.isNamed key := rfl
      simp only [named, after, afterNamed, History.mk.injEq, true_and, List.filter_append]
      cases here : attr.isNamed key <;> simp [single, here]

/-- What is left of the turns of the attributes stands as before, and a new one stands last. -/
theorem turns_after (history : History) (edit : Edit) :
    (history.after edit).turns.Sublist (history.turns ++ [history.turn]) := by
  rcases history with ⟨turn, list⟩
  cases edit with
  | set name value =>
      simp only [turns, after]
      split
      · have kept : (updateFirst (fun occurrence : Occurrence => occurrence.isNamed name)
            (fun occurrence => occurrence.withValue value) list).map Occurrence.turn =
            list.map Occurrence.turn := by
          rw [eq_comm, map_eq_map_iff_forall₂]
          apply forall₂_updateFirst
          · exact fun occurrence => rfl
          · exact fun occurrence _ => rfl
        rw [kept]
        exact List.sublist_append_left _ _
      · rw [List.map_append, List.map_singleton]
  | remove name =>
      have shorter : (list.eraseP fun occurrence => occurrence.isNamed name).Sublist list :=
        List.eraseP_sublist
      exact (shorter.map Occurrence.turn).trans (List.sublist_append_left _ _)
  | push attr => simp only [turns, after, List.map_append, List.map_singleton, List.Sublist.refl]

/-- The history of an element holds its attributes. -/
theorem attributes_after (same : history.attributes = element.attributes) (edit : Edit) :
    (history.after edit).attributes = (edit.after element).attributes := by
  rcases history with ⟨turn, list⟩
  have listed : list.map Occurrence.attr = element.attributes := same
  cases edit with
  | set name value =>
      have has : element.has name = list.any fun occurrence => occurrence.isNamed name := by
        rw [Element.has, ← listed, List.any_map]
        rfl
      simp only [attributes, after, Edit.after, Element.set, has]
      split
      · have tested (occurrence : Occurrence) :
            occurrence.attr.isNamed name = occurrence.isNamed name := rfl
        have changed (occurrence : Occurrence) :
            { occurrence.attr with value := some value } = (occurrence.withValue value).attr := rfl
        simp only [Element.modify, ← listed]
        exact (updateFirst_map tested changed list).symm
      · simp only [Element.push, ← listed, List.map_append, List.map_singleton]
  | remove name =>
      simp only [attributes, after, Edit.after, Element.remove_eq, ← listed, List.eraseP_map]
      rfl
  | push attr =>
      simp only [attributes, after, Edit.after, Element.push, ← listed, List.map_append,
        List.map_singleton]

/-! ## Any edits -/

/-- The turns of the attributes are in the order in which they stand, and have passed. -/
def Rising (history : History) : Prop := (history.turns ++ [history.turn]).Pairwise (· < ·)

theorem rising_start (element : Element) : (start element).Rising := by
  have turns : (start element).turns = List.range element.attributes.length := by
    rw [History.turns, start, List.map_map]
    exact (List.zipIdx_map_snd 0 element.attributes).trans List.range_eq_range'.symm
  rw [Rising, turns, start, ← List.range_succ]
  exact List.pairwise_lt_range

theorem Rising.after (rising : history.Rising) (edit : Edit) : (history.after edit).Rising := by
  have kept := history.turns_after edit
  have next : (history.after edit).turn = history.turn + 1 := rfl
  rw [Rising, next, List.pairwise_append]
  refine ⟨rising.sublist kept, List.pairwise_singleton _ _, ?_⟩
  intro turn member last lastMember
  rw [List.mem_singleton.mp lastMember]
  rcases List.mem_append.mp (kept.subset member) with old | new
  · have passed := (List.pairwise_append.mp rising).2.2 turn old _ (List.mem_singleton_self _)
    omega
  · rw [List.mem_singleton.mp new]
    exact Nat.lt_succ_self history.turn

theorem Rising.afterAll (rising : history.Rising) (edits : List Edit) :
    (history.afterAll edits).Rising := by
  induction edits generalizing history with
  | nil => exact rising
  | cons edit rest induction => exact induction (rising.after edit)

theorem attributes_afterAll (same : history.attributes = element.attributes)
    (edits : List Edit) :
    (history.afterAll edits).attributes = (element.afterAll edits).attributes := by
  induction edits generalizing history element with
  | nil => exact same
  | cons edit rest induction => exact induction (attributes_after same edit)

theorem named_afterAll (history : History) (edits : List Edit) (key : String) :
    (history.afterAll edits).named key = edits.foldl (afterNamed key) (history.named key) := by
  induction edits generalizing history with
  | nil => rfl
  | cons edit rest induction =>
      rw [List.foldl_cons, ← named_after]
      exact induction (history.after edit)

theorem attributes_start (element : Element) : (start element).attributes = element.attributes := by
  rw [attributes, start, List.map_map]
  exact List.zipIdx_map_fst 0 element.attributes

/-! ## What is read -/

theorem find?_eq (same : history.attributes = element.attributes) (key : String) :
    element.find? key = (history.named key).first? := by
  rw [Element.find?, ← same, attributes, List.find?_map, first?, named, List.head?_filter]
  rfl

theorem position?_eq_some_iff (same : history.attributes = element.attributes)
    (rising : history.Rising) {key : String} {position : Nat} :
    element.position? key = some position ↔
      ∃ head, (history.named key).occurrences.head? = some head ∧
        history.occurrences[position]? = some head := by
  have distinct : history.turns.Nodup := (List.pairwise_append.mp rising).1.imp Nat.ne_of_lt
  rw [Element.position?, ← same, attributes, List.findIdx?_map, named, List.head?_filter]
  exact findIdx?_eq_some_iff_of_nodup distinct.of_map

end History

/-- Whatever edits were made, the attributes with one name, in any letter case, have come about
by what each edit does to a list of them alone. All attributes stand in the order in which they
came. What is read of the element by a name is read off the head of that list. -/
theorem edits_act_by_name (element : Element) (edits : List Edit) (key : String) :
    let history := (History.start element).afterAll edits
    let queue := history.named key
    let edited := element.afterAll edits
    queue = edits.foldl (History.afterNamed key) ((History.start element).named key) ∧
      history.attributes = edited.attributes ∧ history.turns.Pairwise (· < ·) ∧
      (∀ edit, (history.after edit).named key = queue.afterNamed key edit ∧
        (history.after edit).turns.Sublist (history.turns ++ [history.turn])) ∧
      (edited.remove key).1 = queue.first? ∧ edited.find? key = queue.first? ∧
      edited.get? key = queue.first?.map (fun attr => attr.value.getD "") ∧
      edited.has key = queue.first?.isSome ∧
      (∀ position, edited.position? key = some position ↔
        ∃ head, queue.occurrences.head? = some head ∧
          history.occurrences[position]? = some head) ∧
      edited.names = history.attributes.map Attribute.name ∧
      edited.id? = (history.named "id").first?.map fun attr => attr.value.getD "" := by
  intro history queue edited
  have same : history.attributes = edited.attributes :=
    History.attributes_afterAll (History.attributes_start element) edits
  have rising : history.Rising := (History.rising_start element).afterAll edits
  have found := History.find?_eq same
  refine ⟨History.named_afterAll _ edits key, same, (List.pairwise_append.mp rising).1, ?_,
    ?_, found key, congrArg _ (found key), ?_,
    fun _ => History.position?_eq_some_iff same rising, ?_, congrArg _ (found "id")⟩
  · intro edit
    exact ⟨history.named_after edit key, history.turns_after edit⟩
  · rw [Element.remove_eq, found key]
  · rw [Element.has_eq_isSome, found key]
  · rw [Element.names, same]

end HtmlConformance
