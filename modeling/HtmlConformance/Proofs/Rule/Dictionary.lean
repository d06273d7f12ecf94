import HtmlConformance.Proofs.Text
import HtmlConformance.Rule.Attribute
import HtmlConformance.Rule.Element
import Mathlib

namespace HtmlConformance

/-! Dictionaries: tables whose rows are found by name, in any letter case, and by identity. The
look-up by name goes through a hash map of the places of the rows. It is exact: what it finds is
what a comparison of the name with every row would find. -/

/-- A table in which no name stands twice. Names are ASCII text without capitals. -/
structure Dictionary (Row Identity : Type) extends Table Row Identity where
  name : Row → String
  plain : ∀ row ∈ rows, ∀ char ∈ (name row).toList, char.toNat < 128 ∧ char.isUpper = false
  names_nodup : (rows.map name).Nodup

namespace Dictionary

variable {Row Identity : Type}

/-- The test that makes a dictionary of a table: the rows are in the order of their names. -/
def isOrdered (rows : List Row) (name : Row → String) : Bool :=
  rises (rows.map name) &&
    rows.all fun row => (name row).toList.all fun char =>
      decide (char.toNat < 128) && !char.isUpper

def ofOrdered (table : Table Row Identity) (name : Row → String)
    (ordered : isOrdered table.rows name = true) : Dictionary Row Identity where
  toTable := table
  name := name
  plain row listed char within := by
    have all := (Bool.and_eq_true_iff.mp ordered).2
    have passed := List.all_eq_true.mp (List.all_eq_true.mp all row listed) char within
    simpa using passed
  names_nodup := nodup_of_rises (Bool.and_eq_true_iff.mp ordered).1

variable (dictionary : Dictionary Row Identity)

/-- The place of every row, by its name. -/
def places : Std.HashMap String Nat :=
  .ofList (dictionary.rows.map dictionary.name).zipIdx

/-- A name is looked up as it stands, unless it has a capital: then it is folded first. -/
def place? (name : String) : Option Nat :=
  if (Text.bytes name).any Text.isCapitalByte then
    dictionary.places[Text.folded name]?
  else
    dictionary.places[name]?

def find? (name : String) : Option Row :=
  (dictionary.place? name).bind fun place => dictionary.rows[place]?

/-! ## Places -/

/-- The hash map leads to the place of each name, and knows no other names. -/
theorem getElem?_places_eq_some_iff (name : String) (place : Nat) :
    dictionary.places[name]? = some place ↔
      (dictionary.rows.map dictionary.name)[place]? = some name := by
  let names := dictionary.rows.map dictionary.name
  -- No later row takes the place of an earlier one in the map.
  have distinct : names.zipIdx.Pairwise fun left right => (left.1 == right.1) = false := by
    have keys : (names.zipIdx.map Prod.fst).Pairwise fun left right => (left == right) = false := by
      rw [List.zipIdx_map_fst]
      exact dictionary.names_nodup.imp beq_false_of_ne
    rwa [List.pairwise_map] at keys
  have leads {place : Nat} (stands : names[place]? = some name) :
      dictionary.places[name]? = some place :=
    Std.HashMap.getElem?_ofList_of_mem (beq_self_eq_true name) distinct
      (List.mk_mem_zipIdx_iff_getElem?.mpr stands)
  refine ⟨fun found => ?_, leads⟩
  by_cases listed : name ∈ names
  · obtain ⟨first, stands⟩ := List.mem_iff_getElem?.mp listed
    rw [← Option.some.inj ((leads stands).symm.trans found)]
    exact stands
  · have missing : (names.zipIdx.map Prod.fst).contains name = false := by
      rw [List.zipIdx_map_fst]
      simpa using listed
    rw [places, Std.HashMap.getElem?_ofList_of_contains_eq_false missing] at found
    exact absurd found (Option.some_ne_none place).symm

/-- Both ways of looking a name up lead to the place of the folded name. -/
theorem place?_eq (name : String) :
    dictionary.place? name = dictionary.places[Text.folded name]? := by
  rw [place?]
  split
  case isTrue => rfl
  case isFalse small =>
    rw [Text.agree_capital.any_bytes, Bool.not_eq_true] at small
    rw [Text.folded_of_small small]

/-! ## Names -/

variable {dictionary} {name : String} {row : Row}

theorem folded_name (listed : row ∈ dictionary.rows) :
    Text.folded (dictionary.name row) = dictionary.name row := by
  apply Text.folded_of_small
  rw [List.any_eq_false]
  intro char within
  rw [Bool.not_eq_true]
  exact (dictionary.plain row listed char within).2

theorem alike_name_iff (listed : row ∈ dictionary.rows) :
    Text.alike name (dictionary.name row) = true ↔ dictionary.name row = Text.folded name := by
  rw [Text.alike_iff, folded_name listed, eq_comm]

/-- A name is found exactly if it is the name of a row, in any letter case. -/
theorem find?_eq_some_iff :
    dictionary.find? name = some row ↔
      row ∈ dictionary.rows ∧ Text.alike name (dictionary.name row) = true := by
  rw [find?, place?_eq, Option.bind_eq_some_iff]
  constructor
  · rintro ⟨place, found, stands⟩
    have listed := List.mem_of_getElem? stands
    rw [getElem?_places_eq_some_iff, List.getElem?_map, stands] at found
    exact ⟨listed, (alike_name_iff listed).mpr (Option.some.inj found)⟩
  · rintro ⟨listed, alike⟩
    obtain ⟨place, stands⟩ := List.mem_iff_getElem?.mp listed
    refine ⟨place, ?_, stands⟩
    rw [getElem?_places_eq_some_iff, List.getElem?_map, stands, Option.map_some,
      (alike_name_iff listed).mp alike]

theorem eq_of_alike {other : Row} (listed : row ∈ dictionary.rows)
    (listedOther : other ∈ dictionary.rows)
    (alike : Text.alike name (dictionary.name row) = true)
    (alikeOther : Text.alike name (dictionary.name other) = true) : row = other := by
  apply List.inj_on_of_nodup_map dictionary.names_nodup listed listedOther
  rw [(alike_name_iff listed).mp alike, (alike_name_iff listedOther).mp alikeOther]

/-- To look a name up is to compare it, folded, with one row after the other. -/
theorem find?_eq_scan (name : String) :
    dictionary.find? name =
      dictionary.rows.find? fun row => dictionary.name row == Text.folded name := by
  apply Option.ext
  intro row
  rw [find?_eq_some_iff]
  have of_scan {row : Row} (scan : (dictionary.rows.find? fun row =>
        dictionary.name row == Text.folded name) = some row) :
      row ∈ dictionary.rows ∧ Text.alike name (dictionary.name row) = true := by
    have listed := List.mem_of_find?_eq_some scan
    have named := List.find?_some scan
    exact ⟨listed, (alike_name_iff listed).mpr (eq_of_beq named)⟩
  refine ⟨fun both => ?_, of_scan⟩
  cases scan : dictionary.rows.find? fun row => dictionary.name row == Text.folded name with
  | none =>
      have passed := List.find?_eq_none.mp scan row both.1
      exact absurd (beq_iff_eq.mpr ((alike_name_iff both.1).mp both.2)) passed
  | some other => rw [eq_of_alike both.1 (of_scan scan).1 both.2 (of_scan scan).2]

/-! ## Identities -/

theorem map_identity_find?_iff (listed : row ∈ dictionary.rows) :
    (dictionary.find? name).map dictionary.identity = some (dictionary.identity row) ↔
      Text.alike name (dictionary.name row) = true := by
  constructor
  · intro same
    obtain ⟨other, found, equal⟩ := Option.map_eq_some_iff.mp same
    have both := find?_eq_some_iff.mp found
    rw [← dictionary.identity_inj both.1 listed equal]
    exact both.2
  · intro alike
    rw [find?_eq_some_iff.mpr ⟨listed, alike⟩, Option.map_some]

/-! ## Exact look-ups -/

/-- A look-up by name that leads where the hash map leads, and to what a comparison of names
would find. -/
structure Exact (dictionary : Dictionary Row Identity) (lookUp : String → Option Row) : Prop where
  find?_eq : ∀ name, dictionary.find? name = lookUp name
  eq_some_iff : ∀ name row, lookUp name = some row ↔
    row ∈ dictionary.rows ∧ Text.alike name (dictionary.name row) = true
  unique : ∀ name row other, lookUp name = some row → other ∈ dictionary.rows →
    Text.alike name (dictionary.name other) = true → other = row
  get_identity : ∀ row ∈ dictionary.rows, dictionary.get (dictionary.identity row) = row
  identity_get : ∀ identity, dictionary.identity (dictionary.get identity) = identity
  identity_iff : ∀ name, ∀ row ∈ dictionary.rows,
    (lookUp name).map dictionary.identity = some (dictionary.identity row) ↔
      Text.alike name (dictionary.name row) = true
  /-- With capitals or without, each along its own way, two spellings lead to one place. -/
  place?_eq : ∀ left right, Text.alike left right = true →
    dictionary.place? left = dictionary.place? right
  none_of_wide : ∀ name : String, (∃ char ∈ name.toList, 128 ≤ char.toNat) → lookUp name = none

theorem none_of_wide (wide : ∃ char ∈ name.toList, 128 ≤ char.toNat) :
    dictionary.find? name = none := by
  rw [Option.eq_none_iff_forall_not_mem]
  intro row found
  obtain ⟨listed, alike⟩ := find?_eq_some_iff.mp found
  obtain ⟨char, within, beyond⟩ := wide
  have kept : char.toLower = char :=
    Char.toLower_eq_of_not_isUpper (Bool.not_eq_true _ ▸ Text.isUpper_of_wide beyond)
  have shared : char ∈ (dictionary.name row).toList := by
    rw [(alike_name_iff listed).mp alike, Text.folded, String.toList_map, ← kept]
    exact List.mem_map_of_mem within
  have narrow := (dictionary.plain row listed char shared).1
  omega

theorem exact_of_scan {scan : String → Option Row}
    (scans : ∀ name, scan name =
      dictionary.rows.find? fun row => dictionary.name row == Text.folded name) :
    dictionary.Exact scan := by
  have same : scan = dictionary.find? := funext fun name => by rw [scans, find?_eq_scan]
  subst same
  exact {
    find?_eq := fun _ => rfl
    eq_some_iff := fun _ _ => find?_eq_some_iff
    unique := fun name row other found listed alike =>
      eq_of_alike listed (find?_eq_some_iff.mp found).1 alike (find?_eq_some_iff.mp found).2
    get_identity := fun _ => dictionary.get_identity
    identity_get := dictionary.identity_get
    identity_iff := fun _ _ => map_identity_find?_iff
    place?_eq := fun left right alike => by
      rw [place?_eq, place?_eq, (Text.alike_iff left right).mp alike]
    none_of_wide := fun _ => none_of_wide
  }

end Dictionary

/-! ## Attributes and tags -/

def AttributeRule.dictionary : Dictionary AttributeRule AttributeId :=
  .ofOrdered AttributeRule.indexed AttributeRule.name (by cbv)

def ElementRule.dictionary : Dictionary ElementRule ElementId :=
  .ofOrdered ElementRule.indexed ElementRule.name (by cbv)

theorem AttributeRule.exact_find? : AttributeRule.dictionary.Exact AttributeRule.find? :=
  Dictionary.exact_of_scan fun _ => rfl

theorem ElementRule.exact_find? : ElementRule.dictionary.Exact ElementRule.find? :=
  Dictionary.exact_of_scan fun _ => rfl

/-- Attributes and tags are looked up exactly. An attribute that an element carries has the
identity of a row if it is named like the row, and names compare character by character: only
the letters of ASCII have a second case. -/
theorem lookups_agree_with_comparison :
    AttributeRule.dictionary.Exact AttributeRule.find? ∧
      ElementRule.dictionary.Exact ElementRule.find? ∧
      (∀ attr : Attribute, ∀ rule ∈ AttributeRule.table,
        (AttributeRule.find? attr.name).map AttributeRule.identity = some rule.identity ↔
          attr.isNamed rule.name = true) ∧
      ∀ left right, Text.alike left right = true ↔
        List.Forall₂ Text.SameLetter left.toList right.toList :=
  ⟨AttributeRule.exact_find?, ElementRule.exact_find?,
    fun attr => AttributeRule.exact_find?.identity_iff attr.name, Text.alike_iff_forall₂⟩

end HtmlConformance
