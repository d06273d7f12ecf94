import HtmlConformance.FlagSet

namespace HtmlConformance

/-! Tables with one row for every identity of a type. The rows stand in the order in which
the identities are declared, so that a row is found at the place of its identity. -/

structure Table (Row Identity : Type) where
  rows : List Row
  identity : Row → Identity
  /-- Where an identity stands among all of its type. -/
  place : Identity → Nat
  place_lt : ∀ identity, place identity < rows.length
  place_inj : ∀ left right, place left = place right → left = right
  map_place : rows.map (fun row => place (identity row)) = List.range rows.length

namespace Table

variable {Row Identity : Type} (table : Table Row Identity)

def get (identity : Identity) : Row :=
  table.rows.get ⟨table.place identity, table.place_lt identity⟩

theorem get_mem (identity : Identity) : table.get identity ∈ table.rows :=
  List.get_mem table.rows _

theorem place_identity_getElem {place : Nat} (bound : place < table.rows.length) :
    table.place (table.identity table.rows[place]) = place := by
  have here := congrArg (fun places => places[place]?) table.map_place
  simpa [bound] using here

@[simp] theorem identity_get (identity : Identity) :
    table.identity (table.get identity) = identity :=
  table.place_inj _ _ (table.place_identity_getElem (table.place_lt identity))

theorem get_identity {row : Row} (listed : row ∈ table.rows) :
    table.get (table.identity row) = row := by
  rcases List.mem_iff_getElem.mp listed with ⟨place, bound, rfl⟩
  simp only [get, List.get_eq_getElem, table.place_identity_getElem bound]

theorem identity_inj {row other : Row} (listed : row ∈ table.rows)
    (listedOther : other ∈ table.rows) (same : table.identity row = table.identity other) :
    row = other := by
  rw [← table.get_identity listed, same, table.get_identity listedOther]

/-- The identities of a type in the order of the rows. -/
@[reducible] def enumerated : Enumerated Identity where
  values := table.rows.map table.identity
  mem_values identity :=
    List.mem_map.mpr ⟨table.get identity, table.get_mem identity, table.identity_get identity⟩
  nodup_values := by
    have distinct : (table.rows.map fun row => table.place (table.identity row)).Nodup := by
      rw [table.map_place]
      exact List.nodup_range
    rw [List.Nodup, List.pairwise_map] at distinct ⊢
    exact distinct.imp fun apart same => apart (congrArg table.place same)

end Table

end HtmlConformance
