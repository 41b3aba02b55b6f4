import EntityStore.Proofs.Scene.Sound

set_option autoImplicit false

namespace EntityStore.Scene

open Checked

def releasesIn (e : Entity) (b : Block) (row : Nat) (kept : Signature) (columns : List Column) : List Event :=
  columns.filterMap fun c =>
    if c.descriptor.ownsResource && !kept.contains c.descriptor.id then
      (b.bytesAt? c.descriptor.id row).map fun bytes => .released e c.descriptor.id bytes
    else none

def releasesOf (e : Entity) (b : Block) (row : Nat) (kept : Signature) : List Event :=
  releasesIn e b row kept b.columns

def farewellOf (e : Entity) (b : Block) (row : Nat) : List Event :=
  .destroyed e b.signature :: releasesOf e b row .empty

def farewellsOf (b : Block) : List Event :=
  b.occupiedRows.flatMap fun row => farewellOf (b.entitySlot row) b row

section Reads

variable {registry : Registry} {b : Block} (shaped : b.Shaped registry)

include shaped

theorem releases_ok (e : Entity) (row : Nat) (kept : Signature) (columns : List Column) :
    releases e b row kept columns = .ok (releasesIn e b row kept columns) := by
  induction columns with
  | nil => rfl
  | cons c rest ih =>
      rw [releases, releasesIn, List.filterMap_cons, ← releasesIn]
      by_cases lost : (c.descriptor.ownsResource && !kept.contains c.descriptor.id) = true
      · simp only [if_pos lost, shaped.read_bytes, ih, ok_bind]
        cases b.bytesAt? c.descriptor.id row <;> rfl
      · simp only [if_neg lost, ih]

theorem farewell_ok (e : Entity) (row : Nat) : farewell e b row = .ok (farewellOf e b row) := by
  simp only [farewell, releases_ok shaped, ok_bind]
  rfl

theorem farewell_rows_ok (rows : List Nat) (occupied : ∀ row ∈ rows, b.isOccupied row = true) :
    farewellRows b rows = .ok (rows.flatMap fun row => farewellOf (b.entitySlot row) b row) := by
  induction rows with
  | nil => rfl
  | cons row rest ih =>
      obtain ⟨here, others⟩ := List.forall_mem_cons.mp occupied
      have held : b.entityAt? row = some (b.entitySlot row) := if_pos here
      simp only [farewellRows, shaped.read_entity_at, held, farewell_ok shaped, ih others, ok_bind]
      rfl

theorem farewells_ok : farewellRows b b.occupiedRows = .ok (farewellsOf b) :=
  farewell_rows_ok shaped _ fun _ member => (List.mem_filter.mp member).2

end Reads

theorem farewell_all_ok {registry : Registry} (blocks : List Block)
    (shaped : ∀ b ∈ blocks, b.Shaped registry) : farewellAll blocks = .ok (blocks.flatMap farewellsOf) := by
  induction blocks with
  | nil => rfl
  | cons b rest ih =>
      obtain ⟨here, others⟩ := List.forall_mem_cons.mp shaped
      simp only [farewellAll, farewells_ok here, ih others, ok_bind]
      rfl

end EntityStore.Scene
