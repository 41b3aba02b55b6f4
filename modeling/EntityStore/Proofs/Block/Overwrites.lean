import EntityStore.Proofs.Bundle

set_option autoImplicit false

namespace EntityStore

namespace Block

open Checked

variable {registry : Registry} {b : Block} {row : Nat}

def placeOf (b : Block) (row : Nat) (type : ComponentType) : Nat :=
  ((b.column? type.id).map fun c => c.span.place row).getD 0

def overwriteAll (b : Block) (row : Nat) (values : List Component) : Block :=
  { b with
    payload := values.foldl (fun payload value => payload.write (b.placeOf row value.type) value.bytes) b.payload }

theorem overwrite_all_nil (b : Block) (row : Nat) : b.overwriteAll row [] = b := rfl

theorem overwrite_all_cons (b : Block) (row : Nat) (value : Component) (rest : List Component) :
    b.overwriteAll row (value :: rest) =
      (b.overwrite (b.placeOf row value.type) value.bytes).overwriteAll row rest := rfl

theorem laid_overwrite (laid : b.Laid registry) (position : Nat) (bytes : List UInt8) :
    (b.overwrite position bytes).Laid registry := by
  show Layout.Laid registry b.signature b.capacity (b.payload.write position bytes).size b.columns
  rw [Buffer.size_write]
  exact laid

structure Takes (registry : Registry) (b : Block) (row : Nat) (values : List Component) : Prop where
  laid : b.Laid registry
  occupied : b.isOccupied row = true
  inRange : row < b.capacity
  typed : ∀ value ∈ values, ∃ c, b.typedColumn? value.type = some c

namespace Takes

variable {value other : Component} {values rest : List Component}

theorem tail (takes : Takes registry b row (value :: rest)) (position : Nat) (bytes : List UInt8) :
    Takes registry (b.overwrite position bytes) row rest :=
  ⟨laid_overwrite takes.laid position bytes, takes.occupied, takes.inRange,
    fun later member => takes.typed later (List.mem_cons_of_mem value member)⟩

theorem perm (takes : Takes registry b row values) {others : List Component} (same : others.Perm values) :
    Takes registry b row others :=
  ⟨takes.laid, takes.occupied, takes.inRange, fun value member => takes.typed value (same.subset member)⟩

theorem column (genuine : registry.Genuine) (takes : Takes registry b row values) (member : value ∈ values) :
    ∃ c ∈ b.columns, b.typedColumn? value.type = some c ∧ c.descriptor.id = value.type.id ∧
      c.descriptor.size = value.bytes.length ∧ b.placeOf row value.type = c.span.place row := by
  obtain ⟨c, typed⟩ := takes.typed value member
  obtain ⟨found, type⟩ := (typed_column_iff value.type c).mp typed
  obtain ⟨listed, id⟩ := column_member value.type.id c found
  refine ⟨c, listed, typed, id, ?_, by rw [placeOf, found, Option.map_some, Option.getD_some]⟩
  rw [Registry.entry_size (entry_of_column genuine takes.laid c listed), type, value.length_eq]

theorem set_component (genuine : registry.Genuine) (takes : Takes registry b row values)
    (member : value ∈ values) : b.setComponent row value =
      .ok (some (b.overwrite (b.placeOf row value.type) value.bytes)) := by
  obtain ⟨c, listed, typed, _, size, place⟩ := takes.column genuine member
  have wrote := write_cell_ok takes.laid c listed row takes.inRange value.bytes size.symm
  rw [set_typed_eq genuine takes.laid takes.inRange takes.occupied typed, wrote, place]
  rfl

theorem write_all (genuine : registry.Genuine) (takes : Takes registry b row values) :
    Bundle.writeAll row b values = .ok (b.overwriteAll row values) := by
  induction values generalizing b with
  | nil => rfl
  | cons value rest ih =>
      rw [Bundle.writeAll, takes.set_component genuine List.mem_cons_self]
      exact ih (takes.tail _ _)

theorem apart (genuine : registry.Genuine) (takes : Takes registry b row values) (member : value ∈ values)
    (memberToo : other ∈ values) (different : value.type.id ≠ other.type.id) :
    b.placeOf row value.type + value.bytes.length ≤ b.placeOf row other.type ∨
      b.placeOf row other.type + other.bytes.length ≤ b.placeOf row value.type := by
  obtain ⟨c, listed, _, id, size, place⟩ := takes.column genuine member
  obtain ⟨d, listedToo, _, idToo, sizeToo, placeToo⟩ := takes.column genuine memberToo
  have columns : c ≠ d := fun same => different (by rw [← id, ← idToo, same])
  have spans := Span.apart_places c.span d.span b.capacity row row takes.inRange takes.inRange
    (columns_apart takes.laid c d listed listedToo columns)
  rw [place, placeToo, ← size, ← sizeToo]
  exact spans

theorem overwrite_all_perm (genuine : registry.Genuine) (takes : Takes registry b row values)
    (distinct : (values.map fun value => value.type.id).Nodup) {others : List Component}
    (same : others.Perm values) : b.overwriteAll row others = b.overwriteAll row values := by
  refine congrArg (fun payload => ({ b with payload } : Block)) (same.symm.foldl_eq' ?_ b.payload).symm
  intro value member other memberToo payload
  by_cases equal : value.type.id = other.type.id
  · rw [List.inj_on_of_nodup_map distinct member memberToo equal]
  · exact Buffer.write_comm payload _ _ _ _ (takes.apart genuine member memberToo equal)

end Takes

end Block

end EntityStore
