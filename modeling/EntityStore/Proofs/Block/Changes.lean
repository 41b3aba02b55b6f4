import EntityStore.Proofs.Block.Overwrites
import EntityStore.Proofs.Block.Shaped

set_option autoImplicit false

namespace EntityStore

open Checked

namespace Block

variable {registry : Registry} {b : Block}

theorem occupied_of_enabled {row : Nat} (enabled : row < b.entityCount) : b.isOccupied row = true := by
  simp [isOccupied, isEnabledRow, enabled]

theorem cells_apart (laid : b.Laid registry) {c d : Column} (cMember : c ∈ b.columns) (dMember : d ∈ b.columns)
    {p q : Nat} (pInRange : p < b.capacity) (qInRange : q < b.capacity) (different : ¬ (d = c ∧ q = p)) :
    d.span.place q + d.span.size ≤ c.span.place p ∨ c.span.place p + c.span.size ≤ d.span.place q := by
  by_cases same : d = c
  · subst same
    exact Span.place_rows_apart d.span q p fun equal => different ⟨rfl, equal⟩
  · exact Span.apart_places d.span c.span b.capacity q p qInRange pInRange
      (columns_apart laid d c dMember cMember same)

theorem component_bytes_iff (genuine : registry.Genuine) (laid : b.Laid registry) (type : ComponentType)
    (row : Nat) (value : Component) : b.component? type row = some value ↔
      value.type = type ∧ registry.check type = .ok () ∧ b.bytesAt? type.id row = some value.bytes := by
  rw [component_some_iff genuine laid, bytesAt?, occupied_iff]
  cases side : b.side? row with
  | none => simp [tenant_none row side]
  | some enabled => simp [tenant_some row enabled side, componentsAt]

structure Changes (before after : Block) (type : ComponentType) (row position : Nat) (value : Component) :
    Prop where
  repaints : Repaints before after
  assigned : before.setComponent row value = .ok (some after)
  components : ∀ other q, after.component? other q =
    if other = type ∧ q = row then some value else before.component? other q
  bytes : ∀ id q, after.bytesAt? id q =
    if id = type.id ∧ q = row then some value.bytes else before.bytesAt? id q
  entities : ∀ q, after.entityAt? q = before.entityAt? q
  payload : ∀ i, after.payload.get i =
    if position ≤ i ∧ i < position + type.size then value.bytes.getD (i - position) 0 else before.payload.get i

section Overwrite

variable (genuine : registry.Genuine) (shaped : b.Shaped registry) {type : ComponentType} {c : Column}
  (typed : b.typedColumn? type = some c) {row : Nat} (value : Component)

include genuine shaped typed

theorem entity_overwrite (q : Nat) :
    (b.overwrite (c.span.place row) value.bytes).entityAt? q = b.entityAt? q := by
  obtain ⟨member, _⟩ := typed_size shaped genuine type c typed
  have before := (List.pairwise_cons.mp shaped.laid.apart).1 c.span (List.mem_map_of_mem member)
  show (if b.isOccupied q then
    some ((b.overwrite (c.span.place row) value.bytes).entitySlot q) else none) = b.entityAt? q
  by_cases taken : b.isOccupied q = true
  · have apart := Span.place_spans_apart entitySpan c.span b.capacity q row (shaped.occupied_bound taken) before
    have kept : (b.overwrite (c.span.place row) value.bytes).entitySlot q = b.entitySlot q :=
      congrArg Entity.ofBytes (Buffer.read_write_apart _ _ _ _ _ (Or.inl apart))
    rw [entityAt?, if_pos taken, if_pos taken, kept]
  · rw [entityAt?, if_neg taken, if_neg taken]

variable (occupied : b.isOccupied row = true) (same : value.type = type)

include occupied same

theorem cell_overwrite (d : Column) (member : d ∈ b.columns) (q : Nat) (inRange : q < b.capacity) :
    (b.overwrite (c.span.place row) value.bytes).cell d q = if d = c ∧ q = row then value.bytes else b.cell d q := by
  obtain ⟨cMember, size⟩ := typed_size shaped genuine type c typed
  have rowInRange := shaped.occupied_bound occupied
  have inside := shaped.laid.inside c.span (span_member c cMember)
  have stop := Span.place_end c.span row b.capacity rowInRange
  have length : value.bytes.length = c.span.size := by rw [value.length_eq, same, size]; rfl
  by_cases here : d = c ∧ q = row
  · obtain ⟨rfl, rfl⟩ := here
    rw [if_pos ⟨rfl, rfl⟩]
    have written := Buffer.read_write_same b.payload (d.span.place q) value.bytes (by omega)
    rw [length] at written
    exact written
  · rw [if_neg here]
    refine Buffer.read_write_apart _ _ _ _ _ ?_
    rw [length]
    exact cells_apart shaped.laid cMember member rowInRange inRange here

theorem bytes_overwrite (id : ComponentId) (q : Nat) :
    (b.overwrite (c.span.place row) value.bytes).bytesAt? id q =
      if id = type.id ∧ q = row then some value.bytes else b.bytesAt? id q := by
  obtain ⟨column, _⟩ := (typed_column_iff type c).mp typed
  obtain ⟨member, named⟩ := column_member type.id c column
  show (if b.isOccupied q then (b.column? id).map fun d =>
    (b.overwrite (c.span.place row) value.bytes).cell d q else none) = _
  by_cases taken : b.isOccupied q = true
  · rw [bytesAt?, if_pos taken, if_pos taken]
    cases found : b.column? id with
    | none =>
        have other : id ≠ type.id := fun equal => by rw [equal, column] at found; contradiction
        rw [if_neg fun both => other both.1, Option.map_none, Option.map_none]
    | some d =>
        obtain ⟨dMember, dNamed⟩ := column_member id d found
        have which : d = c ↔ id = type.id := by
          constructor
          · rintro rfl
            exact dNamed.symm.trans named
          · rintro rfl
            exact Option.some.inj (found.symm.trans column)
        have cell := cell_overwrite genuine shaped typed value occupied same d dMember q
          (shaped.occupied_bound taken)
        simp only [which] at cell
        rw [Option.map_some, Option.map_some, cell, apply_ite some]
  · have away : ¬ (id = type.id ∧ q = row) := fun both => taken (both.2 ▸ occupied)
    rw [bytesAt?, if_neg taken, if_neg taken, if_neg away]

theorem component_overwrite (other : ComponentType) (q : Nat) :
    (b.overwrite (c.span.place row) value.bytes).component? other q =
      if other = type ∧ q = row then some value else b.component? other q := by
  have known := ((typed_column_known shaped.laid type c).mp typed).2
  have laid := laid_overwrite shaped.laid (c.span.place row) value.bytes
  refine Option.ext fun v => ?_
  rw [component_bytes_iff genuine laid, bytes_overwrite genuine shaped typed value occupied same]
  by_cases here : other.id = type.id ∧ q = row
  · by_cases equal : other = type
    · subst equal
      rw [if_pos here, if_pos ⟨rfl, here.2⟩]
      constructor
      · rintro ⟨named, _, bytes⟩
        exact congrArg some (Component.ext_bytes (same.trans named.symm) (Option.some.inj bytes))
      · rintro ⟨⟩
        exact ⟨same, known, rfl⟩
    · have unknown : registry.check other ≠ .ok () := fun alike => equal (Registry.check_unique here.1 known alike)
      have away : ¬ (other = type ∧ q = row) := fun both => equal both.1
      rw [if_neg away, component_bytes_iff genuine shaped.laid]
      simp [unknown]
  · have away : ¬ (other = type ∧ q = row) := fun both => here ⟨congrArg _ both.1, both.2⟩
    rw [if_neg here, if_neg away, component_bytes_iff genuine shaped.laid]

theorem overwrite_changes :
    Changes b (b.overwrite (c.span.place row) value.bytes) type row (c.span.place row) value := by
  obtain ⟨member, size⟩ := typed_size shaped genuine type c typed
  have inRange := shaped.occupied_bound occupied
  have length : value.bytes.length = type.size := value.length_eq.trans (congrArg ComponentType.size same)
  have wrote := write_cell_ok shaped.laid c member row inRange value.bytes (length.trans size)
  refine ⟨write_cell_repaints wrote, ?_, component_overwrite genuine shaped typed value occupied same,
    bytes_overwrite genuine shaped typed value occupied same, entity_overwrite genuine shaped typed value, fun i => ?_⟩
  · rw [← same] at typed
    simp only [set_component_eq genuine shaped, occupied, if_true, typed, wrote, ok_map]
  · have inside := shaped.laid.inside c.span (span_member c member)
    have stop := Span.place_end c.span row b.capacity inRange
    have whole : type.size = c.span.size := size
    refine (Buffer.get_write b.payload (c.span.place row) value.bytes i).trans ?_
    rw [length, List.getD_eq_getElem?_getD]
    by_cases here : c.span.place row ≤ i ∧ i < c.span.place row + type.size
    · rw [if_pos here, if_pos (by omega)]
    · rw [if_neg here, if_neg (by omega)]

end Overwrite

end Block

end EntityStore
