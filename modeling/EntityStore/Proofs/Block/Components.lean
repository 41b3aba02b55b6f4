import EntityStore.Proofs.Block.Tenants
import EntityStore.Proofs.Signature
import Mathlib.Logic.Function.Basic

set_option autoImplicit false

namespace EntityStore

namespace Block

open Checked

variable {registry : Registry} {b next last : Block}

theorem entry_of_column (genuine : registry.Genuine) (laid : b.Laid registry) (c : Column)
    (member : c ∈ b.columns) : Registry.Entry c.descriptor.id.val c.descriptor :=
  Registry.genuine_get registry genuine _ _ (laid.known c member)

theorem column_of_member (laid : b.Laid registry) (c : Column) (member : c ∈ b.columns) :
    b.column? c.descriptor.id = some c := by
  have distinct : (b.columns.map fun c => c.descriptor.id).Nodup := by
    rw [laid.listed]
    exact Signature.nodup_ids b.signature
  cases found : b.column? c.descriptor.id with
  | none =>
      have missed := List.find?_eq_none.mp found c member
      simp at missed
  | some d =>
      obtain ⟨dMember, same⟩ := column_member c.descriptor.id d found
      rw [List.inj_on_of_nodup_map distinct dMember member same]

theorem column_some_iff (laid : b.Laid registry) (id : ComponentId) :
    (b.column? id).isSome = b.signature.contains id := by
  apply Bool.eq_iff_iff.mpr
  rw [← Signature.mem_ids, ← laid.listed, List.mem_map, Option.isSome_iff_exists]
  constructor
  · rintro ⟨c, found⟩
    exact ⟨c, column_member id c found⟩
  · rintro ⟨c, member, rfl⟩
    exact ⟨c, column_of_member laid c member⟩

theorem components_some_iff (laid : b.Laid registry) (row : Nat) (id : ComponentId) :
    (b.componentsAt row id).isSome = b.signature.contains id := by
  rw [← column_some_iff laid, componentsAt, Option.isSome_map]

theorem typed_column_iff (type : ComponentType) (c : Column) :
    b.typedColumn? type = some c ↔ b.column? type.id = some c ∧ c.descriptor.type = type := by
  unfold typedColumn?
  rw [Option.filter_eq_some_iff]
  simp [Descriptor.is]

theorem columns_apart (laid : b.Laid registry) (c d : Column) (cMember : c ∈ b.columns)
    (dMember : d ∈ b.columns) (different : c ≠ d) : Span.Apart b.capacity c.span d.span := by
  obtain ⟨_, apart⟩ := List.pairwise_cons.mp laid.apart
  have symmetric : Std.Symm fun c d : Column => Span.Apart b.capacity c.span d.span :=
    ⟨fun _ _ => Or.symm⟩
  have either : b.columns.Pairwise fun c d => Span.Apart b.capacity c.span d.span :=
    (List.pairwise_map.mp apart).imp fun before => Or.inl before
  exact either.forall cMember dMember different

theorem span_member (c : Column) (member : c ∈ b.columns) : c.span ∈ b.spans :=
  List.mem_cons_of_mem _ (List.mem_map_of_mem member)

structure Rewrites (b next : Block) (row : Nat) (components : Components) : Prop extends
    Framed b next where
  entityCount : next.entityCount = b.entityCount
  disabledStart : next.disabledStart = b.disabledStart
  others : ∀ q, q < b.capacity → q ≠ row → next.cellsAt q = b.cellsAt q
  entity : next.entitySlot row = b.entitySlot row
  components : next.componentsAt row = components

namespace Rewrites

variable {row : Nat} {components final : Components}

theorem refl (b : Block) (row : Nat) : Rewrites b b row (b.componentsAt row) :=
  ⟨Framed.refl b, rfl, rfl, fun _ _ _ => rfl, rfl, rfl⟩

theorem trans (first : Rewrites b next row components) (second : Rewrites next last row final) :
    Rewrites b last row final :=
  { first.toFramed.trans second.toFramed with
    entityCount := second.entityCount.trans first.entityCount
    disabledStart := second.disabledStart.trans first.disabledStart
    others := fun q inRange away =>
      (second.others q (first.capacity ▸ inRange) away).trans (first.others q inRange away)
    entity := second.entity.trans first.entity
    components := second.components }

theorem side (change : Rewrites b next row components) (q : Nat) : next.side? q = b.side? q := by
  unfold side?
  rw [change.entityCount, change.disabledStart, change.capacity]

theorem sound (change : Rewrites b next row components) (sound : b.Sound registry)
    (occupied : b.side? row ≠ none) : next.Sound registry := by
  refine ⟨change.laid sound.laid, ?_, ?_, fun q inRange free => ?_⟩
  · rw [change.entityCount, change.disabledStart]
    exact sound.enabled_le
  · rw [change.disabledStart, change.capacity]
    exact sound.disabled_le
  · rw [change.capacity] at inRange
    rw [change.side] at free
    have away : q ≠ row := fun hit => occupied (hit ▸ free)
    rw [change.others q inRange away, change.blank]
    exact sound.free q inRange free

theorem occupied (change : Rewrites b next row components) : next.occupied = b.occupied := by
  unfold Block.occupied disabledCount
  rw [change.entityCount, change.disabledStart, change.capacity]

theorem tenant (change : Rewrites b next row components) (sound : b.Sound registry) (q : Nat) :
    next.tenant? q =
      if q = row then (b.tenant? row).map fun t => { t with components } else b.tenant? q := by
  by_cases here : q = row
  · rw [if_pos here, here, tenant?, change.side, change.entity, change.components, tenant?,
      Option.map_map]
    rfl
  · rw [if_neg here]
    by_cases inRange : q < b.capacity
    · exact tenant_kept change.toFramed q q (change.others q inRange here) (change.side q)
    · have beyond := side_beyond sound q (Nat.le_of_not_lt inRange)
      rw [tenant_none q beyond, tenant_none q ((change.side q).trans beyond)]

end Rewrites

def overwrite (b : Block) (position : Nat) (bytes : List UInt8) : Block :=
  { b with payload := b.payload.write position bytes }

theorem cell_inside (laid : b.Laid registry) (c : Column) (member : c ∈ b.columns) (row : Nat)
    (inRange : row < b.capacity) : c.span.place row + c.span.size ≤ b.payload.size :=
  Nat.le_trans (Span.place_end c.span row b.capacity inRange) (laid.inside c.span (span_member c member))

theorem run_inside (laid : b.Laid registry) (c : Column) (member : c ∈ b.columns) (count : Nat)
    (bound : count ≤ b.capacity) : c.offset + c.descriptor.size * count ≤ b.payload.size := by
  have inside := laid.inside c.span (span_member c member)
  have rows : count * c.descriptor.size ≤ b.capacity * c.descriptor.size := Nat.mul_le_mul_right _ bound
  rw [Nat.mul_comm]
  exact Nat.le_trans (Nat.add_le_add_left rows _) inside

theorem write_place_ok (laid : b.Laid registry) (c : Column) (member : c ∈ b.columns) (row : Nat)
    (inRange : row < b.capacity) (bytes : List UInt8) (length : bytes.length = c.descriptor.size) :
    b.payload.splice (c.span.place row) bytes =
      .ok (b.payload.write (c.span.place row) bytes) := by
  apply Buffer.splice_ok
  have inside := laid.inside c.span (span_member c member)
  have stop := Span.place_end c.span row b.capacity inRange
  have size : c.span.size = c.descriptor.size := rfl
  omega

theorem write_cell_ok (laid : b.Laid registry) (c : Column) (member : c ∈ b.columns) (row : Nat)
    (inRange : row < b.capacity) (bytes : List UInt8) (length : bytes.length = c.descriptor.size) :
    b.writeCell c row bytes = .ok (b.overwrite (c.span.place row) bytes) := by
  rw [writeCell, Registry.fit_ok bytes length, ok_bind, write_place_ok laid c member row inRange bytes length]
  rfl

theorem overwrite_rewrites (laid : b.Laid registry) (c : Column) (member : c ∈ b.columns)
    (row : Nat) (inRange : row < b.capacity) (bytes : List UInt8)
    (length : bytes.length = c.descriptor.size) :
    Rewrites b (b.overwrite (c.span.place row) bytes) row
      (Function.update (b.componentsAt row) c.descriptor.id (some bytes)) := by
  have size : c.span.size = c.descriptor.size := rfl
  have inside := laid.inside c.span (span_member c member)
  have stop := Span.place_end c.span row b.capacity inRange
  refine ⟨⟨rfl, rfl, rfl, Buffer.size_write _ _ _, fun i outside => ?_⟩, rfl, rfl,
    fun q qInRange away => ?_, ?_, ?_⟩
  · have here := outside c.span (span_member c member) row inRange
    exact (Buffer.get_write _ _ _ _).trans (if_neg (by omega))
  · apply List.map_congr_left
    intro s sMember
    apply Buffer.read_write_apart
    have apart := places_apart laid s c.span sMember (span_member c member) q row qInRange inRange away
    omega
  · have first := (List.pairwise_cons.mp laid.apart).1 c.span (List.mem_map_of_mem member)
    have apart := Span.place_spans_apart entitySpan c.span b.capacity row row inRange first
    exact congrArg Entity.ofBytes (Buffer.read_write_apart _ _ _ _ _ (Or.inl apart))
  · funext id
    have column : (b.overwrite (c.span.place row) bytes).column? id = b.column? id := rfl
    rw [componentsAt, column]
    by_cases here : id = c.descriptor.id
    · rw [here, Function.update_self, column_of_member laid c member, Option.map_some]
      congr 1
      have written := Buffer.read_write_same b.payload (c.span.place row) bytes (by omega)
      rw [length] at written
      exact written
    · rw [Function.update_of_ne here, componentsAt]
      cases found : b.column? id with
      | none => rfl
      | some d =>
          obtain ⟨dMember, same⟩ := column_member id d found
          have other : d ≠ c := fun hit => here (by rw [← same, hit])
          have apart := Span.apart_places d.span c.span b.capacity row row inRange inRange
            (columns_apart laid d c dMember member other)
          have kept : (b.overwrite (c.span.place row) bytes).cell d row = b.cell d row := by
            apply Buffer.read_write_apart
            omega
          rw [Option.map_some, Option.map_some, kept]

theorem row_cells (b : Block) (row : Nat) (handle : List UInt8) (f : Column → List UInt8)
    (cells : b.cellsAt row = handle :: b.columns.map f) :
    b.entitySlot row = .ofBytes handle ∧ ∀ c ∈ b.columns, b.cell c row = f c := by
  refine ⟨by rw [entity_slot_eq, cells, List.headD_cons], fun c member => ?_⟩
  obtain ⟨_, columns⟩ := List.cons.inj cells
  rw [List.map_map] at columns
  exact List.map_inj_left.mp columns c member

section Casts

variable (genuine : registry.Genuine) (laid : b.Laid registry) (c : Column) (member : c ∈ b.columns)

include genuine laid member

theorem column_aligned : c.offset % c.descriptor.type.align = 0 := by
  have entry := entry_of_column genuine laid c member
  rw [← Registry.entry_align entry]
  exact laid.aligned c member

theorem place_aligned (row : Nat) : c.span.place row % c.descriptor.type.align = 0 := by
  have entry := entry_of_column genuine laid c member
  have step : c.descriptor.type.align ∣ row * c.span.size := by
    have whole : c.span.size = c.descriptor.type.shape.size := Registry.entry_size entry
    rw [whole]
    exact Nat.dvd_mul_left_of_dvd c.descriptor.type.align_dvd_size row
  have start := Nat.dvd_of_mod_eq_zero (column_aligned genuine laid c member)
  exact Nat.mod_eq_zero_of_dvd (Nat.dvd_add start step)

theorem cast_run_ok (access : Access) (rows : Nat) :
    c.descriptor.type.checkCast (.run access) c.offset (c.descriptor.size * rows) = .ok () := by
  have entry := entry_of_column genuine laid c member
  have whole : c.descriptor.size * rows % c.descriptor.type.size = 0 := by
    rw [Registry.entry_size entry]
    exact Nat.mul_mod_right _ _
  simp [ComponentType.checkCast, ComponentType.castFlaw?, column_aligned genuine laid c member, whole]

theorem cast_value_ok (access : Access) (row : Nat) :
    c.descriptor.type.checkCast (.value access) (c.span.place row) c.descriptor.size = .ok () := by
  have size := Registry.entry_size (entry_of_column genuine laid c member)
  simp [ComponentType.checkCast, ComponentType.castFlaw?, place_aligned genuine laid c member, size]

theorem value_bytes (row : Nat) :
    (b.valueAt c.descriptor.type (c.span.place row)).bytes = b.cell c row := by
  have size := Registry.entry_size (entry_of_column genuine laid c member)
  have same : c.descriptor.type.size = c.span.size := size.symm
  exact congrArg (b.payload.read (c.span.place row)) same

end Casts

theorem typed_column_known (laid : b.Laid registry) (type : ComponentType) (c : Column) :
    b.typedColumn? type = some c ↔
      b.column? type.id = some c ∧ registry.check type = .ok () := by
  rw [typed_column_iff, Registry.check_ok]
  refine and_congr_right fun found => ?_
  obtain ⟨member, same⟩ := column_member type.id c found
  have known := laid.known c member
  rw [same] at known
  simp [known]

structure Shaped (registry : Registry) (b : Block) : Prop where
  laid : b.Laid registry
  enabled_le : b.entityCount ≤ b.disabledStart
  disabled_le : b.disabledStart ≤ b.capacity

theorem Sound.shaped (sound : b.Sound registry) : b.Shaped registry :=
  ⟨sound.laid, sound.enabled_le, sound.disabled_le⟩

namespace Shaped

variable (shaped : b.Shaped registry) {row : Nat}

include shaped

theorem occupied_bound (occupied : b.isOccupied row = true) : row < b.capacity := by
  have ordered := shaped.enabled_le
  have limit := shaped.disabled_le
  simp only [isOccupied, isEnabledRow, isDisabledRow, Bool.or_eq_true, Bool.and_eq_true,
    decide_eq_true_eq] at occupied
  omega

theorem read_entities : b.readEntities = .ok b.entities :=
  read_entities_ok (slots_fit shaped.laid) (Nat.le_trans shaped.enabled_le shaped.disabled_le)

theorem read_entity_at : b.readEntityAt row = .ok (b.entityAt? row) :=
  read_entity_at_ok (slots_fit shaped.laid) shaped.occupied_bound

theorem read_occupied : b.readOccupied = .ok b.occupied := read_occupied_ok shaped.disabled_le

theorem read_empty : b.readEmpty = .ok (b.occupied = 0 : Bool) := read_empty_ok shaped.disabled_le

theorem read_bytes (id : ComponentId) (row : Nat) : b.readBytes id row = .ok (b.bytesAt? id row) := by
  rw [readBytes, bytesAt?]
  by_cases occupied : b.isOccupied row = true
  · rw [if_pos occupied, if_pos occupied]
    cases found : b.column? id with
    | none => rfl
    | some c =>
        have inside := cell_inside shaped.laid c (column_member id c found).1 row (shaped.occupied_bound occupied)
        simp only [Buffer.slice_ok _ _ _ inside, Option.map_some]
        rfl
  · rw [if_neg occupied, if_neg occupied]

end Shaped

section Reads

variable (genuine : registry.Genuine) (shaped : b.Shaped registry) (type : ComponentType)

include genuine shaped

theorem check_run_ok (access : Access) {c : Column} (typed : b.typedColumn? type = some c) :
    b.checkRun access type c = .ok () := by
  obtain ⟨column, same⟩ := (typed_column_iff type c).mp typed
  have member := (column_member type.id c column).1
  have inside := run_inside shaped.laid c member b.entityCount
    (Nat.le_trans shaped.enabled_le shaped.disabled_le)
  have cast := cast_run_ok genuine shaped.laid c member access b.entityCount
  rw [same] at cast
  simp only [checkRun, Buffer.check_span_ok _ _ _ inside, ok_bind, cast]

theorem read_components_ok : b.readComponents type = .ok (b.components? type) := by
  rw [readComponents, components?]
  cases typed : b.typedColumn? type with
  | none => rfl
  | some c =>
      simp only [check_run_ok genuine shaped type .read typed]
      rfl

theorem read_component_ok (access : Access) (row : Nat) :
    b.readComponent access type row = .ok (b.component? type row) := by
  rw [readComponent, shaped.read_bytes, bytesAt?, component?]
  by_cases occupied : b.isOccupied row = true
  · rw [if_pos occupied, if_pos occupied]
    cases column : b.column? type.id with
    | none =>
        rw [typedColumn?, column]
        rfl
    | some c =>
        cases typed : b.typedColumn? type with
        | none => rfl
        | some d =>
            obtain ⟨same, kind⟩ := (typed_column_iff type d).mp typed
            obtain rfl := Option.some.inj (column.symm.trans same)
            have cast := cast_value_ok genuine shaped.laid c (column_member type.id c column).1 access row
            rw [kind] at cast
            have length : (b.cell c row).length = c.descriptor.size := Buffer.length_read _ _ _
            simp only [Option.map_some, ok_bind, length, cast]
            rfl
  · rw [if_neg occupied, if_neg occupied]
    rfl

omit shaped in
theorem set_typed_eq (laid : b.Laid registry) {row : Nat} (inRange : row < b.capacity)
    (occupied : b.isOccupied row = true) {value : Component} {c : Column}
    (typed : b.typedColumn? value.type = some c) :
    b.setComponent row value = (b.writeCell c row value.bytes).map some := by
  obtain ⟨column, same⟩ := (typed_column_iff value.type c).mp typed
  have member := (column_member value.type.id c column).1
  have inside := cell_inside laid c member row inRange
  have cast : c.descriptor.type.checkCast (.value .write) (c.span.place row) c.span.size = .ok () :=
    cast_value_ok genuine laid c member .write row
  rw [same] at cast
  simp only [setComponent, if_pos occupied, typed, Buffer.check_span_ok _ _ _ inside, ok_bind, cast]
  cases b.writeCell c row value.bytes <;> rfl

theorem set_component_eq (row : Nat) (value : Component) :
    b.setComponent row value =
      if b.isOccupied row then
        match b.typedColumn? value.type with
        | none => .ok none
        | some c => (b.writeCell c row value.bytes).map some
      else .ok none := by
  by_cases occupied : b.isOccupied row = true
  · rw [if_pos occupied]
    cases typed : b.typedColumn? value.type with
    | none => rw [setComponent, if_pos occupied, typed]
    | some c => exact set_typed_eq genuine shaped.laid (shaped.occupied_bound occupied) occupied typed
  · rw [setComponent, if_neg occupied, if_neg occupied]

theorem change_components_eq (change : Change) :
    b.changeComponents type change =
      match b.typedColumn? type with
      | none => .ok none
      | some c => ((List.range b.entityCount).foldlM (changeCell c type change) b).map some := by
  rw [changeComponents]
  cases typed : b.typedColumn? type with
  | none => rfl
  | some c =>
      simp only [check_run_ok genuine shaped type .write typed, ok_bind]
      cases (List.range b.entityCount).foldlM (changeCell c type change) b <;> rfl

end Reads

section Shown

variable (genuine : registry.Genuine) (laid : b.Laid registry) (type : ComponentType)

include genuine laid

theorem component_some_iff (row : Nat) (value : Component) :
    b.component? type row = some value ↔
      value.type = type ∧ registry.check type = .ok () ∧
        ∃ t, b.tenant? row = some t ∧ t.components type.id = some value.bytes := by
  unfold component?
  rw [occupied_iff]
  cases side : b.side? row with
  | none => simp [tenant_none row side]
  | some enabled =>
      rw [tenant_some row enabled side]
      simp only [Option.isSome_some, if_true, Option.map_eq_some_iff,
        typed_column_known laid type, Option.some.injEq, exists_eq_left', componentsAt]
      constructor
      · rintro ⟨c, ⟨found, known⟩, rfl⟩
        obtain ⟨member, _⟩ := column_member type.id c found
        have typed := ((typed_column_iff type c).mp
          ((typed_column_known laid type c).mpr ⟨found, known⟩)).2
        have bytes := value_bytes genuine laid c member row
        rw [typed] at bytes
        exact ⟨rfl, known, c, found, bytes.symm⟩
      · rintro ⟨same, known, c, found, bytes⟩
        obtain ⟨member, _⟩ := column_member type.id c found
        have typed := ((typed_column_iff type c).mp
          ((typed_column_known laid type c).mpr ⟨found, known⟩)).2
        have read := value_bytes genuine laid c member row
        rw [typed] at read
        exact ⟨c, ⟨found, known⟩, Component.ext_bytes same.symm (read.trans bytes)⟩

end Shown

section Writes

variable (genuine : registry.Genuine) (sound : b.Sound registry) (row : Nat)

include sound

theorem overwrite_ok (old : Tenant) (tenant : b.tenant? row = some old) (c : Column)
    (member : c ∈ b.columns) (bytes : List UInt8) (length : bytes.length = c.descriptor.size) :
    b.writeCell c row bytes = .ok (b.overwrite (c.span.place row) bytes) ∧
      Rewrites b (b.overwrite (c.span.place row) bytes) row
        (Function.update old.components c.descriptor.id (some bytes)) := by
  obtain ⟨side, _, components⟩ := tenant_side row old tenant
  have inRange := side_in_range sound row _ side
  rw [components]
  exact ⟨write_cell_ok sound.laid c member row inRange bytes length,
    overwrite_rewrites sound.laid c member row inRange bytes length⟩

theorem set_bytes_ok (id : ComponentId) (bytes : List UInt8) (old : Tenant)
    (tenant : b.tenant? row = some old) (c : Column) (found : b.column? id = some c)
    (length : bytes.length = c.descriptor.size) :
    ∃ next, b.setBytes id row bytes = .ok (some next) ∧
      Rewrites b next row (Function.update old.components id (some bytes)) := by
  obtain ⟨member, same⟩ := column_member id c found
  obtain ⟨wrote, change⟩ := overwrite_ok sound row old tenant c member bytes length
  rw [same] at change
  refine ⟨_, ?_, change⟩
  have occupied : b.isOccupied row = true := by
    rw [occupied_iff, (tenant_side row old tenant).1]
    rfl
  rw [setBytes, if_pos occupied, found]
  simp only [wrote, ok_map]

include genuine

theorem set_component_ok (value : Component) (old : Tenant) (tenant : b.tenant? row = some old)
    (known : registry.check value.type = .ok ()) (present : old.components value.type.id ≠ none) :
    ∃ next, b.setComponent row value = .ok (some next) ∧
      Rewrites b next row (Function.update old.components value.type.id (some value.bytes)) := by
  obtain ⟨side, _, components⟩ := tenant_side row old tenant
  have occupied : b.isOccupied row = true := by
    rw [occupied_iff, side]
    rfl
  obtain ⟨c, found⟩ : ∃ c, b.column? value.type.id = some c := by
    rw [components, componentsAt] at present
    exact Option.ne_none_iff_exists'.mp fun missing => present (by rw [missing, Option.map_none])
  obtain ⟨member, same⟩ := column_member value.type.id c found
  have typed := (typed_column_known sound.laid value.type c).mpr ⟨found, known⟩
  have size := Registry.entry_size (entry_of_column genuine sound.laid c member)
  rw [((typed_column_iff value.type c).mp typed).2] at size
  obtain ⟨wrote, change⟩ :=
    overwrite_ok sound row old tenant c member value.bytes (value.length_eq.trans size.symm)
  rw [same] at change
  refine ⟨_, ?_, change⟩
  simp only [set_component_eq genuine sound.shaped, occupied, if_true, typed, wrote, ok_map]

end Writes

end Block

end EntityStore
