import EntityStore.Block.Operation
import EntityStore.Proofs.Block.Arrivals

set_option autoImplicit false

namespace EntityStore.Block

open Checked

structure Planned (b next : Block) : Prop where
  signature : next.signature = b.signature
  capacity : next.capacity = b.capacity
  columns : next.columns = b.columns
  size : next.payload.size = b.payload.size

def Repaints (b next : Block) : Prop :=
  ∃ payload, payload.size = b.payload.size ∧ next = { b with payload }

variable {registry : Registry} {b next last : Block}

theorem Framed.planned (frame : Framed b next) : Planned b next :=
  ⟨frame.signature, frame.capacity, frame.columns, frame.size⟩

namespace Planned

theorem refl (b : Block) : Planned b b := ⟨rfl, rfl, rfl, rfl⟩

theorem shaped (planned : Planned b next) (laid : b.Laid registry)
    (ordered : next.entityCount ≤ next.disabledStart) (limit : next.disabledStart ≤ b.capacity) :
    next.Shaped registry := by
  refine ⟨?_, ordered, planned.capacity ▸ limit⟩
  unfold Laid
  rw [planned.signature, planned.capacity, planned.size, planned.columns]
  exact laid

end Planned

namespace Repaints

theorem refl (b : Block) : Repaints b b := ⟨b.payload, rfl, rfl⟩

theorem trans (first : Repaints b next) (second : Repaints next last) : Repaints b last := by
  obtain ⟨payload, size, rfl⟩ := first
  obtain ⟨final, same, rfl⟩ := second
  exact ⟨final, same.trans size, rfl⟩

theorem planned (repaints : Repaints b next) : Planned b next := by
  obtain ⟨payload, size, rfl⟩ := repaints
  exact ⟨rfl, rfl, rfl, size⟩

theorem shaped (repaints : Repaints b next) (shaped : b.Shaped registry) :
    next.Shaped registry := by
  have planned := repaints.planned
  obtain ⟨payload, size, rfl⟩ := repaints
  exact planned.shaped shaped.laid shaped.enabled_le shaped.disabled_le

end Repaints

theorem splice_size {payload result : Buffer} {start : Nat} {bytes : List UInt8}
    (wrote : payload.splice start bytes = .ok result) : result.size = payload.size := by
  unfold Buffer.splice at wrote
  cases checked : payload.checkSpan start bytes.length with
  | error fault => simp [checked] at wrote
  | ok _ =>
      rw [checked] at wrote
      obtain rfl := Except.ok.inj wrote
      exact Buffer.size_write payload start bytes

theorem write_cell_repaints {c : Column} {row : Nat} {bytes : List UInt8}
    (wrote : b.writeCell c row bytes = .ok next) : Repaints b next := by
  unfold writeCell at wrote
  cases fitted : c.descriptor.fit bytes with
  | error fault => simp [fitted] at wrote
  | ok bytes =>
      cases spliced : b.payload.splice (c.span.place row) bytes with
      | error fault => simp [fitted, spliced] at wrote
      | ok payload =>
          rw [fitted, ok_bind, spliced] at wrote
          exact ⟨payload, splice_size spliced, (Except.ok.inj wrote).symm⟩

section Copy

variable {row sourceRow : Nat} {source : Block}

theorem copy_column_repaints {c : Column} (copied : copyColumn row source sourceRow b c = .ok next) :
    Repaints b next := by
  unfold copyColumn at copied
  cases found : source.column? c.descriptor.id with
  | none =>
      rw [found] at copied
      exact Except.ok.inj copied ▸ Repaints.refl b
  | some sourceColumn =>
      simp only [found] at copied
      cases place : c.span.locate row with
      | error fault => simp [place] at copied
      | ok start =>
          cases checked : b.payload.checkSpan start c.span.size with
          | error fault => simp [place, checked] at copied
          | ok _ =>
              cases sourcePlace : sourceColumn.span.locate sourceRow with
              | error fault => simp [place, checked, sourcePlace] at copied
              | ok from? =>
                  simp only [place, checked, sourcePlace, ok_bind] at copied
                  cases read : source.payload.slice from? sourceColumn.span.size with
                  | error fault => simp [read] at copied
                  | ok bytes =>
                      rw [read, ok_bind] at copied
                      exact write_cell_repaints copied

theorem copy_columns_repaints (columns : List Column) {b next : Block}
    (copied : (Progress.run (copyColumn row source sourceRow) b columns).finished = .ok next) :
    Repaints b next := by
  induction columns generalizing b with
  | nil => exact Except.ok.inj copied ▸ Repaints.refl b
  | cons c rest ih =>
      rw [Progress.run] at copied
      cases first : copyColumn row source sourceRow b c with
      | error fault => simp [first, Progress.finished] at copied
      | ok middle =>
          rw [first] at copied
          exact (copy_column_repaints first).trans (ih copied)

-- A copy to and from rows that blocks of the same registry have is carried out; another one may
-- overwrite what it meets, but nothing beyond the payload.
theorem copy_shared_shaped (shaped : b.Shaped registry) (sourceShaped : source.Shaped registry) :
    Ensures (fun _ => ¬ (row < b.capacity ∧ sourceRow < source.capacity))
      (b.copySharedFrom row source sourceRow).finished fun next =>
        next.Shaped registry ∧ Planned b next := by
  cases copied : (b.copySharedFrom row source sourceRow).finished with
  | ok next =>
      have repaints := copy_columns_repaints b.columns copied
      exact ⟨repaints.shaped shaped, repaints.planned⟩
  | error fault =>
      rintro ⟨inRange, fromRange⟩
      obtain ⟨next, done, _⟩ := copy_shared_ok source sourceShaped.laid row sourceRow fromRange
        shaped.laid inRange
      rw [done] at copied
      contradiction

end Copy

section Operations

variable (shaped : b.Shaped registry)

include shaped

theorem push_shaped (genuine : registry.Genuine) (entity : Entity) :
    b.entityCount < b.disabledStart ∧ (∃ next, b.push entity = .ok (some (b.entityCount, next)) ∧
        next.Shaped registry ∧ Planned b next) ∨
      ¬ b.entityCount < b.disabledStart ∧ b.push entity = .ok none := by
  have limit := shaped.disabled_le
  by_cases space : b.entityCount < b.disabledStart
  · obtain ⟨defaults, fit⟩ := new_row_ok genuine shaped.laid entity
    obtain ⟨middle, wrote, rows⟩ := write_row_ok shaped.laid b.entityCount (by omega) _ fit
    have planned : Planned b { middle with entityCount := b.entityCount + 1 } := { rows.planned with }
    refine Or.inl ⟨space, _, ?_, planned.shaped shaped.laid ?_ ?_, planned⟩
    · simp only [push, hasSpace, space, decide_true, if_true, defaults, wrote, ok_bind, pure_eq_ok]
    · show b.entityCount + 1 ≤ middle.disabledStart
      rw [rows.disabledStart]
      exact space
    · show middle.disabledStart ≤ b.capacity
      rw [rows.disabledStart]
      exact limit
  · refine Or.inr ⟨space, ?_⟩
    simp only [push, hasSpace, space, decide_false, Bool.false_eq_true, if_false]

theorem swap_remove_shaped (row : Nat) :
    Ensures (· = .rowNotEnabled row) (b.swapRemove row) fun (_, next) =>
      next.Shaped registry ∧ Planned b next := by
  have ordered := shaped.enabled_le
  have limit := shaped.disabled_le
  by_cases enabled : row < b.entityCount
  · obtain ⟨middle, done, rows⟩ :=
      refill_ok shaped.laid row (b.entityCount - 1) (by omega) (by omega)
    have planned : Planned b { middle with entityCount := b.entityCount - 1 } := { rows.planned with }
    simp only [swapRemove, isEnabledRow, enabled, decide_true, require, if_true, ok_bind,
      sub_ok b.entityCount 1 (by omega), done]
    refine ⟨planned.shaped shaped.laid ?_ ?_, planned⟩
    · show b.entityCount - 1 ≤ middle.disabledStart
      rw [rows.disabledStart]
      omega
    · show middle.disabledStart ≤ b.capacity
      rw [rows.disabledStart]
      exact limit
  · simp only [swapRemove, isEnabledRow, enabled, decide_false, require]
    rfl

theorem remove_disabled_shaped (row : Nat) :
    Ensures (· = .rowNotDisabled row) (b.removeDisabled row) fun (_, next) =>
      next.Shaped registry ∧ Planned b next := by
  have ordered := shaped.enabled_le
  by_cases disabled : b.isDisabledRow row = true
  · obtain ⟨start, inRange⟩ : b.disabledStart ≤ row ∧ row < b.capacity := by
      simpa [isDisabledRow] using disabled
    obtain ⟨middle, done, rows⟩ := refill_ok shaped.laid row b.disabledStart inRange (by omega)
    have planned : Planned b { middle with disabledStart := b.disabledStart + 1 } := { rows.planned with }
    simp only [removeDisabled, disabled, require, if_true, ok_bind, done]
    refine ⟨planned.shaped shaped.laid ?_ ?_, planned⟩
    · show middle.entityCount ≤ b.disabledStart + 1
      rw [rows.entityCount]
      omega
    · show b.disabledStart + 1 ≤ b.capacity
      omega
  · simp only [removeDisabled, require, if_neg disabled]
    rfl

theorem disable_shaped (row : Nat) :
    Ensures (· = .rowNotEnabled row) (b.disable row) fun (_, next) =>
      next.Shaped registry ∧ Planned b next := by
  have ordered := shaped.enabled_le
  have limit := shaped.disabled_le
  by_cases enabled : row < b.entityCount
  · obtain ⟨swapped, middle, brought, moved, _, _, start, rows⟩ := cross_ok shaped.laid row
      (b.entityCount - 1) (b.disabledStart - 1) (by omega) (by omega) (by omega)
    have planned : Planned b { middle with
      entityCount := b.entityCount - 1, disabledStart := b.disabledStart - 1 } := { rows.planned with }
    have target : sub swapped.disabledStart 1 = .ok (b.disabledStart - 1) := by
      rw [start, sub_ok _ _ (by omega)]
    simp only [disable, isEnabledRow, enabled, decide_true, require, if_true, ok_bind,
      sub_ok b.entityCount 1 (by omega), brought, target, moved]
    refine ⟨planned.shaped shaped.laid ?_ ?_, planned⟩
    · show b.entityCount - 1 ≤ b.disabledStart - 1
      omega
    · show b.disabledStart - 1 ≤ b.capacity
      omega
  · simp only [disable, isEnabledRow, enabled, decide_false, require]
    rfl

theorem enable_shaped (row : Nat) :
    Ensures (· = .rowNotDisabled row) (b.enable row) fun (_, next) =>
      next.Shaped registry ∧ Planned b next := by
  have ordered := shaped.enabled_le
  by_cases disabled : b.isDisabledRow row = true
  · obtain ⟨later, inRange⟩ : b.disabledStart ≤ row ∧ row < b.capacity := by
      simpa [isDisabledRow] using disabled
    obtain ⟨swapped, middle, brought, moved, _, count, _, rows⟩ := cross_ok shaped.laid row
      b.disabledStart b.entityCount inRange (by omega) (by omega)
    have planned : Planned b { middle with
      entityCount := b.entityCount + 1, disabledStart := b.disabledStart + 1 } := { rows.planned with }
    simp only [enable, disabled, require, if_true, ok_bind, brought, count, moved]
    refine ⟨planned.shaped shaped.laid ?_ ?_, planned⟩
    · show b.entityCount + 1 ≤ b.disabledStart + 1
      omega
    · show b.disabledStart + 1 ≤ b.capacity
      omega
  · simp only [enable, require, if_neg disabled]
    rfl

theorem set_bytes_shaped (row : Nat) (id : ComponentId) (bytes : List UInt8) :
    Ensures (fun fault => ∃ size, fault = .lengthMismatch bytes.length size)
      (b.setBytes id row bytes) fun next => Repaints b (next.getD b) := by
  unfold setBytes
  by_cases occupied : b.isOccupied row = true
  · rw [if_pos occupied]
    cases found : b.column? id with
    | none => exact Repaints.refl b
    | some c =>
        obtain ⟨member, _⟩ := column_member id c found
        by_cases length : bytes.length = c.descriptor.size
        · have wrote := write_cell_ok shaped.laid c member row
            (shaped.occupied_bound occupied) bytes length
          simp only [wrote, ok_map]
          exact write_cell_repaints wrote
        · simp only [writeCell, Descriptor.fit, Descriptor.fitTo, if_neg length, error_bind,
            error_map]
          exact ⟨c.descriptor.size, rfl⟩
  · rw [if_neg occupied]
    exact Repaints.refl b

section Typed

variable (genuine : registry.Genuine)

include genuine

theorem typed_size (type : ComponentType) (c : Column) (typed : b.typedColumn? type = some c) :
    c ∈ b.columns ∧ type.size = c.descriptor.size := by
  obtain ⟨column, same⟩ := (typed_column_iff type c).mp typed
  obtain ⟨member, _⟩ := column_member type.id c column
  have size := Registry.entry_size (entry_of_column genuine shaped.laid c member)
  rw [same] at size
  exact ⟨member, size.symm⟩

theorem set_component_shaped (row : Nat) (value : Component) :
    ∃ next, b.setComponent row value = .ok next ∧ Repaints b (next.getD b) := by
  rw [set_component_eq genuine shaped]
  by_cases occupied : b.isOccupied row = true
  · cases typed : b.typedColumn? value.type with
    | none =>
        refine ⟨none, ?_, Repaints.refl b⟩
        simp only [occupied, if_true]
    | some c =>
        obtain ⟨member, size⟩ := typed_size shaped genuine value.type c typed
        have wrote := write_cell_ok shaped.laid c member row
          (shaped.occupied_bound occupied) value.bytes (value.length_eq.trans size)
        refine ⟨some (b.overwrite (c.span.place row) value.bytes), ?_, write_cell_repaints wrote⟩
        simp only [occupied, if_true, wrote, ok_map]
  · refine ⟨none, ?_, Repaints.refl b⟩
    rw [if_neg occupied]

theorem change_cells_shaped (type : ComponentType) (c : Column)
    (typed : b.typedColumn? type = some c) (change : Change) (rows : List Nat)
    (inRange : ∀ row ∈ rows, row < b.capacity) :
    ∃ next, rows.foldlM (changeCell c type change) b = .ok next ∧ Repaints b next := by
  induction rows generalizing b with
  | nil => exact ⟨b, rfl, Repaints.refl b⟩
  | cons row rest ih =>
      obtain ⟨member, size⟩ := typed_size shaped genuine type c typed
      let old := b.valueAt type (c.span.place row)
      let value := old.withBytes (change old)
      have length : value.bytes.length = c.descriptor.size :=
        value.length_eq.trans
          ((congrArg ComponentType.size (Component.type_withBytes old (change old))).trans size)
      have wrote := write_cell_ok shaped.laid c member row (inRange row List.mem_cons_self)
        value.bytes length
      have first := write_cell_repaints wrote
      obtain ⟨next, done, others⟩ := ih (first.shaped shaped) typed
        fun later hit => inRange later (List.mem_cons_of_mem row hit)
      refine ⟨next, ?_, first.trans others⟩
      rw [List.foldlM_cons, changeCell, wrote]
      exact done

theorem change_components_shaped (type : ComponentType) (change : Change) :
    ∃ next, b.changeComponents type change = .ok next ∧ Repaints b (next.getD b) := by
  rw [change_components_eq genuine shaped]
  cases typed : b.typedColumn? type with
  | none => exact ⟨none, rfl, Repaints.refl b⟩
  | some c =>
      have ordered := shaped.enabled_le
      have limit := shaped.disabled_le
      obtain ⟨next, done, repaints⟩ := change_cells_shaped shaped genuine type c typed change
        (List.range b.entityCount) fun row member => by
          have enabled := List.mem_range.mp member
          omega
      refine ⟨some next, ?_, repaints⟩
      simp only [done, ok_map]

theorem operate_shaped (operation : Operation) :
    Ensures operation.Asserts (b.operate operation) fun (_, next) =>
      next.Shaped registry ∧ Planned b next := by
  have kept (next : Option Block) (repaints : Repaints b (next.getD b)) :
      (next.getD b).Shaped registry ∧ Planned b (next.getD b) :=
    ⟨repaints.shaped shaped, repaints.planned⟩
  cases operation with
  | push entity =>
      rcases push_shaped shaped genuine entity with ⟨_, next, done, nextShaped, planned⟩ | ⟨_, full⟩
      · rw [operate, done]
        exact ⟨nextShaped, planned⟩
      · rw [operate, full]
        exact ⟨shaped, Planned.refl b⟩
  | swapRemove row =>
      exact ensures_map _ (ensures_mono (swap_remove_shaped shaped row)
        (fun _ same => same ▸ .swapRemove row) fun _ holds => holds) fun _ holds => holds
  | removeDisabled row =>
      exact ensures_map _ (ensures_mono (remove_disabled_shaped shaped row)
        (fun _ same => same ▸ .removeDisabled row) fun _ holds => holds) fun _ holds => holds
  | disable row =>
      exact ensures_map _ (ensures_mono (disable_shaped shaped row)
        (fun _ same => same ▸ .disable row) fun _ holds => holds) fun _ holds => holds
  | enable row =>
      exact ensures_map _ (ensures_mono (enable_shaped shaped row)
        (fun _ same => same ▸ .enable row) fun _ holds => holds) fun _ holds => holds
  | write row id bytes =>
      refine ensures_map _ (ensures_mono (set_bytes_shaped shaped row id bytes) ?_
        fun _ holds => holds) kept
      rintro _ ⟨size, rfl⟩
      exact .write row id bytes size
  | assign row value =>
      obtain ⟨next, done, repaints⟩ := set_component_shaped shaped genuine row value
      exact ensures_map _ (ensures_of_eq done repaints) kept
  | change type change =>
      obtain ⟨next, done, repaints⟩ := change_components_shaped shaped genuine type change
      exact ensures_map _ (ensures_of_eq done repaints) kept

end Typed

end Operations

end EntityStore.Block
