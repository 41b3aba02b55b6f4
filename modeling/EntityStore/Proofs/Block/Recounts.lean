import EntityStore.Proofs.Block.Shaped

set_option autoImplicit false

namespace EntityStore.Block

open Checked

def Operation.recounts : Operation → Bool
  | .push _ | .swapRemove _ | .disable _ | .enable _ => true
  | .removeDisabled _ | .write .. | .assign .. | .change .. => false

variable {b next : Block} {row source target edge : Nat} {moved : Option Entity}

theorem write_cells_size (cells : List (Span × List UInt8)) {payload result : Buffer}
    (wrote : writeCells row payload cells = .ok result) : result.size = payload.size := by
  induction cells generalizing payload with
  | nil => exact Except.ok.inj wrote ▸ rfl
  | cons first rest ih =>
      rw [writeCells] at wrote
      obtain ⟨middle, spliced, others⟩ := bind_ok_iff.mp wrote
      exact (ih others).trans (splice_size spliced)

theorem write_row_repaints {cells : List (List UInt8)} (wrote : b.writeRow row cells = .ok next) :
    Repaints b next := by
  unfold writeRow at wrote
  obtain ⟨payload, wrote, done⟩ := bind_ok_iff.mp wrote
  exact ⟨payload, write_cells_size _ wrote, (Except.ok.inj done).symm⟩

theorem copy_row_repaints (copied : b.copyRow source target = .ok next) : Repaints b next := by
  unfold copyRow at copied
  obtain ⟨cells, _, wrote⟩ := bind_ok_iff.mp copied
  exact write_row_repaints wrote

theorem swap_rows_repaints (swapped : b.swapRows source target = .ok next) : Repaints b next := by
  unfold swapRows at swapped
  obtain ⟨_, _, swapped⟩ := bind_ok_iff.mp swapped
  obtain ⟨_, _, swapped⟩ := bind_ok_iff.mp swapped
  obtain ⟨middle, first, second⟩ := bind_ok_iff.mp swapped
  exact (write_row_repaints first).trans (write_row_repaints second)

theorem move_row_repaints (done : b.moveRow source target = .ok next) : Repaints b next := by
  unfold moveRow at done
  by_cases here : target = source
  · rw [if_pos here] at done
    exact Except.ok.inj done ▸ Repaints.refl b
  · rw [if_neg here] at done
    obtain ⟨middle, copied, zeroed⟩ := bind_ok_iff.mp done
    exact (copy_row_repaints copied).trans (write_row_repaints zeroed)

theorem refill_repaints (done : b.refill row source = .ok (moved, next)) : Repaints b next := by
  unfold refill at done
  by_cases here : row = source
  · rw [if_pos here] at done
    obtain ⟨zero, zeroed, same⟩ := bind_ok_iff.mp done
    obtain ⟨_, rfl⟩ := Prod.mk.inj (Except.ok.inj same)
    exact write_row_repaints zeroed
  · rw [if_neg here] at done
    obtain ⟨middle, copied, rest⟩ := bind_ok_iff.mp done
    obtain ⟨_, _, rest⟩ := bind_ok_iff.mp rest
    obtain ⟨zero, zeroed, same⟩ := bind_ok_iff.mp rest
    obtain ⟨_, rfl⟩ := Prod.mk.inj (Except.ok.inj same)
    exact (copy_row_repaints copied).trans (write_row_repaints zeroed)

theorem bring_to_repaints {displaced : Option (Entity × Nat)}
    (done : b.bringTo row edge = .ok (displaced, next)) : Repaints b next := by
  unfold bringTo at done
  by_cases here : row = edge
  · rw [if_pos here] at done
    obtain ⟨_, rfl⟩ := Prod.mk.inj (Except.ok.inj done)
    exact Repaints.refl b
  · rw [if_neg here] at done
    obtain ⟨middle, swapped, rest⟩ := bind_ok_iff.mp done
    obtain ⟨_, _, same⟩ := bind_ok_iff.mp rest
    obtain ⟨_, rfl⟩ := Prod.mk.inj (Except.ok.inj same)
    exact swap_rows_repaints swapped

theorem change_cells_repaints {c : Column} {type : ComponentType} {change : Change} (rows : List Nat)
    (done : rows.foldlM (changeCell c type change) b = .ok next) : Repaints b next := by
  induction rows generalizing b with
  | nil => exact Except.ok.inj done ▸ Repaints.refl b
  | cons row rest ih =>
      rw [List.foldlM_cons] at done
      obtain ⟨middle, first, others⟩ := bind_ok_iff.mp done
      exact (write_cell_repaints first).trans (ih others)

namespace Repaints

variable {middle : Block} (repaints : Repaints b middle)

include repaints

theorem counted (entityCount disabledStart : Nat) :
    Planned b { middle with entityCount, disabledStart } := { repaints.planned with }

theorem entityCount : middle.entityCount = b.entityCount := by
  obtain ⟨_, _, rfl⟩ := repaints
  rfl

end Repaints

theorem push_planned {entity : Entity} {place : Nat}
    (done : b.push entity = .ok (some (place, next))) : Planned b next := by
  unfold push at done
  by_cases space : b.hasSpace = true
  · rw [if_pos space] at done
    obtain ⟨defaults, _, done⟩ := bind_ok_iff.mp done
    obtain ⟨middle, wrote, same⟩ := bind_ok_iff.mp done
    obtain ⟨_, rfl⟩ := Prod.mk.inj (Option.some.inj (Except.ok.inj same))
    exact (write_row_repaints wrote).counted _ _
  · rw [if_neg space] at done
    cases Except.ok.inj done

theorem swap_remove_planned (done : b.swapRemove row = .ok (moved, next)) : Planned b next := by
  unfold swapRemove at done
  obtain ⟨_, _, done⟩ := bind_ok_iff.mp done
  obtain ⟨_, _, done⟩ := bind_ok_iff.mp done
  obtain ⟨⟨_, middle⟩, refilled, same⟩ := bind_ok_iff.mp done
  obtain ⟨_, rfl⟩ := Prod.mk.inj (Except.ok.inj same)
  exact (refill_repaints refilled).counted _ _

theorem remove_disabled_planned (done : b.removeDisabled row = .ok (moved, next)) :
    Planned b next ∧ next.entityCount = b.entityCount := by
  unfold removeDisabled at done
  obtain ⟨_, _, done⟩ := bind_ok_iff.mp done
  obtain ⟨⟨_, middle⟩, refilled, same⟩ := bind_ok_iff.mp done
  obtain ⟨_, rfl⟩ := Prod.mk.inj (Except.ok.inj same)
  have repaints := refill_repaints refilled
  exact ⟨repaints.counted _ _, repaints.entityCount⟩

theorem disable_planned {transfer : RowTransfer} (done : b.disable row = .ok (transfer, next)) :
    Planned b next := by
  unfold disable at done
  obtain ⟨_, _, done⟩ := bind_ok_iff.mp done
  obtain ⟨_, _, done⟩ := bind_ok_iff.mp done
  obtain ⟨⟨_, swapped⟩, brought, done⟩ := bind_ok_iff.mp done
  obtain ⟨_, _, done⟩ := bind_ok_iff.mp done
  obtain ⟨middle, went, same⟩ := bind_ok_iff.mp done
  obtain ⟨_, rfl⟩ := Prod.mk.inj (Except.ok.inj same)
  exact ((bring_to_repaints brought).trans (move_row_repaints went)).counted _ _

theorem enable_planned {transfer : RowTransfer} (done : b.enable row = .ok (transfer, next)) :
    Planned b next := by
  unfold enable at done
  obtain ⟨_, _, done⟩ := bind_ok_iff.mp done
  obtain ⟨⟨_, swapped⟩, brought, done⟩ := bind_ok_iff.mp done
  obtain ⟨middle, went, same⟩ := bind_ok_iff.mp done
  obtain ⟨_, rfl⟩ := Prod.mk.inj (Except.ok.inj same)
  exact ((bring_to_repaints brought).trans (move_row_repaints went)).counted _ _

theorem set_bytes_repaints {id : ComponentId} {bytes : List UInt8} {result : Option Block}
    (done : b.setBytes id row bytes = .ok result) : Repaints b (result.getD b) := by
  unfold setBytes at done
  by_cases occupied : b.isOccupied row = true
  · rw [if_pos occupied] at done
    cases found : b.column? id with
    | none =>
        rw [found] at done
        exact Except.ok.inj done ▸ Repaints.refl b
    | some c =>
        rw [found] at done
        cases wrote : b.writeCell c row bytes with
        | error fault => simp [wrote] at done
        | ok next =>
            simp only [wrote, ok_map] at done
            exact Except.ok.inj done ▸ write_cell_repaints wrote
  · rw [if_neg occupied] at done
    exact Except.ok.inj done ▸ Repaints.refl b

theorem set_component_repaints {value : Component} {result : Option Block}
    (done : b.setComponent row value = .ok result) : Repaints b (result.getD b) := by
  unfold setComponent at done
  by_cases occupied : b.isOccupied row = true
  · rw [if_pos occupied] at done
    cases typed : b.typedColumn? value.type with
    | none =>
        rw [typed] at done
        exact Except.ok.inj done ▸ Repaints.refl b
    | some c =>
        simp only [typed] at done
        obtain ⟨_, _, done⟩ := bind_ok_iff.mp done
        obtain ⟨_, _, done⟩ := bind_ok_iff.mp done
        obtain ⟨next, wrote, same⟩ := bind_ok_iff.mp done
        exact Except.ok.inj same ▸ write_cell_repaints wrote
  · rw [if_neg occupied] at done
    exact Except.ok.inj done ▸ Repaints.refl b

theorem change_components_repaints {type : ComponentType} {change : Change} {result : Option Block}
    (done : b.changeComponents type change = .ok result) : Repaints b (result.getD b) := by
  unfold changeComponents at done
  cases typed : b.typedColumn? type with
  | none =>
      rw [typed] at done
      exact Except.ok.inj done ▸ Repaints.refl b
  | some c =>
      simp only [typed] at done
      obtain ⟨_, _, done⟩ := bind_ok_iff.mp done
      obtain ⟨next, changed, same⟩ := bind_ok_iff.mp done
      exact Except.ok.inj same ▸ change_cells_repaints _ changed

section Told

variable {α : Type} {tell : α → Answer} {result : Checked (α × Block)} {answer : Answer}

theorem told_ok_iff : operate.told tell result = .ok (answer, next) ↔
    ∃ told, result = .ok (told, next) ∧ tell told = answer := by
  unfold operate.told
  cases result with
  | error fault => simp
  | ok both =>
      obtain ⟨told, last⟩ := both
      simp only [ok_map, Except.ok.injEq, Prod.mk.injEq]
      constructor
      · rintro ⟨rfl, rfl⟩
        exact ⟨told, ⟨rfl, rfl⟩, rfl⟩
      · rintro ⟨_, ⟨rfl, rfl⟩, rfl⟩
        exact ⟨rfl, rfl⟩

theorem noted_repaints {result : Checked (Option Block)}
    (kept : ∀ last, result = .ok last → Repaints b (last.getD b))
    (done : operate.noted b result = .ok (answer, next)) : Repaints b next := by
  unfold operate.noted at done
  cases result with
  | error fault => simp at done
  | ok last =>
      obtain ⟨_, rfl⟩ := Prod.mk.inj (Except.ok.inj done)
      exact kept last rfl

end Told

theorem operate_keeps {operation : Operation} {answer : Answer}
    (done : b.operate operation = .ok (answer, next)) :
    Planned b next ∧ (operation.recounts = false → next.entityCount = b.entityCount) := by
  have repainted (repaints : Repaints b next) :
      Planned b next ∧ (operation.recounts = false → next.entityCount = b.entityCount) :=
    ⟨repaints.planned, fun _ => repaints.entityCount⟩
  cases operation with
  | push entity =>
      refine ⟨?_, by simp [Operation.recounts]⟩
      rw [operate] at done
      obtain ⟨pushed, taken, done⟩ := bind_ok_iff.mp done
      cases pushed with
      | none =>
          obtain ⟨_, rfl⟩ := Prod.mk.inj (Except.ok.inj done)
          exact Planned.refl b
      | some entry =>
          obtain ⟨_, rfl⟩ := Prod.mk.inj (Except.ok.inj done)
          exact push_planned taken
  | swapRemove row =>
      obtain ⟨_, removed, _⟩ := told_ok_iff.mp done
      exact ⟨swap_remove_planned removed, by simp [Operation.recounts]⟩
  | removeDisabled row =>
      obtain ⟨_, removed, _⟩ := told_ok_iff.mp done
      obtain ⟨planned, count⟩ := remove_disabled_planned removed
      exact ⟨planned, fun _ => count⟩
  | disable row =>
      obtain ⟨_, disabled, _⟩ := told_ok_iff.mp done
      exact ⟨disable_planned disabled, by simp [Operation.recounts]⟩
  | enable row =>
      obtain ⟨_, enabled, _⟩ := told_ok_iff.mp done
      exact ⟨enable_planned enabled, by simp [Operation.recounts]⟩
  | write row id bytes => exact repainted (noted_repaints (fun _ => set_bytes_repaints) done)
  | assign row value => exact repainted (noted_repaints (fun _ => set_component_repaints) done)
  | change type change =>
      exact repainted (noted_repaints (fun _ => change_components_repaints) done)

end EntityStore.Block
