import EntityStore.Proofs.Block.Cells

set_option autoImplicit false

namespace EntityStore

abbrev Components := ComponentId → Option (List UInt8)

structure Tenant where
  entity : Entity
  enabled : Bool
  components : Components

namespace Block

open Checked

def side? (b : Block) (row : Nat) : Option Bool :=
  if row < b.entityCount then some true
  else if b.disabledStart ≤ row ∧ row < b.capacity then some false
  else none

def componentsAt (b : Block) (row : Nat) : Components :=
  fun id => (b.column? id).map fun c => b.cell c row

def tenant? (b : Block) (row : Nat) : Option Tenant :=
  (b.side? row).map fun enabled => ⟨b.entitySlot row, enabled, b.componentsAt row⟩

def edge (b : Block) (enabled : Bool) : Nat := if enabled then b.entityCount - 1 else b.disabledStart

def landing (b : Block) (enabled : Bool) : Nat :=
  if enabled then b.entityCount else b.disabledStart - 1

structure Sound (registry : Registry) (b : Block) : Prop where
  laid : b.Laid registry
  enabled_le : b.entityCount ≤ b.disabledStart
  disabled_le : b.disabledStart ≤ b.capacity
  free : ∀ row, row < b.capacity → b.side? row = none → b.cellsAt row = b.blank

variable {registry : Registry} {b next : Block}

theorem side_enabled (row : Nat) : b.side? row = some true ↔ row < b.entityCount := by
  unfold side?
  by_cases enabled : row < b.entityCount
  · simp [enabled]
  · by_cases disabled : b.disabledStart ≤ row ∧ row < b.capacity <;> simp [enabled, disabled]

theorem side_disabled (ordered : b.entityCount ≤ b.disabledStart) (row : Nat) :
    b.side? row = some false ↔ b.disabledStart ≤ row ∧ row < b.capacity := by
  unfold side?
  by_cases enabled : row < b.entityCount
  · have never : ¬ (b.disabledStart ≤ row ∧ row < b.capacity) := by omega
    simp [enabled, never]
  · by_cases disabled : b.disabledStart ≤ row ∧ row < b.capacity <;> simp [enabled, disabled]

theorem side_none (row : Nat) :
    b.side? row = none ↔ ¬ row < b.entityCount ∧ ¬ (b.disabledStart ≤ row ∧ row < b.capacity) := by
  unfold side?
  by_cases enabled : row < b.entityCount
  · simp [enabled]
  · by_cases disabled : b.disabledStart ≤ row ∧ row < b.capacity <;> simp [enabled, disabled]

theorem occupied_iff (row : Nat) : b.isOccupied row = (b.side? row).isSome := by
  unfold isOccupied isEnabledRow isDisabledRow side?
  by_cases enabled : row < b.entityCount
  · simp [enabled]
  · by_cases disabled : b.disabledStart ≤ row ∧ row < b.capacity
    · simp [enabled, disabled]
    · rw [Decidable.not_and_iff_or_not] at disabled
      rcases disabled with early | late
      · simp [enabled, early]
      · simp [enabled, late]

theorem tenant_side (row : Nat) (t : Tenant) (found : b.tenant? row = some t) :
    b.side? row = some t.enabled ∧ t.entity = b.entitySlot row ∧
      t.components = b.componentsAt row := by
  unfold tenant? at found
  cases side : b.side? row with
  | none => simp [side] at found
  | some enabled =>
      have same : (⟨b.entitySlot row, enabled, b.componentsAt row⟩ : Tenant) = t := by
        simpa [side] using found
      subst same
      exact ⟨rfl, rfl, rfl⟩

theorem tenant_some (row : Nat) (enabled : Bool) (side : b.side? row = some enabled) :
    b.tenant? row = some ⟨b.entitySlot row, enabled, b.componentsAt row⟩ := by
  simp [tenant?, side]

theorem tenant_none (row : Nat) (side : b.side? row = none) : b.tenant? row = none := by
  simp [tenant?, side]

theorem side_in_range (sound : b.Sound registry) (row : Nat) (enabled : Bool)
    (side : b.side? row = some enabled) : row < b.capacity := by
  have first := sound.enabled_le
  have second := sound.disabled_le
  cases enabled with
  | true =>
      have bound := (side_enabled row).mp side
      omega
  | false => exact ((side_disabled first row).mp side).2

theorem side_beyond (sound : b.Sound registry) (row : Nat) (beyond : b.capacity ≤ row) :
    b.side? row = none := by
  have first := sound.enabled_le
  have second := sound.disabled_le
  exact (side_none row).mpr ⟨by omega, by omega⟩

theorem edge_side (sound : b.Sound registry) (row : Nat) (enabled : Bool)
    (side : b.side? row = some enabled) : b.side? (b.edge enabled) = some enabled := by
  cases enabled with
  | true =>
      have bound := (side_enabled row).mp side
      exact (side_enabled _).mpr (by simp only [edge, if_true]; omega)
  | false =>
      have bound := (side_disabled sound.enabled_le row).mp side
      exact (side_disabled sound.enabled_le _).mpr ⟨Nat.le_refl _, Nat.lt_of_le_of_lt bound.1 bound.2⟩

theorem cell_of_cells (frame : Framed b next) (row old : Nat)
    (cells : next.cellsAt row = b.cellsAt old) (c : Column) (member : c ∈ b.columns) :
    next.cell c row = b.cell c old := by
  unfold cellsAt at cells
  rw [frame.spans] at cells
  exact List.map_inj_left.mp cells c.span (List.mem_cons_of_mem _ (List.mem_map_of_mem member))

theorem column_member (id : ComponentId) (c : Column) (found : b.column? id = some c) :
    c ∈ b.columns ∧ c.descriptor.id = id :=
  ⟨List.mem_of_find?_eq_some found, by simpa using List.find?_some found⟩

theorem tenant_of_cells (frame : Framed b next) (row old : Nat)
    (cells : next.cellsAt row = b.cellsAt old) :
    next.tenant? row =
      (next.side? row).map fun enabled => ⟨b.entitySlot old, enabled, b.componentsAt old⟩ := by
  have entity : next.entitySlot row = b.entitySlot old := by
    rw [entity_slot_eq, cells, entity_slot_eq]
  have components : next.componentsAt row = b.componentsAt old := by
    funext id
    unfold componentsAt
    rw [frame.column]
    cases found : b.column? id with
    | none => rfl
    | some c =>
        have same := cell_of_cells frame row old cells c (column_member id c found).1
        simp only [Option.map_some, same]
  rw [tenant?, entity, components]

theorem tenant_kept (frame : Framed b next) (row old : Nat)
    (cells : next.cellsAt row = b.cellsAt old) (side : next.side? row = b.side? old) :
    next.tenant? row = b.tenant? old := by
  rw [tenant_of_cells frame row old cells, side, tenant?]

-- The common part of both removals: `edge` has left its side, and its entity is at `row`.
structure Refilled (b next : Block) (row edge : Nat) : Prop extends Framed b next where
  cells : ∀ q < b.capacity, next.cellsAt q =
    if q = edge then b.blank else if q = row then b.cellsAt edge else b.cellsAt q
  left : next.side? edge = none
  others : ∀ q, q ≠ edge → next.side? q = b.side? q

section Refilled

variable {row edge : Nat}

theorem Refilled.sound (refilled : Refilled b next row edge) (sound : b.Sound registry)
    (rowSide : b.side? row ≠ none) (ordered : next.entityCount ≤ next.disabledStart)
    (bound : next.disabledStart ≤ next.capacity) : next.Sound registry := by
  have frame := refilled.toFramed
  refine ⟨frame.laid sound.laid, ordered, bound, fun q inRange free => ?_⟩
  rw [frame.capacity] at inRange
  rw [refilled.cells q inRange, frame.blank]
  by_cases here : q = edge
  · rw [if_pos here]
  · have free : b.side? q = none := (refilled.others q here).symm.trans free
    have away : q ≠ row := fun hit => rowSide (hit ▸ free)
    rw [if_neg here, if_neg away]
    exact sound.free q inRange free

theorem Refilled.tenants (refilled : Refilled b next row edge) (sound : b.Sound registry)
    (rowSide : b.side? row ≠ none) (edgeSide : b.side? edge = b.side? row) (q : Nat) : next.tenant? q =
      if q = edge then none else if q = row then b.tenant? edge else b.tenant? q := by
  have frame := refilled.toFramed
  by_cases here : q = edge
  · rw [if_pos here, here]
    exact tenant_none edge refilled.left
  · have sides := refilled.others q here
    rw [if_neg here]
    -- The rows are known inside the block only; beyond it both blocks have no side.
    by_cases inRange : q < b.capacity
    · have content := refilled.cells q inRange
      rw [if_neg here] at content
      by_cases target : q = row
      · rw [if_pos target] at content ⊢
        refine tenant_kept frame q edge content ?_
        rw [sides, edgeSide, target]
      · rw [if_neg target] at content ⊢
        exact tenant_kept frame q q content sides
    · have beyond := side_beyond sound q (Nat.le_of_not_lt inRange)
      have away : q ≠ row := fun hit => rowSide (hit ▸ beyond)
      rw [if_neg away, tenant_none q beyond]
      exact tenant_none q (sides.trans beyond)

end Refilled

theorem swap_remove_ok (sound : b.Sound registry) (row : Nat) (side : b.side? row = some true) :
    ∃ next, b.swapRemove row =
        .ok (if row = b.edge true then none else some (b.entitySlot (b.edge true)), next) ∧
      next.Sound registry ∧ Framed b next ∧ next.occupied + 1 = b.occupied ∧
      ∀ q, next.tenant? q =
        if q = b.edge true then none else if q = row then b.tenant? (b.edge true)
        else b.tenant? q := by
  have inRange := side_in_range sound row true side
  have edgeSide := edge_side sound row true side
  have edgeRange := side_in_range sound _ true edgeSide
  have bound := (side_enabled row).mp side
  have ordered := sound.enabled_le
  obtain ⟨middle, done, rows⟩ := refill_ok sound.laid row (b.edge true) inRange edgeRange
  let next : Block := { middle with entityCount := b.entityCount - 1 }
  have same : next = { middle with entityCount := b.entityCount - 1, disabledStart := b.disabledStart } := by
    rw [← rows.disabledStart]
  have sides (q : Nat) (away : q ≠ b.edge true) : next.side? q = b.side? q := by
    have lower : q < b.entityCount - 1 ↔ q < b.entityCount := by
      simp only [edge, if_true] at away
      omega
    simp only [same, side?, lower, rows.capacity]
  have left : next.side? (b.edge true) = none := by
    rw [side_none, same]
    simp only [edge, if_true]
    omega
  have refilled : Refilled b next row (b.edge true) := { rows.toFramed with cells := rows.rows, left, others := sides }
  refine ⟨next, ?_, refilled.sound sound (by simp [side]) ?_ ?_, refilled.toFramed, ?_,
    refilled.tenants sound (by simp [side]) (by rw [edgeSide, side])⟩
  · have enabled : b.isEnabledRow row = true := by simpa [isEnabledRow] using bound
    have last : sub b.entityCount 1 = .ok (b.edge true) := sub_ok _ _ (by omega)
    simp only [swapRemove, enabled, require, if_true, last, ok_bind, done]
    rfl
  · simp only [same]
    omega
  · simpa only [same, rows.capacity] using sound.disabled_le
  · simp only [occupied, disabledCount, same, rows.capacity]
    omega

theorem remove_disabled_ok (sound : b.Sound registry) (row : Nat)
    (side : b.side? row = some false) :
    ∃ next, b.removeDisabled row =
        .ok (if row = b.edge false then none else some (b.entitySlot (b.edge false)), next) ∧
      next.Sound registry ∧ Framed b next ∧ next.occupied + 1 = b.occupied ∧
      ∀ q, next.tenant? q =
        if q = b.edge false then none else if q = row then b.tenant? (b.edge false)
        else b.tenant? q := by
  have inRange := side_in_range sound row false side
  have edgeSide := edge_side sound row false side
  have edgeRange : b.disabledStart < b.capacity := side_in_range sound _ false edgeSide
  have bound := (side_disabled sound.enabled_le row).mp side
  have ordered := sound.enabled_le
  obtain ⟨middle, done, rows⟩ := refill_ok sound.laid row (b.edge false) inRange edgeRange
  let next : Block := { middle with disabledStart := b.disabledStart + 1 }
  have same : next = { middle with entityCount := b.entityCount, disabledStart := b.disabledStart + 1 } := by
    rw [← rows.entityCount]
  have first : b.edge false = b.disabledStart := rfl
  have sides (q : Nat) (away : q ≠ b.edge false) : next.side? q = b.side? q := by
    have upper : b.disabledStart + 1 ≤ q ↔ b.disabledStart ≤ q := by
      rw [first] at away
      omega
    simp only [same, side?, upper, rows.capacity]
  have left : next.side? (b.edge false) = none := by
    rw [side_none, same, first]
    simp only
    omega
  have refilled : Refilled b next row (b.edge false) := { rows.toFramed with cells := rows.rows, left, others := sides }
  refine ⟨next, ?_, refilled.sound sound (by simp [side]) ?_ ?_, refilled.toFramed, ?_,
    refilled.tenants sound (by simp [side]) (by rw [edgeSide, side])⟩
  · have disabled : b.isDisabledRow row = true := by simpa [isDisabledRow] using bound
    simp only [removeDisabled, disabled, require, if_true, ← first, ok_bind, done]
    rfl
  · simp only [same]
    omega
  · simp only [same, rows.capacity]
    exact edgeRange
  · simp only [occupied, disabledCount, same, rows.capacity]
    omega

-- The common part of both transfers: `edge` has left the side of `row`, whose entity is at
-- `target` on the other side. Without a free row between the sides `target` is `edge`.
structure Crossing (b next : Block) (row edge target : Nat) (enabled : Bool) : Prop extends Framed b next where
  cells : ∀ q < b.capacity, next.cellsAt q =
    if q = target then b.cellsAt row
    else if q = edge then b.blank
    else if q = row then b.cellsAt edge
    else b.cellsAt q
  arrived : next.side? target = some (!enabled)
  left : edge ≠ target → next.side? edge = none
  others : ∀ q, q ≠ edge → q ≠ target → next.side? q = b.side? q

section Crossing

variable {next : Block} {row edge target : Nat} {enabled : Bool}

theorem Crossing.sound (crossing : Crossing b next row edge target enabled) (sound : b.Sound registry)
    (rowSide : b.side? row = some enabled) (ordered : next.entityCount ≤ next.disabledStart)
    (bound : next.disabledStart ≤ next.capacity) : next.Sound registry := by
  have frame := crossing.toFramed
  refine ⟨frame.laid sound.laid, ordered, bound, fun q inRange free => ?_⟩
  rw [frame.capacity] at inRange
  rw [crossing.cells q inRange, frame.blank]
  -- A free row was free before or is the edge, and the edge was blanked.
  have missed : q ≠ target := fun hit => by simp [hit, crossing.arrived] at free
  rw [if_neg missed]
  by_cases here : q = edge
  · rw [if_pos here]
  · have free : b.side? q = none := (crossing.others q here missed).symm.trans free
    have away : q ≠ row := fun hit => by simp [hit, rowSide] at free
    rw [if_neg here, if_neg away]
    exact sound.free q inRange free

theorem Crossing.tenants (crossing : Crossing b next row edge target enabled) (sound : b.Sound registry)
    (rowSide : b.side? row = some enabled) (edgeSide : b.side? edge = some enabled)
    (targetRange : target < b.capacity) (q : Nat) : next.tenant? q =
      if q = target then (b.tenant? row).map fun t => { t with enabled := !enabled }
      else if q = edge then none
      else if q = row then b.tenant? edge
      else b.tenant? q := by
  have frame := crossing.toFramed
  by_cases landed : q = target
  · have content := crossing.cells q (landed ▸ targetRange)
    rw [if_pos landed] at content ⊢
    rw [tenant_of_cells frame q row content, landed, crossing.arrived, tenant_some row enabled rowSide]
    rfl
  · rw [if_neg landed]
    by_cases here : q = edge
    · rw [if_pos here]
      exact tenant_none q (here ▸ crossing.left fun hit => landed (here.trans hit))
    · rw [if_neg here]
      have sides := crossing.others q here landed
      by_cases inRange : q < b.capacity
      · have content := crossing.cells q inRange
        rw [if_neg landed, if_neg here] at content
        by_cases vacated : q = row
        · rw [if_pos vacated] at content ⊢
          refine tenant_kept frame q edge content ?_
          rw [sides, vacated, rowSide, edgeSide]
        · rw [if_neg vacated] at content ⊢
          exact tenant_kept frame q q content sides
      · have beyond := side_beyond sound q (Nat.le_of_not_lt inRange)
        have away : q ≠ row := fun hit => by simp [hit, rowSide] at beyond
        rw [if_neg away, tenant_none q beyond]
        exact tenant_none q (sides.trans beyond)

end Crossing

theorem cross_ok (laid : b.Laid registry) (row edge target : Nat) (inRange : row < b.capacity)
    (edgeRange : edge < b.capacity) (targetRange : target < b.capacity) :
    ∃ swapped middle,
      b.bringTo row edge =
        .ok (if row = edge then none else some (b.entitySlot edge, row), swapped) ∧
      swapped.moveRow edge target = .ok middle ∧ Framed b swapped ∧
      swapped.entityCount = b.entityCount ∧ swapped.disabledStart = b.disabledStart ∧
      Becomes b middle fun q =>
        if q = target then b.cellsAt row
        else if q = edge then b.blank
        else if q = row then b.cellsAt edge
        else b.cellsAt q := by
  obtain ⟨swapped, brought, half⟩ := bring_to_ok laid row edge inRange edgeRange
  obtain ⟨middle, moved, whole⟩ := move_row_ok (half.laid laid) edge target
    (half.capacity ▸ edgeRange) (half.capacity ▸ targetRange)
  refine ⟨swapped, middle, brought, moved, half.toFramed, half.entityCount, half.disabledStart,
    half.trans whole _ fun q qInRange => ?_⟩
  rw [half.rows edge edgeRange, half.rows q qInRange, half.blank, if_pos rfl]
  by_cases landed : q = target
  · rw [if_pos landed, if_pos landed]
  · rw [if_neg landed, if_neg landed]
    by_cases here : q = edge
    · rw [if_pos here, if_pos here]
    · rw [if_neg here, if_neg here, if_neg here]

theorem disable_crossing (sound : b.Sound registry) (row : Nat) (side : b.side? row = some true) {middle : Block}
    (rows : Becomes b middle fun q =>
      if q = b.landing false then b.cellsAt row
      else if q = b.edge true then b.blank
      else if q = row then b.cellsAt (b.edge true)
      else b.cellsAt q) :
    Crossing b { middle with entityCount := b.entityCount - 1, disabledStart := b.disabledStart - 1 }
      row (b.edge true) (b.landing false) true := by
  have bound := (side_enabled row).mp side
  have ordered := sound.enabled_le
  have limit := sound.disabled_le
  have last : b.edge true = b.entityCount - 1 := rfl
  have target : b.landing false = b.disabledStart - 1 := rfl
  refine { rows.toFramed with cells := rows.rows, arrived := ?_, left := fun away => ?_, others := fun q _ _ => ?_ }
  · refine (side_disabled (by simp only; omega) _).mpr ?_
    simp only [rows.capacity]
    omega
  · rw [side_none]
    simp only
    omega
  · have lower : q < b.entityCount - 1 ↔ q < b.entityCount := by omega
    have upper : b.disabledStart - 1 ≤ q ↔ b.disabledStart ≤ q := by omega
    simp only [side?, lower, upper, rows.capacity]

theorem disable_ok (sound : b.Sound registry) (row : Nat) (side : b.side? row = some true) :
    ∃ next, b.disable row =
        .ok (⟨b.landing false,
          if row = b.edge true then none else some (b.entitySlot (b.edge true), row)⟩, next) ∧
      next.Sound registry ∧ Framed b next ∧ next.occupied = b.occupied ∧
      ∀ q, next.tenant? q =
        if q = b.landing false then (b.tenant? row).map fun t => { t with enabled := false }
        else if q = b.edge true then none
        else if q = row then b.tenant? (b.edge true)
        else b.tenant? q := by
  have inRange := side_in_range sound row true side
  have edgeSide := edge_side sound row true side
  have edgeRange := side_in_range sound _ true edgeSide
  have bound := (side_enabled row).mp side
  have ordered := sound.enabled_le
  have limit := sound.disabled_le
  have target : b.landing false = b.disabledStart - 1 := rfl
  have targetRange : b.landing false < b.capacity := by omega
  obtain ⟨swapped, middle, brought, moved, half, count, start, rows⟩ := cross_ok sound.laid row (b.edge true)
    (b.landing false) inRange edgeRange targetRange
  have crossing := disable_crossing sound row side rows
  refine ⟨_, ?_, crossing.sound sound side ?_ ?_, crossing.toFramed, ?_,
    crossing.tenants sound side edgeSide targetRange⟩
  · have enabled : b.isEnabledRow row = true := by simpa [isEnabledRow] using bound
    have difference : sub swapped.disabledStart 1 = .ok (b.landing false) := by
      rw [start, sub_ok _ _ (by omega), target]
    have before : sub b.entityCount 1 = .ok (b.edge true) := sub_ok _ _ (by omega)
    simp only [disable, enabled, require, if_true, before, ok_bind, brought, difference, moved]
    rfl
  · simp only
    omega
  · simp only [rows.capacity]
    omega
  · simp only [occupied, disabledCount, rows.capacity]
    omega

theorem enable_crossing (sound : b.Sound registry) (row : Nat) (side : b.side? row = some false) {middle : Block}
    (rows : Becomes b middle fun q =>
      if q = b.landing true then b.cellsAt row
      else if q = b.edge false then b.blank
      else if q = row then b.cellsAt (b.edge false)
      else b.cellsAt q) :
    Crossing b { middle with entityCount := b.entityCount + 1, disabledStart := b.disabledStart + 1 }
      row (b.edge false) (b.landing true) false := by
  have bound := (side_disabled sound.enabled_le row).mp side
  have ordered := sound.enabled_le
  have first : b.edge false = b.disabledStart := rfl
  have target : b.landing true = b.entityCount := rfl
  refine { rows.toFramed with cells := rows.rows, arrived := ?_, left := fun away => ?_, others := fun q _ _ => ?_ }
  · refine (side_enabled _).mpr ?_
    simp only
    omega
  · rw [side_none]
    simp only
    omega
  · have lower : q < b.entityCount + 1 ↔ q < b.entityCount := by omega
    have upper : b.disabledStart + 1 ≤ q ↔ b.disabledStart ≤ q := by omega
    simp only [side?, lower, upper, rows.capacity]

theorem enable_ok (sound : b.Sound registry) (row : Nat) (side : b.side? row = some false) :
    ∃ next, b.enable row =
        .ok (⟨b.landing true,
          if row = b.edge false then none else some (b.entitySlot (b.edge false), row)⟩, next) ∧
      next.Sound registry ∧ Framed b next ∧ next.occupied = b.occupied ∧
      ∀ q, next.tenant? q =
        if q = b.landing true then (b.tenant? row).map fun t => { t with enabled := true }
        else if q = b.edge false then none
        else if q = row then b.tenant? (b.edge false)
        else b.tenant? q := by
  have inRange := side_in_range sound row false side
  have edgeSide := edge_side sound row false side
  have edgeRange := side_in_range sound _ false edgeSide
  have bound := (side_disabled sound.enabled_le row).mp side
  have ordered := sound.enabled_le
  have first : b.edge false = b.disabledStart := rfl
  have target : b.landing true = b.entityCount := rfl
  have targetRange : b.landing true < b.capacity := by omega
  obtain ⟨swapped, middle, brought, moved, half, count, start, rows⟩ := cross_ok sound.laid row
    (b.edge false) (b.landing true) inRange edgeRange targetRange
  have crossing := enable_crossing sound row side rows
  refine ⟨_, ?_, crossing.sound sound side ?_ ?_, crossing.toFramed, ?_,
    crossing.tenants sound side edgeSide targetRange⟩
  · have disabled : b.isDisabledRow row = true := by simpa [isDisabledRow] using bound
    have landing : swapped.entityCount = b.landing true := count
    simp only [enable, disabled, require, if_true, ← first, ok_bind, brought, landing, moved]
    rfl
  · simp only
    omega
  · simp only [rows.capacity]
    omega
  · simp only [occupied, disabledCount, rows.capacity]
    omega

end Block

end EntityStore
