import EntityStore.Block.Operation
import EntityStore.Proofs.Block.Arrivals

set_option autoImplicit false

namespace EntityStore

structure Occupant where
  entity : Entity
  components : Components

@[ext] structure Roster where
  enabled : List Occupant
  disabled : List Occupant

namespace Occupant

def tenant (enabled : Bool) (o : Occupant) : Tenant := ⟨o.entity, enabled, o.components⟩

def write (o : Occupant) (id : ComponentId) (bytes : List UInt8) : Occupant :=
  { o with components := Function.update o.components id (some bytes) }

def change (o : Occupant) (type : ComponentType) (change : Block.Change) : Occupant :=
  match (o.components type.id).bind (Component.ofBytes? type) with
  | none => o
  | some value => o.write type.id (value.withBytes (change value)).bytes

end Occupant

namespace Roster

def refillLast {α : Type} (list : List α) (i : Nat) : List α :=
  match list.getLast? with
  | none => []
  | some last => (list.set i last).dropLast

def refillFirst {α : Type} (list : List α) (i : Nat) : List α :=
  match list.head? with
  | none => []
  | some first => (list.set i first).tail

def empty : Roster := ⟨[], []⟩

def start (capacity : Nat) (r : Roster) : Nat := capacity - r.disabled.length

def place? (capacity : Nat) (r : Roster) (row : Nat) : Option Nat :=
  if r.start capacity ≤ row ∧ row < capacity then some (row - r.start capacity) else none

def tenant? (capacity : Nat) (r : Roster) (row : Nat) : Option Tenant :=
  match r.enabled[row]? with
  | some o => some (o.tenant true)
  | none =>
    (r.place? capacity row).bind fun i => (r.disabled[i]?).map (Occupant.tenant false)

def occupied (capacity : Nat) (r : Roster) (row : Nat) : Bool := (r.tenant? capacity row).isSome

-- The entity that leaves the end of the enabled list for a row, and the one that leaves the
-- beginning of the disabled list for a place in it.
def lastFor? (r : Roster) (row : Nat) : Option Entity :=
  if row + 1 = r.enabled.length then none else r.enabled.getLast?.map Occupant.entity

def firstFor? (r : Roster) (i : Nat) : Option Entity :=
  if i = 0 then none else r.disabled.head?.map Occupant.entity

def write (capacity : Nat) (r : Roster) (row : Nat) (id : ComponentId) (bytes : List UInt8) :
    Roster where
  enabled := r.enabled.modify row fun o => o.write id bytes
  disabled :=
    match r.place? capacity row with
    | none => r.disabled
    | some i => r.disabled.modify i fun o => o.write id bytes

def column? (registry : Registry) (signature : Signature) (id : ComponentId) : Option Descriptor :=
  if signature.contains id then registry.get? id else none

/-- What an operation does to the lists and what it answers. -/
def operate (registry : Registry) (signature : Signature) (capacity : Nat) (r : Roster) :
    Block.Operation → Checked (Block.Answer × Roster)
  | .push entity =>
    if r.enabled.length + r.disabled.length = capacity then .ok (.pushed none, r)
    else
      let newcomer : Occupant := ⟨entity, registry.defaults signature⟩
      .ok (.pushed (some r.enabled.length), { r with enabled := r.enabled ++ [newcomer] })
  | .swapRemove row =>
    match r.enabled[row]? with
    | none => .error (.rowNotEnabled row)
    | some _ => .ok (.removed (r.lastFor? row), { r with enabled := refillLast r.enabled row })
  | .removeDisabled row =>
    match r.place? capacity row with
    | none => .error (.rowNotDisabled row)
    | some i => .ok (.removed (r.firstFor? i), { r with disabled := refillFirst r.disabled i })
  | .disable row =>
    match r.enabled[row]? with
    | none => .error (.rowNotEnabled row)
    | some o =>
      let displaced := (r.lastFor? row).map fun last => (last, row)
      .ok (.moved ⟨r.start capacity - 1, displaced⟩,
        ⟨refillLast r.enabled row, o :: r.disabled⟩)
  | .enable row =>
    match r.place? capacity row with
    | none => .error (.rowNotDisabled row)
    | some i =>
      let displaced := (r.firstFor? i).map fun first => (first, row)
      .ok (.moved ⟨r.enabled.length, displaced⟩,
        ⟨r.enabled ++ (r.disabled[i]?).toList, refillFirst r.disabled i⟩)
  | .write row id bytes =>
    match (column? registry signature id).filter fun _ => r.occupied capacity row with
    | none => .ok (.written false, r)
    | some descriptor => do
      let bytes ← descriptor.fit bytes
      return (.written true, r.write capacity row id bytes)
  | .assign row value =>
    let id := value.type.id
    match (column? registry signature id).filter fun descriptor =>
        descriptor.is value.type && r.occupied capacity row with
    | none => .ok (.written false, r)
    | some _ => .ok (.written true, r.write capacity row id value.bytes)
  | .change type change =>
    match (column? registry signature type.id).filter fun descriptor => descriptor.is type with
    | none => .ok (.written false, r)
    | some _ =>
      .ok (.written true, { r with enabled := r.enabled.map fun o => o.change type change })

def operateAll (registry : Registry) (signature : Signature) (capacity : Nat) (r : Roster) :
    List Block.Operation → Checked (List Block.Answer × Roster)
  | [] => .ok ([], r)
  | operation :: rest => do
    let (answer, r) ← r.operate registry signature capacity operation
    let (answers, r) ← r.operateAll registry signature capacity rest
    return (answer :: answers, r)

section Lists

variable {α : Type} (list : List α) (i : Nat) (inRange : i < list.length)

include inRange

theorem get_refill_last (k : Nat) : (refillLast list i)[k]? =
    if k + 1 = list.length then none else if k = i then list[list.length - 1]? else list[k]? := by
  have last : list[list.length - 1]? = some list[list.length - 1] :=
    List.getElem?_eq_getElem (by omega)
  rw [refillLast, List.getLast?_eq_getElem?, last]
  simp only [List.getElem?_dropLast, List.length_set, List.getElem?_set]
  by_cases final : k + 1 = list.length
  · rw [if_pos final, if_neg (by omega)]
  · rw [if_neg final]
    by_cases here : k = i
    · rw [if_pos here, if_pos (by omega), if_pos here.symm, if_pos (here ▸ inRange)]
    · rw [if_neg here, if_neg (Ne.symm here)]
      by_cases before : k < list.length - 1
      · rw [if_pos before]
      · rw [if_neg before, List.getElem?_eq_none (by omega)]

theorem length_refill_last : (refillLast list i).length = list.length - 1 := by
  rw [refillLast, List.getLast?_eq_getElem?, List.getElem?_eq_getElem (by omega)]
  simp

theorem get_refill_first (k : Nat) : (refillFirst list i)[k]? =
    if k + 1 = i then list[0]? else list[k + 1]? := by
  cases list with
  | nil => contradiction
  | cons first rest =>
      simp only [refillFirst, List.head?_cons, List.getElem?_tail, List.getElem?_set,
        List.getElem?_cons_zero]
      by_cases here : k + 1 = i
      · rw [if_pos here, if_pos here.symm, if_pos inRange]
      · rw [if_neg here, if_neg (Ne.symm here)]

theorem length_refill_first : (refillFirst list i).length = list.length - 1 := by
  cases list with
  | nil => contradiction
  | cons first rest => simp [refillFirst]

end Lists

section Tenants

variable {capacity : Nat} {r : Roster}

theorem tenant_injective (enabled : Bool) : Function.Injective (Occupant.tenant enabled) := by
  rintro ⟨entity, components⟩ ⟨_, _⟩ same
  obtain ⟨rfl, _, rfl⟩ := Tenant.mk.inj same
  rfl

theorem tenant_enabled (row : Nat) (enabled : row < r.enabled.length) :
    r.tenant? capacity row = (r.enabled[row]?).map (Occupant.tenant true) := by
  rw [tenant?, List.getElem?_eq_getElem enabled]
  rfl

theorem tenant_disabled (fits : r.enabled.length + r.disabled.length ≤ capacity) (row : Nat)
    (disabled : r.start capacity ≤ row) :
    r.tenant? capacity row = (r.disabled[row - r.start capacity]?).map (Occupant.tenant false) := by
  have first : r.start capacity = capacity - r.disabled.length := rfl
  rw [tenant?, List.getElem?_eq_none (by omega), place?]
  by_cases inRange : row < capacity
  · rw [if_pos ⟨disabled, inRange⟩]
    rfl
  · rw [if_neg fun both => inRange both.2, List.getElem?_eq_none (by omega)]
    rfl

theorem tenant_free (row : Nat) (late : r.enabled.length ≤ row) (early : row < r.start capacity) :
    r.tenant? capacity row = none := by
  rw [tenant?, List.getElem?_eq_none late, place?, if_neg (by omega)]
  rfl

theorem tenant_side (fits : r.enabled.length + r.disabled.length ≤ capacity) (row : Nat) :
    (r.tenant? capacity row).map Tenant.enabled =
      if row < r.enabled.length then some true
      else if r.start capacity ≤ row ∧ row < capacity then some false
      else none := by
  have first : r.start capacity = capacity - r.disabled.length := rfl
  by_cases enabled : row < r.enabled.length
  · rw [tenant_enabled row enabled, List.getElem?_eq_getElem enabled, if_pos enabled]
    rfl
  · rw [if_neg enabled]
    by_cases disabled : r.start capacity ≤ row
    · rw [tenant_disabled fits row disabled]
      by_cases inRange : row < capacity
      · rw [if_pos ⟨disabled, inRange⟩, List.getElem?_eq_getElem (by omega)]
        rfl
      · rw [if_neg fun both => inRange both.2, List.getElem?_eq_none (by omega)]
        rfl
    · rw [if_neg fun both => disabled both.1, tenant_free row (by omega) (by omega)]
      rfl

theorem tenant_eq (fits : r.enabled.length + r.disabled.length ≤ capacity) (row : Nat) :
    r.tenant? capacity row =
      if row < r.enabled.length then (r.enabled[row]?).map (Occupant.tenant true)
      else if r.start capacity ≤ row then
        (r.disabled[row - r.start capacity]?).map (Occupant.tenant false)
      else none := by
  by_cases enabled : row < r.enabled.length
  · rw [if_pos enabled, tenant_enabled row enabled]
  · rw [if_neg enabled]
    by_cases disabled : r.start capacity ≤ row
    · rw [if_pos disabled, tenant_disabled fits row disabled]
    · rw [if_neg disabled, tenant_free row (by omega) (by omega)]

theorem start_same (enabled : List Occupant) :
    ({ r with enabled } : Roster).start capacity = r.start capacity := rfl

theorem place_some (row i : Nat) : r.place? capacity row = some i ↔
    r.start capacity ≤ row ∧ row < capacity ∧ i = row - r.start capacity := by
  unfold place?
  by_cases disabled : r.start capacity ≤ row ∧ row < capacity
  · rw [if_pos disabled, Option.some.injEq, eq_comm]
    exact ⟨fun same => ⟨disabled.1, disabled.2, same⟩, fun parts => parts.2.2⟩
  · rw [if_neg disabled]
    exact ⟨fun absent => by contradiction, fun parts => absurd ⟨parts.1, parts.2.1⟩ disabled⟩

theorem length_write (r : Roster) (capacity row : Nat) (id : ComponentId) (bytes : List UInt8) :
    (r.write capacity row id bytes).enabled.length = r.enabled.length ∧
      (r.write capacity row id bytes).disabled.length = r.disabled.length := by
  unfold write
  cases r.place? capacity row <;> simp

theorem tenant_push (space : r.enabled.length + r.disabled.length < capacity) (o : Occupant)
    (q : Nat) : ({ r with enabled := r.enabled ++ [o] } : Roster).tenant? capacity q =
      if q = r.enabled.length then some (o.tenant true) else r.tenant? capacity q := by
  have first : r.start capacity = capacity - r.disabled.length := rfl
  rw [tenant_eq (by simp; omega), tenant_eq (by omega)]
  simp only [List.length_append, List.length_singleton, start_same]
  grind

theorem tenant_swap_remove (fits : r.enabled.length + r.disabled.length ≤ capacity) (row : Nat)
    (enabled : row < r.enabled.length) (q : Nat) :
    ({ r with enabled := refillLast r.enabled row } : Roster).tenant? capacity q =
      if q = r.enabled.length - 1 then none
      else if q = row then r.tenant? capacity (r.enabled.length - 1)
      else r.tenant? capacity q := by
  have first : r.start capacity = capacity - r.disabled.length := rfl
  have length := length_refill_last r.enabled row enabled
  have left := get_refill_last r.enabled row enabled
  rw [tenant_eq (by simp only [length]; omega), tenant_eq fits, tenant_eq fits]
  simp only [start_same, length, left]
  grind

theorem tenant_remove_disabled (fits : r.enabled.length + r.disabled.length ≤ capacity)
    (row i : Nat) (place : r.place? capacity row = some i) (q : Nat) :
    ({ r with disabled := refillFirst r.disabled i } : Roster).tenant? capacity q =
      if q = r.start capacity then none
      else if q = row then r.tenant? capacity (r.start capacity)
      else r.tenant? capacity q := by
  have first : r.start capacity = capacity - r.disabled.length := rfl
  obtain ⟨disabled, inRange, rfl⟩ := (place_some row i).mp place
  have inside : row - r.start capacity < r.disabled.length := by omega
  have length := length_refill_first r.disabled _ inside
  have left := get_refill_first r.disabled _ inside
  have later : ({ r with disabled := refillFirst r.disabled (row - r.start capacity) } :
      Roster).start capacity = r.start capacity + 1 := by
    simp only [start, length] at *
    omega
  rw [tenant_eq (by simp only [length]; omega), tenant_eq fits, tenant_eq fits]
  simp only [later, left]
  grind

theorem tenant_disable (fits : r.enabled.length + r.disabled.length ≤ capacity) (row : Nat)
    (o : Occupant) (found : r.enabled[row]? = some o) (q : Nat) :
    (⟨refillLast r.enabled row, o :: r.disabled⟩ : Roster).tenant? capacity q =
      if q = r.start capacity - 1 then some (o.tenant false)
      else if q = r.enabled.length - 1 then none
      else if q = row then r.tenant? capacity (r.enabled.length - 1)
      else r.tenant? capacity q := by
  have first : r.start capacity = capacity - r.disabled.length := rfl
  obtain ⟨enabled, _⟩ := List.getElem?_eq_some_iff.mp found
  have length := length_refill_last r.enabled row enabled
  have left := get_refill_last r.enabled row enabled
  have earlier : (⟨refillLast r.enabled row, o :: r.disabled⟩ : Roster).start capacity =
      r.start capacity - 1 := by
    simp only [start, List.length_cons]
    omega
  rw [tenant_eq (by simp only [length, List.length_cons]; omega), tenant_eq fits, tenant_eq fits]
  simp only [earlier, length, left]
  grind

theorem tenant_enable (fits : r.enabled.length + r.disabled.length ≤ capacity) (row i : Nat)
    (place : r.place? capacity row = some i) (o : Occupant) (found : r.disabled[i]? = some o)
    (q : Nat) :
    (⟨r.enabled ++ [o], refillFirst r.disabled i⟩ : Roster).tenant? capacity q =
      if q = r.enabled.length then some (o.tenant true)
      else if q = r.start capacity then none
      else if q = row then r.tenant? capacity (r.start capacity)
      else r.tenant? capacity q := by
  have first : r.start capacity = capacity - r.disabled.length := rfl
  obtain ⟨disabled, inRange, rfl⟩ := (place_some row i).mp place
  obtain ⟨inside, _⟩ := List.getElem?_eq_some_iff.mp found
  have length := length_refill_first r.disabled _ inside
  have left := get_refill_first r.disabled _ inside
  have later : (⟨r.enabled ++ [o], refillFirst r.disabled (row - r.start capacity)⟩ :
      Roster).start capacity = r.start capacity + 1 := by
    simp only [start, length] at *
    omega
  rw [tenant_eq (by simp only [length, List.length_append, List.length_singleton]; omega),
    tenant_eq fits, tenant_eq fits]
  simp only [later, left, List.length_append, List.length_singleton]
  grind

theorem tenant_write (fits : r.enabled.length + r.disabled.length ≤ capacity) (row : Nat)
    (id : ComponentId) (bytes : List UInt8) (q : Nat) :
    (r.write capacity row id bytes).tenant? capacity q =
      if q = row then
        (r.tenant? capacity row).map fun t =>
          { t with components := Function.update t.components id (some bytes) }
      else r.tenant? capacity q := by
  have first : r.start capacity = capacity - r.disabled.length := rfl
  obtain ⟨enabled, disabled⟩ := length_write r capacity row id bytes
  have same : (r.write capacity row id bytes).start capacity = r.start capacity := by
    simp only [start, disabled]
  rw [tenant_eq (by omega), tenant_eq fits, tenant_eq fits, same, enabled]
  simp only [write, place?]
  grind [Occupant.write, Occupant.tenant]

theorem tenant_change (fits : r.enabled.length + r.disabled.length ≤ capacity)
    (f : Occupant → Occupant) (q : Nat) :
    ({ r with enabled := r.enabled.map f } : Roster).tenant? capacity q =
      if q < r.enabled.length then (r.enabled[q]?).map fun o => (f o).tenant true
      else r.tenant? capacity q := by
  rw [tenant_eq (by simpa using fits), tenant_eq fits, start_same]
  simp only [List.length_map, List.getElem?_map, Option.map_map]
  by_cases enabled : q < r.enabled.length
  · rw [if_pos enabled, if_pos enabled]
    rfl
  · simp only [if_neg enabled]

end Tenants

end Roster

namespace Block

variable {registry : Registry} {b next : Block}

def occupant (b : Block) (row : Nat) : Occupant := ⟨b.entitySlot row, b.componentsAt row⟩

def roster (b : Block) : Roster where
  enabled := (List.range b.entityCount).map b.occupant
  disabled := (List.range' b.disabledStart b.disabledCount).map b.occupant

theorem occupant_tenant (row : Nat) (enabled : Bool) (side : b.side? row = some enabled) :
    b.tenant? row = some ((b.occupant row).tenant enabled) := tenant_some row enabled side

theorem length_enabled (b : Block) : b.roster.enabled.length = b.entityCount := by simp [roster]

theorem length_disabled (b : Block) : b.roster.disabled.length = b.disabledCount := by
  simp [roster]

theorem get_enabled (row : Nat) :
    b.roster.enabled[row]? = if row < b.entityCount then some (b.occupant row) else none := by
  by_cases enabled : row < b.entityCount <;> simp [roster, enabled]

theorem get_disabled (i : Nat) : b.roster.disabled[i]? =
    if i < b.disabledCount then some (b.occupant (b.disabledStart + i)) else none := by
  by_cases disabled : i < b.disabledCount <;> simp [roster, disabled]

theorem roster_start (sound : b.Sound registry) : b.roster.start b.capacity = b.disabledStart := by
  have limit := sound.disabled_le
  rw [Roster.start, length_disabled, disabledCount]
  omega

theorem roster_place (sound : b.Sound registry) (row : Nat) : b.roster.place? b.capacity row =
    if b.disabledStart ≤ row ∧ row < b.capacity then some (row - b.disabledStart) else none := by
  rw [Roster.place?, roster_start sound]

theorem roster_tenant (sound : b.Sound registry) (row : Nat) :
    b.roster.tenant? b.capacity row = b.tenant? row := by
  have ordered := sound.enabled_le
  have limit := sound.disabled_le
  rw [Roster.tenant?, get_enabled]
  by_cases enabled : row < b.entityCount
  · rw [if_pos enabled, tenant_some row true ((side_enabled row).mpr enabled)]
    rfl
  · rw [if_neg enabled, roster_place sound]
    by_cases disabled : b.disabledStart ≤ row ∧ row < b.capacity
    · have place : b.disabledStart + (row - b.disabledStart) = row := by omega
      rw [if_pos disabled, occupant_tenant row false ((side_disabled ordered row).mpr disabled),
        Option.bind_some, get_disabled, if_pos (by unfold disabledCount; omega), place]
      rfl
    · rw [if_neg disabled, tenant_none row ((side_none row).mpr ⟨enabled, disabled⟩)]
      rfl

theorem tenant_enabled_eq (row : Nat) : (b.tenant? row).map Tenant.enabled = b.side? row := by
  rw [tenant?, Option.map_map]
  exact Option.map_id'

theorem roster_fits (sound : b.Sound registry) :
    b.roster.enabled.length + b.roster.disabled.length ≤ b.capacity := by
  have ordered := sound.enabled_le
  have limit := sound.disabled_le
  rw [length_enabled, length_disabled, disabledCount]
  omega

section Converse

variable (sound : next.Sound registry) (r : Roster)
  (fits : r.enabled.length + r.disabled.length ≤ next.capacity)
  (same : ∀ row, next.tenant? row = r.tenant? next.capacity row)

include sound fits same

theorem sides_of_tenants :
    next.entityCount = r.enabled.length ∧ next.disabledStart = r.start next.capacity := by
  have ordered := sound.enabled_le
  have limit := sound.disabled_le
  have first : r.start next.capacity = next.capacity - r.disabled.length := rfl
  have sides (row : Nat) : next.side? row =
      if row < r.enabled.length then some true
      else if r.start next.capacity ≤ row ∧ row < next.capacity then some false
      else none := by
    rw [← tenant_enabled_eq, same, Roster.tenant_side fits]
  have enabled (row : Nat) : row < next.entityCount ↔ row < r.enabled.length := by
    rw [← side_enabled, sides]
    by_cases early : row < r.enabled.length
    · simp [early]
    · by_cases late : r.start next.capacity ≤ row ∧ row < next.capacity <;> simp [early, late]
  have disabled (row : Nat) : next.disabledStart ≤ row ∧ row < next.capacity ↔
      r.start next.capacity ≤ row ∧ row < next.capacity := by
    rw [← side_disabled ordered, sides]
    by_cases early : row < r.enabled.length
    · have never : ¬ (r.start next.capacity ≤ row ∧ row < next.capacity) := by omega
      simp [early, never]
    · by_cases late : r.start next.capacity ≤ row ∧ row < next.capacity <;> simp [early, late]
  have above := enabled r.enabled.length
  have below := enabled next.entityCount
  have later := disabled next.disabledStart
  have earlier := disabled (r.start next.capacity)
  omega

theorem roster_of_tenants : next.roster = r := by
  have ordered := sound.enabled_le
  have limit := sound.disabled_le
  have first : r.start next.capacity = next.capacity - r.disabled.length := rfl
  have length : next.disabledCount = next.capacity - next.disabledStart := rfl
  obtain ⟨count, start⟩ := sides_of_tenants sound r fits same
  refine Roster.ext (List.ext_getElem? fun row => ?_) (List.ext_getElem? fun i => ?_)
  · rw [get_enabled]
    by_cases inside : row < next.entityCount
    · have held := same row
      rw [occupant_tenant row true ((side_enabled row).mpr inside),
        Roster.tenant_enabled row (count ▸ inside)] at held
      obtain ⟨o, found, tenant⟩ := Option.map_eq_some_iff.mp held.symm
      rw [if_pos inside, found]
      exact congrArg some (Roster.tenant_injective true tenant).symm
    · rw [if_neg inside, List.getElem?_eq_none (by omega)]
  · rw [get_disabled]
    by_cases inside : i < next.disabledCount
    · have side := (side_disabled ordered (next.disabledStart + i)).mpr ⟨by omega, by omega⟩
      have held := same (next.disabledStart + i)
      rw [occupant_tenant _ false side, Roster.tenant_disabled fits _ (by omega), ← start,
        Nat.add_sub_cancel_left] at held
      obtain ⟨o, found, tenant⟩ := Option.map_eq_some_iff.mp held.symm
      rw [if_pos inside, found]
      exact congrArg some (Roster.tenant_injective false tenant).symm
    · rw [if_neg inside, List.getElem?_eq_none (by omega)]

end Converse

end Block

end EntityStore
