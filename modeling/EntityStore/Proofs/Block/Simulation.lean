import EntityStore.Proofs.Block.Roster

set_option autoImplicit false

namespace EntityStore.Block

open Checked

variable {registry : Registry} {b next : Block}

-- What the operation does to the block it does to the roster, or both stop at its assertion.
inductive Follows (registry : Registry) (b : Block) (operation : Operation) : Prop where
  | stopped (fault : Fault) (asserted : operation.Asserts fault)
      (faulted : b.operate operation = .error fault)
      (same : b.roster.operate registry b.signature b.capacity operation = .error fault)
  | done (answer : Answer) (next : Block) (finished : b.operate operation = .ok (answer, next))
      (sound : next.Sound registry) (frame : Framed b next)
      (same : b.roster.operate registry b.signature b.capacity operation =
        .ok (answer, next.roster))

theorem roster_eq (nextSound : next.Sound registry)
    (frame : Framed b next) (r : Roster) (fits : r.enabled.length + r.disabled.length ≤ b.capacity)
    (tenants : ∀ row, next.tenant? row = r.tenant? b.capacity row) : next.roster = r := by
  rw [← frame.capacity] at fits
  refine roster_of_tenants nextSound r fits fun row => ?_
  rw [frame.capacity]
  exact tenants row

theorem roster_last_for (row : Nat) (enabled : row < b.entityCount) : b.roster.lastFor? row =
    if row = b.edge true then none else some (b.entitySlot (b.edge true)) := by
  have last : b.edge true = b.entityCount - 1 := rfl
  rw [Roster.lastFor?, List.getLast?_eq_getElem?, length_enabled, get_enabled,
    if_pos (show b.entityCount - 1 < b.entityCount by omega)]
  by_cases final : row = b.edge true
  · rw [if_pos final, if_pos (by omega)]
  · rw [if_neg final, if_neg (by omega)]
    rfl

theorem roster_first_for (row : Nat) (disabled : b.disabledStart ≤ row) (inRange : row < b.capacity) :
    b.roster.firstFor? (row - b.disabledStart) =
      if row = b.edge false then none else some (b.entitySlot (b.edge false)) := by
  have first : b.edge false = b.disabledStart := rfl
  rw [Roster.firstFor?, List.head?_eq_getElem?, get_disabled,
    if_pos (show 0 < b.disabledCount by unfold disabledCount; omega)]
  by_cases initial : row = b.edge false
  · rw [if_pos initial, if_pos (by omega)]
  · rw [if_neg initial, if_neg (by omega)]
    rfl

section Rows

variable (sound : b.Sound registry)

include sound

theorem push_follows (genuine : registry.Genuine) (entity : Entity) :
    Follows registry b (.push entity) := by
  have ordered := sound.enabled_le
  have limit := sound.disabled_le
  have length := length_enabled b
  have others : b.roster.disabled.length = b.capacity - b.disabledStart := length_disabled b
  by_cases space : b.entityCount < b.disabledStart
  · obtain ⟨next, done, nextSound, frame, _, _, _, tenants⟩ := push_ok genuine sound space entity
    refine .done (.pushed (some b.entityCount)) next (by rw [operate, done]; rfl) nextSound frame ?_
    rw [Roster.operate, if_neg (by omega), length]
    rw [roster_eq nextSound frame _ ?_ fun row => ?_]
    · simp only [List.length_append, List.length_singleton]
      omega
    · rw [tenants, Roster.tenant_push (by omega), length, roster_tenant sound]
      rfl
  · refine .done (.pushed none) b ?_ sound (Framed.refl b) ?_
    · simp only [operate, push, hasSpace, space, decide_false, Bool.false_eq_true, if_false]
      rfl
    · rw [Roster.operate, if_pos (by omega)]

theorem swap_remove_follows (row : Nat) : Follows registry b (.swapRemove row) := by
  have length := length_enabled b
  by_cases enabled : row < b.entityCount
  · obtain ⟨next, done, nextSound, frame, _, tenants⟩ :=
      swap_remove_ok sound row ((side_enabled row).mpr enabled)
    refine .done _ next (by rw [operate, done]; rfl) nextSound frame ?_
    rw [Roster.operate, get_enabled, if_pos enabled]
    simp only [roster_last_for row enabled]
    rw [roster_eq nextSound frame _ ?_ fun q => ?_]
    · have fits := roster_fits sound
      simp only [Roster.length_refill_last _ row (length ▸ enabled)]
      omega
    · rw [tenants, Roster.tenant_swap_remove (roster_fits sound) row (length ▸ enabled), length,
        roster_tenant sound, roster_tenant sound]
      rfl
  · refine .stopped _ (.swapRemove row) ?_ ?_
    · simp only [operate, swapRemove, isEnabledRow, enabled, decide_false, require]
      rfl
    · rw [Roster.operate, get_enabled, if_neg enabled]

theorem disable_follows (row : Nat) : Follows registry b (.disable row) := by
  have length := length_enabled b
  by_cases enabled : row < b.entityCount
  · have found : b.roster.enabled[row]? = some (b.occupant row) := by
      rw [get_enabled, if_pos enabled]
    obtain ⟨next, done, nextSound, frame, _, tenants⟩ :=
      disable_ok sound row ((side_enabled row).mpr enabled)
    refine .done _ next (by rw [operate, done]; rfl) nextSound frame ?_
    rw [Roster.operate, found]
    simp only [roster_last_for row enabled, roster_start sound]
    rw [roster_eq nextSound frame _ ?_ fun q => ?_]
    · by_cases last : row = b.edge true
      · simp only [if_pos last]
        rfl
      · simp only [if_neg last]
        rfl
    · have fits := roster_fits sound
      simp only [Roster.length_refill_last _ row (length ▸ enabled), List.length_cons]
      omega
    · rw [tenants, Roster.tenant_disable (roster_fits sound) row _ found, length,
        roster_start sound, roster_tenant sound, roster_tenant sound,
        occupant_tenant row true ((side_enabled row).mpr enabled)]
      rfl
  · refine .stopped _ (.disable row) ?_ ?_
    · simp only [operate, disable, isEnabledRow, enabled, decide_false, require]
      rfl
    · rw [Roster.operate, get_enabled, if_neg enabled]

theorem not_disabled (row : Nat) (outside : ¬ (b.disabledStart ≤ row ∧ row < b.capacity)) :
    b.isDisabledRow row = false ∧ b.roster.place? b.capacity row = none := by
  refine ⟨?_, by rw [roster_place sound, if_neg outside]⟩
  simpa [isDisabledRow] using outside

theorem remove_disabled_follows (row : Nat) : Follows registry b (.removeDisabled row) := by
  by_cases disabled : b.disabledStart ≤ row ∧ row < b.capacity
  · have place : b.roster.place? b.capacity row = some (row - b.disabledStart) := by
      rw [roster_place sound, if_pos disabled]
    obtain ⟨next, done, nextSound, frame, _, tenants⟩ :=
      remove_disabled_ok sound row ((side_disabled sound.enabled_le row).mpr disabled)
    refine .done _ next (by rw [operate, done]; rfl) nextSound frame ?_
    rw [Roster.operate, place]
    simp only [roster_first_for row disabled.1 disabled.2]
    rw [roster_eq nextSound frame _ ?_ fun q => ?_]
    · have fits := roster_fits sound
      have inside : row - b.disabledStart < b.roster.disabled.length := by
        rw [length_disabled, disabledCount]
        omega
      simp only [Roster.length_refill_first _ _ inside]
      omega
    · rw [tenants, Roster.tenant_remove_disabled (roster_fits sound) row _ place,
        roster_start sound, roster_tenant sound, roster_tenant sound]
      rfl
  · obtain ⟨refused, place⟩ := not_disabled sound row disabled
    refine .stopped _ (.removeDisabled row) ?_ (by rw [Roster.operate, place])
    simp only [operate, removeDisabled, refused, require]
    rfl

theorem enable_follows (row : Nat) : Follows registry b (.enable row) := by
  by_cases disabled : b.disabledStart ≤ row ∧ row < b.capacity
  · have place : b.roster.place? b.capacity row = some (row - b.disabledStart) := by
      rw [roster_place sound, if_pos disabled]
    have held : b.disabledStart + (row - b.disabledStart) = row := by omega
    have inside : row - b.disabledStart < b.disabledCount := by
      unfold disabledCount
      omega
    have found : b.roster.disabled[row - b.disabledStart]? = some (b.occupant row) := by
      rw [get_disabled, if_pos inside, held]
    obtain ⟨next, done, nextSound, frame, _, tenants⟩ :=
      enable_ok sound row ((side_disabled sound.enabled_le row).mpr disabled)
    refine .done _ next (by rw [operate, done]; rfl) nextSound frame ?_
    rw [Roster.operate, place]
    simp only [roster_first_for row disabled.1 disabled.2, found, Option.toList_some,
      length_enabled]
    rw [roster_eq nextSound frame _ ?_ fun q => ?_]
    · by_cases first : row = b.edge false
      · simp only [if_pos first]
        rfl
      · simp only [if_neg first]
        rfl
    · have fits := roster_fits sound
      simp only [Roster.length_refill_first _ _ (length_disabled b ▸ inside), List.length_append,
        List.length_singleton]
      have others := length_disabled b
      omega
    · rw [tenants, Roster.tenant_enable (roster_fits sound) row _ place _ found, length_enabled,
        roster_start sound, roster_tenant sound, roster_tenant sound,
        occupant_tenant row false ((side_disabled sound.enabled_le row).mpr disabled)]
      rfl
  · obtain ⟨refused, place⟩ := not_disabled sound row disabled
    refine .stopped _ (.enable row) ?_ (by rw [Roster.operate, place])
    simp only [operate, enable, refused, require]
    rfl

theorem roster_occupied (row : Nat) : b.roster.occupied b.capacity row = b.isOccupied row := by
  rw [Roster.occupied, roster_tenant sound, occupied_iff, tenant?, Option.isSome_map]

theorem column_descriptor (id : ComponentId) :
    Roster.column? registry b.signature id = (b.column? id).map Column.descriptor := by
  have present := column_some_iff sound.laid id
  rw [Roster.column?, ← present]
  cases found : b.column? id with
  | none => rfl
  | some c =>
      obtain ⟨member, same⟩ := column_member id c found
      have known := sound.laid.known c member
      rw [same] at known
      exact known

theorem rewritten_roster (row : Nat) (id : ComponentId) (bytes : List UInt8) (old : Tenant)
    (tenant : b.tenant? row = some old)
    (change : Rewrites b next row (Function.update old.components id (some bytes))) :
    next.Sound registry ∧ next.roster = b.roster.write b.capacity row id bytes := by
  have side := (tenant_side row old tenant).1
  have nextSound := change.sound sound (by rw [side]; exact Option.some_ne_none _)
  refine ⟨nextSound, roster_eq nextSound change.toFramed _ ?_ fun q => ?_⟩
  · have fits := roster_fits sound
    obtain ⟨enabled, disabled⟩ := Roster.length_write b.roster b.capacity row id bytes
    omega
  · rw [change.tenant sound, Roster.tenant_write (roster_fits sound), roster_tenant sound,
      roster_tenant sound, tenant]
    rfl

theorem write_follows (row : Nat) (id : ComponentId) (bytes : List UInt8) :
    Follows registry b (.write row id bytes) := by
  have known := column_descriptor sound id
  have occupied := roster_occupied sound row
  cases found : b.column? id with
  | none =>
      refine .done (.written false) b ?_ sound (Framed.refl b) ?_
      · simp only [operate, setBytes, found, ite_self]
        rfl
      · rw [Roster.operate, known, found]
        rfl
  | some c =>
      by_cases held : b.isOccupied row = true
      · have accepted : (Roster.column? registry b.signature id).filter
            (fun _ => b.roster.occupied b.capacity row) = some c.descriptor := by
          rw [known, found, occupied, held]
          rfl
        by_cases length : bytes.length = c.descriptor.size
        · obtain ⟨old, tenant⟩ : ∃ old, b.tenant? row = some old := by
            rw [← Option.isSome_iff_exists, tenant?, Option.isSome_map, ← occupied_iff, held]
          obtain ⟨next, done, change⟩ := set_bytes_ok sound row id bytes old tenant c found length
          obtain ⟨nextSound, roster⟩ := rewritten_roster sound row id bytes old tenant change
          refine .done (.written true) next (by rw [operate, done]; rfl) nextSound
            change.toFramed ?_
          rw [Roster.operate, accepted, roster]
          simp only [Registry.fit_ok bytes length, ok_bind]
          rfl
        · have misfit : c.descriptor.fit bytes = .error (.lengthMismatch bytes.length c.descriptor.size) := by
            rw [Descriptor.fit, Descriptor.fitTo, if_neg length]
          refine .stopped _ (.write row id bytes c.descriptor.size) ?_ ?_
          · simp only [operate, setBytes, held, if_true, found, writeCell, misfit]
            rfl
          · rw [Roster.operate, accepted]
            simp only [misfit]
            rfl
      · refine .done (.written false) b ?_ sound (Framed.refl b) ?_
        · simp only [operate, setBytes, held]
          rfl
        · rw [Roster.operate, occupied, known, found]
          simp only [held]
          rfl

theorem typed_descriptor (type : ComponentType) :
    (Roster.column? registry b.signature type.id).filter (fun d => d.is type) =
      (b.typedColumn? type).map Column.descriptor := by
  rw [column_descriptor sound, Option.filter_map]
  rfl

section Typed

variable (genuine : registry.Genuine)

include genuine

theorem assign_follows (row : Nat) (value : Component) :
    Follows registry b (.assign row value) := by
  have assigned := set_component_eq genuine sound.shaped row value
  have described := typed_descriptor sound value.type
  by_cases held : b.isOccupied row = true
  · have accepted : (Roster.column? registry b.signature value.type.id).filter
        (fun d => d.is value.type && b.roster.occupied b.capacity row) =
          (b.typedColumn? value.type).map Column.descriptor := by
      simp only [roster_occupied sound, held, Bool.and_true, described]
    cases found : b.typedColumn? value.type with
    | none =>
        refine .done (.written false) b ?_ sound (Framed.refl b) ?_
        · simp only [operate, assigned, held, if_true, found]
          rfl
        · rw [Roster.operate, accepted, found]
          rfl
    | some c =>
        obtain ⟨column, known⟩ := (typed_column_known sound.laid value.type c).mp found
        obtain ⟨old, tenant⟩ : ∃ old, b.tenant? row = some old := by
          rw [← Option.isSome_iff_exists, tenant?, Option.isSome_map, ← occupied_iff, held]
        have present : old.components value.type.id ≠ none := by
          rw [(tenant_side row old tenant).2.2, componentsAt, column]
          exact Option.some_ne_none _
        obtain ⟨next, done, change⟩ :=
          set_component_ok genuine sound row value old tenant known present
        obtain ⟨nextSound, roster⟩ := rewritten_roster sound row _ value.bytes old tenant change
        refine .done (.written true) next (by rw [operate, done]; rfl) nextSound
          change.toFramed ?_
        rw [Roster.operate, accepted, found, roster]
        rfl
  · have refused : (Roster.column? registry b.signature value.type.id).filter
        (fun d => d.is value.type && b.roster.occupied b.capacity row) = none := by
      simp [roster_occupied sound, held]
    refine .done (.written false) b ?_ sound (Framed.refl b) ?_
    · simp only [operate, assigned, held]
      rfl
    · rw [Roster.operate, refused]

section Change

variable (type : ComponentType) (c : Column) (typed : b.typedColumn? type = some c)
  (change : Change)

include typed

theorem change_cell_ok (row : Nat) (enabled : row < b.entityCount) :
    ∃ next, changeCell c type change b row = .ok next ∧ next.Sound registry ∧ Framed b next ∧
      next.entityCount = b.entityCount ∧ ∀ q, next.tenant? q =
        if q = row then some (((b.occupant row).change type change).tenant true)
        else b.tenant? q := by
  obtain ⟨column, same⟩ := (typed_column_iff type c).mp typed
  obtain ⟨member, named⟩ := column_member type.id c column
  have tenant := occupant_tenant row true ((side_enabled row).mpr enabled)
  have size := Registry.entry_size (entry_of_column genuine sound.laid c member)
  let old := b.valueAt type (c.span.place row)
  let value := old.withBytes (change old)
  have length : value.bytes.length = c.descriptor.size := by
    rw [value.length_eq, size, same]
    exact congrArg ComponentType.size (Component.type_withBytes old (change old))
  obtain ⟨wrote, rewrites⟩ := overwrite_ok sound row _ tenant c member value.bytes length
  have changed : (b.occupant row).change type change = (b.occupant row).write type.id value.bytes := by
    have bytes := value_bytes genuine sound.laid c member row
    rw [same] at bytes
    have held : ((b.occupant row).components type.id).bind (Component.ofBytes? type) = some old := by
      show ((b.column? type.id).map fun c => b.cell c row).bind (Component.ofBytes? type) = some old
      rw [column, Option.map_some, Option.bind_some, ← bytes]
      exact dif_pos old.length_eq
    rw [Occupant.change, held]
  rw [named] at rewrites
  refine ⟨_, wrote, rewrites.sound sound ?_, rewrites.toFramed, rewrites.entityCount, fun q => ?_⟩
  · rw [(side_enabled row).mpr enabled]
    exact Option.some_ne_none _
  · rw [rewrites.tenant sound, tenant, changed]
    rfl

theorem change_rows_ok (count : Nat) (enabled : count ≤ b.entityCount) :
    ∃ next, (List.range count).foldlM (changeCell c type change) b = .ok next ∧
      next.Sound registry ∧ Framed b next ∧ next.entityCount = b.entityCount ∧
      ∀ q, next.tenant? q =
        if q < count then some (((b.occupant q).change type change).tenant true)
        else b.tenant? q := by
  induction count with
  | zero => exact ⟨b, rfl, sound, Framed.refl b, rfl, fun q => by simp⟩
  | succ count ih =>
      obtain ⟨middle, before, middleSound, half, entities, tenants⟩ := ih (by omega)
      have still : middle.typedColumn? type = some c := by
        rw [← typed]
        exact congrArg (Option.filter fun c => c.descriptor.is type) (half.column type.id)
      obtain ⟨next, done, nextSound, frame, kept, changed⟩ := change_cell_ok middleSound genuine type c
        still change count (by omega)
      have same : middle.occupant count = b.occupant count := by
        have tenant := tenants count
        rw [if_neg (Nat.lt_irrefl count),
          occupant_tenant count true ((side_enabled count).mpr (by omega)),
          occupant_tenant count true ((side_enabled count).mpr (by omega))] at tenant
        exact Roster.tenant_injective true (Option.some.inj tenant)
      refine ⟨next, ?_, nextSound, half.trans frame, kept.trans entities, fun q => ?_⟩
      · rw [List.range_succ, List.foldlM_append, before]
        simp only [ok_bind, List.foldlM_cons, List.foldlM_nil, done]
        rfl
      · rw [changed, tenants, same]
        by_cases here : q = count
        · rw [if_pos here, if_pos (by omega), here]
        · rw [if_neg here]
          by_cases earlier : q < count
          · rw [if_pos earlier, if_pos (by omega)]
          · rw [if_neg earlier, if_neg (by omega)]

end Change

theorem change_follows (type : ComponentType) (change : Change) :
    Follows registry b (.change type change) := by
  have changed := change_components_eq genuine sound.shaped type change
  have described := typed_descriptor sound type
  cases found : b.typedColumn? type with
  | none =>
      refine .done (.written false) b ?_ sound (Framed.refl b) ?_
      · simp only [operate, changed, found]
        rfl
      · rw [Roster.operate, described, found]
        rfl
  | some c =>
      obtain ⟨next, done, nextSound, frame, _, tenants⟩ :=
        change_rows_ok sound genuine type c found change b.entityCount (Nat.le_refl _)
      refine .done (.written true) next ?_ nextSound frame ?_
      · simp only [operate, changed, found, done]
        rfl
      · rw [Roster.operate, described, found]
        simp only [Option.map_some]
        rw [roster_eq nextSound frame _ ?_ fun q => ?_]
        · simpa using roster_fits sound
        · rw [tenants, Roster.tenant_change (roster_fits sound), length_enabled, get_enabled,
            roster_tenant sound]
          by_cases enabled : q < b.entityCount
          · simp only [if_pos enabled, Option.map_some]
          · simp only [if_neg enabled]

theorem operate_follows (operation : Operation) : Follows registry b operation := by
  cases operation with
  | push entity => exact push_follows sound genuine entity
  | swapRemove row => exact swap_remove_follows sound row
  | removeDisabled row => exact remove_disabled_follows sound row
  | disable row => exact disable_follows sound row
  | enable row => exact enable_follows sound row
  | write row id bytes => exact write_follows sound row id bytes
  | assign row value => exact assign_follows sound genuine row value
  | change type change => exact change_follows sound genuine type change

end Typed

end Rows

theorem operate_all_follows (genuine : registry.Genuine) (sound : b.Sound registry)
    (operations : List Operation) :
    (b.operateAll operations).map (fun (answers, last) => (answers, last.roster)) =
        b.roster.operateAll registry b.signature b.capacity operations ∧
      Ensures (fun fault => ∃ operation ∈ operations, operation.Asserts fault)
        (b.operateAll operations) fun (_, last) => last.Sound registry ∧ Framed b last := by
  induction operations generalizing b with
  | nil => exact ⟨rfl, sound, Framed.refl b⟩
  | cons operation rest ih =>
      rw [operateAll, Roster.operateAll]
      cases operate_follows sound genuine operation with
      | stopped fault asserted faulted same =>
          rw [faulted, same]
          exact ⟨rfl, operation, List.mem_cons_self, asserted⟩
      | done answer next finished nextSound frame same =>
          obtain ⟨follows, ends⟩ := ih nextSound
          rw [frame.signature, frame.capacity] at follows
          rw [finished, same]
          simp only [ok_bind]
          rw [← follows]
          cases run : next.operateAll rest with
          | error fault =>
              rw [run] at ends
              obtain ⟨later, member, asserted⟩ := ends
              exact ⟨rfl, later, List.mem_cons_of_mem operation member, asserted⟩
          | ok result =>
              rw [run] at ends
              exact ⟨rfl, ends.1, frame.trans ends.2⟩

-- What a caller reads from a block with the lists of a roster: entity `i` of the disabled list is
-- at row `disabledStart + i`. All bytes beside those of the occupied rows are zero.
structure Shows (b : Block) (r : Roster) : Prop where
  entityCount : b.entityCount = r.enabled.length
  disabledStart : b.disabledStart + r.disabled.length = b.capacity
  entities : b.entities = r.enabled.map Occupant.entity
  disabledEntities : b.disabledEntities = r.disabled.map Occupant.entity
  enabledBytes : ∀ row o, r.enabled[row]? = some o → ∀ id, b.bytesAt? id row = o.components id
  disabledBytes : ∀ i o, r.disabled[i]? = some o →
    ∀ id, b.bytesAt? id (b.disabledStart + i) = o.components id
  zero : ∀ i, (∀ row, b.isOccupied row = true → ∀ s ∈ b.spans,
    i < s.place row ∨ s.place row + s.size ≤ i) → b.payload.get i = 0

theorem bytes_at_occupant (row : Nat) (occupied : b.isOccupied row = true) (id : ComponentId) :
    b.bytesAt? id row = (b.occupant row).components id := by
  rw [bytesAt?, if_pos occupied]
  rfl

theorem zero_outside {first : Block} (sound : b.Sound registry) (frame : Framed first b)
    (zeroed : ∀ i, first.payload.get i = 0) (i : Nat)
    (outside : ∀ row, b.isOccupied row = true → ∀ s ∈ b.spans,
      i < s.place row ∨ s.place row + s.size ≤ i) : b.payload.get i = 0 := by
  by_cases padding : b.Padding i
  · rw [frame.padding i ((frame.padded i).mp padding), zeroed]
  · obtain ⟨s, member, row, inRange, inside⟩ : ∃ s ∈ b.spans, ∃ row < b.capacity,
        ¬ (i < s.place row ∨ s.place row + s.size ≤ i) := by
      simpa only [Padding, not_forall, exists_prop] using padding
    have free : b.side? row = none := by
      rw [← Option.not_isSome_iff_eq_none, ← occupied_iff]
      exact fun occupied => inside (outside row occupied s member)
    have blank := List.map_inj_left.mp (sound.free row inRange free) s member
    have byte := congrArg (fun bytes => bytes[i - s.place row]?) blank
    have place : s.place row + (i - s.place row) = i := by omega
    simp only [Buffer.getElem?_read, if_pos (show i - s.place row < s.size by omega), place,
      List.getElem?_replicate, Option.some.injEq] at byte
    exact byte

theorem shows_roster {first : Block} (sound : b.Sound registry) (frame : Framed first b)
    (zeroed : ∀ i, first.payload.get i = 0) : b.Shows b.roster := by
  have limit := sound.disabled_le
  refine ⟨(length_enabled b).symm, ?_, ?_, ?_, fun row o found id => ?_, fun i o found id => ?_,
    zero_outside sound frame zeroed⟩
  · rw [length_disabled, disabledCount]
    omega
  · simp only [entities, roster, List.map_map]
    rfl
  · simp only [disabledEntities, roster, List.map_map]
    rfl
  · rw [get_enabled] at found
    by_cases enabled : row < b.entityCount
    · rw [if_pos enabled] at found
      rw [bytes_at_occupant row (by rw [occupied_iff, (side_enabled row).mpr enabled]; rfl),
        Option.some.inj found]
    · rw [if_neg enabled] at found
      contradiction
  · rw [get_disabled] at found
    by_cases inside : i < b.disabledCount
    · have side := (side_disabled sound.enabled_le (b.disabledStart + i)).mpr
        ⟨Nat.le_add_right _ _, by unfold disabledCount at inside; omega⟩
      rw [if_pos inside] at found
      rw [bytes_at_occupant _ (by rw [occupied_iff, side]; rfl), Option.some.inj found]
    · rw [if_neg inside] at found
      contradiction

/-- Row operations act on two lists. A history of a block that was made for a generated layout over
zeroed bytes gives the answers that the same history of an empty roster gives, stops where that one
stops, which is at the assertion of an operation, and ends with a block that shows the roster. -/
theorem operate_all_roster (registry : Registry) (genuine : registry.Genuine)
    (signature : Signature) (capacity blockBytes : Nat) (layout : Layout)
    (made : Layout.generate signature registry capacity blockBytes = .ok (.ok layout)) (size : Nat)
    (room : layout.totalBytes ≤ size) :
    ∃ first, create layout (.zeroed size) = .ok first ∧ ∀ operations,
      (first.operateAll operations).map (fun (answers, last) => (answers, last.roster)) =
          Roster.empty.operateAll registry signature capacity operations ∧
        Ensures (fun fault => ∃ operation ∈ operations, operation.Asserts fault)
          (first.operateAll operations) fun (_, last) =>
            last.signature = signature ∧ last.capacity = capacity ∧ last.Shows last.roster := by
  have fitted := Layout.generate_room registry signature capacity blockBytes layout made size room
  obtain ⟨first, created, sound, signed, held, payload, none, start⟩ :=
    create_ok genuine signature capacity size layout fitted (.zeroed size) rfl
  have vacant : first.roster = Roster.empty := by
    simp [roster, Roster.empty, none, disabledCount, start, held]
  have zeroed (i : Nat) : first.payload.get i = 0 := by rw [payload, Buffer.get_zeroed]
  refine ⟨first, created, fun operations => ?_⟩
  obtain ⟨follows, ends⟩ := operate_all_follows genuine sound operations
  rw [vacant, signed, held] at follows
  refine ⟨follows, ensures_mono ends (fun _ stopped => stopped) ?_⟩
  rintro ⟨_, last⟩ ⟨lastSound, frame⟩
  exact ⟨frame.signature.trans signed, frame.capacity.trans held,
    shows_roster lastSound frame zeroed⟩

def pairLayout : Layout := ⟨.ofList [ComponentType.child.id], 2, [⟨16, .ofType .child true⟩], 32⟩

def pairHistory : List Operation :=
  [.push ⟨1, 0⟩, .push ⟨2, 0⟩, .push ⟨3, 0⟩, .disable 0, .enable 1]

theorem pair_history_answers : ∃ first, create pairLayout (.zeroed 64) = .ok first ∧
    (first.operateAll pairHistory).map Prod.fst =
      .ok [.pushed (some 0), .pushed (some 1), .pushed none, .moved ⟨1, some (⟨2, 0⟩, 0)⟩,
        .moved ⟨1, none⟩] := by
  obtain ⟨first, created, runs⟩ := operate_all_roster Registry.builtins Registry.builtins_genuine
    (.ofList [ComponentType.child.id]) 2 64 pairLayout (by decide) 64 (by decide)
  have run := congrArg (Except.map Prod.fst) (runs pairHistory).1
  refine ⟨first, created, Eq.trans ?_ (run.trans rfl)⟩
  cases first.operateAll pairHistory <;> rfl

end EntityStore.Block
