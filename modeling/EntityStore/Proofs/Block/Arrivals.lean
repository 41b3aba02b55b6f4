import EntityStore.Proofs.Block.Components

set_option autoImplicit false

namespace EntityStore

namespace Registry

def defaults (r : Registry) (signature : Signature) : Components :=
  fun id => if signature.contains id then (r.get? id).map fun d => d.type.initial else none

end Registry

namespace Components

def inherit (own old : Components) : Components :=
  fun id => (own id).map fun bytes => (old id).getD bytes

end Components

namespace Block

open Checked

variable {registry : Registry} {b : Block}

theorem create_ok (genuine : registry.Genuine) (signature : Signature) (capacity blockBytes : Nat)
    (layout : Layout) (made : Layout.generate signature registry capacity blockBytes = .ok (.ok layout))
    (payload : Buffer) (zero : payload = .zeroed blockBytes) :
    ∃ b, create layout payload = .ok b ∧ b.Sound registry ∧ b.signature = signature ∧
      b.capacity = capacity ∧ b.payload = payload ∧ b.entityCount = 0 ∧
      b.disabledStart = capacity := by
  obtain ⟨rfl, rfl, fits, laid⟩ :=
    Layout.generate_laid registry genuine signature capacity blockBytes layout made
  have size : payload.size = blockBytes := by rw [zero, Buffer.size_zeroed]
  refine ⟨_, by rw [create, if_neg (by omega)], ⟨?_, Nat.zero_le _, Nat.le_refl _, ?_⟩, rfl, rfl, rfl,
    rfl, rfl⟩
  · rw [← size] at laid
    exact laid
  · intro row _ _
    apply List.map_congr_left
    intro s _
    rw [zero]
    exact Buffer.read_zeroed blockBytes (s.place row) s.size

theorem new_row_ok (genuine : registry.Genuine) (laid : b.Laid registry) (e : Entity) :
    (b.columns.mapM fun c => c.descriptor.initial) =
        .ok (b.columns.map fun c => c.descriptor.type.initial) ∧
      b.Fit (e.bytes :: b.columns.map fun c => c.descriptor.type.initial) := by
  refine ⟨mapM_ok _ _ _ fun c member => Registry.initial_ok (entry_of_column genuine laid c member),
    ?_⟩
  have lengths : ∀ c ∈ b.columns, c.descriptor.type.initial.length = c.span.size :=
    fun c member => Registry.initial_length (entry_of_column genuine laid c member)
  simpa [Fit, spans, Function.comp_def, entitySpan] using lengths

theorem new_row_tenant {next : Block} (laid : b.Laid registry) (frame : Framed b next) (e : Entity) {row : Nat}
    (arrived : next.side? row = some true)
    (written : next.cellsAt row = e.bytes :: next.columns.map fun c => c.descriptor.type.initial) :
    next.tenant? row = some ⟨e, true, registry.defaults b.signature⟩ := by
  obtain ⟨entity, content⟩ := row_cells next row _ _ written
  have handle : next.entitySlot row = e := entity.trans (Entity.ofBytes_bytes e)
  have components : next.componentsAt row = registry.defaults b.signature := by
    funext id
    rw [componentsAt, frame.column, Registry.defaults, ← column_some_iff laid]
    cases found : b.column? id with
    | none => rfl
    | some c =>
        obtain ⟨member, known⟩ := column_member id c found
        have get := laid.known c member
        rw [known] at get
        rw [Option.map_some, Option.isSome_some, if_pos rfl, get, Option.map_some]
        exact congrArg some (content c (frame.columns ▸ member))
  rw [tenant_some _ _ arrived, handle, components]

theorem push_ok (genuine : registry.Genuine) (sound : b.Sound registry)
    (space : b.entityCount < b.disabledStart) (e : Entity) :
    ∃ next, b.push e = .ok (some (b.entityCount, next)) ∧ next.Sound registry ∧ Framed b next ∧
      next.occupied = b.occupied + 1 ∧ next.entityCount = b.entityCount + 1 ∧
      next.disabledStart = b.disabledStart ∧ ∀ q, next.tenant? q =
        if q = b.entityCount then some ⟨e, true, registry.defaults b.signature⟩
        else b.tenant? q := by
  have limit := sound.disabled_le
  have inRange : b.entityCount < b.capacity := by omega
  obtain ⟨defaults, fit⟩ := new_row_ok genuine sound.laid e
  obtain ⟨middle, wrote, rows⟩ := write_row_ok sound.laid b.entityCount inRange _ fit
  let next : Block := { middle with entityCount := b.entityCount + 1 }
  have same : next =
    { middle with entityCount := b.entityCount + 1, disabledStart := b.disabledStart } := by
    rw [← rows.disabledStart]
  have frame : Framed b next := { rows.toFramed with }
  have others (q : Nat) (away : q ≠ b.entityCount) : next.side? q = b.side? q := by
    have lower : q < b.entityCount + 1 ↔ q < b.entityCount := by omega
    simp only [same, side?, lower, rows.capacity]
  have arrived : next.side? b.entityCount = some true :=
    (side_enabled _).mpr (Nat.lt_succ_self b.entityCount)
  have cells (q : Nat) (bound : q < b.capacity) := rows.rows q bound
  refine ⟨next, ?_, ⟨frame.laid sound.laid, ?_, ?_, fun q bound free => ?_⟩, frame, ?_, rfl,
    rows.disabledStart, fun q => ?_⟩
  · simp only [push, hasSpace, space, decide_true, if_true, defaults, wrote, ok_bind, pure_eq_ok]
    rfl
  · simp only [same]
    omega
  · simp only [same, rows.capacity]
    exact limit
  · rw [frame.capacity] at bound
    have away : q ≠ b.entityCount := fun hit => by simp [hit, arrived] at free
    have kept := cells q bound
    rw [if_neg away] at kept
    rw [frame.blank, ← sound.free q bound ((others q away).symm.trans free)]
    exact kept
  · simp only [occupied, disabledCount, same, rows.capacity]
    omega
  · by_cases here : q = b.entityCount
    · have written := cells b.entityCount inRange
      rw [if_pos rfl, ← rows.columns] at written
      rw [if_pos here, here]
      exact new_row_tenant sound.laid frame e arrived written
    · rw [if_neg here]
      by_cases bound : q < b.capacity
      · have kept := cells q bound
        rw [if_neg here] at kept
        exact tenant_kept frame q q kept (others q here)
      · have beyond := side_beyond sound q (Nat.le_of_not_lt bound)
        rw [tenant_none q beyond, tenant_none q ((others q here).trans beyond)]

theorem locate_ok (laid : b.Laid registry) (s : Span) (member : s ∈ b.spans) (row : Nat)
    (inRange : row < b.capacity) : s.locate row = .ok (s.place row) := by
  have small := laid.small s member
  have stop := Span.place_end s row b.capacity inRange
  unfold Span.place at stop
  have before : row * s.size < sizeLimit := by omega
  have start : s.offset + row * s.size < sizeLimit := by omega
  have ending : s.offset + row * s.size + s.size < sizeLimit := by omega
  simp only [Span.locate, mul_ok _ _ before, add_ok _ _ start, add_ok _ _ ending, ok_bind]
  rfl

theorem copy_column_ok (source : Block) (laid : b.Laid registry) (sourceLaid : source.Laid registry)
    (row sourceRow : Nat) (inRange : row < b.capacity) (fromRange : sourceRow < source.capacity)
    (c : Column) (member : c ∈ b.columns) :
    ∃ next, copyColumn row source sourceRow b c = .ok next ∧
      Rewrites b next row (Function.update (b.componentsAt row) c.descriptor.id
        (some ((source.componentsAt sourceRow c.descriptor.id).getD (b.cell c row)))) := by
  unfold copyColumn
  rw [componentsAt]
  cases found : source.column? c.descriptor.id with
  | none =>
      have own : b.componentsAt row c.descriptor.id = some (b.cell c row) := by
        rw [componentsAt, column_of_member laid c member, Option.map_some]
      have unchanged := Rewrites.refl b row
      refine ⟨b, rfl, ?_⟩
      rw [Option.map_none, Option.getD_none, ← own, Function.update_eq_self]
      exact unchanged
  | some d =>
      obtain ⟨dMember, same⟩ := column_member _ d found
      have descriptor : d.descriptor = c.descriptor := by
        have known := sourceLaid.known d dMember
        rw [same, laid.known c member] at known
        exact (Option.some.inj known).symm
      have inside := laid.inside c.span (span_member c member)
      have stop := Span.place_end c.span row b.capacity inRange
      have sourceInside := sourceLaid.inside d.span (span_member d dMember)
      have sourceStop := Span.place_end d.span sourceRow source.capacity fromRange
      have length : (source.cell d sourceRow).length = c.descriptor.size := by
        rw [cell, Buffer.length_read, Column.span, descriptor]
      refine ⟨_, ?_, overwrite_rewrites laid c member row inRange _ length⟩
      simp only [locate_ok laid c.span (span_member c member) row inRange, ok_bind,
        locate_ok sourceLaid d.span (span_member d dMember) sourceRow fromRange,
        Buffer.check_span_ok b.payload _ _ (Nat.le_trans stop inside),
        Buffer.slice_ok source.payload _ _ (Nat.le_trans sourceStop sourceInside)]
      exact write_cell_ok laid c member row inRange _ length

-- Columns are copied one after the other; a column that is met again gets the same bytes again.
theorem copy_columns_ok (source : Block) (sourceLaid : source.Laid registry) (row sourceRow : Nat)
    (fromRange : sourceRow < source.capacity) (columns : List Column) (b : Block)
    (laid : b.Laid registry) (inRange : row < b.capacity) (members : ∀ c ∈ columns, c ∈ b.columns) :
    ∃ next, (Progress.run (copyColumn row source sourceRow) b columns).finished = .ok next ∧
      Rewrites b next row fun id =>
        if id ∈ columns.map (fun c => c.descriptor.id) then
          (b.componentsAt row).inherit (source.componentsAt sourceRow) id
        else b.componentsAt row id := by
  induction columns generalizing b with
  | nil =>
      refine ⟨b, rfl, ?_⟩
      simpa using Rewrites.refl b row
  | cons c rest ih =>
      have member := members c List.mem_cons_self
      obtain ⟨middle, copied, first⟩ := copy_column_ok source laid sourceLaid row sourceRow inRange
        fromRange c member
      obtain ⟨next, done, others⟩ := ih middle (first.laid laid) (first.capacity ▸ inRange)
        fun d later => first.columns ▸ members d (List.mem_cons_of_mem c later)
      refine ⟨next, ?_, ?_⟩
      · rw [Progress.run, copied]
        exact done
      · have whole := first.trans others
        refine { whole with components := whole.components.trans ?_ }
        have own : b.componentsAt row c.descriptor.id = some (b.cell c row) := by
          rw [componentsAt, column_of_member laid c member, Option.map_some]
        funext id
        rw [first.components]
        simp only [Components.inherit, List.map_cons, List.mem_cons]
        by_cases here : id = c.descriptor.id
        · subst here
          simp only [Function.update_self, own, true_or, if_true, Option.map_some]
          cases source.componentsAt sourceRow c.descriptor.id <;> simp
        · simp only [Function.update_of_ne here, here, false_or]

theorem copy_shared_ok (source : Block) (sourceLaid : source.Laid registry) (row sourceRow : Nat)
    (fromRange : sourceRow < source.capacity) (laid : b.Laid registry) (inRange : row < b.capacity) :
    ∃ next, (b.copySharedFrom row source sourceRow).finished = .ok next ∧
      Rewrites b next row ((b.componentsAt row).inherit (source.componentsAt sourceRow)) := by
  obtain ⟨next, done, change⟩ := copy_columns_ok source sourceLaid row sourceRow fromRange b.columns b
    laid inRange fun _ member => member
  refine ⟨next, done, { change with components := change.components.trans ?_ }⟩
  funext id
  rw [laid.listed]
  by_cases present : id ∈ b.signature.ids
  · rw [if_pos present]
  · have absent : b.componentsAt row id = none := by
      rw [Signature.mem_ids, ← components_some_iff laid row] at present
      exact Option.not_isSome_iff_eq_none.mp present
    rw [if_neg present, Components.inherit, absent, Option.map_none]

end Block

end EntityStore
