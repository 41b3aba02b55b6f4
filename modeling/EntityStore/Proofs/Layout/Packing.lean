import EntityStore.Proofs.Block.Cells
import EntityStore.Proofs.Layout.Sizes
import EntityStore.Proofs.Signature

set_option autoImplicit false

namespace EntityStore.Layout

open Checked

section Nearest

structure Nearest (start align position : Nat) : Prop where
  after : start ≤ position
  aligned : position % align = 0
  least : ∀ other, start ≤ other → other % align = 0 → position ≤ other

variable {start align position : Nat}

theorem nearest_unique {other : Nat} (one : Nearest start align position) (another : Nearest start align other) :
    position = other :=
  Nat.le_antisymm (one.least other another.after another.aligned)
    (another.least position one.after one.aligned)

theorem nearest_even (even : start % align = 0) : Nearest start align start :=
  ⟨Nat.le_refl start, even, fun _ after _ => after⟩

theorem nearest_uneven (positive : 0 < align) (uneven : start % align ≠ 0) :
    Nearest start align (start + (align - start % align)) := by
  have below : start % align < align := Nat.mod_lt start positive
  have parts : align * (start / align) + start % align = start := Nat.div_add_mod start align
  have whole : start + (align - start % align) = align * (start / align + 1) := by
    rw [Nat.mul_add, Nat.mul_one]
    omega
  rw [whole]
  refine ⟨by rw [← whole]; omega, Nat.mul_mod_right _ _, fun other after multiple => ?_⟩
  have same : align * (other / align) = other := Nat.mul_div_cancel' (Nat.dvd_of_mod_eq_zero multiple)
  have later : start / align < other / align := by
    by_contra early
    have before : align * (other / align) ≤ align * (start / align) :=
      Nat.mul_le_mul_left align (Nat.le_of_not_lt early)
    omega
  exact same ▸ Nat.mul_le_mul_left align later

theorem exists_nearest (start : Nat) (positive : 0 < align) : ∃ position, Nearest start align position := by
  by_cases even : start % align = 0
  · exact ⟨_, nearest_even even⟩
  · exact ⟨_, nearest_uneven positive even⟩

theorem align_up_nearest (positive : 0 < align) (nearest : Nearest start align position)
    (small : position < sizeLimit) : alignUp start align = .ok position := by
  rw [alignUp, if_neg (Nat.ne_of_gt positive)]
  by_cases even : start % align = 0
  · rw [if_pos even, nearest_unique nearest (nearest_even even)]
  · obtain rfl := nearest_unique nearest (nearest_uneven positive even)
    rw [if_neg even, add_ok _ _ small]

theorem nearest_le (positive : 0 < align) (nearest : Nearest start align position) :
    position ≤ start + align := by
  by_cases even : start % align = 0
  · rw [nearest_unique nearest (nearest_even even)]
    exact Nat.le_add_right start align
  · rw [nearest_unique nearest (nearest_uneven positive even)]
    exact Nat.add_le_add_left (Nat.sub_le align _) start

end Nearest

inductive Packed (registry : Registry) (capacity : Nat) :
    Nat → List ComponentId → List Column → Nat → Prop where
  | done (start : Nat) : Packed registry capacity start [] [] start
  | column (start stop : Nat) (id : ComponentId) (ids : List ComponentId) (c : Column)
      (columns : List Column)
      (registered : registry.get? id = some c.descriptor)
      (nearest : Nearest start c.descriptor.align c.offset)
      (packed : Packed registry capacity (c.offset + capacity * c.descriptor.size) ids columns stop) :
      Packed registry capacity start (id :: ids) (c :: columns) stop

def Measurable (registry : Registry) (signature : Signature) (capacity : Nat) : Prop :=
  ∀ ids columns stop, ids <+: signature.ids →
    Packed registry capacity (Entity.width * capacity) ids columns stop → stop < sizeLimit

section Packed

variable {registry : Registry} {capacity start stop : Nat} {ids : List ComponentId} {columns : List Column}

theorem packed_grows (packed : Packed registry capacity start ids columns stop) : start ≤ stop := by
  induction packed with
  | done start => exact Nat.le_refl start
  | column start stop id ids c columns registered nearest packed ih =>
      have after := nearest.after
      omega

theorem exists_packed (aligned : ∀ d ∈ registry.descriptors, 0 < d.align) (capacity start : Nat)
    (registered : ∀ id ∈ ids, ∃ d, registry.get? id = some d) :
    ∃ columns stop, Packed registry capacity start ids columns stop := by
  induction ids generalizing start with
  | nil => exact ⟨[], start, .done start⟩
  | cons id rest ih =>
      obtain ⟨⟨d, found⟩, others⟩ := List.forall_mem_cons.mp registered
      obtain ⟨offset, nearest⟩ := exists_nearest start (aligned d (List.mem_of_getElem? found))
      obtain ⟨columns, stop, packed⟩ := ih (offset + capacity * d.size) others
      exact ⟨_, stop, .column start stop id rest ⟨offset, d⟩ columns found nearest packed⟩

theorem place_columns_packed (aligned : ∀ d ∈ registry.descriptors, 0 < d.align)
    (packed : Packed registry capacity start ids columns stop) (small : stop < sizeLimit)
    (others : List ComponentId) : placeColumns registry capacity start (ids ++ others) =
      (placeColumns registry capacity stop others).map fun placed =>
        placed.map fun (more, total) => (columns ++ more, total) := by
  induction packed with
  | done start =>
      rw [List.nil_append]
      cases placeColumns registry capacity start others with
      | error fault => rfl
      | ok outcome => cases outcome <;> rfl
  | column start stop id ids c columns registered nearest packed ih =>
      have positive := aligned c.descriptor (List.mem_of_getElem? registered)
      have room := packed_grows packed
      have found := (Registry.find_ok registry id c.descriptor).mpr registered
      rw [Nat.mul_comm] at room
      have rest := ih small
      rw [Nat.mul_comm] at rest
      rw [List.cons_append, placeColumns]
      simp only [found, align_up_nearest positive nearest (by omega), ok_bind, rest,
        mul_ok c.descriptor.size capacity (by omega), add_ok c.offset (c.descriptor.size * capacity) (by omega)]
      cases placeColumns registry capacity stop others with
      | error fault => rfl
      | ok outcome => cases outcome <;> rfl

theorem packed_stacked (slots : ∀ id d, registry.get? id = some d → d.id = id)
    (packed : Packed registry capacity start ids columns stop) :
    columns.map (fun c => c.descriptor.id) = ids ∧ Stacked registry capacity start stop columns := by
  induction packed with
  | done start => exact ⟨rfl, by constructor <;> simp⟩
  | column start stop id ids c columns registered nearest packed ih =>
      obtain ⟨listed, stacked⟩ := ih
      have same := slots id c.descriptor registered
      refine ⟨by rw [List.map_cons, listed, same], ?_⟩
      exact stacked_cons registry capacity start stop c columns (same.symm ▸ registered) nearest.aligned
        nearest.after (packed_grows packed) stacked

-- Every gap is smaller than the alignment that asks for it.
theorem packed_demand (aligned : ∀ d ∈ registry.descriptors, 0 < d.align)
    (packed : Packed registry capacity start ids columns stop) :
    stop ≤ start + (ids.map (columnDemand registry capacity)).sum := by
  induction packed with
  | done start => exact Nat.le_refl start
  | column start stop id ids c columns registered nearest packed ih =>
      have bound := nearest_le (aligned c.descriptor (List.mem_of_getElem? registered)) nearest
      rw [List.map_cons, List.sum_cons, columnDemand, registered]
      simp only
      rw [Nat.mul_comm] at ih
      omega

theorem measurable_of_demand (aligned : ∀ d ∈ registry.descriptors, 0 < d.align) (signature : Signature)
    (room : demand registry capacity < sizeLimit) : Measurable registry signature capacity := by
  intro ids columns stop early packed
  have bound := packed_demand aligned packed
  have part : (ids.map (columnDemand registry capacity)).sum ≤
      ((List.finRange 256).map (columnDemand registry capacity)).sum :=
    ((early.sublist.trans List.filter_sublist).map _).sum_le_sum fun _ _ => Nat.zero_le _
  unfold demand at room
  omega

def ends (capacity : Nat) (start : Nat) (columns : List Column) : List Nat :=
  start :: columns.map fun c => c.offset + capacity * c.descriptor.size

theorem packed_ends (packed : Packed registry capacity start ids columns stop) :
    (ends capacity start columns).getLast? = some stop ∧ ∀ (i : Nat) (c : Column), columns[i]? = some c →
      ∃ before, (ends capacity start columns)[i]? = some before ∧
        Nearest before c.descriptor.align c.offset := by
  induction packed with
  | done start => exact ⟨rfl, fun i c found => by simp at found⟩
  | column start stop id ids c columns registered nearest packed ih =>
      obtain ⟨last, each⟩ := ih
      refine ⟨by rw [ends, List.map_cons, List.getLast?_cons_cons]; exact last, fun i d found => ?_⟩
      cases i with
      | zero =>
          obtain rfl := Option.some.inj found
          exact ⟨start, rfl, nearest⟩
      | succ i => exact each i d found

def cells (capacity : Nat) (columns : List Column) : List (Nat × Nat) :=
  columns.flatMap fun c => (List.range capacity).map fun row => (c.span.place row, c.descriptor.size)

theorem stacked_cells (stacked : Stacked registry capacity start stop columns) :
    (cells capacity columns).Pairwise (fun p q => p.1 + p.2 ≤ q.1) ∧
      ∀ p ∈ cells capacity columns, start ≤ p.1 ∧ p.1 + p.2 ≤ stop := by
  refine ⟨List.pairwise_flatMap.mpr ⟨fun c member => ?_, stacked.apart.imp fun {c d} apart => ?_⟩,
    fun p inside => ?_⟩
  · refine List.pairwise_map.mpr (List.pairwise_lt_range.imp fun {first second} before => ?_)
    exact c.span.place_end first second before
  · intro p here q there
    obtain ⟨row, inRange, rfl⟩ := List.mem_map.mp here
    obtain ⟨other, _, rfl⟩ := List.mem_map.mp there
    exact Span.place_spans_apart c.span d.span capacity row other (List.mem_range.mp inRange) apart
  · obtain ⟨c, member, listed⟩ := List.mem_flatMap.mp inside
    obtain ⟨row, inRange, rfl⟩ := List.mem_map.mp listed
    obtain ⟨after, room⟩ := stacked.inside c member
    have bound := c.span.place_end row capacity (List.mem_range.mp inRange)
    exact ⟨Nat.le_trans after (Nat.le_add_right _ _), Nat.le_trans bound room⟩

end Packed

structure Exact (registry : Registry) (signature : Signature) (capacity : Nat) (layout : Layout) : Prop where
  signed : layout.signature = signature
  rows : layout.capacity = capacity
  listed : ∀ id, id ∈ layout.columns.map (fun c => c.descriptor.id) ↔ signature.contains id = true
  ascending : (layout.columns.map fun c => c.descriptor.id).Pairwise (· < ·)
  known : ∀ c ∈ layout.columns, registry.get? c.descriptor.id = some c.descriptor
  nearest : ∀ (i : Nat) (c : Column), layout.columns[i]? = some c → ∃ before,
    (ends capacity (Entity.width * capacity) layout.columns)[i]? = some before ∧
      Nearest before c.descriptor.align c.offset
  total : (ends capacity (Entity.width * capacity) layout.columns).getLast? = some layout.totalBytes
  -- The handles and then the components of all rows lie one behind the other.
  apart : ((0, Entity.width * capacity) :: cells capacity layout.columns).Pairwise fun p q => p.1 + p.2 ≤ q.1
  inside : ∀ p ∈ (0, Entity.width * capacity) :: cells capacity layout.columns, p.1 + p.2 ≤ layout.totalBytes

section Generate

variable {registry : Registry} {signature : Signature} {capacity : Nat}

theorem packed_exact (slots : ∀ id d, registry.get? id = some d → d.id = id) {columns : List Column}
    {total : Nat} (packed : Packed registry capacity (Entity.width * capacity) signature.ids columns total) :
    Exact registry signature capacity ⟨signature, capacity, columns, total⟩ := by
  obtain ⟨listed, stacked⟩ := packed_stacked slots packed
  obtain ⟨last, nearest⟩ := packed_ends packed
  obtain ⟨apart, inside⟩ := stacked_cells stacked
  have room := packed_grows packed
  refine ⟨rfl, rfl, fun id => ?_, ?_, stacked.known, nearest, last, ?_, ?_⟩
  · rw [listed]
    exact signature.mem_ids id
  · rw [listed]
    exact signature.ids_ascend
  · exact List.pairwise_cons.mpr ⟨fun p member => by have after := (inside p member).1; omega, apart⟩
  · exact List.forall_mem_cons.mpr ⟨(Nat.zero_add _).symm ▸ room, fun p member => (inside p member).2⟩

theorem generate_packed (aligned : ∀ d ∈ registry.descriptors, 0 < d.align)
    (measurable : Measurable registry signature capacity) (blockBytes : Nat) {columns : List Column} {total : Nat}
    (packed : Packed registry capacity (Entity.width * capacity) signature.ids columns total) :
    generate signature registry capacity blockBytes = .ok (if blockBytes < total then
      .error (.layoutTooLarge total blockBytes) else .ok ⟨signature, capacity, columns, total⟩) := by
  have small := measurable signature.ids columns total (List.prefix_refl _) packed
  have handles := measurable [] [] _ List.nil_prefix (.done _)
  have placed := place_columns_packed aligned packed small []
  rw [List.append_nil, placeColumns] at placed
  rw [generate, mul_ok _ _ handles, ok_bind, placed]
  simp only [Except.map, List.append_nil, ok_bind]
  split <;> rfl

theorem generate_unregistered (aligned : ∀ d ∈ registry.descriptors, 0 < d.align)
    (measurable : Measurable registry signature capacity) (blockBytes : Nat) {id : ComponentId}
    (wanted : signature.contains id = true) (missing : registry.get? id = none)
    (lowest : ∀ other, signature.contains other = true → registry.get? other = none → id ≤ other) :
    generate signature registry capacity blockBytes = .ok (.error (.unregisteredComponent id)) := by
  obtain ⟨before, after, split⟩ := List.append_of_mem ((signature.mem_ids id).mpr wanted)
  have ascending := signature.ids_ascend
  rw [split] at ascending
  obtain ⟨_, _, apart⟩ := List.pairwise_append.mp ascending
  have registered : ∀ other ∈ before, ∃ d, registry.get? other = some d := by
    intro other early
    refine Option.ne_none_iff_exists'.mp fun gone => ?_
    have listed : other ∈ signature.ids := split ▸ List.mem_append_left _ early
    have bound := lowest other ((signature.mem_ids other).mp listed) gone
    exact absurd (apart other early id List.mem_cons_self) (not_lt.mpr bound)
  obtain ⟨columns, stop, packed⟩ := exists_packed aligned capacity (Entity.width * capacity) registered
  have small := measurable before columns stop ⟨id :: after, split.symm⟩ packed
  have handles := measurable [] [] _ List.nil_prefix (.done _)
  have placed := place_columns_packed aligned packed small (id :: after)
  have refused : registry.find id = .error (.unregisteredComponent id) := by rw [Registry.find, missing]
  rw [← split, placeColumns, refused] at placed
  rw [generate, mul_ok _ _ handles, ok_bind, placed]
  rfl

end Generate

/-- A signature is laid out exactly if all its ids are registered and its layout fits. Otherwise the lowest
id that is not registered is told, or else the number of bytes that the layout takes. -/
theorem generate_exact {registry : Registry} (built : registry.Built)
    (aligned : ∀ d ∈ registry.descriptors, 0 < d.align) (signature : Signature) (capacity blockBytes : Nat)
    (measurable : Measurable registry signature capacity) :
    (∀ id, signature.contains id = true → registry.get? id = none →
      (∀ other, signature.contains other = true → registry.get? other = none → id ≤ other) →
        generate signature registry capacity blockBytes = .ok (.error (.unregisteredComponent id))) ∧
      ((∀ id, signature.contains id = true → registry.get? id ≠ none) →
        ∃ layout, Exact registry signature capacity layout ∧
          generate signature registry capacity blockBytes =
            .ok (if blockBytes < layout.totalBytes then
              .error (.layoutTooLarge layout.totalBytes blockBytes) else .ok layout)) := by
  refine ⟨fun id wanted missing lowest =>
    generate_unregistered aligned measurable blockBytes wanted missing lowest, fun all => ?_⟩
  have registered : ∀ id ∈ signature.ids, ∃ d, registry.get? id = some d := fun id listed =>
    Option.ne_none_iff_exists'.mp (all id ((signature.mem_ids id).mp listed))
  obtain ⟨columns, total, packed⟩ := exists_packed aligned capacity (Entity.width * capacity) registered
  have slots (id : ComponentId) (d : Descriptor) (found : registry.get? id = some d) : d.id = id :=
    Fin.ext (Registry.built_entry registry built id.val d found).id
  exact ⟨⟨signature, capacity, columns, total⟩, packed_exact slots packed,
    generate_packed aligned measurable blockBytes packed⟩

def uneven : Registry :=
  ⟨[{ Descriptor.ofType .transform true with size := 3, align := 2 },
    { Descriptor.ofType .worldTransform true with size := 5, align := 16 }]⟩

theorem uneven_built : uneven.Built := by
  have first := @Registry.Built.insert _ _ { Descriptor.ofType .transform true with size := 3, align := 2 }
    .empty rfl
  exact @Registry.Built.insert _ _ { Descriptor.ofType .worldTransform true with size := 5, align := 16 }
    first rfl

theorem uneven_exact :
    (∃ layout, Exact uneven (.ofList [1, 0]) 3 layout ∧ layout.columns.map Column.offset = [24, 48] ∧
      layout.totalBytes = 63 ∧ generate (.ofList [1, 0]) uneven 3 64 = .ok (.ok layout)) ∧
    generate (.ofList [3, 1, 2]) uneven 3 64 = .ok (.error (.unregisteredComponent 2)) := by
  have aligned : ∀ d ∈ uneven.descriptors, 0 < d.align := by decide
  have measurable (signature : Signature) : Measurable uneven signature 3 :=
    measurable_of_demand aligned signature (by decide +kernel)
  obtain ⟨_, known⟩ := generate_exact uneven_built aligned (.ofList [1, 0]) 3 64 (measurable _)
  obtain ⟨unknown, _⟩ := generate_exact uneven_built aligned (.ofList [3, 1, 2]) 3 64 (measurable _)
  obtain ⟨layout, exact, made⟩ := known (by decide +kernel)
  obtain ⟨columns, computed, offsets⟩ : ∃ columns, generate (.ofList [1, 0]) uneven 3 64 =
      .ok (.ok ⟨.ofList [1, 0], 3, columns, 63⟩) ∧ columns.map Column.offset = [24, 48] := ⟨_, rfl, rfl⟩
  refine ⟨⟨layout, exact, ?_⟩, unknown 2 (by decide +kernel) rfl (by decide +kernel)⟩
  have same := made.symm.trans computed
  by_cases large : 64 < layout.totalBytes
  · simp [large] at same
  · rw [if_neg large] at same
    obtain rfl := Except.ok.inj (Except.ok.inj same)
    exact ⟨offsets, rfl, computed⟩

end EntityStore.Layout
