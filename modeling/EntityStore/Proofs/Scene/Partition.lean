import EntityStore.Proofs.Directory.Residents
import EntityStore.Proofs.Scene.Capacity
import Mathlib.Algebra.GroupWithZero.Nat

set_option autoImplicit false

namespace EntityStore

namespace Block

variable {registry : Registry} {b : Block}

theorem mem_occupied_rows (sound : b.Sound registry) (row : Nat) :
    row ∈ b.occupiedRows ↔ b.side? row ≠ none := by
  rw [occupiedRows, List.mem_filter, List.mem_range, occupied_iff]
  constructor
  · rintro ⟨_, some⟩
    exact Option.isSome_iff_ne_none.mp some
  · intro some
    obtain ⟨enabled, side⟩ := Option.ne_none_iff_exists'.mp some
    exact ⟨side_in_range sound row enabled side, by rw [side]; rfl⟩

theorem length_occupied_rows (sound : b.Sound registry) : b.occupiedRows.length = b.occupied := by
  have ordered := sound.enabled_le
  have bounded := sound.disabled_le
  have distinct : b.occupiedRows.Nodup := List.nodup_range.filter _
  have parts : (List.range b.entityCount ++ List.range' b.disabledStart b.disabledCount).Nodup := by
    refine List.nodup_append.mpr ⟨List.nodup_range, List.nodup_range', ?_⟩
    intro row enabled other disabled same
    rw [List.mem_range] at enabled
    rw [List.mem_range'_1] at disabled
    omega
  -- The occupied rows are the two sides, each counted by its length.
  have perm := (List.perm_ext_iff_of_nodup distinct parts).mpr fun row => by
    rw [mem_occupied_rows sound, List.mem_append, List.mem_range, List.mem_range'_1, ne_eq, side_none,
      disabledCount]
    omega
  rw [perm.length_eq, List.length_append, List.length_range, List.length_range', occupied]

end Block

namespace Store

variable {s : Store}

def spots (s : Store) : List Spot :=
  s.blocks.flatMap fun p => p.2.occupiedRows.map fun row => (p.1, row)

theorem mem_blocks (s : Store) (id : BlockId) (b : Block) : (id, b) ∈ s.blocks ↔ s.block? id = some b :=
  s.pool.mem_entries id b

theorem mem_spots {registry : Registry} (sound : s.Sound registry) (spot : Spot) : spot ∈ s.spots ↔ ∃ t, s.tenant? spot = some t := by
  rw [spots, List.mem_flatMap]
  constructor
  · rintro ⟨⟨id, b⟩, listed, member⟩
    obtain ⟨row, occupied, rfl⟩ := List.mem_map.mp member
    have found := (mem_blocks s id b).mp listed
    have some := (Block.mem_occupied_rows (sound.keeps id b found).sound row).mp occupied
    obtain ⟨enabled, side⟩ := Option.ne_none_iff_exists'.mp some
    exact ⟨_, (tenant_eq found row).trans (Block.tenant_some row enabled side)⟩
  · rintro ⟨t, held⟩
    obtain ⟨b, found, tenant⟩ := Option.bind_eq_some_iff.mp held
    obtain ⟨side, _⟩ := Block.tenant_side spot.2 t tenant
    exact ⟨(spot.1, b), (mem_blocks s spot.1 b).mpr found, List.mem_map.mpr ⟨spot.2,
      (Block.mem_occupied_rows (sound.keeps spot.1 b found).sound spot.2).mpr (by simp [side]), rfl⟩⟩

theorem nodup_spots (s : Store) : s.spots.Nodup := by
  refine List.nodup_flatMap.mpr ⟨fun p _ => ?_, ?_⟩
  · exact (List.nodup_range.filter _).map fun _ _ same => (Prod.mk.inj same).2
  · refine s.pool.entries_ascend.imp fun {p q} before => ?_
    intro spot inFirst inSecond
    obtain ⟨_, _, rfl⟩ := List.mem_map.mp inFirst
    obtain ⟨_, _, same⟩ := List.mem_map.mp inSecond
    exact Nat.ne_of_gt before (Prod.mk.inj same).1

theorem length_spots {registry : Registry} (sound : s.Sound registry) :
    s.spots.length = (s.blocks.map fun p => p.2.occupied).sum := by
  rw [spots, List.length_flatMap]
  refine congrArg List.sum (List.map_congr_left fun p listed => ?_)
  have found := (mem_blocks s p.1 p.2).mp listed
  rw [List.length_map, Block.length_occupied_rows (sound.keeps p.1 p.2 found).sound]

end Store

namespace Scene

open Checked

variable {s : Scene}

structure Partitioned (s : Scene) : Prop where
  -- A live record names the row that holds its handle, on the side that it notes.
  recorded : ∀ index (r : Record) id, s.directory.records[index]? = some r → r.block = some id →
    r.entity.index.toNat = index ∧ r.entity.generation = r.generation ∧
      ∃ b, s.store.block? id = some b ∧ r.row.toNat < b.capacity ∧ b.entitySlot r.row.toNat = r.entity ∧
        (r.row.toNat < b.entityCount ↔ r.enabled = true) ∧ (b.disabledStart ≤ r.row.toNat ↔ r.enabled = false)
  -- An occupied row holds the handle of a live record that names this row.
  housed : ∀ id b row, s.store.block? id = some b → b.isOccupied row = true →
    s.isAlive (b.entitySlot row) = true ∧
      ∃ r, s.directory.records[(b.entitySlot row).index.toNat]? = some r ∧
        r.entity = b.entitySlot row ∧ r.block = some id ∧ r.row.toNat = row
  ordered : ∀ id b, s.store.block? id = some b →
    b.entityCount ≤ b.disabledStart ∧ b.disabledStart ≤ b.capacity
  zero : ∀ id b row, s.store.block? id = some b → b.entityCount ≤ row → row < b.disabledStart →
    ∀ span ∈ b.spans, ∀ i, span.place row ≤ i → i < span.place row + span.size → b.payload.get i = 0
  inhabited : ∀ id b, s.store.block? id = some b → b.readEmpty = .ok false
  counted : ((s.store.blocks.map Prod.snd).mapM Block.readOccupied).map List.sum = .ok s.entityCount

theorem recorded_ok (sound : s.Sound) (index : Nat) (r : Record) (id : BlockId)
    (record : s.directory.records[index]? = some r) (block : r.block = some id) :
    r.entity.index.toNat = index ∧ r.entity.generation = r.generation ∧
      ∃ b, s.store.block? id = some b ∧ r.row.toNat < b.capacity ∧ b.entitySlot r.row.toNat = r.entity ∧
        (r.row.toNat < b.entityCount ↔ r.enabled = true) ∧ (b.disabledStart ≤ r.row.toNat ↔ r.enabled = false) := by
  have valid := sound.directory.valid index r record
  have found := Directory.location_of_record sound.directory index r id record block
  obtain ⟨b, t, home⟩ := home_of sound found
  have side : b.side? r.row.toNat = some r.enabled := home.side
  have inRange := Block.side_in_range home.keeps.sound r.row.toNat r.enabled side
  have ordered := home.keeps.sound.enabled_le
  obtain ⟨_, name, _⟩ := Block.tenant_side r.row.toNat t home.tenant
  refine ⟨valid.own, valid.current ((Record.alive_iff r).mpr ⟨id, block⟩), b, home.block, inRange,
    name.symm.trans home.entity, ?_, ?_⟩
  · rw [← Block.side_enabled, side, Option.some.injEq]
  · have disabled := Block.side_disabled ordered r.row.toNat
    rw [side, Option.some.injEq] at disabled
    rw [disabled]
    exact ⟨fun behind => ⟨behind, inRange⟩, fun both => both.1⟩

theorem housed_ok (sound : s.Sound) (id : BlockId) (b : Block) (row : Nat)
    (found : s.store.block? id = some b) (occupied : b.isOccupied row = true) :
    s.isAlive (b.entitySlot row) = true ∧
      ∃ r, s.directory.records[(b.entitySlot row).index.toNat]? = some r ∧
        r.entity = b.entitySlot row ∧ r.block = some id ∧ r.row.toNat = row := by
  rw [Block.occupied_iff] at occupied
  obtain ⟨enabled, side⟩ := Option.isSome_iff_exists.mp occupied
  have held := (Store.tenant_eq found row).trans (Block.tenant_some row enabled side)
  have located := sound.matched.known (id, row) _ held
  obtain ⟨r, record, _, block, place, _⟩ := Directory.record_of_location _ _ located
  exact ⟨(alive_iff s _).mpr ⟨_, located⟩, r, record,
    Directory.entity_of_location sound.directory _ _ located r record, block, place⟩

theorem zero_ok (sound : s.Sound) (id : BlockId) (b : Block) (row : Nat)
    (found : s.store.block? id = some b) (after : b.entityCount ≤ row) (before : row < b.disabledStart)
    (span : Span) (member : span ∈ b.spans) (i : Nat) (first : span.place row ≤ i)
    (last : i < span.place row + span.size) : b.payload.get i = 0 := by
  have kept := (sound.store.keeps id b found).sound
  have bounded := kept.disabled_le
  have free := kept.free row (by omega) ((Block.side_none row).mpr ⟨by omega, by omega⟩)
  have cell : b.payload.read (span.place row) span.size = List.replicate span.size 0 :=
    (List.map_inj_left.mp free) span member
  have byte := Buffer.getElem?_read b.payload (span.place row) span.size (i - span.place row)
  rw [cell, if_pos (by omega), List.getElem?_replicate, if_pos (by omega),
    show span.place row + (i - span.place row) = i by omega] at byte
  exact (Option.some.inj byte).symm

theorem counted_ok (sound : s.Sound) :
    ((s.store.blocks.map Prod.snd).mapM Block.readOccupied).map List.sum = .ok s.entityCount := by
  have read : (s.store.blocks.map Prod.snd).mapM Block.readOccupied =
      .ok ((s.store.blocks.map Prod.snd).map Block.occupied) := by
    refine mapM_ok _ _ _ fun b listed => ?_
    obtain ⟨p, member, rfl⟩ := List.mem_map.mp listed
    exact (sound.store.keeps p.1 p.2 ((Store.mem_blocks s.store p.1 p.2).mp member)).sound.shaped.read_occupied
  -- Both sides count the same handles: the records' and those in the occupied rows.
  let holder (spot : Spot) : Entity := ((s.store.tenant? spot).map Tenant.entity).getD .invalid
  have held {spot : Spot} {t : Tenant} (tenant : s.store.tenant? spot = some t) :
      holder spot = t.entity := by
    simp only [holder, tenant, Option.map_some, Option.getD_some]
  have distinct : (s.store.spots.map holder).Nodup := by
    refine List.Nodup.map_on (fun spot listed other listedToo same => ?_) s.store.nodup_spots
    obtain ⟨t, tenant⟩ := (Store.mem_spots sound.store spot).mp listed
    obtain ⟨t', tenant'⟩ := (Store.mem_spots sound.store other).mp listedToo
    rw [held tenant, held tenant'] at same
    exact Housing.spot_unique sound.matched t' tenant tenant' same
  have same : s.directory.residents.Perm (s.store.spots.map holder) := by
    refine (List.perm_ext_iff_of_nodup (Directory.nodup_residents sound.directory) distinct).mpr fun e => ?_
    rw [Directory.mem_residents sound.directory, List.mem_map]
    constructor
    · rintro ⟨l, found⟩
      obtain ⟨b, t, home⟩ := home_of sound found
      have tenant : s.store.tenant? l.spot = some t := home.held
      exact ⟨l.spot, (Store.mem_spots sound.store l.spot).mpr ⟨t, tenant⟩, (held tenant).trans home.entity⟩
    · rintro ⟨spot, listed, rfl⟩
      obtain ⟨t, tenant⟩ := (Store.mem_spots sound.store spot).mp listed
      rw [held tenant]
      exact ⟨_, sound.matched.known spot t tenant⟩
  rw [read, ok_map, List.map_map, entityCount, ← Directory.length_residents sound.directory, same.length_eq,
    List.length_map, Store.length_spots sound.store]
  rfl

theorem partitioned_of_sound (sound : s.Sound) : s.Partitioned where
  recorded := recorded_ok sound
  housed := housed_ok sound
  ordered id b found :=
    have kept := (sound.store.keeps id b found).sound
    ⟨kept.enabled_le, kept.disabled_le⟩
  zero := zero_ok sound
  inhabited id b found := by
    rw [(sound.store.keeps id b found).sound.shaped.read_empty, decide_eq_false (sound.inhabited id b found)]
  counted := counted_ok sound

/-- Every history of a new scene ends in a scene whose directory and blocks hold the same entities. -/
theorem run_partitioned (name : String) (settings : Settings) (registry : Registry)
    (valid : settings.validate = .ok ()) (genuine : registry.Genuine) :
    ∃ first, create name settings registry = .ok (.ok first) ∧ ∀ commands,
      Ensures (fun fault =>
          (fault = .indexSpaceExhausted ∨ fault = .sumOverflow) ∧ 0xffffffff ≤ commands.length ∨
          ∃ signature, Layout.generate signature registry settings.blockCapacity settings.blockBytes =
            .error fault)
        (first.performAll commands) fun (_, last) => last.Partitioned := by
  obtain ⟨first, made, blank⟩ := create_ok name settings registry valid genuine
  exact ⟨first, made, fun commands => ensures_mono (perform_all_ok blank.sound commands)
    (fun _ halts => blank.halts halts) fun _ sound => partitioned_of_sound sound⟩

theorem run_partitioned_default : ∃ first, create "world" {} .builtins = .ok (.ok first) ∧ ∀ commands,
    Ensures (fun fault =>
        (fault = .indexSpaceExhausted ∨ fault = .sumOverflow) ∧ 0xffffffff ≤ commands.length ∨
        ∃ signature, Layout.generate signature .builtins 128 32768 = .error fault)
      (first.performAll commands) fun (_, last) => last.Partitioned :=
  run_partitioned "world" {} .builtins (by decide) Registry.builtins_genuine

end Scene

end EntityStore
