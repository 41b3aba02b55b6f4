import EntityStore.Proofs.Directory

set_option autoImplicit false

namespace EntityStore

namespace Directory

variable {d : Directory}

def residents (d : Directory) : List Entity :=
  (d.records.toList.filter Record.isAlive).map Record.entity

theorem length_residents (sound : d.Sound) : d.residents.length = d.alive := by
  rw [residents, List.length_map, ← List.countP_eq_length_filter, Array.countP_toList, sound.counted]

theorem indices_eq (sound : d.Sound) :
    d.records.toList.map (fun r => r.entity.index.toNat) = List.range d.size := by
  refine List.ext_getElem (by simp [size]) fun index inside _ => ?_
  rw [List.length_map, Array.length_toList] at inside
  have record := Array.getElem?_eq_getElem inside
  rw [List.getElem_map, List.getElem_range, Array.getElem_toList]
  exact (sound.valid index _ record).own

theorem nodup_residents (sound : d.Sound) : d.residents.Nodup := by
  have indices : (d.records.toList.map fun r => r.entity.index.toNat).Nodup := by
    rw [indices_eq sound]
    exact List.nodup_range
  have some := indices.sublist (List.filter_sublist.map _ : ((d.records.toList.filter Record.isAlive).map
    fun r => r.entity.index.toNat).Sublist _)
  refine List.Nodup.of_map (fun e : Entity => e.index.toNat) ?_
  rw [residents, List.map_map]
  exact some

theorem location_of_record (sound : d.Sound) (index : Nat) (r : Record) (id : BlockId)
    (record : d.records[index]? = some r) (block : r.block = some id) :
    d.location? r.entity = some ⟨id, r.row.toNat, r.enabled⟩ := by
  have valid := sound.valid index r record
  have live : r.isAlive = true := (Record.alive_iff r).mpr ⟨id, block⟩
  rw [location?, valid.own, record, Option.bind_some, Record.locationOf, if_pos (valid.current live).symm,
    block]
  rfl

theorem mem_residents (sound : d.Sound) (e : Entity) :
    e ∈ d.residents ↔ ∃ l, d.location? e = some l := by
  rw [residents, List.mem_map]
  constructor
  · rintro ⟨r, member, rfl⟩
    obtain ⟨listed, live⟩ := List.mem_filter.mp member
    obtain ⟨index, record⟩ := List.mem_iff_getElem?.mp listed
    rw [Array.getElem?_toList] at record
    obtain ⟨id, block⟩ := (Record.alive_iff r).mp live
    exact ⟨_, location_of_record sound index r id record block⟩
  · rintro ⟨l, found⟩
    obtain ⟨r, record, _, block, _⟩ := record_of_location e l found
    refine ⟨r, List.mem_filter.mpr ⟨?_, (Record.alive_iff r).mpr ⟨_, block⟩⟩,
      entity_of_location sound e l found r record⟩
    rw [← Array.getElem?_toList] at record
    exact List.mem_of_getElem? record

theorem handles_eq (sound : d.Sound) : d.handles = d.residents := by
  have same : d.handles = d.records.toList.zipIdx.filterMap
      ((fun r => if r.isAlive then some r.entity else none) ∘ Prod.fst) := by
    refine List.filterMap_congr fun entry member => ?_
    obtain ⟨r, i⟩ := entry
    have record := List.mem_zipIdx_iff_getElem?.mp member
    rw [Array.getElem?_toList] at record
    have valid := sound.valid i r record
    by_cases live : r.isAlive = true
    · have index : UInt32.ofNat i = r.entity.index := by
        rw [← valid.own, UInt32.ofNat_toNat]
      simp [live, index, ← valid.current live]
    · simp [live]
  rw [same, ← List.filterMap_map, List.zipIdx_map_fst, residents]
  induction d.records.toList with
  | nil => rfl
  | cons r rest ih => cases live : r.isAlive <;> simp [live, ih]

theorem nodup_handles (sound : d.Sound) : d.handles.Nodup := by
  rw [handles_eq sound]
  exact nodup_residents sound

theorem mem_handles (sound : d.Sound) (e : Entity) : e ∈ d.handles ↔ d.isAlive e = true := by
  rw [handles_eq sound, mem_residents sound, alive_eq, Option.isSome_iff_exists]

end Directory

end EntityStore
