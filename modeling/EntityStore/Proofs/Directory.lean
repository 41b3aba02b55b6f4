import EntityStore.Directory
import EntityStore.Proofs.Checked
import Mathlib.Data.List.Nodup
import Mathlib.Logic.Function.Basic

set_option autoImplicit false

namespace EntityStore

namespace Record

def locationOf (r : Record) (e : Entity) : Option Location :=
  if r.generation = e.generation then r.block.map fun block => ⟨block, r.row.toNat, r.enabled⟩ else none

-- The generation of an index after an entity that had it has died.
def nextGeneration (generation : UInt32) : UInt32 :=
  if generation + 1 = 0 then 1 else generation + 1

theorem next_generation_ne_zero (generation : UInt32) : nextGeneration generation ≠ 0 := by
  unfold nextGeneration
  by_cases wrapped : generation + 1 = 0
  · rw [if_pos wrapped]
    decide
  · rw [if_neg wrapped]
    exact wrapped

theorem alive_iff (r : Record) : r.isAlive = true ↔ ∃ block, r.block = some block :=
  Option.isSome_iff_exists

theorem dead_iff (r : Record) : r.isAlive = false ↔ r.block = none := by
  simp [isAlive]

theorem location_of_dead (r : Record) (dead : r.block = none) (e : Entity) : r.locationOf e = none := by
  simp [locationOf, dead]

theorem location_of_other (r : Record) (e : Entity) (other : r.generation ≠ e.generation) :
    r.locationOf e = none := if_neg other

end Record

namespace Entity

theorem generation_ne (e f : Entity) (index : f.index = e.index) (different : f ≠ e) :
    e.generation ≠ f.generation := by
  intro same
  apply different
  cases e
  cases f
  simp_all

end Entity

namespace Directory

open Checked

def location? (d : Directory) (e : Entity) : Option Location :=
  (d.records[e.index.toNat]?).bind fun r => r.locationOf e

def slot? (d : Directory) (index : Nat) : Option (UInt32 × Bool) :=
  (d.records[index]?).map fun r => (r.generation, r.isAlive)

structure Valid (index : Nat) (r : Record) : Prop where
  own : r.entity.index.toNat = index
  born : r.generation ≠ 0
  current : r.isAlive = true → r.entity.generation = r.generation

structure Sound (d : Directory) : Prop where
  bounded : d.size ≤ 0xffffffff
  valid : ∀ index r, d.records[index]? = some r → Valid index r
  free_nodup : d.free.Nodup
  free_dead : ∀ index ∈ d.free, ∃ r, d.records[index.toNat]? = some r ∧ r.isAlive = false
  counted : d.alive = d.records.countP Record.isAlive

variable {d : Directory}

theorem locate_eq (d : Directory) (e : Entity) :
    d.locate e = match d.location? e with
      | some location => .ok location
      | none => .error (.staleEntity e) := by
  unfold locate get? location?
  cases d.records[e.index.toNat]? with
  | none => rfl
  | some r =>
      by_cases same : r.generation = e.generation
      · cases block : r.block with
        | none => simp [Option.filter_some, Record.isOf, Record.isAlive, Record.locationOf, same, block]
        | some held => simp [Option.filter_some, Record.isOf, Record.isAlive, Record.locationOf, same, block]
      · simp [Option.filter_some, Record.isOf, Record.locationOf, same]

theorem alive_eq (d : Directory) (e : Entity) : d.isAlive e = (d.location? e).isSome := by
  unfold isAlive get? location?
  cases d.records[e.index.toNat]? with
  | none => rfl
  | some r =>
      by_cases same : r.generation = e.generation
      · cases block : r.block with
        | none => simp [Option.filter_some, Record.isOf, Record.isAlive, Record.locationOf, same, block]
        | some held => simp [Option.filter_some, Record.isOf, Record.isAlive, Record.locationOf, same, block]
      · simp [Option.filter_some, Record.isOf, Record.locationOf, same]

theorem locate_spot_eq (d : Directory) (e : Entity) :
    d.locate? e = (d.location? e).map fun l => (l.block, l.row) := by
  unfold locate? get? location?
  cases d.records[e.index.toNat]? with
  | none => rfl
  | some r =>
      by_cases same : r.generation = e.generation
      · cases block : r.block with
        | none => simp [Option.filter_some, Record.isOf, Record.isAlive, Record.locationOf, same, block]
        | some held => simp [Option.filter_some, Record.isOf, Record.isAlive, Record.locationOf, same, block]
      · simp [Option.filter_some, Record.isOf, Record.locationOf, same]

theorem slot_some_iff (index : Nat) (generation : UInt32) (live : Bool) :
    d.slot? index = some (generation, live) ↔
      ∃ r, d.records[index]? = some r ∧ r.generation = generation ∧ r.isAlive = live := by
  simp [slot?]

theorem alive_slot (d : Directory) (e : Entity) :
    d.isAlive e = true ↔ d.slot? e.index.toNat = some (e.generation, true) := by
  unfold isAlive get?
  rw [slot_some_iff, Option.isSome_filter]
  cases d.records[e.index.toNat]? with
  | none => simp
  | some r => simp [Record.isOf, and_comm]

theorem record_of_location (e : Entity) (location : Location) (found : d.location? e = some location) :
    ∃ r, d.records[e.index.toNat]? = some r ∧ r.generation = e.generation ∧
      r.block = some location.block ∧ r.row.toNat = location.row ∧ r.enabled = location.enabled := by
  obtain ⟨r, record, located⟩ := Option.bind_eq_some_iff.mp found
  unfold Record.locationOf at located
  by_cases same : r.generation = e.generation
  · rw [if_pos same] at located
    obtain ⟨block, held, rfl⟩ := Option.map_eq_some_iff.mp located
    exact ⟨r, record, same, held, rfl, rfl⟩
  · rw [if_neg same] at located
    contradiction

theorem get_of_location (e : Entity) (location : Location) (found : d.location? e = some location) :
    ∃ r, d.get? e = some r ∧ d.records[e.index.toNat]? = some r ∧ r.generation = e.generation ∧
      r.block = some location.block ∧ r.row.toNat = location.row ∧ r.enabled = location.enabled := by
  obtain ⟨r, record, same, block, row, enabled⟩ := record_of_location e location found
  refine ⟨r, ?_, record, same, block, row, enabled⟩
  simp [get?, record, Record.isOf, Record.isAlive, same, block]

theorem entity_of_location (sound : d.Sound) (e : Entity) (location : Location)
    (found : d.location? e = some location) (r : Record)
    (record : d.records[e.index.toNat]? = some r) : r.entity = e := by
  obtain ⟨other, hit, generation, block, _⟩ := record_of_location e location found
  obtain rfl : other = r := Option.some.inj (hit.symm.trans record)
  have valid := sound.valid _ other record
  have current := valid.current ((Record.alive_iff other).mpr ⟨_, block⟩)
  have index : other.entity.index = e.index := UInt32.toNat_inj.mp valid.own
  cases entity : other.entity with
  | mk i g =>
      rw [entity] at index current
      cases e with
      | mk j h =>
          simp only at index current generation
          rw [index, current, generation]

section Replace

variable (index : UInt32) (r old : Record) (free : List UInt32) (recycle : Bool) (alive : Nat)

theorem record_replace (found : d.records[index.toNat]? = some old) (i : Nat) :
    (d.records.setIfInBounds index.toNat r)[i]? =
      if i = index.toNat then some r else d.records[i]? := by
  obtain ⟨inRange, _⟩ := Array.getElem?_eq_some_iff.mp found
  rw [Array.getElem?_setIfInBounds]
  by_cases here : i = index.toNat
  · rw [if_pos here.symm, if_pos inRange, if_pos here]
  · rw [if_neg (Ne.symm here), if_neg here]

theorem update_cases (found : d.records[index.toNat]? = some old) {i : Nat} {record : Record}
    (held : (d.update index r).records[i]? = some record) :
    i = index.toNat ∧ record = r ∨ i ≠ index.toNat ∧ d.records[i]? = some record := by
  rw [update, record_replace index r old found] at held
  by_cases same : i = index.toNat
  · rw [if_pos same] at held
    exact Or.inl ⟨same, (Option.some.inj held).symm⟩
  · rw [if_neg same] at held
    exact Or.inr ⟨same, held⟩

theorem location_replace (found : d.records[index.toNat]? = some old) (e : Entity) :
    (⟨d.records.setIfInBounds index.toNat r, free, recycle, alive⟩ : Directory).location? e =
      if e.index = index then r.locationOf e else d.location? e := by
  rw [location?, record_replace index r old found]
  by_cases here : e.index = index
  · rw [if_pos here, if_pos (congrArg UInt32.toNat here), Option.bind_some]
  · rw [if_neg here, if_neg fun same => here (UInt32.toNat_inj.mp same)]
    rfl

theorem slot_replace (found : d.records[index.toNat]? = some old) (i : Nat) :
    (⟨d.records.setIfInBounds index.toNat r, free, recycle, alive⟩ : Directory).slot? i =
      if i = index.toNat then some (r.generation, r.isAlive) else d.slot? i := by
  rw [slot?, record_replace index r old found]
  by_cases here : i = index.toNat
  · rw [if_pos here, if_pos here, Option.map_some]
  · rw [if_neg here, if_neg here]
    rfl

theorem sound_replace (sound : d.Sound) (found : d.records[index.toNat]? = some old)
    (valid : Valid index.toNat r) (nodup : free.Nodup)
    (dead : ∀ other ∈ free, other ≠ index → other ∈ d.free)
    (here : index ∈ free → r.isAlive = false)
    (counted : alive + old.isAlive.toNat = d.alive + r.isAlive.toNat) :
    Sound ⟨d.records.setIfInBounds index.toNat r, free, recycle, alive⟩ := by
  obtain ⟨inRange, held⟩ := Array.getElem?_eq_some_iff.mp found
  refine ⟨?_, fun i record hit => ?_, nodup, fun other member => ?_, ?_⟩
  · exact Nat.le_trans (Nat.le_of_eq Array.size_setIfInBounds) sound.bounded
  · rw [record_replace index r old found] at hit
    by_cases same : i = index.toNat
    · rw [if_pos same] at hit
      exact same ▸ Option.some.inj hit ▸ valid
    · rw [if_neg same] at hit
      exact sound.valid i record hit
  · rw [record_replace index r old found]
    by_cases same : other = index
    · rw [if_pos (congrArg UInt32.toNat same)]
      exact ⟨r, rfl, here (same ▸ member)⟩
    · rw [if_neg fun equal => same (UInt32.toNat_inj.mp equal)]
      exact sound.free_dead other (dead other member same)
  · have before := sound.counted
    have count := Array.countP_set (p := Record.isAlive) (a := r) inRange
    have bound : old.isAlive.toNat ≤ d.records.countP Record.isAlive := by
      cases live : old.isAlive with
      | false => exact Nat.zero_le _
      | true =>
          have member : old ∈ d.records := held ▸ Array.getElem_mem inRange
          exact Array.countP_pos_iff.mpr ⟨old, member, live⟩
    have unit (live : Bool) : (if live = true then 1 else 0) = live.toNat := by cases live <;> rfl
    rw [held, unit, unit] at count
    simp only [Array.setIfInBounds, inRange, dif_pos, count]
    omega

end Replace

structure Reserved (d next : Directory) (e : Entity) : Prop where
  sound : next.Sound
  unused : d.location? e = none
  locations : next.location? = d.location?
  alive : next.alive = d.alive
  record : ∃ r, next.records[e.index.toNat]? = some r ∧ r.entity = e ∧ r.isAlive = false ∧
    r.generation = e.generation
  unlisted : e.index ∉ next.free
  recycle : next.recycle = d.recycle
  slots : ∀ index, next.slot? index =
    if index = e.index.toNat then some (e.generation, false) else d.slot? index
  slot : d.slot? e.index.toNat = some (e.generation, false) ∨
    d.slot? e.index.toNat = none ∧ e.generation = 1

section Append

variable {r : Record}

theorem index_unused (room : d.size < 0xffffffff) : (UInt32.ofNat d.size).toNat = d.size := by
  rw [UInt32.toNat_ofNat']
  exact Nat.mod_eq_of_lt (by omega)

theorem records_push (d : Directory) (r : Record) (i : Nat) :
    (d.records.push r)[i]? = if i = d.size then some r else d.records[i]? := by
  rw [Array.getElem?_push]
  rfl

theorem sound_push (sound : d.Sound) (room : d.size < 0xffffffff) (valid : Valid d.size r)
    (dead : r.isAlive = false) : Sound { d with records := d.records.push r } := by
  refine ⟨?_, fun i record hit => ?_, sound.free_nodup, fun other member => ?_, ?_⟩
  · show (d.records.push r).size ≤ _
    rw [Array.size_push]
    exact room
  · rw [records_push] at hit
    by_cases here : i = d.size
    · rw [if_pos here] at hit
      obtain rfl := Option.some.inj hit
      exact here ▸ valid
    · rw [if_neg here] at hit
      exact sound.valid i record hit
  · obtain ⟨old, hit, still⟩ := sound.free_dead other member
    obtain ⟨inRange, _⟩ := Array.getElem?_eq_some_iff.mp hit
    have other : other.toNat ≠ d.size := Nat.ne_of_lt inRange
    exact ⟨old, by rw [records_push, if_neg other, hit], still⟩
  · show d.alive = (d.records.push r).countP Record.isAlive
    rw [Array.countP_push_of_neg (by simp [dead]), sound.counted]

theorem location_push (dead : r.block = none) :
    location? { d with records := d.records.push r } = d.location? := by
  funext f
  rw [location?, location?, records_push]
  by_cases here : f.index.toNat = d.size
  · have absent : d.records[d.size]? = none := Array.getElem?_eq_none (Nat.le_refl _)
    rw [if_pos here, here, absent, Option.bind_some]
    exact Record.location_of_dead r dead f
  · rw [if_neg here]

theorem append_ok (sound : d.Sound) :
    Ensures (fun fault => fault = .indexSpaceExhausted ∧ 0xffffffff ≤ d.size) d.append
      fun (e, next) => Reserved d next e := by
  unfold append
  by_cases room : d.size < 0xffffffff
  · rw [require_ok _ _ (decide_eq_true room), ok_bind]
    have index := index_unused room
    have beyond : d.records[(UInt32.ofNat d.size).toNat]? = none := by
      rw [index]
      exact Array.getElem?_eq_none (Nat.le_refl _)
    let r : Record :=
      { entity := ⟨UInt32.ofNat d.size, 1⟩, block := none, row := 0, generation := 1, enabled := true }
    have valid : Valid d.size r := ⟨index, (by decide : (1 : UInt32) ≠ 0), fun live => by contradiction⟩
    refine ⟨sound_push sound room valid rfl, ?_, location_push rfl, rfl, ⟨r, ?_, rfl, rfl, rfl⟩, fun member => ?_,
      rfl, fun i => ?_, Or.inr ⟨?_, rfl⟩⟩
    · rw [location?, beyond, Option.bind_none]
    · show (d.records.push r)[(UInt32.ofNat d.size).toNat]? = some r
      rw [index, records_push, if_pos rfl]
    · obtain ⟨old, hit, _⟩ := sound.free_dead _ member
      rw [beyond] at hit
      contradiction
    · show ((d.records.push r)[i]?).map _ = _
      rw [records_push, index, apply_ite (Option.map _)]
      rfl
    · rw [slot?, beyond, Option.map_none]
  · have full : require (decide (d.size < 0xffffffff)) .indexSpaceExhausted =
        .error .indexSpaceExhausted := by
      rw [require, decide_eq_false room]
      rfl
    rw [full]
    exact ⟨rfl, Nat.le_of_not_lt room⟩

end Append

theorem reserve_ok (sound : d.Sound) :
    Ensures (fun fault => fault = .indexSpaceExhausted ∧ 0xffffffff ≤ d.size) d.reserve
      fun (e, next) => Reserved d next e := by
  unfold reserve
  cases recycle : d.recycle with
  | false => exact append_ok sound
  | true =>
      cases free : d.free with
      | nil => exact append_ok sound
      | cons index rest =>
          obtain ⟨old, found, dead⟩ := sound.free_dead index (free ▸ List.mem_cons_self)
          obtain ⟨away, nodup⟩ := List.nodup_cons.mp (free ▸ sound.free_nodup)
          have valid := sound.valid _ old found
          have unheld := (Record.dead_iff old).mp dead
          let e : Entity := ⟨index, old.generation⟩
          simp only [found]
          have replaced := location_replace index { old with entity := e } old rest true d.alive found
          have nowhere (f : Entity) (same : f.index = index) : d.location? f = none := by
            rw [location?, same, found, Option.bind_some, Record.location_of_dead old unheld]
          have nextSound := sound_replace (d := d) index { old with entity := e } old rest true d.alive
            sound found ⟨rfl, valid.born, fun _ => rfl⟩ nodup
            (fun other member _ => free ▸ List.mem_cons_of_mem index member) (fun _ => dead) rfl
          refine ⟨nextSound, nowhere e rfl, ?_, rfl, ⟨{ old with entity := e }, ?_, rfl, dead, rfl⟩, away, ?_, ?_,
            Or.inl ?_⟩
          · funext f
            refine (replaced f).trans ?_
            by_cases here : f.index = index
            · rw [if_pos here, nowhere f here]
              exact Record.location_of_dead _ unheld f
            · rw [if_neg here]
          · exact (record_replace index { old with entity := e } old found _).trans (if_pos rfl)
          · exact recycle.symm
          · intro i
            refine (slot_replace index { old with entity := e } old rest true d.alive found i).trans ?_
            rw [show Record.isAlive { old with entity := e } = false from dead]
          · exact (slot_some_iff _ _ _).mpr ⟨old, found, rfl, dead⟩

variable {next : Directory} {e : Entity}

theorem abandon_ok (reserved : Reserved d next e) :
    ∃ final, next.abandon e = .ok final ∧ final.Sound ∧ final.location? = d.location? ∧
      final.alive = d.alive ∧ ∀ index, final.slot? index = next.slot? index := by
  obtain ⟨r, found, own, dead, generation⟩ := reserved.record
  have unplaced : (!next.isAlive e) = true := by
    rw [alive_eq, reserved.locations, reserved.unused]
    rfl
  rw [abandon, require_ok _ _ unplaced, ok_bind]
  cases recycles : next.recycle with
  | false => exact ⟨next, rfl, reserved.sound, reserved.locations, reserved.alive, fun _ => rfl⟩
  | true =>
      refine ⟨⟨next.records, e.index :: next.free, true, next.alive⟩, rfl, ⟨reserved.sound.bounded,
        reserved.sound.valid, List.nodup_cons.mpr ⟨reserved.unlisted, reserved.sound.free_nodup⟩,
        fun other member => ?_, reserved.sound.counted⟩, reserved.locations, reserved.alive,
        fun _ => rfl⟩
      rcases List.mem_cons.mp member with rfl | listed
      · exact ⟨r, found, dead⟩
      · exact reserved.sound.free_dead other listed

theorem place_ok (reserved : Reserved d next e) (block : BlockId) {row : Nat} (small : row < UInt32.size) :
    ∃ final, next.place e block row = .ok final ∧ final.Sound ∧
      final.location? = Function.update d.location? e (some ⟨block, row, true⟩) ∧
      final.alive = d.alive + 1 ∧ ∀ index, final.slot? index =
        if index = e.index.toNat then some (e.generation, true) else d.slot? index := by
  obtain ⟨old, found, own, dead, generation⟩ := reserved.record
  have valid := reserved.sound.valid _ old found
  let r : Record :=
    { entity := e, block := some block, row := clip row, generation := e.generation, enabled := true }
  let final : Directory :=
    ⟨next.records.setIfInBounds e.index.toNat r, next.free, next.recycle, next.alive + 1⟩
  have locations := location_replace e.index r old next.free next.recycle (next.alive + 1) found
  have slots := slot_replace e.index r old next.free next.recycle (next.alive + 1) found
  refine ⟨final, ?_, ?_, ?_, congrArg (· + 1) reserved.alive, fun index => ?_⟩
  · rw [place, found]
    simp only [require_ok _ _ (decide_eq_true own), ok_bind, pure_eq_ok]
    rfl
  · refine sound_replace e.index r old next.free next.recycle (next.alive + 1) reserved.sound found
      ⟨rfl, (generation ▸ valid.born : e.generation ≠ 0), fun _ => rfl⟩ reserved.sound.free_nodup
      (fun _ member _ => member) (fun member => absurd member reserved.unlisted) ?_
    rw [dead]
    rfl
  · funext f
    refine (locations f).trans ?_
    by_cases same : f = e
    · subst same
      rw [if_pos rfl, Function.update_self, Record.locationOf, if_pos rfl, Option.map_some, toNat_clip small]
    · rw [Function.update_of_ne same, reserved.locations]
      by_cases here : f.index = e.index
      · have nowhere : d.location? f = none := by
          rw [← reserved.locations, location?, here, found, Option.bind_some,
            Record.location_of_dead old ((Record.dead_iff old).mp dead)]
        rw [if_pos here, nowhere]
        exact Record.location_of_other r f (Entity.generation_ne e f here same)
      · rw [if_neg here]
  · refine (slots index).trans ?_
    by_cases here : index = e.index.toNat
    · rw [if_pos here, if_pos here]
      rfl
    · rw [if_neg here, if_neg here, reserved.slots, if_neg here]

section Live

variable {location : Location}

-- Other handles of the index have other generations, so they keep their locations.
theorem location_patch (found : d.location? e = some location) (old r : Record)
    (record : d.records[e.index.toNat]? = some old) (generation : r.generation ≠ e.generation → r.block = none)
    (free : List UInt32) (alive : Nat) :
    (⟨d.records.setIfInBounds e.index.toNat r, free, d.recycle, alive⟩ : Directory).location? =
      Function.update d.location? e (r.locationOf e) := by
  obtain ⟨other, hit, same, _⟩ := record_of_location e location found
  obtain rfl : other = old := Option.some.inj (hit.symm.trans record)
  funext f
  rw [location_replace e.index r other free d.recycle alive record]
  by_cases self : f = e
  · rw [self, if_pos rfl, Function.update_self]
  · rw [Function.update_of_ne self]
    by_cases here : f.index = e.index
    · have apart := Entity.generation_ne e f here self
      rw [if_pos here, location?, here, record, Option.bind_some,
        Record.location_of_other other f (same ▸ apart)]
      by_cases kept : r.generation = e.generation
      · exact Record.location_of_other r f (kept ▸ apart)
      · exact Record.location_of_dead r (generation kept) f
    · rw [if_neg here]

theorem patch_ok (sound : d.Sound) (found : d.location? e = some location) (old r : Record)
    (record : d.records[e.index.toNat]? = some old) (entity : r.entity = old.entity)
    (generation : r.generation = old.generation) (alive : r.isAlive = true) :
    (d.update e.index r).Sound ∧
      (d.update e.index r).location? = Function.update d.location? e (r.locationOf e) ∧
      (∀ index, (d.update e.index r).slot? index = d.slot? index) := by
  obtain ⟨other, hit, same, block, _⟩ := record_of_location e location found
  obtain rfl : other = old := Option.some.inj (hit.symm.trans record)
  have valid := sound.valid _ other record
  have live : other.isAlive = true := (Record.alive_iff other).mpr ⟨_, block⟩
  refine ⟨?_, ?_, fun index => ?_⟩
  · refine sound_replace e.index r other d.free d.recycle d.alive sound record
      ⟨entity ▸ valid.own, generation ▸ valid.born, fun _ => ?_⟩ sound.free_nodup
      (fun _ member _ => member) (fun member => ?_) (by rw [live, alive])
    · rw [entity, generation]
      exact valid.current live
    · obtain ⟨dead, hit, unheld⟩ := sound.free_dead _ member
      obtain rfl : dead = other := Option.some.inj (hit.symm.trans record)
      rw [live] at unheld
      contradiction
  · exact location_patch found other r record
      (fun moved => absurd (generation.trans same) moved) d.free d.alive
  · refine (slot_replace e.index r other d.free d.recycle d.alive record index).trans ?_
    by_cases here : index = e.index.toNat
    · rw [if_pos here, here, slot?, record, Option.map_some, generation, alive, live]
    · rw [if_neg here]

theorem relocate_ok (sound : d.Sound) (found : d.location? e = some location) (block : BlockId)
    {row : Nat} (small : row < UInt32.size) :
    ∃ final, d.relocate e block row = .ok final ∧ final.Sound ∧
      final.location? = Function.update d.location? e (some ⟨block, row, location.enabled⟩) ∧
      final.alive = d.alive ∧ ∀ index, final.slot? index = d.slot? index := by
  obtain ⟨old, got, record, generation, _, _, enabled⟩ := get_of_location e location found
  obtain ⟨finalSound, locations, slots⟩ := patch_ok sound found old
    { old with block := some block, row := clip row } record rfl rfl rfl
  refine ⟨_, by rw [relocate, got], finalSound, locations.trans ?_, rfl, slots⟩
  rw [Record.locationOf, if_pos generation, ← enabled, toNat_clip small]
  rfl

theorem set_enabled_ok (sound : d.Sound) (found : d.location? e = some location) (enabled : Bool) :
    (d.setEnabled e enabled).Sound ∧
      (d.setEnabled e enabled).location? =
        Function.update d.location? e (some { location with enabled }) ∧
      (d.setEnabled e enabled).alive = d.alive ∧
      ∀ index, (d.setEnabled e enabled).slot? index = d.slot? index := by
  obtain ⟨old, got, record, generation, block, row, _⟩ := get_of_location e location found
  have alive : Record.isAlive { old with enabled } = true := (Record.alive_iff _).mpr ⟨_, block⟩
  obtain ⟨finalSound, locations, slots⟩ := patch_ok sound found old { old with enabled } record rfl
    rfl alive
  have same : d.setEnabled e enabled = d.update e.index { old with enabled } := by
    rw [setEnabled, got]
  rw [same]
  refine ⟨finalSound, locations.trans ?_, rfl, slots⟩
  rw [Record.locationOf, if_pos generation, block, row]
  rfl

theorem release_ok (sound : d.Sound) (found : d.location? e = some location) :
    ∃ final, d.release e = .ok final ∧ final.Sound ∧
      final.location? = Function.update d.location? e none ∧ final.alive + 1 = d.alive ∧
      ∀ index, final.slot? index =
        if index = e.index.toNat then some (Record.nextGeneration e.generation, false)
        else d.slot? index := by
  obtain ⟨old, got, record, generation, block, _⟩ := get_of_location e location found
  have valid := sound.valid _ old record
  have live : old.isAlive = true := (Record.alive_iff old).mpr ⟨_, block⟩
  have positive : 0 < d.alive := by
    rw [sound.counted]
    exact Array.countP_pos_iff.mpr ⟨old, Array.mem_of_getElem? record, live⟩
  have killed : old.kill.generation = Record.nextGeneration old.generation := rfl
  have unlisted : e.index ∉ d.free := by
    intro member
    obtain ⟨dead, hit, unheld⟩ := sound.free_dead _ member
    obtain rfl : dead = old := Option.some.inj (hit.symm.trans record)
    rw [live] at unheld
    contradiction
  let free := if d.recycle then e.index :: d.free else d.free
  let final : Directory :=
    ⟨d.records.setIfInBounds e.index.toNat old.kill, free, d.recycle, d.alive - 1⟩
  refine ⟨final, ?_, ?_, ?_, Nat.succ_pred_eq_of_pos positive, fun index => ?_⟩
  · rw [release, got]
    simp only [sub_ok _ _ positive, ok_bind, pure_eq_ok]
    rfl
  · refine sound_replace e.index old.kill old free d.recycle (d.alive - 1) sound record
      ⟨valid.own, killed ▸ Record.next_generation_ne_zero _, fun live => by contradiction⟩ ?_ ?_
      (fun _ => rfl) ?_
    · unfold free
      cases d.recycle with
      | true => exact List.nodup_cons.mpr ⟨unlisted, sound.free_nodup⟩
      | false => exact sound.free_nodup
    · intro other member away
      unfold free at member
      cases recycles : d.recycle with
      | true => simpa [recycles, away] using member
      | false => simpa [recycles] using member
    · rw [live]
      exact Nat.succ_pred_eq_of_pos positive
  · refine (location_patch found old old.kill record (fun _ => rfl) free (d.alive - 1)).trans ?_
    rw [Record.location_of_dead old.kill rfl]
  · refine (slot_replace e.index old.kill old free d.recycle (d.alive - 1) record index).trans ?_
    rw [killed, generation]
    rfl

end Live

section Clear

def ended (r : Record) : Record := if r.isAlive then r.kill else r

theorem ended_dead (r : Record) : (ended r).isAlive = false := by
  rw [ended]
  cases live : r.isAlive with
  | true => rfl
  | false => simpa using live

theorem clear_record (d : Directory) (i : Nat) : d.clear.records[i]? = (d.records[i]?).map ended :=
  Array.getElem?_map ..

theorem size_clear (d : Directory) : d.clear.size = d.size := Array.size_map ..

theorem clear_free_nodup (bound : d.size ≤ 0xffffffff) : d.clear.free.Nodup := by
  unfold clear
  cases d.recycle with
  | false => exact List.nodup_nil
  | true =>
      refine List.Nodup.map_on (fun a memberA b memberB same => ?_) List.nodup_range
      rw [List.mem_range] at memberA memberB
      have numbers := congrArg UInt32.toNat same
      rw [UInt32.toNat_ofNat', UInt32.toNat_ofNat', Nat.mod_eq_of_lt (by omega),
        Nat.mod_eq_of_lt (by omega)] at numbers
      exact numbers

theorem clear_free_lt (bound : d.size ≤ 0xffffffff) {index : UInt32} (member : index ∈ d.clear.free) :
    index.toNat < d.size := by
  have listed : index ∈ (List.range d.size).map UInt32.ofNat := by
    unfold clear at member
    cases recycles : d.recycle with
    | false => simp [recycles] at member
    | true => simpa [recycles] using member
  obtain ⟨i, inRange, rfl⟩ := List.mem_map.mp listed
  have below := List.mem_range.mp inRange
  rw [UInt32.toNat_ofNat', Nat.mod_eq_of_lt (Nat.lt_of_lt_of_le below (Nat.le_trans bound (by decide)))]
  exact below

theorem clear_ok (sound : d.Sound) :
    d.clear.Sound ∧ (∀ e, d.clear.location? e = none) ∧ d.clear.alive = 0 ∧
      ∀ index, d.clear.slot? index = (d.slot? index).map fun (generation, live) =>
        (if live then Record.nextGeneration generation else generation, false) := by
  refine ⟨⟨size_clear d ▸ sound.bounded, fun i r hit => ?_, clear_free_nodup sound.bounded,
    fun index member => ?_, ?_⟩, fun e => ?_, rfl, fun i => ?_⟩
  · rw [clear_record] at hit
    obtain ⟨old, found, rfl⟩ := Option.map_eq_some_iff.mp hit
    have valid := sound.valid i old found
    refine ⟨?_, ?_, fun live => by rw [ended_dead] at live; contradiction⟩
    · rw [ended]
      cases old.isAlive <;> exact valid.own
    · rw [ended]
      cases old.isAlive with
      | true => exact Record.next_generation_ne_zero _
      | false => exact valid.born
  · rw [clear_record, Array.getElem?_eq_getElem (clear_free_lt sound.bounded member)]
    exact ⟨_, rfl, ended_dead _⟩
  · show 0 = (d.records.map ended).countP Record.isAlive
    rw [Array.countP_map]
    refine (Array.countP_eq_zero.mpr fun r _ => ?_).symm
    simp [ended_dead]
  · rw [location?, clear_record, Option.bind_map]
    exact Option.bind_eq_none_iff.mpr fun r _ =>
      Record.location_of_dead _ ((Record.dead_iff _).mp (ended_dead r)) e
  · rw [slot?, clear_record, slot?, Option.map_map, Option.map_map]
    congr 1
    funext r
    show ((ended r).generation, (ended r).isAlive) = _
    rw [ended_dead, ended, apply_ite Record.generation]
    rfl

end Clear

theorem create_sound (recycle : Bool) :
    (create recycle).Sound ∧ (∀ e, (create recycle).location? e = none) ∧
      ∀ index, (create recycle).slot? index = none := by
  refine ⟨⟨Nat.zero_le _, ?_, List.nodup_nil, ?_, rfl⟩, fun _ => rfl, fun _ => rfl⟩
  · intro index r hit
    simp [create] at hit
  · intro index member
    exact absurd member List.not_mem_nil

end Directory

end EntityStore
