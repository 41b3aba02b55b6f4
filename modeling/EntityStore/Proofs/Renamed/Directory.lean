import EntityStore.Proofs.Directory
import EntityStore.Proofs.Renamed.Checked
import Mathlib.Logic.Function.Iterate

set_option autoImplicit false

namespace EntityStore

open Checked

section Generations

open Record

theorem next_generation_injective {g f : UInt32} (same : nextGeneration g = nextGeneration f) (born : g ≠ 0)
    (other : f ≠ 0) : g = f := by
  have zero {x : UInt32} (one : 1 = x + 1) : x = 0 :=
    ((UInt32.add_left_inj 1).mp ((UInt32.zero_add 1).trans one)).symm
  rw [nextGeneration, nextGeneration] at same
  by_cases first : g + 1 = 0
  · by_cases second : f + 1 = 0
    · exact (UInt32.add_left_inj 1).mp (first.trans second.symm)
    · rw [if_pos first, if_neg second] at same
      exact absurd (zero same) other
  · by_cases second : f + 1 = 0
    · rw [if_neg first, if_pos second] at same
      exact absurd (zero same.symm) born
    · rw [if_neg first, if_neg second] at same
      exact (UInt32.add_left_inj 1).mp same

theorem iterate_ne_zero {g : UInt32} (born : g ≠ 0) (n : Nat) : nextGeneration^[n] g ≠ 0 := by
  cases n with
  | zero => exact born
  | succ n =>
      rw [Function.iterate_succ_apply']
      exact next_generation_ne_zero _

theorem iterate_injective {g f : UInt32} (born : g ≠ 0) (other : f ≠ 0) (n : Nat)
    (same : nextGeneration^[n] g = nextGeneration^[n] f) : g = f := by
  induction n with
  | zero => exact same
  | succ n ih =>
      rw [Function.iterate_succ_apply', Function.iterate_succ_apply'] at same
      exact ih (next_generation_injective same (iterate_ne_zero born n) (iterate_ne_zero other n))

end Generations

-- Indices are moved up, and the generations of an index are so many steps ahead.
structure Renaming where
  offset : UInt32
  turns : UInt32 → Nat

namespace Renaming

variable {ρ : Renaming} {e f : Entity}

def handle (ρ : Renaming) (e : Entity) : Entity :=
  if e.generation = 0 then e
  else ⟨e.index + ρ.offset, Record.nextGeneration^[ρ.turns e.index] e.generation⟩

theorem handle_void (ρ : Renaming) : ρ.handle ⟨0, 0⟩ = ⟨0, 0⟩ := rfl

theorem handle_unborn (void : e.generation = 0) : ρ.handle e = e := if_pos void

theorem handle_born (born : e.generation ≠ 0) :
    ρ.handle e = ⟨e.index + ρ.offset, Record.nextGeneration^[ρ.turns e.index] e.generation⟩ := if_neg born

theorem born_handle_iff : (ρ.handle e).generation = 0 ↔ e.generation = 0 := by
  by_cases void : e.generation = 0
  · rw [handle_unborn void]
  · rw [handle_born void]
    exact iff_of_false (iterate_ne_zero void _) void

theorem handle_injective (ρ : Renaming) : Function.Injective ρ.handle := by
  intro e f same
  by_cases void : e.generation = 0
  · have other : f.generation = 0 := by rw [← born_handle_iff (ρ := ρ), ← same, born_handle_iff, void]
    rwa [handle_unborn void, handle_unborn other] at same
  · have other : f.generation ≠ 0 := fun zero => void (by
      rw [← born_handle_iff (ρ := ρ), same, born_handle_iff, zero])
    rw [handle_born void, handle_born other, Entity.mk.injEq] at same
    obtain ⟨indices, generations⟩ := same
    have index : e.index = f.index := (UInt32.add_left_inj _).mp indices
    rw [index] at generations
    have generation := iterate_injective void other _ generations
    cases e
    cases f
    simp_all

end Renaming

structure Record.Renamed (ρ : Renaming) (r other : Record) : Prop where
  entity : other.entity = ρ.handle r.entity
  block : other.block = r.block
  generation : other.generation = Record.nextGeneration^[ρ.turns r.entity.index] r.generation
  row : r.isAlive = true → other.row = r.row
  enabled : r.isAlive = true → other.enabled = r.enabled

namespace Directory

variable {ρ : Renaming} {spare : Nat} {d other : Directory} {e : Entity}

-- The old indices wait behind those that were freed since, the lowest first.
structure Waiting (ρ : Renaming) (spare : Nat) (d other : Directory) : Prop where
  offset : ρ.offset = 0
  free : other.free = d.free ++ (List.range' d.size (spare - d.size)).map UInt32.ofNat
  size : other.size = max spare d.size
  waiting : ∀ i, d.size ≤ i → i < spare → ∃ t, other.records[i]? = some t ∧ t.isAlive = false ∧
    t.generation = Record.nextGeneration^[ρ.turns (.ofNat i)] 1
  late : ∀ i : UInt32, spare ≤ i.toNat → ρ.turns i = 0

-- The old indices are passed over.
structure Behind (ρ : Renaming) (spare : Nat) (d other : Directory) : Prop where
  offset : ρ.offset.toNat = spare
  size : other.size = spare + d.size
  turns : ∀ i, ρ.turns i = 0

structure Renamed (ρ : Renaming) (spare : Nat) (d other : Directory) : Prop where
  recycle : other.recycle = d.recycle
  alive : other.alive = d.alive
  own : ∀ (i : Nat) r, d.records[i]? = some r → r.entity.index.toNat = i
  born : ∀ (i : Nat) r, d.records[i]? = some r → r.generation ≠ 0 ∧ r.entity.generation ≠ 0
  records : ∀ (i : Nat) r, d.records[i]? = some r →
    ∃ t, other.records[i + ρ.offset.toNat]? = some t ∧ Record.Renamed ρ r t
  -- Nobody else is alive.
  others : ∀ (i : Nat) t, other.records[i]? = some t → t.generation ≠ 0 ∧
    (t.isAlive = true → ρ.offset.toNat ≤ i ∧ i < d.size + ρ.offset.toNat)
  bounded : other.size ≤ 0xffffffff
  free : ∀ i ∈ d.free, i.toNat < d.size
  supply : if d.recycle then Waiting ρ spare d other else Behind ρ spare d other

theorem live_record {r : Record} (found : d.get? e = some r) :
    d.records[e.index.toNat]? = some r ∧ r.isAlive = true ∧ r.generation = e.generation := by
  obtain ⟨record, of⟩ := Option.filter_eq_some_iff.mp found
  rw [Record.isOf, Bool.and_eq_true] at of
  exact ⟨record, of.1, of_decide_eq_true of.2⟩

inductive Known (ρ : Renaming) (d other : Directory) (e : Entity) : Prop where
  | nobody (here : d.get? e = none) (there : other.get? (ρ.handle e) = none)
  | somebody (r t : Record) (here : d.get? e = some r) (there : other.get? (ρ.handle e) = some t)
      (record : d.records[e.index.toNat]? = some r) (alive : r.isAlive = true)
      (related : Record.Renamed ρ r t) (born : e.generation ≠ 0) (index : r.entity.index = e.index)

namespace Renamed

theorem index_handle (renamed : Renamed ρ spare d other) (born : e.generation ≠ 0) {r : Record}
    (found : d.records[e.index.toNat]? = some r) :
    (ρ.handle e).index.toNat = e.index.toNat + ρ.offset.toNat := by
  obtain ⟨t, there, -⟩ := renamed.records e.index.toNat r found
  obtain ⟨inside, -⟩ := Array.getElem?_eq_some_iff.mp there
  have bound := Nat.lt_of_lt_of_le inside renamed.bounded
  rw [Renaming.handle_born born, UInt32.toNat_add]
  exact Nat.mod_eq_of_lt (by omega)

theorem of_handle (renamed : Renamed ρ spare d other) (born : e.generation ≠ 0) {r t : Record}
    (found : d.records[e.index.toNat]? = some r) (related : Record.Renamed ρ r t) :
    t.isOf (ρ.handle e) = r.isOf e := by
  have index : r.entity.index = e.index := UInt32.toNat_inj.mp (renamed.own _ r found)
  have generations : t.generation = (ρ.handle e).generation ↔ r.generation = e.generation := by
    rw [related.generation, Renaming.handle_born born, index]
    exact ⟨iterate_injective (renamed.born _ r found).1 born _, congrArg _⟩
  rw [Record.isOf, Record.isOf, Record.isAlive, Record.isAlive, related.block, decide_eq_decide.mpr generations]

theorem get (renamed : Renamed ρ spare d other) (e : Entity) :
    Option.Rel (Record.Renamed ρ) (d.get? e) (other.get? (ρ.handle e)) := by
  by_cases void : e.generation = 0
  · rw [Renaming.handle_unborn void]
    have first : d.get? e = none := Option.eq_none_iff_forall_ne_some.mpr fun r found => by
      obtain ⟨record, -, same⟩ := live_record found
      exact (renamed.born _ r record).1 (same.trans void)
    have second : other.get? e = none := Option.eq_none_iff_forall_ne_some.mpr fun t found => by
      obtain ⟨record, -, same⟩ := live_record found
      exact (renamed.others _ t record).1 (same.trans void)
    rw [first, second]
    exact .none
  · cases found : d.records[e.index.toNat]? with
    | some r =>
        obtain ⟨t, there, related⟩ := renamed.records _ r found
        rw [get?, get?, found, renamed.index_handle void found, there, Option.filter_some, Option.filter_some,
          renamed.of_handle void found related]
        split
        · exact .some related
        · exact .none
    | none =>
        have first : d.get? e = none := by rw [get?, found]; rfl
        have second : other.get? (ρ.handle e) = none := Option.eq_none_iff_forall_ne_some.mpr fun t there => by
          obtain ⟨record, alive, -⟩ := live_record there
          obtain ⟨low, high⟩ := (renamed.others _ t record).2 alive
          have beyond : d.size ≤ e.index.toNat := Array.getElem?_eq_none_iff.mp found
          have small := e.index.toNat_lt
          have offset := ρ.offset.toNat_lt
          rw [Renaming.handle_born void, UInt32.toNat_add] at low high
          omega
        rw [first, second]
        exact .none

theorem known (renamed : Renamed ρ spare d other) (e : Entity) : Known ρ d other e := by
  have records := renamed.get e
  cases here : d.get? e with
  | none =>
      rw [here] at records
      generalize there : other.get? (ρ.handle e) = found at records
      cases records
      exact .nobody here there
  | some r =>
      rw [here] at records
      generalize there : other.get? (ρ.handle e) = found at records
      cases records with
      | some related =>
          obtain ⟨record, alive, same⟩ := live_record here
          exact .somebody r _ here there record alive related (same ▸ (renamed.born _ r record).1)
            (UInt32.toNat_inj.mp (renamed.own _ r record))

theorem locate (renamed : Renamed ρ spare d other) (e : Entity) :
    other.locate (ρ.handle e) = Outcome.renamed ρ.handle id (d.locate e) := by
  rw [Directory.locate, Directory.locate]
  cases renamed.known e with
  | nobody here there =>
      rw [here, there]
      rfl
  | somebody r t here there record alive related born index =>
      obtain ⟨block, held⟩ := (Record.alive_iff r).mp alive
      simp only [here, there, related.block, held, related.row alive, related.enabled alive]
      rfl

theorem is_alive (renamed : Renamed ρ spare d other) (e : Entity) :
    other.isAlive (ρ.handle e) = d.isAlive e := by
  rw [Directory.isAlive, Directory.isAlive]
  cases renamed.known e with
  | nobody here there => rw [here, there]
  | somebody r t here there => rw [here, there, Option.isSome_some, Option.isSome_some]

theorem update (renamed : Renamed ρ spare d other) (born : e.generation ≠ 0) {old r t : Record}
    (found : d.records[e.index.toNat]? = some old) (related : Record.Renamed ρ r t)
    (own : r.entity.index = e.index)
    (generation : r.generation ≠ 0 ∧ r.entity.generation ≠ 0) :
    Renamed ρ spare (d.update e.index r) (other.update (ρ.handle e).index t) := by
  have bound : e.index.toNat < d.size := (Array.getElem?_eq_some_iff.mp found).1
  have index := renamed.index_handle born found
  obtain ⟨oldOther, stood, -⟩ := renamed.records _ old found
  rw [← index] at stood
  have there (i : Nat) : (other.update (ρ.handle e).index t).records[i]? =
      if i = e.index.toNat + ρ.offset.toNat then some t else other.records[i]? := by
    rw [← index]
    exact record_replace (ρ.handle e).index t oldOther stood i
  have size : (d.update e.index r).size = d.size := Array.size_setIfInBounds
  have sizeOther : (other.update (ρ.handle e).index t).size = other.size := Array.size_setIfInBounds
  refine ⟨renamed.recycle, renamed.alive, fun i record held => ?_, fun i record held => ?_,
    fun i record held => ?_, fun i record held => ?_, Nat.le_trans (Nat.le_of_eq sizeOther) renamed.bounded,
    size ▸ renamed.free, ?_⟩
  · rcases update_cases e.index r old found held with ⟨rfl, rfl⟩ | ⟨_, held⟩
    · rw [own]
    · exact renamed.own i record held
  · rcases update_cases e.index r old found held with ⟨_, rfl⟩ | ⟨_, held⟩
    · exact generation
    · exact renamed.born i record held
  · rcases update_cases e.index r old found held with ⟨rfl, rfl⟩ | ⟨away, held⟩
    · exact ⟨t, (there _).trans (if_pos rfl), related⟩
    · rw [there, if_neg (by omega)]
      exact renamed.records i record held
  · rw [size]
    rcases update_cases (ρ.handle e).index t oldOther stood held with ⟨here, rfl⟩ | ⟨_, held⟩
    · rw [related.generation]
      exact ⟨iterate_ne_zero generation.1 _, fun _ => by omega⟩
    · exact renamed.others i record held
  · have supply := renamed.supply
    by_cases recycles : d.recycle = true
    · rw [if_pos recycles] at supply
      refine (if_pos recycles).mpr ⟨supply.offset, size ▸ supply.free, ?_, fun i low high => ?_, supply.late⟩
      · rw [sizeOther, size, supply.size]
      · rw [size] at low
        obtain ⟨t, held, rest⟩ := supply.waiting i low high
        refine ⟨t, ?_, rest⟩
        have zero := congrArg UInt32.toNat supply.offset
        rw [there, if_neg (by simp only [UInt32.toNat_zero] at zero; omega)]
        exact held
    · rw [if_neg recycles] at supply
      exact (if_neg recycles).mpr ⟨supply.offset, by rw [sizeOther, size, supply.size], supply.turns⟩

theorem recount (renamed : Renamed ρ spare d other) (alive : Nat) :
    Renamed ρ spare { d with alive } { other with alive } := by
  have supply := renamed.supply
  refine ⟨renamed.recycle, rfl, renamed.own, renamed.born, renamed.records, renamed.others, renamed.bounded,
    renamed.free, ?_⟩
  by_cases recycles : d.recycle = true
  · rw [if_pos recycles] at supply
    exact (if_pos recycles).mpr ⟨supply.offset, supply.free, supply.size, supply.waiting, supply.late⟩
  · rw [if_neg recycles] at supply
    exact (if_neg recycles).mpr ⟨supply.offset, supply.size, supply.turns⟩

theorem push_free (renamed : Renamed ρ spare d other) (recycles : d.recycle = true) (index : UInt32)
    (inside : index.toNat < d.size) :
    Renamed ρ spare { d with free := index :: d.free } { other with free := index :: other.free } := by
  have supply := renamed.supply
  rw [if_pos recycles] at supply
  refine ⟨renamed.recycle, renamed.alive, renamed.own, renamed.born, renamed.records, renamed.others,
    renamed.bounded, List.forall_mem_cons.mpr ⟨inside, renamed.free⟩, (if_pos recycles).mpr ?_⟩
  exact ⟨supply.offset, congrArg (index :: ·) supply.free, supply.size, supply.waiting, supply.late⟩

theorem index_same (renamed : Renamed ρ spare d other) (recycles : d.recycle = true) (e : Entity) :
    (ρ.handle e).index = e.index := by
  have supply := renamed.supply
  rw [if_pos recycles] at supply
  rw [Renaming.handle]
  split
  · rfl
  · rw [supply.offset]
    exact UInt32.add_zero e.index

theorem relocate (renamed : Renamed ρ spare d other) (e : Entity) (block : BlockId) (row : Nat) :
    Both ρ.handle (Renamed ρ spare) (d.relocate e block row) (other.relocate (ρ.handle e) block row) := by
  rw [Directory.relocate, Directory.relocate]
  cases renamed.known e with
  | nobody here there =>
      rw [here, there]
      exact .error (.relocated e)
  | somebody r t here there record alive related born index =>
      rw [here, there]
      exact .ok (renamed.update born record
        ⟨related.entity, rfl, related.generation, fun _ => rfl, fun _ => related.enabled alive⟩ index
        (renamed.born _ r record))

theorem relocate_moved (renamed : Renamed ρ spare d other) (moved : Option Entity) (block : BlockId) (row : Nat) :
    Both ρ.handle (Renamed ρ spare) (d.relocateMoved moved block row)
      (other.relocateMoved (moved.map ρ.handle) block row) := by
  cases moved with
  | none => exact .ok renamed
  | some e => exact renamed.relocate e block row

theorem set_enabled (renamed : Renamed ρ spare d other) (e : Entity) (enabled : Bool) :
    Renamed ρ spare (d.setEnabled e enabled) (other.setEnabled (ρ.handle e) enabled) := by
  rw [Directory.setEnabled, Directory.setEnabled]
  cases renamed.known e with
  | nobody here there =>
      rw [here, there]
      exact renamed
  | somebody r t here there record alive related born index =>
      rw [here, there]
      exact renamed.update born record
        ⟨related.entity, related.block, related.generation, fun _ => related.row alive, fun _ => rfl⟩ index
        (renamed.born _ r record)

theorem kill_renamed {r t : Record} (related : Record.Renamed ρ r t) : Record.Renamed ρ r.kill t.kill := by
  refine ⟨related.entity, rfl, ?_, fun alive => by contradiction, fun alive => by contradiction⟩
  have next : t.kill.generation = Record.nextGeneration t.generation := rfl
  rw [next, related.generation]
  exact (Function.iterate_succ_apply' _ _ _).symm.trans (Function.iterate_succ_apply _ _ _)

theorem release (renamed : Renamed ρ spare d other) (e : Entity) :
    Both ρ.handle (Renamed ρ spare) (d.release e) (other.release (ρ.handle e)) := by
  rw [Directory.release, Directory.release, renamed.alive]
  cases renamed.known e with
  | nobody here there =>
      rw [here, there]
      exact .ok renamed
  | somebody r t here there record alive related born index =>
      have inside : e.index.toNat < d.size := (Array.getElem?_eq_some_iff.mp record).1
      have kept : r.kill.generation ≠ 0 ∧ r.kill.entity.generation ≠ 0 :=
        ⟨Record.next_generation_ne_zero r.generation, (renamed.born _ r record).2⟩
      rw [here, there]
      refine both_bind_same _ fun alive _ => .ok ?_
      have counted := renamed.recount alive
      by_cases recycles : d.recycle = true
      · simp only [if_pos recycles, if_pos (renamed.recycle.trans recycles)]
        rw [renamed.index_same recycles]
        have freed := counted.push_free recycles e.index inside
        have final := freed.update born record (kill_renamed related) index kept
        rw [renamed.index_same recycles] at final
        exact final
      · simp only [if_neg recycles, if_neg (renamed.recycle ▸ recycles : ¬ other.recycle = true)]
        exact counted.update born record (kill_renamed related) index kept

theorem extend (renamed : Renamed ρ spare d other) {r t : Record} {next : Directory}
    (own : r.entity.index.toNat = d.size) (born : r.generation ≠ 0 ∧ r.entity.generation ≠ 0)
    (related : Record.Renamed ρ r t)
    (records : ∀ i, next.records[i]? = if i = d.size + ρ.offset.toNat then some t else other.records[i]?)
    (recycle : next.recycle = other.recycle) (alive : next.alive = other.alive) (bounded : next.size ≤ 0xffffffff)
    (supply : if d.recycle then Waiting ρ spare { d with records := d.records.push r } next
      else Behind ρ spare { d with records := d.records.push r } next) :
    Renamed ρ spare { d with records := d.records.push r } next := by
  have size : ({ d with records := d.records.push r } : Directory).size = d.size + 1 := Array.size_push r
  have pushed (i : Nat) : (d.records.push r)[i]? = if i = d.size then some r else d.records[i]? :=
    Array.getElem?_push
  refine ⟨recycle.trans renamed.recycle, alive.trans renamed.alive, fun i record held => ?_,
    fun i record held => ?_, fun i record held => ?_, fun i record held => ?_, bounded,
    fun i member => size ▸ Nat.lt_succ_of_lt (renamed.free i member), supply⟩
  · rw [pushed] at held
    by_cases same : i = d.size
    · rw [if_pos same] at held
      rw [← Option.some.inj held, own, same]
    · rw [if_neg same] at held
      exact renamed.own i record held
  · rw [pushed] at held
    by_cases same : i = d.size
    · rw [if_pos same] at held
      exact Option.some.inj held ▸ born
    · rw [if_neg same] at held
      exact renamed.born i record held
  · rw [pushed] at held
    rw [records]
    by_cases same : i = d.size
    · rw [if_pos same] at held
      exact ⟨t, if_pos (by rw [same]), Option.some.inj held ▸ related⟩
    · rw [if_neg same] at held
      rw [if_neg (by omega)]
      exact renamed.records i record held
  · rw [records] at held
    rw [size]
    by_cases same : i = d.size + ρ.offset.toNat
    · rw [if_pos same] at held
      rw [← Option.some.inj held, related.generation]
      exact ⟨iterate_ne_zero born.1 _, fun _ => by omega⟩
    · rw [if_neg same] at held
      obtain ⟨generation, live⟩ := renamed.others i record held
      exact ⟨generation, fun alive => by have := live alive; omega⟩

def Given (ρ : Renaming) (spare : Nat) (x y : Entity × Directory) : Prop :=
  y.1 = ρ.handle x.1 ∧ Renamed ρ spare x.2 y.2 ∧ x.1.generation ≠ 0 ∧
    ∃ r, x.2.records[x.1.index.toNat]? = some r ∧ r.entity = x.1

theorem one_ne_zero : (1 : UInt32) ≠ 0 := by decide

theorem unused_renamed {index : UInt32} {t : Record} (entity : t.entity = ρ.handle ⟨index, 1⟩)
    (dead : t.isAlive = false) (generation : t.generation = Record.nextGeneration^[ρ.turns index] 1) :
    Record.Renamed ρ ⟨⟨index, 1⟩, none, 0, 1, true⟩ t :=
  ⟨entity, (Record.dead_iff t).mp dead, generation, fun alive => by contradiction, fun alive => by contradiction⟩

theorem append (renamed : Renamed ρ spare d other) (room : other.size < 0xffffffff)
    (place : other.size = d.size + ρ.offset.toNat) (turns : ρ.turns (.ofNat d.size) = 0)
    (supply : ∀ t, if d.recycle then
        Waiting ρ spare { d with records := d.records.push ⟨⟨.ofNat d.size, 1⟩, none, 0, 1, true⟩ }
          { other with records := other.records.push t }
      else Behind ρ spare { d with records := d.records.push ⟨⟨.ofNat d.size, 1⟩, none, 0, 1, true⟩ }
        { other with records := other.records.push t }) :
    Both ρ.handle (Given ρ spare) d.append other.append := by
  have small : d.size < 0xffffffff := by omega
  have index : (UInt32.ofNat d.size).toNat = d.size := UInt32.toNat_ofNat_of_lt' (Nat.lt_trans small (by decide))
  have handle : ρ.handle ⟨.ofNat d.size, 1⟩ = ⟨.ofNat other.size, 1⟩ := by
    rw [Renaming.handle_born one_ne_zero, turns, place, UInt32.ofNat_add, UInt32.ofNat_toNat]
    rfl
  rw [Directory.append, Directory.append, require_ok _ _ (decide_eq_true room),
    require_ok _ _ (decide_eq_true small)]
  refine .ok ⟨handle.symm, ?_, one_ne_zero, ⟨⟨.ofNat d.size, 1⟩, none, 0, 1, true⟩, ?_, rfl⟩
  · refine renamed.extend index ⟨one_ne_zero, one_ne_zero⟩ (t := ⟨⟨.ofNat other.size, 1⟩, none, 0, 1, true⟩)
      (unused_renamed handle.symm rfl (by rw [turns]; rfl)) (fun i => ?_) rfl rfl ?_ (supply _)
    · rw [← place]
      exact Array.getElem?_push
    · exact Nat.le_trans (Nat.le_of_eq (Array.size_push _)) room
  · rw [index]
    exact Array.getElem?_push_size

theorem pop_waiting (renamed : Renamed ρ spare d other) (recycles : d.recycle = true) (none : d.free = [])
    (fewer : d.size < spare) : Both ρ.handle (Given ρ spare) d.append other.reserve := by
  have waiting := renamed.supply
  rw [if_pos recycles] at waiting
  have bound : spare ≤ 0xffffffff := by
    have size := waiting.size
    have bounded := renamed.bounded
    omega
  have small : d.size < 0xffffffff := by omega
  have index : (UInt32.ofNat d.size).toNat = d.size := UInt32.toNat_ofNat_of_lt' (Nat.lt_trans small (by decide))
  have offset : ρ.offset.toNat = 0 := congrArg UInt32.toNat waiting.offset
  let fresh : Record := ⟨⟨.ofNat d.size, 1⟩, .none, 0, 1, true⟩
  let rest := (List.range' (d.size + 1) (spare - (d.size + 1))).map UInt32.ofNat
  have free : other.free = .ofNat d.size :: rest := by
    rw [waiting.free, none, List.nil_append, show spare - d.size = spare - (d.size + 1) + 1 by omega,
      List.range'_succ, List.map_cons]
  obtain ⟨t, held, dead, generation⟩ := waiting.waiting d.size (Nat.le_refl _) fewer
  let used : Record := { t with entity := ⟨.ofNat d.size, t.generation⟩ }
  have handle : ρ.handle ⟨.ofNat d.size, 1⟩ = ⟨.ofNat d.size, t.generation⟩ := by
    rw [Renaming.handle_born one_ne_zero, waiting.offset, generation]
    exact congrArg (Entity.mk · _) (UInt32.add_zero _)
  have popped : other.reserve = .ok (⟨.ofNat d.size, t.generation⟩,
      ({ other with free := rest } : Directory).update (.ofNat d.size) used) := by
    simp only [Directory.reserve, renamed.recycle.trans recycles, free, index, held, used]
  rw [popped, Directory.append, require_ok _ _ (decide_eq_true small)]
  refine .ok ⟨handle.symm, ?_, one_ne_zero, fresh, ?_, rfl⟩
  · have size : (({ other with free := rest } : Directory).update (.ofNat d.size) used).size = other.size :=
      Array.size_setIfInBounds
    have grown : ({ d with records := d.records.push fresh } : Directory).size = d.size + 1 := Array.size_push _
    have kept (i : Nat) : (({ other with free := rest } : Directory).update (.ofNat d.size) used).records[i]? =
        if i = d.size + ρ.offset.toNat then some used else other.records[i]? := by
      have replaced := record_replace (d := other) (.ofNat d.size) used t (by rw [index]; exact held) i
      rw [index] at replaced
      rw [offset, Nat.add_zero, Directory.update, index]
      exact replaced
    refine renamed.extend index ⟨one_ne_zero, one_ne_zero⟩ (t := used)
      (unused_renamed handle.symm dead generation) kept rfl rfl
      (Nat.le_trans (Nat.le_of_eq size) renamed.bounded) ((if_pos recycles).mpr ?_)
    refine ⟨waiting.offset, ?_, ?_, fun i low high => ?_, waiting.late⟩
    · rw [grown, none]
      rfl
    · rw [size, grown, waiting.size]
      omega
    · rw [grown] at low
      obtain ⟨u, there, rest⟩ := waiting.waiting i (by omega) high
      refine ⟨u, ?_, rest⟩
      rw [kept, if_neg (by omega)]
      exact there
  · rw [index]
    exact Array.getElem?_push_size

theorem append_behind (renamed : Renamed ρ spare d other) (appends : d.recycle = false)
    (room : spare + d.size < 0xffffffff) : Both ρ.handle (Given ρ spare) d.append other.append := by
  have behind := renamed.supply
  rw [if_neg (by simp [appends])] at behind
  have place : other.size = d.size + ρ.offset.toNat := by rw [behind.size, behind.offset, Nat.add_comm]
  refine renamed.append (by rw [behind.size]; exact room) place (behind.turns _) fun t => ?_
  refine (if_neg (by simp [appends])).mpr ⟨behind.offset, ?_, behind.turns⟩
  have before : other.records.size = spare + d.records.size := behind.size
  show (other.records.push t).size = spare + (d.records.push _).size
  rw [Array.size_push, Array.size_push, before, Nat.add_assoc]

theorem pop_freed (renamed : Renamed ρ spare d other) (recycles : d.recycle = true) {index : UInt32}
    {rest : List UInt32} (free : d.free = index :: rest) :
    Both ρ.handle (Given ρ spare) d.reserve other.reserve := by
  have supply := renamed.supply
  rw [if_pos recycles] at supply
  have inside := renamed.free index (free ▸ List.mem_cons_self)
  obtain ⟨r, held⟩ : ∃ r, d.records[index.toNat]? = some r := ⟨_, Array.getElem?_eq_getElem inside⟩
  obtain ⟨t, there, related⟩ := renamed.records _ r held
  have offset : ρ.offset.toNat = 0 := congrArg UInt32.toNat supply.offset
  rw [offset, Nat.add_zero] at there
  have own : r.entity.index = index := UInt32.toNat_inj.mp (renamed.own _ r held)
  have born := (renamed.born _ r held).1
  have handle : ρ.handle ⟨index, r.generation⟩ = ⟨index, t.generation⟩ := by
    rw [Renaming.handle_born born, related.generation, own, supply.offset]
    exact congrArg (Entity.mk · _) (UInt32.add_zero _)
  let waiting := (List.range' d.size (spare - d.size)).map UInt32.ofNat
  have first : d.reserve = .ok (⟨index, r.generation⟩,
      ({ d with free := rest } : Directory).update index { r with entity := ⟨index, r.generation⟩ }) := by
    simp only [Directory.reserve, recycles, free, held]
  have second : other.reserve = .ok (⟨index, t.generation⟩,
      ({ other with free := rest ++ waiting } : Directory).update index
        { t with entity := ⟨index, t.generation⟩ }) := by
    simp only [Directory.reserve, renamed.recycle.trans recycles, supply.free, free, List.cons_append, there,
      waiting]
  rw [first, second]
  have popped : Renamed ρ spare { d with free := rest } { other with free := rest ++ waiting } :=
    ⟨renamed.recycle, renamed.alive, renamed.own, renamed.born, renamed.records, renamed.others,
      renamed.bounded, fun i member => renamed.free i (free ▸ List.mem_cons_of_mem index member),
      (if_pos recycles).mpr ⟨supply.offset, rfl, supply.size, supply.waiting, supply.late⟩⟩
  have updated := popped.update (e := ⟨index, r.generation⟩) born held
    (r := { r with entity := ⟨index, r.generation⟩ }) (t := { t with entity := ⟨index, t.generation⟩ })
    ⟨handle.symm, related.block, own ▸ related.generation, related.row, related.enabled⟩ rfl ⟨born, born⟩
  rw [handle] at updated
  exact .ok ⟨handle.symm, updated, born, _, (record_replace index _ r held _).trans (if_pos rfl), rfl⟩

theorem append_late (renamed : Renamed ρ spare d other) (recycles : d.recycle = true)
    (used : spare ≤ d.size) : Both ρ.handle (Given ρ spare) d.append other.append := by
  have supply := renamed.supply
  rw [if_pos recycles] at supply
  have place : other.size = d.size := by
    rw [supply.size]
    omega
  rcases Nat.lt_or_eq_of_le (place ▸ renamed.bounded : d.size ≤ 0xffffffff) with room | full
  · have index : (UInt32.ofNat d.size).toNat = d.size :=
      UInt32.toNat_ofNat_of_lt' (Nat.lt_trans room (by decide))
    have offset : ρ.offset.toNat = 0 := congrArg UInt32.toNat supply.offset
    refine renamed.append (place ▸ room) (by rw [place, offset]; rfl)
      (supply.late _ (by rw [index]; exact used)) fun t => (if_pos recycles).mpr ?_
    have grown : ({ d with records := d.records.push ⟨⟨.ofNat d.size, 1⟩, none, 0, 1, true⟩ } :
        Directory).size = d.size + 1 := Array.size_push _
    have grownOther : ({ other with records := other.records.push t } : Directory).size = d.size + 1 :=
      (Array.size_push _).trans (congrArg (· + 1) place)
    refine ⟨supply.offset, ?_, ?_, fun i low high => ?_, supply.late⟩
    · have same := supply.free
      rw [Nat.sub_eq_zero_of_le used] at same
      rw [grown, Nat.sub_eq_zero_of_le (by omega)]
      exact same
    · rw [grown, grownOther]
      omega
    · omega
  · rw [Directory.append, Directory.append, place, full]
    exact .error (.same _)

-- An index is given out on both sides: one that was freed since, else one that waits on the other side,
-- else a new one.
theorem reserve (renamed : Renamed ρ spare d other) (room : d.recycle = false → spare + d.size < 0xffffffff) :
    Both ρ.handle (Given ρ spare) d.reserve other.reserve := by
  cases recycles : d.recycle with
  | false =>
      have both : d.reserve = d.append ∧ other.reserve = other.append := by
        rw [Directory.reserve, Directory.reserve, recycles, renamed.recycle.trans recycles]
        exact ⟨rfl, rfl⟩
      rw [both.1, both.2]
      exact renamed.append_behind recycles (room recycles)
  | true =>
      cases free : d.free with
      | cons index rest => exact renamed.pop_freed recycles free
      | nil =>
          have first : d.reserve = d.append := by
            rw [Directory.reserve, recycles, free]
          rw [first]
          by_cases fewer : d.size < spare
          · exact renamed.pop_waiting recycles free fewer
          · have supply := renamed.supply
            rw [if_pos recycles] at supply
            have second : other.reserve = other.append := by
              rw [Directory.reserve, renamed.recycle.trans recycles, supply.free, free,
                Nat.sub_eq_zero_of_le (Nat.le_of_not_lt fewer)]
              rfl
            rw [second]
            exact renamed.append_late recycles (Nat.le_of_not_lt fewer)

theorem place (renamed : Renamed ρ spare d other) (born : e.generation ≠ 0) {r : Record}
    (held : d.records[e.index.toNat]? = some r) (entity : r.entity = e) (block : BlockId) (row : Nat) :
    Both ρ.handle (Renamed ρ spare) (d.place e block row) (other.place (ρ.handle e) block row) := by
  obtain ⟨t, there, related⟩ := renamed.records _ r held
  rw [← renamed.index_handle born held] at there
  rw [Directory.place, Directory.place, held, there]
  simp only [related.entity, entity, decide_true, renamed.alive]
  refine both_bind_same _ fun _ _ => .ok ?_
  refine (renamed.recount (d.alive + 1)).update born held ⟨rfl, rfl, ?_, fun _ => rfl, fun _ => rfl⟩ rfl
    ⟨born, born⟩
  rw [Renaming.handle_born born]

theorem abandon (renamed : Renamed ρ spare d other) {r : Record} (held : d.records[e.index.toNat]? = some r) :
    Both ρ.handle (Renamed ρ spare) (d.abandon e) (other.abandon (ρ.handle e)) := by
  rw [Directory.abandon, Directory.abandon, renamed.is_alive]
  refine both_bind_same _ fun _ _ => .ok ?_
  by_cases recycles : d.recycle = true
  · rw [if_pos recycles, if_pos (renamed.recycle.trans recycles), renamed.index_same recycles]
    exact renamed.push_free recycles e.index (Array.getElem?_eq_some_iff.mp held).1
  · rw [if_neg recycles, if_neg (renamed.recycle ▸ recycles : ¬ other.recycle = true)]
    exact renamed

end Renamed

section Entities

def tenantOf? (d : Directory) (i : Nat) : Option Entity :=
  ((d.records[i]?).filter Record.isAlive).map Record.entity

theorem filter_range (records : List Record) (n : Nat) (enough : records.length ≤ n) :
    (records.filter Record.isAlive).map Record.entity =
      (List.range n).filterMap fun i => ((records[i]?).filter Record.isAlive).map Record.entity := by
  induction records generalizing n with
  | nil =>
      refine (List.filterMap_eq_nil_iff.mpr fun i _ => ?_).symm
      rw [List.getElem?_nil]
      rfl
  | cons r rest ih =>
      cases n with
      | zero => contradiction
      | succ n =>
          have later := ih n (Nat.le_of_succ_le_succ enough)
          rw [List.range_succ_eq_map, List.filterMap_cons, List.filterMap_map]
          cases alive : r.isAlive with
          | true => simpa [alive, Option.filter_some, Function.comp_def] using later
          | false => simpa [alive, Option.filter_some, Function.comp_def] using later

theorem entities_range (d : Directory) (n : Nat) (enough : d.size ≤ n) :
    d.entities = (List.range n).filterMap d.tenantOf? := by
  rw [entities, live, filter_range d.records.toList n enough]
  refine congrArg (List.filterMap · _) (funext fun i => ?_)
  rw [Array.getElem?_toList]
  rfl

theorem Renamed.tenant_of (renamed : Renamed ρ spare d other) (i : Nat) :
    other.tenantOf? (ρ.offset.toNat + i) = (d.tenantOf? i).map ρ.handle := by
  rw [tenantOf?, tenantOf?, Nat.add_comm]
  cases held : d.records[i]? with
  | some r =>
      obtain ⟨t, there, related⟩ := renamed.records i r held
      have alive : t.isAlive = r.isAlive := congrArg Option.isSome related.block
      rw [there, Option.filter_some, Option.filter_some, alive]
      split
      · exact congrArg some related.entity
      · rfl
  | none =>
      have beyond : d.size ≤ i := Array.getElem?_eq_none_iff.mp held
      cases there : other.records[i + ρ.offset.toNat]? with
      | none => rfl
      | some t =>
          have dead : t.isAlive = false := by
            refine Bool.eq_false_iff.mpr fun alive => ?_
            have := (renamed.others _ t there).2 alive
            omega
          simp only [Option.filter_some, dead]
          rfl

theorem Renamed.tenant_before (renamed : Renamed ρ spare d other) {i : Nat} (before : i < ρ.offset.toNat) :
    other.tenantOf? i = none := by
  rw [tenantOf?]
  cases there : other.records[i]? with
  | none => rfl
  | some t =>
      have dead : t.isAlive = false := by
        refine Bool.eq_false_iff.mpr fun alive => ?_
        have := (renamed.others _ t there).2 alive
        omega
      simp only [Option.filter_some, dead]
      rfl

theorem Renamed.entities (renamed : Renamed ρ spare d other) : other.entities = d.entities.map ρ.handle := by
  have before : (List.range ρ.offset.toNat).filterMap other.tenantOf? = [] :=
    List.filterMap_eq_nil_iff.mpr fun i member => renamed.tenant_before (List.mem_range.mp member)
  rw [other.entities_range (ρ.offset.toNat + (d.size + other.size)) (by omega),
    d.entities_range (d.size + other.size) (by omega), List.range_add, List.filterMap_append, before,
    List.nil_append, List.filterMap_map, List.map_filterMap]
  exact congrArg (List.filterMap · _) (funext fun i => renamed.tenant_of i)

end Entities

end Directory

end EntityStore
