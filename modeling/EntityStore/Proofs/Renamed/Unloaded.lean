import EntityStore.Proofs.Renamed.Scene
import EntityStore.Proofs.Scene.Handles
import EntityStore.Proofs.Scene.Recycling

set_option autoImplicit false

namespace EntityStore

open Checked

theorem iterate_from_one (k : Nat) (small : k + 1 < 0x100000000) :
    (Record.nextGeneration^[k] 1).toNat = k + 1 := by
  induction k with
  | zero => rfl
  | succ k ih =>
      have before := ih (by omega)
      rw [Function.iterate_succ_apply', Slot.next_generation_toNat _ (by omega), before]

theorem iterate_to_born {g : UInt32} (born : g ≠ 0) : Record.nextGeneration^[g.toNat - 1] 1 = g := by
  have positive : g.toNat ≠ 0 := fun zero => born (UInt32.toNat_inj.mp zero)
  have bound := g.toNat_lt
  refine UInt32.toNat_inj.mp ((iterate_from_one _ ?_).trans ?_)
  · omega
  · omega

def Renaming.past (d : Directory) : Renaming :=
  if d.recycle then ⟨0, fun i => ((d.records[i.toNat]?).map fun r => r.generation.toNat - 1).getD 0⟩
  else ⟨.ofNat d.size, fun _ => 0⟩

namespace Directory

variable {d : Directory}

structure Cleared (d : Directory) : Prop where
  sound : d.Sound
  alive : d.alive = 0
  dead : ∀ (i : Nat) t, d.records[i]? = some t → t.isAlive = false
  free : d.free = if d.recycle then (List.range d.size).map UInt32.ofNat else []

theorem cleared_of_clear (sound : d.Sound) : Cleared d.clear := by
  obtain ⟨clearSound, -, alive, slots⟩ := clear_ok sound
  refine ⟨clearSound, alive, fun i t held => ?_, by rw [size_clear]; rfl⟩
  have slot : d.clear.slot? i = some (t.generation, t.isAlive) := by rw [slot?, held]; rfl
  rw [slots i] at slot
  obtain ⟨before, -, same⟩ := Option.map_eq_some_iff.mp slot
  exact (Prod.mk.inj same).2.symm

theorem Cleared.waiting (cleared : Cleared d) (recycles : d.recycle = true) :
    Waiting (.past d) d.size (create true) d := by
  have past : Renaming.past d =
      ⟨0, fun i => ((d.records[i.toNat]?).map fun r => r.generation.toNat - 1).getD 0⟩ := if_pos recycles
  rw [past]
  refine ⟨rfl, ?_, (Nat.max_eq_left (Nat.zero_le _)).symm, fun i _ inside => ?_, fun i beyond => ?_⟩
  · rw [cleared.free, if_pos recycles, List.range_eq_range']
    rfl
  · have small : i < UInt32.size := Nat.lt_trans (Nat.lt_of_lt_of_le inside cleared.sound.bounded) (by decide)
    have index : (UInt32.ofNat i).toNat = i := UInt32.toNat_ofNat_of_lt' small
    obtain ⟨t, held⟩ : ∃ t, d.records[i]? = some t := ⟨_, Array.getElem?_eq_getElem inside⟩
    refine ⟨t, held, cleared.dead i t held, ?_⟩
    simp only [index, held, Option.map_some, Option.getD_some]
    exact (iterate_to_born (cleared.sound.valid i t held).born).symm
  · have nothing : d.records[i.toNat]? = none := Array.getElem?_eq_none_iff.mpr beyond
    simp only [nothing, Option.map_none, Option.getD_none]

theorem Cleared.behind (cleared : Cleared d) (appends : d.recycle = false) :
    Behind (.past d) d.size (create false) d := by
  have past : Renaming.past d = ⟨.ofNat d.size, fun _ => 0⟩ := if_neg (by rw [appends]; decide)
  rw [past]
  exact ⟨UInt32.toNat_ofNat_of_lt' (Nat.lt_of_le_of_lt cleared.sound.bounded (by decide)), rfl, fun _ => rfl⟩

theorem Cleared.renamed (cleared : Cleared d) : Renamed (.past d) d.size (create d.recycle) d where
  recycle := rfl
  alive := cleared.alive
  own i r held := by simp [create] at held
  born i r held := by simp [create] at held
  records i r held := by simp [create] at held
  others i t held := by
    refine ⟨(cleared.sound.valid i t held).born, fun alive => ?_⟩
    rw [cleared.dead i t held] at alive
    contradiction
  bounded := cleared.sound.bounded
  free i member := absurd member List.not_mem_nil
  supply := by
    cases recycles : d.recycle with
    | true => exact (if_pos rfl).mpr (cleared.waiting recycles)
    | false => exact (if_neg (by decide)).mpr (cleared.behind recycles)

end Directory

namespace Store

variable {s next : Store}

structure Vacant (s : Store) : Prop where
  pool : s.pool.drain.2 = s.pool
  index : s.index = .empty
  cache : s.cache = .empty

theorem vacant_of_create {settings : Settings} (made : create settings = .ok s) :
    s.Vacant := by
  rw [create, Pool.create] at made
  split at made
  · contradiction
  · cases lent : Slab.create settings.blockBytes settings.maxBlocks with
    | error fault =>
        rw [lent] at made
        contradiction
    | ok slab =>
        rw [lent] at made
        obtain rfl := Except.ok.inj made
        exact ⟨by simp [Pool.drain], rfl, rfl⟩

theorem vacant_of_clear (emptied : s.clear = .ok next) : next.Vacant := by
  rw [clear] at emptied
  cases released : releaseAll s.slab s.pool.drain.1 with
  | error fault =>
      simp only [released] at emptied
      contradiction
  | ok slab =>
      simp only [released] at emptied
      obtain rfl := Except.ok.inj emptied
      exact ⟨by simp [Pool.drain, bump], rfl, rfl⟩

theorem Vacant.block (vacant : s.Vacant) (id : BlockId) : s.block? id = none := by
  rw [block?, ← vacant.pool]
  exact (Pool.drain_ok s.pool).2.2.2.2 id

theorem Vacant.renamed {registry : Registry} (ρ : Entity → Entity) (vacant : s.Vacant) (sound : s.Sound registry)
    (nextVacant : next.Vacant) (nextSound : next.Sound registry) (alike : Alike s next) :
    Renamed ρ (next.generation - s.generation) registry s next := by
  have slots : next.pool.slots.size = s.pool.slots.size := alike.slots
  have pools : next.pool = s.pool := by
    rw [← vacant.pool, ← nextVacant.pool, Pool.drain, Pool.drain, slots]
  have generations : s.generation + (next.generation - s.generation) = next.generation := by
    rw [UInt64.add_comm, UInt64.sub_add_cancel]
  refine ⟨?_, ⟨slots, by rw [pools], by rw [pools], fun id => ?_⟩, ⟨?_, sound.clean, nextSound.clean⟩, fun q => ?_,
    sound.layouts, nextSound.layouts⟩
  · obtain ⟨capacity, blockBytes, policy, caches, -⟩ := alike
    rw [generations]
    cases s
    cases next
    have index := vacant.index.trans nextVacant.index.symm
    simp_all
  · have here : s.pool.get? id = none := vacant.block id
    have there : next.pool.get? id = none := nextVacant.block id
    rw [here, there]
    exact .none
  · have bytes := nextSound.buffers.trans (alike.blockBytes.trans sound.buffers.symm)
    have capacity := nextSound.budget.trans (alike.slots.trans sound.budget.symm)
    have outstanding := nextSound.lent.trans ((congrArg Pool.allocated pools).trans sound.lent.symm)
    exact (Slab.alike_of bytes capacity outstanding sound.clean nextSound.clean).frame
  · rw [vacant.cache, nextVacant.cache]
    rfl

end Store

namespace Scene

variable {name : String} {settings : Settings} {registry : Registry} {first s : Scene}
  {commands : List Command} {outcomes : List (Outcome Reply)}

theorem parts_of_created (made : create name settings registry = .ok (.ok s)) :
    Store.create settings = .ok s.store ∧ s.directory = .create settings.recycleIndices := by
  cases valid : settings.validate with
  | error error => simp [create, valid] at made
  | ok done =>
      cases stored : Store.create settings with
      | error fault =>
          simp only [create, valid, build, stored] at made
          contradiction
      | ok store =>
          simp only [create, valid, build, stored] at made
          obtain rfl := Except.ok.inj (Except.ok.inj made)
          exact ⟨rfl, rfl⟩

theorem directory_of_unloaded {unloaded : Scene} (unloads : s.unload = .ok unloaded) :
    unloaded.directory = s.directory.clear := by
  obtain ⟨told, _, rest⟩ := bind_ok_iff.mp unloads
  obtain ⟨deliveries, announced⟩ := announce_all_eq s told
  simp only [announced] at rest
  obtain ⟨store, _, same⟩ := bind_ok_iff.mp rest
  rw [← Except.ok.inj same]

theorem renamed_of_unloaded (genuine : registry.Genuine) (made : create name settings registry = .ok (.ok first))
    (ran : first.performAll commands = .ok (outcomes, s)) : ∃ unloaded shift, s.unload = .ok unloaded ∧
      unloaded.directory.recycle = settings.recycleIndices ∧
      Renamed (.past unloaded.directory) unloaded.directory.size shift first unloaded := by
  obtain ⟨stored, directory⟩ := parts_of_created made
  have blank := blank_of_created genuine made
  obtain ⟨sound, alike⟩ := run_sound blank.sound ran
  obtain ⟨deliveries, announced⟩ := announce_all_eq s ((s.store.blocks.map Prod.snd).flatMap farewellsOf)
  have unloads := unload_eq sound
  obtain ⟨store, emptied, storeSound, kept, -⟩ := Store.clear_ok sound.store
  rw [emptied, announced] at unloads
  have recycle : s.directory.clear.recycle = settings.recycleIndices :=
    (run_steady ran).trans (congrArg Directory.recycle directory)
  refine ⟨_, store.generation - first.store.generation, unloads, recycle, alike.registry, ?_, ?_⟩
  · exact (Store.vacant_of_create stored).renamed _ blank.sound.store (Store.vacant_of_clear emptied)
      (alike.registry ▸ storeSound) (alike.toAlike.trans kept)
  · have renamed := (Directory.cleared_of_clear sound.directory).renamed
    rw [recycle, ← directory] at renamed
    exact renamed

end Scene

end EntityStore
