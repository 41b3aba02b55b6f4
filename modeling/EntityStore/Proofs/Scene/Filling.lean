import EntityStore.Proofs.Renamed.Unloaded
import EntityStore.Proofs.Store.Filling

set_option autoImplicit false

namespace EntityStore.Scene

open Checked

variable {s next last : Scene} {signature : Signature} {layout : Layout} {count : Nat}
  {outcome : Outcome Reply} {outcomes : List (Outcome Reply)}

structure Filling (s : Scene) (signature : Signature) (layout : Layout) (count : Nat) : Prop where
  sound : s.Sound
  standing : s.store.Standing s.registry
  made : Layout.generate signature s.registry s.store.capacity s.store.blockBytes = .ok (.ok layout)
  filled : s.store.Filled signature count

inductive Extends (s next : Scene) (signature : Signature) (count : Nat) : Outcome Reply → Prop where
  | placed (room : count < s.store.capacity * s.store.pool.capacity) (e : Entity)
      (unused : s.directory.location? e = none)
      (locations : next.directory.location? = Function.update s.directory.location? e
        (some ⟨count / s.store.capacity, count % s.store.capacity, true⟩))
      (standing : next.store.Standing s.registry) (filled : next.store.Filled signature (count + 1)) :
      Extends s next signature count (.ok (.entity e))
  | full (whole : count = s.store.capacity * s.store.pool.capacity)
      (standing : next.store.Standing s.registry) (filled : next.store.Filled signature count)
      (locations : next.directory.location? = s.directory.location?) :
      Extends s next signature count (.error (.outOfSlabs s.store.pool.capacity))

section Step

variable (filling : s.Filling signature layout count)

include filling

theorem place_new_extends :
    Ensures (fun fault => fault = .indexSpaceExhausted ∧ 0xffffffff ≤ s.directory.size)
      (s.placeNew signature) fun (outcome, next) =>
        Extends s next signature count (outcome.map fun placed => .entity placed.1) := by
  unfold placeNew
  refine ensures_bind _ (Directory.reserve_ok filling.sound.directory) ?_
  intro ⟨e, directory⟩ reserved
  rcases Store.insert_fills filling.standing filling.filled filling.made e with
    ⟨room, store, standing, alike, inserted, filled⟩ | ⟨whole, store, standing, alike, refused, filled⟩
  · have narrow : count % s.store.capacity < UInt32.size :=
      Nat.lt_trans (Nat.mod_lt count filling.standing.positive) filling.sound.store.narrow
    obtain ⟨final, placed, _, locations, _⟩ :=
      Directory.place_ok reserved (count / s.store.capacity) narrow
    simp only [inserted, placed, ok_bind]
    exact .placed room e reserved.unused locations standing filled
  · obtain ⟨final, abandoned, _, locations, _⟩ := Directory.abandon_ok reserved
    simp only [refused, abandoned, ok_bind]
    exact .full whole standing filled locations

theorem create_extends :
    Ensures (fun fault => fault = .indexSpaceExhausted ∧ 0xffffffff ≤ s.directory.size)
      (s.perform (.create signature)) fun (outcome, next) => Extends s next signature count outcome := by
  rw [perform, perform.told, createEntity]
  refine ensures_map _ (ensures_bind _ (place_new_extends filling) fun result extended => ?_)
    fun result extended => extended
  obtain ⟨outcome, next⟩ := result
  cases outcome <;> exact extended

theorem filling_step (performed : s.perform (.create signature) = .ok (outcome, next)) :
    Extends s next signature count outcome ∧ Store.Alike s.store next.store ∧
      next.Filling signature layout (min (count + 1) (s.store.capacity * s.store.pool.capacity)) := by
  have step := performed_step filling.sound performed
  have extended := create_extends filling
  rw [performed] at extended
  have extended : Extends s next signature count outcome := extended
  have alike := step.alike
  have made := filling.made
  rw [← alike.registry, ← alike.capacity, ← alike.blockBytes] at made
  refine ⟨extended, alike.toAlike, ?_⟩
  cases extended with
  | placed room e unused locations standing filled =>
      rw [Nat.min_eq_left room]
      exact ⟨step.sound, alike.registry ▸ standing, made, filled⟩
  | full whole standing filled locations =>
      rw [Nat.min_eq_right (by omega), ← whole]
      exact ⟨step.sound, alike.registry ▸ standing, made, filled⟩

theorem run_goes_on (n : Nat) (few : s.directory.size + n ≤ 0xffffffff) :
    ∃ outcomes last, s.performAll (List.replicate n (.create signature)) = .ok (outcomes, last) := by
  induction n generalizing s count with
  | zero => exact ⟨[], s, rfl⟩
  | succ n ih =>
      have extended := create_extends filling
      cases performed : s.perform (.create signature) with
      | error fault =>
          rw [performed] at extended
          have full := extended.2
          omega
      | ok result =>
          obtain ⟨outcome, next⟩ := result
          have size := step_size (performed_step filling.sound performed)
          obtain ⟨_, _, fillingNext⟩ := filling_step filling performed
          obtain ⟨outcomes, last, ran⟩ := ih fillingNext (by omega)
          exact ⟨_, last, (perform_all_cons_iff _ _).mpr ⟨outcome, next, outcomes, performed, ran, rfl⟩⟩

end Step

structure Fills (s last : Scene) (count n : Nat) (outcomes : List (Outcome Reply)) : Prop where
  kept : ∀ e l, s.directory.location? e = some l → last.directory.location? e = some l
  placed : ∀ i < n, count + i < s.store.capacity * s.store.pool.capacity → ∃ e,
    outcomes[i]? = some (.ok (.entity e)) ∧ last.directory.location? e =
      some ⟨(count + i) / s.store.capacity, (count + i) % s.store.capacity, true⟩
  refused : ∀ i < n, s.store.capacity * s.store.pool.capacity ≤ count + i →
    outcomes[i]? = some (.error (.outOfSlabs s.store.pool.capacity))

theorem fills_cons {middle : Scene} {n : Nat} (extended : Extends s middle signature count outcome)
    (alike : Store.Alike s.store middle.store)
    (fills : Fills middle last (min (count + 1) (s.store.capacity * s.store.pool.capacity)) n outcomes) :
    Fills s last count (n + 1) (outcome :: outcomes) := by
  obtain ⟨kept, placed, refused⟩ := fills
  rw [alike.capacity, alike.slots] at placed refused
  cases extended with
  | placed room e unused locations =>
      rw [Nat.min_eq_left room] at placed refused
      refine ⟨fun q l found => kept q l ?_, fun i bound inside => ?_, fun i bound outside => ?_⟩
      · have other : q ≠ e := by
          rintro rfl
          rw [unused] at found
          contradiction
        rw [locations, Function.update_of_ne other, found]
      · cases i with
        | zero =>
            have here := congrFun locations e
            rw [Function.update_self] at here
            exact ⟨e, rfl, kept e _ here⟩
        | succ i =>
            rw [← Nat.succ_add_eq_add_succ count] at inside ⊢
            exact placed i (Nat.lt_of_succ_lt_succ bound) inside
      · cases i with
        | zero => exact absurd room (Nat.not_lt.mpr outside)
        | succ i =>
            rw [← Nat.succ_add_eq_add_succ count] at outside
            exact refused i (Nat.lt_of_succ_lt_succ bound) outside
  | full whole standing filled locations =>
      rw [← whole, Nat.min_eq_right (Nat.le_succ count)] at refused
      refine ⟨fun q l found => kept q l (locations ▸ found), fun i bound inside => ?_, fun i bound outside => ?_⟩
      · exact absurd (Nat.le_add_right count i) (Nat.not_le.mpr (whole ▸ inside))
      · cases i with
        | zero => rfl
        | succ i => exact refused i (Nat.lt_of_succ_lt_succ bound) (Nat.le_add_right count i)

theorem run_filling (filling : s.Filling signature layout count) (n : Nat)
    (ran : s.performAll (List.replicate n (.create signature)) = .ok (outcomes, last)) :
    Fills s last count n outcomes ∧ Store.Alike s.store last.store ∧
      last.Filling signature layout (min (count + n) (s.store.capacity * s.store.pool.capacity)) := by
  induction n generalizing s count outcomes with
  | zero =>
      obtain ⟨rfl, rfl⟩ := Prod.mk.inj (Except.ok.inj ran)
      rw [Nat.add_zero, Nat.min_eq_left filling.filled.bound]
      exact ⟨⟨fun _ _ found => found, fun i bound => absurd bound (Nat.not_lt_zero i),
        fun i bound => absurd bound (Nat.not_lt_zero i)⟩, Store.Alike.refl s.store, filling⟩
  | succ n ih =>
      obtain ⟨outcome, middle, following, performed, went, rfl⟩ := (perform_all_cons_iff _ _).mp ran
      obtain ⟨extended, alike, fillingMiddle⟩ := filling_step filling performed
      obtain ⟨fills, alikeLast, fillingLast⟩ := ih fillingMiddle went
      refine ⟨fills_cons extended alike fills, alike.trans alikeLast, ?_⟩
      have total (limit : Nat) : min (min (count + 1) limit + n) limit = min (count + (n + 1)) limit := by omega
      rw [alike.capacity, alike.slots, total] at fillingLast
      exact fillingLast

section Created

variable {name : String} {settings : Settings} {registry : Registry} {first : Scene}

theorem filling_of_created (valid : settings.validate = .ok ()) (genuine : registry.Genuine)
    (fits : Layout.generate signature registry settings.blockCapacity settings.blockBytes = .ok (.ok layout))
    (created : create name settings registry = .ok (.ok first)) :
    first.Filling signature layout 0 ∧ first.store.capacity = settings.blockCapacity ∧
      first.store.pool.capacity = settings.maxBlocks ∧ first.directory.size = 0 := by
  obtain ⟨stored, directory⟩ := parts_of_created created
  obtain ⟨store, made, bare⟩ := Store.create_bare settings registry valid
  obtain rfl := Except.ok.inj (stored.symm.trans made)
  have standing := Store.standing_of_bare valid genuine bare
  have filled : first.store.Filled signature 0 := Store.filled_new stored bare standing.positive
  have blank := blank_of_created genuine created
  refine ⟨⟨blank.sound, blank.registry.symm ▸ standing, ?_, filled⟩, bare.capacity, bare.slots, ?_⟩
  · rw [blank.registry, bare.capacity, bare.blockBytes]
    exact fits
  · rw [directory]
    rfl

end Created

-- A new scene after so many creations with one signature. Places are numbered block by block, row by row.
structure Dense (settings : Settings) (signature : Signature) (n : Nat) (outcomes : List (Outcome Reply))
    (s : Scene) : Prop where
  placed : ∀ i < n, i < settings.blockCapacity * settings.maxBlocks → ∃ e,
    outcomes[i]? = some (.ok (.entity e)) ∧
      s.locate e = .ok ⟨i / settings.blockCapacity, i % settings.blockCapacity, true⟩
  refused : ∀ i < n, settings.blockCapacity * settings.maxBlocks ≤ i →
    outcomes[i]? = some (.error (.outOfSlabs settings.maxBlocks))
  count : s.store.blockCount =
    Store.blocksFor settings.blockCapacity (min n (settings.blockCapacity * settings.maxBlocks))
  live : ∀ id : Nat, (∃ b, s.store.block? id = some b) ↔ id < s.store.blockCount
  blocks : ∀ (id : Nat) b, s.store.block? id = some b → b.signature = signature ∧ b.disabledCount = 0 ∧
    b.entityCount = min settings.blockCapacity
      (min n (settings.blockCapacity * settings.maxBlocks) - settings.blockCapacity * id)
  full : ∀ (id : Nat) b, s.store.block? id = some b → id + 1 < s.store.blockCount →
    b.entityCount = settings.blockCapacity

theorem dense_of_filling {settings : Settings} {n : Nat} (filling : s.Filling signature layout 0)
    (capacity : s.store.capacity = settings.blockCapacity) (slots : s.store.pool.capacity = settings.maxBlocks)
    (ran : s.performAll (List.replicate n (.create signature)) = .ok (outcomes, last)) :
    Dense settings signature n outcomes last ∧
      ∃ total, last.Filling signature layout total := by
  obtain ⟨fills, alike, fillingLast⟩ := run_filling filling n ran
  obtain ⟨_, placed, refused⟩ := fills
  rw [capacity, slots] at placed refused fillingLast
  simp only [Nat.zero_add] at placed refused fillingLast
  have standing := fillingLast.standing
  have filled := fillingLast.filled
  have same := alike.capacity.trans capacity
  have count := Store.filled_count standing filled
  refine ⟨⟨fun i bound inside => ?_, refused, same ▸ count, fun id => ?_, fun id b found => ?_,
    fun id b found before => ?_⟩, _, fillingLast⟩
  · obtain ⟨e, reply, location⟩ := placed i bound inside
    exact ⟨e, reply, locate_some location⟩
  · rw [count]
    exact Store.filled_live standing filled id
  · obtain ⟨signed, start, _⟩ := filled.blocks id b found
    have rows := Store.filled_rows standing filled found
    rw [same] at rows
    have none : b.disabledCount = 0 := by
      rw [Block.disabledCount, standing.capacities id b found, start, Nat.sub_self]
    exact ⟨signed, none, rows⟩
  · exact same ▸ Store.filled_full standing filled found before

/-- Creating entities of one signature that fits into a block fills a new scene without gaps, under both
policies: block after block and in each block row after row, until every row of every block is taken.
All further creations answer that no slab is left. Creations go on as long as an index is left. -/
theorem run_fills (name : String) (settings : Settings) (registry : Registry)
    (valid : settings.validate = .ok ()) (genuine : registry.Genuine) (signature : Signature) (layout : Layout)
    (fits : Layout.generate signature registry settings.blockCapacity settings.blockBytes = .ok (.ok layout)) :
    ∃ first, create name settings registry = .ok (.ok first) ∧ ∀ n,
      (n ≤ 0xffffffff → ∃ outcomes s,
        first.performAll (List.replicate n (.create signature)) = .ok (outcomes, s)) ∧
      ∀ outcomes s, first.performAll (List.replicate n (.create signature)) = .ok (outcomes, s) →
        Dense settings signature n outcomes s ∧ (s.directory.size < 0xffffffff → ∃ outcome next,
          s.perform (.create signature) = .ok (outcome, next)) := by
  obtain ⟨first, created, _⟩ := create_ok name settings registry valid genuine
  obtain ⟨filling, capacity, slots, size⟩ := filling_of_created valid genuine fits created
  refine ⟨first, created, fun n => ⟨fun few => ?_, fun outcomes s ran => ?_⟩⟩
  · exact run_goes_on filling n (by omega)
  · obtain ⟨dense, total, fillingLast⟩ := dense_of_filling filling capacity slots ran
    refine ⟨dense, fun left => ?_⟩
    obtain ⟨following, next, went⟩ := run_goes_on fillingLast 1 left
    obtain ⟨outcome, next, _, performed, _⟩ := (perform_all_cons_iff _ _).mp went
    exact ⟨outcome, next, performed⟩

theorem run_fills_dense : ∃ first outcomes s, create "s" Store.dense .builtins = .ok (.ok first) ∧
    first.performAll (List.replicate 7 (.create .empty)) = .ok (outcomes, s) ∧
    Dense Store.dense .empty 7 outcomes s := by
  obtain ⟨layout, fits⟩ : ∃ layout, Layout.generate .empty .builtins Store.dense.blockCapacity
      Store.dense.blockBytes = .ok (.ok layout) := ⟨_, rfl⟩
  obtain ⟨first, created, fills⟩ :=
    run_fills "s" Store.dense .builtins (by decide) Registry.builtins_genuine .empty layout fits
  obtain ⟨outcomes, s, ran⟩ := (fills 7).1 (by decide)
  exact ⟨first, outcomes, s, created, ran, ((fills 7).2 outcomes s ran).1⟩

end EntityStore.Scene
