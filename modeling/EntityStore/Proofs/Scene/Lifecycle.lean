import EntityStore.Proofs.Scene.Farewell

set_option autoImplicit false

namespace EntityStore.Scene

open Checked

variable {s next : Scene} {e : Entity} {l : Location} {b : Block} {t : Tenant}

section Destroy

theorem destroy_stale (gone : s.directory.location? e = none) :
    s.destroy e = .ok (.error (.staleEntity e), s) := by
  simp only [destroy, locate_none gone]

theorem destroy_ok (sound : s.Sound) (found : s.directory.location? e = some l) :
    ∃ next, s.destroy e = .ok (.ok (), next) ∧
      Becomes s next 2 (Function.update s.world e none)
        (Function.update s.slots e.index.toNat (some (Record.nextGeneration e.generation, false))) := by
  obtain ⟨b, t, home⟩ := home_of sound found
  obtain ⟨m, nextBlock, noted, vacated⟩ := vacated_of sound home
  obtain ⟨deliveries, announced⟩ := announce_all_eq s (farewellOf e b l.row)
  obtain ⟨final, released, finalSound, finalLocations, _, finalSlots⟩ :=
    Directory.release_ok vacated.directory vacated.still
  obtain ⟨told, store, freed, storeSound, alike, ⟨turns, bound, ages⟩, whole⟩ :=
    leave_ok vacated sound.store (Store.Alike.refl s.store) home.block
  let next : Scene := { s with deliveries, store, directory := final }
  have housing : next.housing =
      s.housing.depart t m (l.block, l.row) (l.block, b.edge l.enabled) := by
    have location : final.location? =
        (s.housing.depart t m (l.block, l.row) (l.block, b.edge l.enabled)).location := by
      rw [Housing.location_depart sound.matched home.held vacated.last, finalLocations,
        vacated.locations, home.entity]
      rfl
    have tenant : store.tenant? =
        (s.housing.depart t m (l.block, l.row) (l.block, b.edge l.enabled)).tenant := by
      funext ⟨q, row⟩
      rw [Store.tenant_replaced vacated.sound whole, Housing.tenant_depart]
      by_cases here : q = l.block
      · subst here
        simp only [if_pos, spots_eq_iff, vacated.tenants]
        rw [show s.housing.tenant (l.block, row) = b.tenant? row from Store.tenant_eq home.block row]
      · have away (other : Nat) : (q, row) ≠ (l.block, other) := fun same => here (Prod.mk.inj same).1
        rw [if_neg here, if_neg (away _), if_neg (away _)]
        rfl
    exact congrArg₂ Housing.mk location tenant
  refine ⟨next, ?_, ⟨storeSound, finalSound, ?_, ?_, sound.hierarchy⟩, ⟨alike, rfl⟩,
    ⟨1 + turns, by omega, ?_⟩, ?_, ?_⟩
  · simp only [destroy, locate_some found, home.block, farewell_ok home.keeps.sound.shaped, announced,
      vacated.removed, ok_bind, vacated.relocated, released, freed]
    rfl
  · rw [housing]
    exact Housing.matched_depart sound.matched home.held vacated.last
  · exact Store.inhabited_replaced sound.inhabited whole
  · refine Store.Ages.trans ?_ ages
    exact Store.Ages.of_bump rfl fun _ _ hit => hit
  · rw [world, housing, Housing.world_depart sound.matched home.held vacated.last, home.entity]
    rfl
  · funext i
    rw [Function.update_apply]
    refine (finalSlots i).trans ?_
    rw [vacated.slots]
    rfl

end Destroy

section SetEnabled

theorem cross_row_ok {registry : Registry} (sound : b.Sound registry) (row : Nat) (enabled : Bool)
    (side : b.side? row = some (!enabled)) :
    ∃ nextBlock, (if enabled then b.enable row else b.disable row) =
        .ok (⟨b.landing enabled, if row = b.edge (!enabled) then none
          else some (b.entitySlot (b.edge (!enabled)), row)⟩, nextBlock) ∧
      nextBlock.Sound registry ∧ Block.Framed b nextBlock ∧ nextBlock.occupied = b.occupied ∧
      ∀ q, nextBlock.tenant? q =
        if q = b.landing enabled then (b.tenant? row).map fun t => { t with enabled }
        else if q = b.edge (!enabled) then none
        else if q = row then b.tenant? (b.edge (!enabled))
        else b.tenant? q := by
  cases enabled with
  | true => exact Block.enable_ok sound row side
  | false => exact Block.disable_ok sound row side

theorem landing_free {registry : Registry} (sound : b.Sound registry) (row : Nat) (enabled : Bool)
    (side : b.side? row = some (!enabled)) :
    b.landing enabled = b.edge (!enabled) ∨ b.tenant? (b.landing enabled) = none := by
  have ordered := sound.enabled_le
  by_cases full : b.entityCount = b.disabledStart
  · left
    cases enabled with
    | true => exact full
    | false => exact congrArg (· - 1) full.symm
  · right
    refine Block.tenant_none _ ((Block.side_none _).mpr ?_)
    cases enabled with
    | true =>
        simp only [Block.landing, if_true]
        omega
    | false =>
        have bound := (Block.side_enabled row).mp side
        simp only [Block.landing, Bool.false_eq_true, if_false]
        omega

-- The entity at the edge of the row's side takes the row, and the entity of the row lands on the other side.
structure Crossed (s : Scene) (e : Entity) (l : Location) (b : Block) (t m : Tenant) (enabled : Bool)
    (nextBlock : Block) (noted landed : Directory) : Prop extends Succession s e l b m noted where
  crossed : (if enabled then b.enable l.row else b.disable l.row) = .ok (⟨b.landing enabled,
    if l.row = b.edge l.enabled then none else some (m.entity, l.row)⟩, nextBlock)
  sound : nextBlock.Sound s.registry
  frame : Block.Framed b nextBlock
  count : nextBlock.occupied = b.occupied
  tenants : ∀ q, nextBlock.tenant? q =
    if q = b.landing enabled then some { t with enabled }
    else if q = b.edge l.enabled then none
    else if q = l.row then some m
    else b.tenant? q
  free : (l.block, b.landing enabled) = (l.block, b.edge l.enabled) ∨
    s.housing.tenant (l.block, b.landing enabled) = none
  moved : noted.relocate e l.block (b.landing enabled) = .ok landed
  landedSound : landed.Sound
  arrives : landed.location? =
    Function.update noted.location? e (some ⟨l.block, b.landing enabled, l.enabled⟩)
  keeps : ∀ i, landed.slot? i = noted.slot? i

theorem crossed_of (sound : s.Sound) (home : Home s e l b t) (enabled : Bool) (other : l.enabled = !enabled) :
    ∃ m nextBlock noted landed, Crossed s e l b t m enabled nextBlock noted landed := by
  have side := home.side
  rw [other] at side
  obtain ⟨m, noted, succession⟩ := succession_of sound home
  obtain ⟨nextBlock, crossed, nextSound, frame, count, tenants⟩ :=
    cross_row_ok home.keeps.sound l.row enabled side
  have landing := landing_free home.keeps.sound l.row enabled side
  rw [← other] at crossed tenants landing
  rw [succession.name] at crossed
  simp only [home.tenant, succession.held, Option.map_some] at tenants
  have putSound := Store.sound_put sound.store home.block nextSound frame
  have held : (s.store.put l.block nextBlock).tenant? (l.block, b.landing enabled) = some { t with enabled } := by
    rw [Store.tenant?, Store.block_put home.block, if_pos rfl, Option.bind_some, tenants, if_pos rfl]
  obtain ⟨landed, moved, landedSound, arrives, _, keeps⟩ :=
    Directory.relocate_ok succession.directory succession.still l.block (Store.row_narrow putSound _ held)
  have free : (l.block, b.landing enabled) = (l.block, b.edge l.enabled) ∨
      s.housing.tenant (l.block, b.landing enabled) = none := by
    -- A full block has no free row between its sides; the entity then lands on the edge that it frees.
    rcases landing with same | vacant
    · exact Or.inl (congrArg (Prod.mk l.block) same)
    · exact Or.inr ((Store.tenant_eq home.block _).trans vacant)
  exact ⟨m, nextBlock, noted, landed, succession, crossed, nextSound, frame, count, tenants, free, moved,
    landedSound, arrives, keeps⟩

section Crossed

variable {m : Tenant} {enabled : Bool} {nextBlock : Block} {noted landed : Directory}

theorem Crossed.tenant (crossed : Crossed s e l b t m enabled nextBlock noted landed)
    (home : Home s e l b t) (spot : Spot) :
    (s.store.put l.block nextBlock).tenant? spot = (s.housing.transfer t m { t with enabled } (l.block, l.row)
      (l.block, b.edge l.enabled) (l.block, b.landing enabled)).tenant spot := by
  obtain ⟨q, row⟩ := spot
  rw [Housing.tenant_transfer, Store.tenant?, Store.block_put home.block]
  by_cases here : q = l.block
  · subst here
    simp only [if_pos, Option.bind_some, spots_eq_iff, crossed.tenants]
    rw [show s.housing.tenant (l.block, row) = b.tenant? row from Store.tenant_eq home.block row]
  · have away (other : Nat) : (q, row) ≠ (l.block, other) := fun same => here (Prod.mk.inj same).1
    rw [if_neg here, if_neg (away _), if_neg (away _), if_neg (away _)]
    rfl

theorem Crossed.location (crossed : Crossed s e l b t m enabled nextBlock noted landed) (sound : s.Sound)
    (home : Home s e l b t) {final : Directory} (turned : final.location? =
      Function.update landed.location? e (some ⟨l.block, b.landing enabled, enabled⟩)) :
    final.location? = (s.housing.transfer t m { t with enabled } (l.block, l.row)
      (l.block, b.edge l.enabled) (l.block, b.landing enabled)).location := by
  rw [Housing.location_transfer sound.matched home.held crossed.last { t with enabled } rfl, turned,
    crossed.arrives, crossed.locations, Function.update_idem, home.entity]
  rfl

-- Nobody is noted to have moved if the entity was at the edge itself.
theorem Crossed.performed (crossed : Crossed s e l b t m enabled nextBlock noted landed)
    (home : Home s e l b t) (other : l.enabled = !enabled) :
    s.setEnabled e enabled = .ok (.ok (), Scene.announce
      { s with store := (s.store.put l.block nextBlock).bump, directory := landed.setEnabled e enabled }
      (if enabled then .enabled e nextBlock.signature else .disabled e nextBlock.signature)) := by
  have different : l.enabled ≠ enabled := by
    rw [other]
    cases enabled <;> decide
  have crossing := crossed.crossed
  have relocated := crossed.relocated
  by_cases same : l.row = b.edge l.enabled
  · rw [if_pos same] at crossing relocated
    have kept : s.directory = noted := Except.ok.inj relocated
    cases enabled <;> simp only [Bool.false_eq_true, if_true, if_false] at crossing <;>
      simp only [setEnabled, locate_some home.found, if_neg different, home.block, crossing, ok_bind,
        pure_eq_ok, kept, crossed.moved] <;> rfl
  · rw [if_neg same] at crossing relocated
    have noting : s.directory.relocate m.entity l.block l.row = .ok noted := relocated
    cases enabled <;> simp only [Bool.false_eq_true, if_true, if_false] at crossing <;>
      simp only [setEnabled, locate_some home.found, if_neg different, home.block, crossing, ok_bind,
        noting, crossed.moved] <;> rfl

end Crossed

theorem set_enabled_stale (gone : s.directory.location? e = none) (enabled : Bool) :
    s.setEnabled e enabled = .ok (.error (.staleEntity e), s) := by
  simp only [setEnabled, locate_none gone]

theorem set_enabled_same (found : s.directory.location? e = some l) :
    s.setEnabled e l.enabled = .ok (.ok (), s) := by
  simp only [setEnabled, locate_some found, if_true]

theorem set_enabled_ok (sound : s.Sound) (home : Home s e l b t) (enabled : Bool)
    (other : l.enabled = !enabled) :
    ∃ next, s.setEnabled e enabled = .ok (.ok (), next) ∧
      Becomes s next 1 (Function.update s.world e (some ⟨enabled, t.components⟩)) s.slots := by
  obtain ⟨m, nextBlock, noted, landed, crossed⟩ := crossed_of sound home enabled other
  have there : landed.location? e = some ⟨l.block, b.landing enabled, l.enabled⟩ := by
    rw [crossed.arrives, Function.update_self]
  obtain ⟨finalSound, turned, _, slots⟩ := Directory.set_enabled_ok crossed.landedSound there enabled
  let store := (s.store.put l.block nextBlock).bump
  let event : Event :=
    if enabled then .enabled e nextBlock.signature else .disabled e nextBlock.signature
  let next : Scene := { s with store, directory := landed.setEnabled e enabled }.announce event
  let arrived : Tenant := { t with enabled }
  have housing : next.housing = s.housing.transfer t m arrived (l.block, l.row)
      (l.block, b.edge l.enabled) (l.block, b.landing enabled) :=
    congrArg₂ Housing.mk (crossed.location sound home turned) (funext (crossed.tenant home))
  refine ⟨next, crossed.performed home other, ⟨?_, finalSound, ?_, ?_, sound.hierarchy⟩, ⟨?_, rfl⟩,
    ⟨1, by omega, ?_⟩, ?_, ?_⟩
  · exact Store.sound_bump (Store.sound_put sound.store home.block crossed.sound crossed.frame)
  · rw [housing]
    exact Housing.matched_transfer sound.matched home.held crossed.last arrived rfl crossed.free
  · refine Store.inhabited_put sound.inhabited (Store.block_put home.block nextBlock) ?_
    rw [crossed.count]
    exact sound.inhabited l.block b home.block
  · exact (Store.alike_put s.store l.block nextBlock).trans (Store.alike_bump _)
  · exact Store.Ages.of_bump rfl fun _ _ hit => hit
  · rw [world, housing, Housing.world_transfer sound.matched home.held crossed.last arrived rfl crossed.free,
      home.entity]
    rfl
  · funext i
    exact (slots i).trans ((crossed.keeps i).trans (congrFun crossed.slots i))

end SetEnabled

def cleared (slots : Slots) : Slots :=
  fun i => (slots i).map fun (generation, live) =>
    (if live then Record.nextGeneration generation else generation, false)

theorem unload_eq (sound : s.Sound) : s.unload = s.store.clear.map fun store =>
    { s.announceAll ((s.store.blocks.map Prod.snd).flatMap farewellsOf) with
      store, directory := s.directory.clear, hierarchy := .empty } := by
  have shaped (b : Block) (member : b ∈ s.store.blocks.map Prod.snd) : b.Shaped s.registry := by
    obtain ⟨⟨id, b⟩, listed, rfl⟩ := List.mem_map.mp member
    exact (sound.store.keeps id b ((Pool.mem_entries s.store.pool id b).mp listed)).sound.shaped
  obtain ⟨deliveries, announced⟩ := announce_all_eq s ((s.store.blocks.map Prod.snd).flatMap farewellsOf)
  simp only [unload, farewell_all_ok _ shaped, ok_bind, announced]
  cases s.store.clear <;> rfl

theorem unload_ok (sound : s.Sound) :
    ∃ next, s.unload = .ok next ∧ Becomes s next 1 (fun _ => none) (cleared s.slots) := by
  obtain ⟨deliveries, announced⟩ := announce_all_eq s ((s.store.blocks.map Prod.snd).flatMap farewellsOf)
  obtain ⟨store, emptied, storeSound, alike, ages, blocks⟩ := Store.clear_ok sound.store
  obtain ⟨directorySound, locations, _, slots⟩ := Directory.clear_ok sound.directory
  let next : Scene := { s with deliveries, store, directory := s.directory.clear, hierarchy := .empty }
  have nobody (spot : Spot) : next.housing.tenant spot = none := by
    show store.tenant? spot = none
    rw [Store.tenant?, blocks, Option.bind_none]
  refine ⟨next, ?_, ⟨storeSound, directorySound, ⟨fun f l' found => ?_, fun spot t held => ?_⟩,
    fun q b found => ?_, ⟨[], Hierarchy.records_empty []⟩⟩, ⟨alike, rfl⟩, ⟨1, Nat.le_refl 1, ages⟩, ?_, funext slots⟩
  · rw [unload_eq sound, emptied, announced]
    rfl
  · exact absurd ((locations f).symm.trans found) (by simp)
  · rw [nobody] at held
    contradiction
  · exact absurd ((blocks q).symm.trans found) (by simp)
  · funext f
    show ((s.directory.clear.location? f).bind _) = none
    rw [locations, Option.bind_none]

end EntityStore.Scene
