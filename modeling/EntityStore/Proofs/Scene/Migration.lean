import EntityStore.Proofs.Scene.Creation
import EntityStore.Proofs.Scene.Farewell
import EntityStore.Scene.Components

set_option autoImplicit false

namespace EntityStore

namespace Block

open Checked

variable {registry : Registry} {b : Block}

-- A newcomer first stands at the end of the enabled rows, with what it takes over from its old row.
structure Welcomed (registry : Registry) (b : Block) (t : Tenant) (copied : Block) : Prop extends Framed b copied where
  sound : copied.Sound registry
  side : copied.side? b.entityCount = some true
  entityCount : copied.entityCount = b.entityCount + 1
  disabledStart : copied.disabledStart = b.disabledStart
  occupied : copied.occupied = b.occupied + 1
  tenants : ∀ q, copied.tenant? q =
    if q = b.entityCount then some ⟨t.entity, true, (registry.defaults b.signature).inherit t.components⟩
    else b.tenant? q

theorem welcome_ok (genuine : registry.Genuine) (sound : b.Sound registry)
    (space : b.entityCount < b.disabledStart) (source : Block) (sourceSound : source.Sound registry)
    (row : Nat) (t : Tenant) (held : source.tenant? row = some t) :
    ∃ pushed copied, b.push t.entity = .ok (some (b.entityCount, pushed)) ∧
      (pushed.copySharedFrom b.entityCount source row).finished = .ok copied ∧
      Welcomed registry b t copied := by
  obtain ⟨pushed, done, pushedSound, pushedFrame, pushedCount, count, start, pushedTenants⟩ :=
    push_ok genuine sound space t.entity
  have limit := sound.disabled_le
  obtain ⟨sourceSide, _, sourceComponents⟩ := tenant_side row t held
  have inRange : b.entityCount < pushed.capacity := by
    rw [pushedFrame.capacity]
    omega
  obtain ⟨copied, copying, change⟩ := copy_shared_ok source sourceSound.laid b.entityCount row
    (side_in_range sourceSound row _ sourceSide) pushedSound.laid inRange
  have arrived := pushedTenants b.entityCount
  rw [if_pos rfl] at arrived
  obtain ⟨side, _, components⟩ := tenant_side _ _ arrived
  refine ⟨pushed, copied, done, copying, pushedFrame.trans change.toFramed,
    change.sound pushedSound (by simp [side]), (change.side _).trans side, change.entityCount.trans count,
    change.disabledStart.trans start, change.occupied.trans pushedCount, fun q => ?_⟩
  rw [change.tenant pushedSound, arrived, ← components, sourceComponents, pushedTenants]
  by_cases here : q = b.entityCount
  · rw [if_pos here, if_pos here]
    rfl
  · rw [if_neg here, if_neg here, if_neg here]

theorem tenant_end (space : b.entityCount < b.disabledStart) : b.tenant? b.entityCount = none :=
  tenant_none _ ((side_none _).mpr ⟨by omega, by omega⟩)

theorem welcomed_disabled {t : Tenant} {copied : Block} (space : b.entityCount < b.disabledStart)
    (welcomed : Welcomed registry b t copied) :
    ∃ next displaced, copied.disable b.entityCount = .ok (⟨b.disabledStart - 1, displaced⟩, next) ∧
      next.Sound registry ∧ Framed b next ∧ next.occupied = b.occupied + 1 ∧
      ∀ q, next.tenant? q =
        if q = b.disabledStart - 1 then
          some ⟨t.entity, false, (registry.defaults b.signature).inherit t.components⟩
        else b.tenant? q := by
  have last : copied.edge true = b.entityCount := by
    show copied.entityCount - 1 = _
    rw [welcomed.entityCount]
    rfl
  have target : copied.landing false = b.disabledStart - 1 := by
    show copied.disabledStart - 1 = _
    rw [welcomed.disabledStart]
  have vacant := tenant_end space
  obtain ⟨next, disabled, nextSound, frame, count, tenants⟩ :=
    disable_ok welcomed.sound b.entityCount welcomed.side
  rw [target] at disabled tenants
  refine ⟨next, _, disabled, nextSound, welcomed.toFramed.trans frame, count.trans welcomed.occupied, fun q => ?_⟩
  rw [tenants, last]
  by_cases landed : q = b.disabledStart - 1
  · rw [if_pos landed, if_pos landed, welcomed.tenants, if_pos rfl, Option.map_some]
  · rw [if_neg landed, if_neg landed]
    by_cases here : q = b.entityCount
    · rw [if_pos here, here, vacant]
    · rw [if_neg here, if_neg here, welcomed.tenants, if_neg here]

theorem arrive_ok (genuine : registry.Genuine) (sound : b.Sound registry)
    (space : b.entityCount < b.disabledStart) (source : Block) (sourceSound : source.Sound registry)
    (row : Nat) (t : Tenant) (held : source.tenant? row = some t) :
    ∃ pushed copied, b.push t.entity = .ok (some (b.entityCount, pushed)) ∧
      (pushed.copySharedFrom b.entityCount source row).finished = .ok copied ∧
      ∃ newRow next, (if t.enabled then pure (b.entityCount, copied)
          else do
            let (transfer, next) ← copied.disable b.entityCount
            pure (transfer.newRow, next)) = Except.ok (newRow, next) ∧
        next.Sound registry ∧ Framed b next ∧ next.occupied = b.occupied + 1 ∧
        b.tenant? newRow = none ∧ ∀ q, next.tenant? q =
          if q = newRow then
            some { t with components := (registry.defaults b.signature).inherit t.components }
          else b.tenant? q := by
  obtain ⟨pushed, copied, done, copying, welcomed⟩ := welcome_ok genuine sound space source sourceSound row t held
  refine ⟨pushed, copied, done, copying, ?_⟩
  cases enabled : t.enabled with
  | true =>
      refine ⟨b.entityCount, copied, rfl, welcomed.sound, welcomed.toFramed, welcomed.occupied,
        tenant_end space, fun q => ?_⟩
      rw [welcomed.tenants, ← enabled]
  | false =>
      obtain ⟨next, displaced, disabled, nextSound, frame, count, tenants⟩ :=
        welcomed_disabled space welcomed
      have vacant : b.tenant? (b.disabledStart - 1) = none :=
        tenant_none _ ((side_none _).mpr ⟨by omega, by omega⟩)
      refine ⟨b.disabledStart - 1, next, by rw [disabled]; rfl, nextSound, frame, count, vacant, fun q => ?_⟩
      rw [tenants, ← enabled]

end Block

namespace Scene

open Checked

variable {s next : Scene} {e : Entity} {l : Location} {b : Block} {t : Tenant}

theorem tenant_migrated {target : Signature} {store final : Store} {newId : BlockId} {newRow : Nat}
    {newBlock newNext nextBlock : Block} {m arrived : Tenant} {noted : Directory}
    (home : Home s e l b t) (vacated : Vacated s e l b m nextBlock noted) (storeSound : store.Sound s.registry)
    (room : Store.Room s.store store target newId newBlock) (apart : newId ≠ l.block)
    (newTenants : ∀ q, newNext.tenant? q = if q = newRow then some arrived else newBlock.tenant? q)
    (blocks : ∀ q, final.block? q = if q = l.block ∧ nextBlock.occupied = 0 then none
      else if q = l.block then some nextBlock else (store.put newId newNext).block? q) :
    final.tenant? = (s.housing.transfer t m arrived (l.block, l.row) (l.block, b.edge l.enabled)
      (newId, newRow)).tenant := by
  have newBlocks := Store.block_put room.found newNext
  have before : store.tenant? = s.housing.tenant := Store.tenant_of_room storeSound room
  funext ⟨q, row⟩
  rw [Store.tenant_replaced vacated.sound blocks, Housing.tenant_transfer]
  by_cases here : q = l.block
  · subst here
    have away : (l.block, row) ≠ (newId, newRow) := fun same => apart (Prod.mk.inj same).1.symm
    have lived : s.housing.tenant (l.block, row) = b.tenant? row := Store.tenant_eq home.block row
    simp only [if_pos, spots_eq_iff, vacated.tenants, if_neg away, lived]
  · have away (other : Nat) : (q, row) ≠ (l.block, other) := fun same => here (Prod.mk.inj same).1
    rw [if_neg here, if_neg (away _), if_neg (away _), Store.tenant?, newBlocks, ← before]
    by_cases there : q = newId
    · subst there
      simp only [if_pos, Option.bind_some, newTenants, spots_eq_iff, Store.tenant_eq room.found]
    · rw [if_neg there, if_neg fun same => there (Prod.mk.inj same).1]
      rfl

theorem inhabited_migrated {target : Signature} {store final : Store} {id newId : BlockId}
    {newBlock newNext nextBlock : Block} (sound : s.Sound)
    (room : Store.Room s.store store target newId newBlock) (occupied : newNext.occupied ≠ 0)
    (blocks : ∀ q, final.block? q = if q = id ∧ nextBlock.occupied = 0 then none
      else if q = id then some nextBlock else (store.put newId newNext).block? q) :
    ∀ q other, final.block? q = some other → other.occupied ≠ 0 := by
  have placed (q : BlockId) : (store.put newId newNext).block? q =
      if q = newId then some newNext else s.store.block? q := by
    rw [Store.block_put room.found]
    by_cases there : q = newId
    · rw [if_pos there, if_pos there]
    · rw [if_neg there, if_neg there, room.others q there]
  exact Store.inhabited_replaced (Store.inhabited_put sound.inhabited placed occupied) blocks

theorem room_apart {target : Signature} {store : Store} {newId : BlockId} {newBlock : Block}
    (home : Home s e l b t) (room : Store.Room s.store store target newId newBlock)
    (other : target ≠ b.signature) : newId ≠ l.block := by
  intro same
  rcases room.kept with kept | ⟨vacant, _⟩
  · rw [same, home.block] at kept
    exact other (Option.some.inj kept ▸ room.signature.symm)
  · rw [same, home.block] at vacant
    contradiction

theorem room_pair {target : Signature} {store : Store} {newId : BlockId} {newBlock : Block}
    (home : Home s e l b t) (room : Store.Room s.store store target newId newBlock)
    (other : target ≠ b.signature) : store.pool.getPair newId l.block = .ok (some (newBlock, b)) := by
  have apart := room_apart home room other
  have first : store.pool.get? newId = some newBlock := room.found
  have second : store.pool.get? l.block = some b :=
    (room.others l.block (Ne.symm apart)).trans home.block
  simp only [Pool.get_pair_eq, Pool.getPair?, if_neg apart, first, second]

theorem migrate_runs {target : Signature} {store final : Store} {newId : BlockId} {row newRow : Nat}
    {newBlock pushed copied newNext nextBlock : Block} {events : List Event} {moved : Option Entity}
    {noted directory : Directory} {told : Bool} (found : s.directory.location? e = some l)
    (acquired : s.store.acquire s.registry target = .ok (.ok newId, store))
    (pair : store.pool.getPair newId l.block = .ok (some (newBlock, b)))
    (pushing : newBlock.push e = .ok (some (row, pushed)))
    (copying : (pushed.copySharedFrom row b l.row).finished = .ok copied)
    (released : releases e b l.row target b.columns = .ok events)
    (removed : removeRow b l.row l.enabled = .ok (moved, nextBlock))
    (arriving : (if l.enabled then pure (row, copied)
      else do
        let (transfer, next) ← copied.disable row
        pure (transfer.newRow, next)) = Except.ok (newRow, newNext))
    (noting : s.directory.relocateMoved moved l.block l.row = .ok noted)
    (freed : ((store.put newId newNext).put l.block nextBlock).bump.releaseIfEmpty l.block = .ok (told, final))
    (relocating : noted.relocate e newId newRow = .ok directory) :
    s.migrate e target = .ok (.ok (), { s.announceAll events with store := final, directory }) := by
  obtain ⟨deliveries, announced⟩ := announce_all_eq s events
  simp only [migrate, locate_some found, acquired, pair, pushing, copying, released, announced, removed, noting,
    ok_bind]
  cases side : l.enabled with
  | true =>
      simp only [side, if_true] at arriving
      obtain ⟨rfl, rfl⟩ := Prod.mk.inj (Except.ok.inj arriving)
      simp only [if_true, pure_eq_ok, ok_bind, freed, relocating]
  | false =>
      simp only [side, Bool.false_eq_true, if_false] at arriving
      obtain ⟨⟨transfer, other⟩, left, same⟩ := bind_ok_iff.mp arriving
      obtain ⟨rfl, rfl⟩ := Prod.mk.inj (Except.ok.inj same)
      simp only [Bool.false_eq_true, if_false, left, pure_eq_ok, ok_bind, freed, relocating]

structure Arrived (s : Scene) (t : Tenant) (target : Signature) (newBlock : Block) (newRow : Nat)
    (newNext : Block) : Prop where
  sound : newNext.Sound s.registry
  frame : Block.Framed newBlock newNext
  occupied : newNext.occupied ≠ 0
  free : newBlock.tenant? newRow = none
  tenants : ∀ q, newNext.tenant? q =
    if q = newRow then some { t with components := (s.registry.defaults target).inherit t.components }
    else newBlock.tenant? q

theorem arrived_of {target : Signature} {store : Store} {newId : BlockId} {newBlock : Block}
    (home : Home s e l b t) (storeSound : store.Sound s.registry)
    (room : Store.Room s.store store target newId newBlock) :
    ∃ pushed copied newRow newNext, newBlock.push e = .ok (some (newBlock.entityCount, pushed)) ∧
      (pushed.copySharedFrom newBlock.entityCount b l.row).finished = .ok copied ∧
      (if l.enabled then pure (newBlock.entityCount, copied)
        else do
          let (transfer, next) ← copied.disable newBlock.entityCount
          pure (transfer.newRow, next)) = Except.ok (newRow, newNext) ∧
      Arrived s t target newBlock newRow newNext := by
  have kept := storeSound.keeps newId newBlock room.found
  obtain ⟨pushed, copied, pushing, copying, newRow, newNext, arriving, sound, frame, count, free, tenants⟩ :=
    Block.arrive_ok storeSound.genuine kept.sound room.space b home.keeps.sound l.row t home.tenant
  rw [home.entity] at pushing
  rw [home.enabled] at arriving
  rw [room.signature] at tenants
  exact ⟨pushed, copied, newRow, newNext, pushing, copying, arriving, sound, frame, by omega, free, tenants⟩

structure Migrated (s : Scene) (e : Entity) (l : Location) (b : Block) (t m : Tenant) (target : Signature)
    (newId : BlockId) (newRow : Nat) (final : Store) (directory : Directory) : Prop where
  kept : final.Sound s.registry
  tracked : directory.Sound
  inhabited : ∀ q other, final.block? q = some other → other.occupied ≠ 0
  alike : Store.Alike s.store final
  ages : ∃ turns ≤ 3, Store.Ages s.store final turns
  vacant : s.housing.tenant (newId, newRow) = none
  housing : Housing.mk directory.location? final.tenant? = s.housing.transfer t m
    { t with components := (s.registry.defaults target).inherit t.components }
    (l.block, l.row) (l.block, b.edge l.enabled) (newId, newRow)
  slots : directory.slot? = s.directory.slot?

theorem migrated_of {target : Signature} {store : Store} {newId : BlockId} {newRow : Nat}
    {newBlock newNext nextBlock : Block} {m : Tenant} {noted : Directory} (sound : s.Sound)
    (home : Home s e l b t) (other : target ≠ b.signature) (storeSound : store.Sound s.registry)
    (alike : Store.Alike s.store store) (aged : ∃ turns ≤ 1, Store.Ages s.store store turns)
    (room : Store.Room s.store store target newId newBlock)
    (arrived : Arrived s t target newBlock newRow newNext) (vacated : Vacated s e l b m nextBlock noted) :
    ∃ told final directory,
      ((store.put newId newNext).put l.block nextBlock).bump.releaseIfEmpty l.block = .ok (told, final) ∧
      noted.relocate e newId newRow = .ok directory ∧
      Migrated s e l b t m target newId newRow final directory := by
  have apart := room_apart home room other
  have stays : store.block? l.block = some b := (room.others l.block (Ne.symm apart)).trans home.block
  have placed : (store.put newId newNext).block? l.block = some b := by
    rw [Store.block_put room.found, if_neg (Ne.symm apart), stays]
  have putSound := Store.sound_put storeSound room.found arrived.sound arrived.frame
  obtain ⟨told, final, freed, finalSound, finalAlike, ⟨later, laterBound, laterAges⟩, blocks⟩ :=
    leave_ok vacated putSound (alike.trans (Store.alike_put store newId newNext)) placed
  have narrow : newRow < UInt32.size := Store.row_narrow putSound (newId, newRow)
    ((Store.tenant_eq (by rw [Store.block_put room.found, if_pos rfl]) newRow).trans
      ((arrived.tenants newRow).trans (if_pos rfl)))
  obtain ⟨directory, relocating, directorySound, locations, _, slots⟩ :=
    Directory.relocate_ok vacated.directory vacated.still newId narrow
  let moved : Tenant := { t with components := (s.registry.defaults target).inherit t.components }
  obtain ⟨turns, bound, ages⟩ := aged
  refine ⟨told, final, directory, freed, relocating, finalSound, directorySound,
    inhabited_migrated sound room arrived.occupied blocks, finalAlike, ⟨turns + 1 + later, by omega, ?_⟩, ?_, ?_, ?_⟩
  · refine (ages.trans ?_).trans laterAges
    exact Store.Ages.of_bump rfl fun _ _ hit => hit
  · show s.store.tenant? (newId, newRow) = none
    rw [← Store.tenant_of_room storeSound room, Store.tenant_eq room.found, arrived.free]
  -- Of the entities only this one and the one that takes over its row are moved.
  · have location : directory.location? = (s.housing.transfer t m moved (l.block, l.row)
        (l.block, b.edge l.enabled) (newId, newRow)).location := by
      rw [Housing.location_transfer sound.matched home.held vacated.last moved rfl, locations,
        vacated.locations, home.entity, ← home.enabled]
      rfl
    exact congrArg₂ Housing.mk location
      (tenant_migrated home vacated storeSound room apart arrived.tenants blocks)
  · funext i
    exact (slots i).trans (congrFun vacated.slots i)

theorem becomes_of_migrated {target : Signature} {m : Tenant} {newId : BlockId} {newRow : Nat} {final : Store}
    {directory : Directory} {deliveries : List Delivery} (sound : s.Sound) (home : Home s e l b t)
    (last : s.housing.tenant (l.block, b.edge l.enabled) = some m)
    (migrated : Migrated s e l b t m target newId newRow final directory) :
    Becomes s { s with deliveries, store := final, directory } 3 (Function.update s.world e
      (some ⟨t.enabled, (s.registry.defaults target).inherit t.components⟩)) s.slots := by
  let moved : Tenant := { t with components := (s.registry.defaults target).inherit t.components }
  let next : Scene := { s with deliveries, store := final, directory }
  have housing : next.housing = s.housing.transfer t m moved (l.block, l.row) (l.block, b.edge l.enabled)
      (newId, newRow) := migrated.housing
  have vacant := migrated.vacant
  refine ⟨⟨migrated.kept, migrated.tracked, ?_, migrated.inhabited, sound.hierarchy⟩, ⟨migrated.alike, rfl⟩,
    migrated.ages, ?_, migrated.slots⟩
  · show next.housing.Matched
    rw [housing]
    exact Housing.matched_transfer sound.matched home.held last moved rfl (Or.inr vacant)
  · show next.housing.world = _
    rw [housing, Housing.world_transfer sound.matched home.held last moved rfl (Or.inr vacant), home.entity]
    rfl

theorem migrate_ok (sound : s.Sound) (home : Home s e l b t) (target : Signature)
    (other : target ≠ b.signature) :
    Ensures s.Stops (s.migrate e target) fun (outcome, next) =>
      match outcome with
      | .error error => Learns s next ∧ Becomes s next 0 s.world s.slots ∧ s.store.Cramped s.registry target error
      | .ok () => Becomes s next 3 (Function.update s.world e
          (some ⟨t.enabled, (s.registry.defaults target).inherit t.components⟩)) s.slots := by
  have found := home.found
  have acquires := Store.acquire_ok sound.store target
  cases acquired : s.store.acquire s.registry target with
  | error fault =>
      rw [acquired] at acquires
      simp only [migrate, locate_some found, acquired, error_bind]
      exact Or.inr (Or.inr ⟨target, acquires⟩)
  | ok result =>
      obtain ⟨outcome, store⟩ := result
      rw [acquired] at acquires
      obtain ⟨storeSound, alike, aged, held⟩ := acquires
      cases outcome with
      | error error =>
          obtain ⟨learned, cramped⟩ := held
          simp only [migrate, locate_some found, acquired, ok_bind]
          have becomes := becomes_of_learned sound learned storeSound
          obtain ⟨layouts, rfl⟩ := learned
          exact ⟨⟨layouts, rfl⟩, becomes, cramped⟩
      | ok newId =>
          obtain ⟨newBlock, room⟩ := held
          obtain ⟨pushed, copied, newRow, newNext, pushing, copying, arriving, arrived⟩ :=
            arrived_of home storeSound room
          obtain ⟨m, nextBlock, noted, vacated⟩ := vacated_of sound home
          obtain ⟨told, final, directory, freed, relocating, migrated⟩ :=
            migrated_of sound home other storeSound alike aged room arrived vacated
          have ran := migrate_runs found acquired (room_pair home room other) pushing copying
            (releases_ok home.keeps.sound.shaped e l.row target b.columns) vacated.removed arriving
            vacated.relocated freed relocating
          obtain ⟨deliveries, announced⟩ := announce_all_eq s (releasesIn e b l.row target b.columns)
          rw [announced] at ran
          exact ensures_of_eq ran (becomes_of_migrated sound home vacated.last migrated)

end Scene

end EntityStore
