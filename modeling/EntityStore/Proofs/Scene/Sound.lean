import EntityStore.Proofs.Hierarchy.Forest
import EntityStore.Proofs.Store.Scan
import EntityStore.Proofs.Store.Tenants
import EntityStore.Scene.Lifecycle

set_option autoImplicit false

namespace EntityStore

namespace Scene

def housing (s : Scene) : Housing := ⟨s.directory.location?, s.store.tenant?⟩

def world (s : Scene) : World := s.housing.world

structure Sound (s : Scene) : Prop where
  store : s.store.Sound s.registry
  directory : s.directory.Sound
  matched : s.housing.Matched
  inhabited : ∀ id b, s.store.block? id = some b → b.occupied ≠ 0
  hierarchy : s.hierarchy.Sound

abbrev Slots := Nat → Option (UInt32 × Bool)

def slots (s : Scene) : Slots := s.directory.slot?

structure Alike (s next : Scene) : Prop extends Store.Alike s.store next.store where
  registry : next.registry = s.registry

structure Becomes (s next : Scene) (limit : Nat) (world : World) (slots : Slots) : Prop where
  sound : next.Sound
  alike : Alike s next
  ages : ∃ turns ≤ limit, Store.Ages s.store next.store turns
  world : next.world = world
  slots : next.slots = slots

variable {s next last : Scene} {e : Entity} {l : Location}

theorem alike_trans (first : Alike s next) (second : Alike next last) : Alike s last :=
  ⟨first.toAlike.trans second.toAlike, second.registry.trans first.registry⟩

theorem becomes_same (sound : s.Sound) (registry : next.registry = s.registry) (store : next.store = s.store)
    (directory : next.directory = s.directory) (hierarchy : next.hierarchy.Sound) :
    Becomes s next 0 s.world s.slots := by
  have housing : next.housing = s.housing := by rw [housing, store, directory, Scene.housing]
  refine ⟨⟨registry ▸ store ▸ sound.store, directory ▸ sound.directory, housing ▸ sound.matched,
    store ▸ sound.inhabited, hierarchy⟩, ⟨?_, registry⟩, ⟨0, by omega, ?_⟩, ?_, ?_⟩
  · rw [store]
    exact Store.Alike.refl s.store
  · rw [store]
    exact Store.Ages.of_same rfl rfl fun _ => rfl
  · rw [world, housing, world]
  · rw [slots, directory, slots]

theorem becomes_refl (sound : s.Sound) : Becomes s s 0 s.world s.slots :=
  becomes_same sound rfl rfl rfl sound.hierarchy

namespace Becomes

variable {first second : Nat} {world after : World} {slots final : Slots}

theorem trans (start : Becomes s next first world slots) (rest : Becomes next last second after final) :
    Becomes s last (first + second) after final := by
  obtain ⟨early, earlyBound, earlyAges⟩ := start.ages
  obtain ⟨late, lateBound, lateAges⟩ := rest.ages
  exact ⟨rest.sound, alike_trans start.alike rest.alike, ⟨early + late, by omega, earlyAges.trans lateAges⟩,
    rest.world, rest.slots⟩

theorem mono (becomes : Becomes s next first world slots) (bound : first ≤ second) :
    Becomes s next second world slots := by
  obtain ⟨turns, small, ages⟩ := becomes.ages
  exact { becomes with ages := ⟨turns, Nat.le_trans small bound, ages⟩ }

theorem carry (becomes : Becomes s next first world slots) (registry : last.registry = next.registry)
    (store : last.store = next.store) (directory : last.directory = next.directory)
    (hierarchy : last.hierarchy.Sound) : Becomes s last first world slots := by
  have rest := becomes.trans (becomes_same becomes.sound registry store directory hierarchy)
  rw [becomes.world, becomes.slots] at rest
  exact rest

end Becomes

theorem becomes_of_store (sound : s.Sound) (store : Store) (storeSound : store.Sound s.registry)
    (alike : Store.Alike s.store store) (limit : Nat)
    (ages : ∃ turns ≤ limit, Store.Ages s.store store turns)
    (blocks : ∀ q, store.block? q = s.store.block? q) :
    Becomes s { s with store } limit s.world s.slots := by
  have housing : housing { s with store } = s.housing :=
    congrArg (Housing.mk _) (Store.tenant_of_same blocks)
  refine ⟨⟨storeSound, sound.directory, ?_, fun q other hit => ?_, sound.hierarchy⟩, ⟨alike, rfl⟩, ages, ?_, rfl⟩
  · rw [housing]
    exact sound.matched
  · exact sound.inhabited q other ((blocks q).symm.trans hit)
  · exact congrArg Housing.world housing

def Learns (s next : Scene) : Prop := ∃ layouts, next = { s with store := { s.store with layouts } }

theorem learns_refl (s : Scene) : Learns s s := ⟨s.store.layouts, rfl⟩

theorem becomes_of_learned (sound : s.Sound) {store : Store} (learned : Store.Learns s.store store)
    (storeSound : store.Sound s.registry) : Becomes s { s with store } 0 s.world s.slots := by
  obtain ⟨layouts, rfl⟩ := learned
  exact becomes_of_store sound _ storeSound (Store.alike_layouts s.store layouts) 0
    ⟨0, Nat.le_refl 0, Store.Ages.of_same rfl rfl fun _ => rfl⟩ fun _ => rfl

-- The live entities, and the dead ones that are members still.
def roll (s : Scene) : List Entity := s.directory.handles ++ s.hierarchy.members.filter fun e => !s.isAlive e

-- So few members and frames that no position and no count is at its end.
structure Sparse (s : Scene) : Prop where
  few : s.roll.length < UInt32.size
  early : s.frame + 1 ≠ 0

theorem locate_some (found : s.directory.location? e = some l) : s.locate e = .ok l := by
  rw [locate, Directory.locate_eq, found]

theorem locate_none (gone : s.directory.location? e = none) : s.locate e = .error (.staleEntity e) := by
  rw [locate, Directory.locate_eq, gone]

theorem alive_iff (s : Scene) (e : Entity) :
    s.isAlive e = true ↔ ∃ l, s.directory.location? e = some l := by
  rw [isAlive, Directory.alive_eq, Option.isSome_iff_exists]

theorem alive_iff_world (sound : s.Sound) (e : Entity) : s.isAlive e = (s.world e).isSome := by
  rw [isAlive, Directory.alive_eq]
  apply Bool.eq_iff_iff.mpr
  rw [Option.isSome_iff_ne_none, Option.isSome_iff_ne_none]
  exact not_congr (Housing.world_none_iff sound.matched e).symm

theorem dead_of_stale (sound : s.Sound) (gone : s.directory.location? e = none) : s.world e = none :=
  (Housing.world_none_iff sound.matched e).mpr gone

structure Home (s : Scene) (e : Entity) (l : Location) (b : Block) (t : Tenant) : Prop where
  found : s.directory.location? e = some l
  block : s.store.block? l.block = some b
  keeps : s.store.Keeps s.registry b
  tenant : b.tenant? l.row = some t
  entity : t.entity = e
  enabled : t.enabled = l.enabled
  side : b.side? l.row = some l.enabled
  components : t.components = b.componentsAt l.row

theorem home_of (sound : s.Sound) (found : s.directory.location? e = some l) :
    ∃ b t, Home s e l b t := by
  obtain ⟨t, lives, entity, enabled⟩ := sound.matched.home e l found
  obtain ⟨b, block, held⟩ := Option.bind_eq_some_iff.mp lives
  obtain ⟨side, _, components⟩ := Block.tenant_side _ t held
  exact ⟨b, t, found, block, sound.store.keeps _ b block, held, entity, enabled, enabled ▸ side,
    components⟩

namespace Home

variable {b : Block} {t : Tenant}

theorem held (home : Home s e l b t) : s.housing.tenant (l.block, l.row) = some t :=
  (Store.tenant_eq home.block l.row).trans home.tenant

theorem world (home : Home s e l b t) : s.world e = some t.content :=
  Housing.world_of_location home.found home.held

theorem block_of (home : Home s e l b t) : s.blockOf e = .ok (b, l.row) := by
  simp only [blockOf, locate_some home.found, home.block]

theorem read_component (sound : s.Sound) (home : Home s e l b t) (access : Access) (type : ComponentType) :
    b.readComponent access type l.row = .ok (b.component? type l.row) :=
  Block.read_component_ok sound.store.genuine home.keeps.sound.shaped type access l.row

theorem bytes_at (home : Home s e l b t) (id : ComponentId) : b.bytesAt? id l.row = t.components id := by
  have occupied : b.isOccupied l.row = true := by
    rw [Block.occupied_iff, home.side]
    rfl
  rw [Block.bytesAt?, if_pos occupied, home.components]
  rfl

theorem read_bytes (home : Home s e l b t) (id : ComponentId) : b.readBytes id l.row = .ok (t.components id) := by
  rw [home.keeps.sound.shaped.read_bytes, home.bytes_at]

end Home

theorem home_of_world (sound : s.Sound) {content : Content} (held : s.world e = some content) :
    ∃ l b t, Home s e l b t ∧ t.content = content := by
  have live : s.isAlive e = true := by
    rw [alive_iff_world sound, held]
    rfl
  obtain ⟨l, located⟩ := (alive_iff s e).mp live
  obtain ⟨b, t, home⟩ := home_of sound located
  exact ⟨l, b, t, home, Option.some.inj (home.world.symm.trans held)⟩

theorem announce_all_eq (s : Scene) (events : List Event) :
    ∃ deliveries, s.announceAll events = { s with deliveries } := by
  induction events generalizing s with
  | nil => exact ⟨s.deliveries, rfl⟩
  | cons event rest ih =>
      obtain ⟨deliveries, same⟩ := ih (s.announce event)
      exact ⟨deliveries, same⟩

theorem spots_eq_iff (block : BlockId) (row edge : Nat) : (block, row) = (block, edge) ↔ row = edge :=
  ⟨fun same => (Prod.mk.inj same).2, fun same => by rw [same]⟩

theorem relocate_moved_ok {d : Directory} (sound : d.Sound) (m : Tenant) (block : BlockId)
    {row : Nat} (small : row < UInt32.size) (edge : Nat)
    (found : d.location? m.entity = some (m.locationAt (block, edge))) :
    ∃ final, d.relocateMoved (if row = edge then none else some m.entity) block row = .ok final ∧
      final.Sound ∧
      final.location? = (if (block, row) = (block, edge) then d.location?
        else Function.update d.location? m.entity (some (m.locationAt (block, row)))) ∧
      final.alive = d.alive ∧ final.slot? = d.slot? := by
  by_cases same : row = edge
  · exact ⟨d, by rw [if_pos same]; rfl, sound, by rw [if_pos (by rw [same])], rfl, rfl⟩
  · obtain ⟨final, done, finalSound, locations, alive, slots⟩ :=
      Directory.relocate_ok sound found block small
    refine ⟨final, ?_, finalSound, ?_, alive, funext slots⟩
    · rw [if_neg same]
      exact done
    · rw [if_neg fun equal => same (Prod.mk.inj equal).2]
      exact locations

theorem remove_row_ok {registry : Registry} {b : Block} (sound : b.Sound registry) (row : Nat)
    (enabled : Bool) (side : b.side? row = some enabled) :
    ∃ nextBlock, removeRow b row enabled =
        .ok (if row = b.edge enabled then none else some (b.entitySlot (b.edge enabled)), nextBlock) ∧
      nextBlock.Sound registry ∧ Block.Framed b nextBlock ∧ nextBlock.occupied + 1 = b.occupied ∧
      ∀ q, nextBlock.tenant? q =
        if q = b.edge enabled then none else if q = row then b.tenant? (b.edge enabled)
        else b.tenant? q := by
  cases enabled with
  | true => exact Block.swap_remove_ok sound row side
  | false => exact Block.remove_disabled_ok sound row side

theorem rewrite_ok {b nextBlock : Block} {t : Tenant} {components : Components} (sound : s.Sound)
    (home : Home s e l b t) (change : Block.Rewrites b nextBlock l.row components) :
    Becomes s { s with store := s.store.put l.block nextBlock } 0
      (Function.update s.world e (some ⟨t.enabled, components⟩)) s.slots := by
  have occupied : b.side? l.row ≠ none := by simp [home.side]
  have nextSound := change.sound home.keeps.sound occupied
  have blocks := Store.block_put home.block nextBlock
  let next : Scene := { s with store := s.store.put l.block nextBlock }
  have tenants : next.store.tenant? =
      Function.update s.store.tenant? (l.block, l.row) (some { t with components }) := by
    funext ⟨q, row⟩
    rw [Function.update_apply, Store.tenant?, blocks]
    by_cases here : q = l.block
    · subst here
      rw [if_pos rfl, Option.bind_some, change.tenant home.keeps.sound, home.tenant,
        Store.tenant_eq home.block]
      by_cases there : row = l.row
      · rw [if_pos there, if_pos (by rw [there])]
        rfl
      · rw [if_neg there, if_neg fun same => there (Prod.mk.inj same).2]
    · rw [if_neg here, if_neg fun same => here (Prod.mk.inj same).1]
      rfl
  have housing : next.housing = ⟨s.housing.location,
      Function.update s.housing.tenant (l.block, l.row) (some { t with components })⟩ :=
    congrArg (Housing.mk _) tenants
  refine ⟨⟨Store.sound_put sound.store home.block nextSound change.toFramed, sound.directory, ?_,
    fun q other hit => ?_, sound.hierarchy⟩, ⟨Store.alike_put s.store l.block nextBlock, rfl⟩,
    ⟨0, Nat.le_refl 0, ?_⟩, ?_, rfl⟩
  · show next.housing.Matched
    rw [housing]
    exact Housing.matched_change sound.matched home.held { t with components } rfl rfl
  · refine Store.inhabited_put sound.inhabited blocks ?_ q other hit
    rw [change.occupied]
    exact sound.inhabited l.block b home.block
  · exact Store.Ages.of_same rfl rfl fun query =>
      Store.scan_put s.store query l.block b nextBlock home.block change.signature change.entityCount
  · show next.housing.world = _
    rw [housing, Housing.world_change sound.matched home.held, home.entity]
    rfl

structure Succession (s : Scene) (e : Entity) (l : Location) (b : Block) (m : Tenant)
    (noted : Directory) : Prop where
  held : b.tenant? (b.edge l.enabled) = some m
  last : s.housing.tenant (l.block, b.edge l.enabled) = some m
  name : b.entitySlot (b.edge l.enabled) = m.entity
  relocated : s.directory.relocateMoved (if l.row = b.edge l.enabled then none else some m.entity)
    l.block l.row = .ok noted
  directory : noted.Sound
  locations : noted.location? =
    if (l.block, l.row) = (l.block, b.edge l.enabled) then s.directory.location?
    else Function.update s.directory.location? m.entity (some (m.locationAt (l.block, l.row)))
  still : noted.location? e = some l
  slots : noted.slot? = s.directory.slot?

theorem succession_of {b : Block} {t : Tenant} (sound : s.Sound) (home : Home s e l b t) :
    ∃ m noted, Succession s e l b m noted := by
  have held := Block.tenant_some _ _ (Block.edge_side home.keeps.sound l.row l.enabled home.side)
  have last : s.housing.tenant (l.block, b.edge l.enabled) = _ :=
    (Store.tenant_eq home.block (b.edge l.enabled)).trans held
  obtain ⟨noted, relocated, notedSound, locations, _, slots⟩ :=
    relocate_moved_ok sound.directory _ l.block (Store.row_narrow sound.store _ home.held) (b.edge l.enabled)
      (sound.matched.known _ _ last)
  refine ⟨_, noted, held, last, rfl, relocated, notedSound, locations, ?_, slots⟩
  rw [locations]
  by_cases same : (l.block, l.row) = (l.block, b.edge l.enabled)
  · rw [if_pos same]
    exact home.found
  -- An entity has one spot only, so the one at another edge is another entity.
  · have other : e ≠ b.entitySlot (b.edge l.enabled) := fun equal =>
      same (Housing.spot_unique sound.matched _ home.held last (home.entity.trans equal))
    rw [if_neg same, Function.update_of_ne other]
    exact home.found

structure Vacated (s : Scene) (e : Entity) (l : Location) (b : Block) (m : Tenant)
    (nextBlock : Block) (noted : Directory) : Prop extends Succession s e l b m noted where
  removed : removeRow b l.row l.enabled =
    .ok (if l.row = b.edge l.enabled then none else some m.entity, nextBlock)
  sound : nextBlock.Sound s.registry
  frame : Block.Framed b nextBlock
  tenants : ∀ q, nextBlock.tenant? q =
    if q = b.edge l.enabled then none else if q = l.row then some m else b.tenant? q

theorem vacated_of {b : Block} {t : Tenant} (sound : s.Sound) (home : Home s e l b t) :
    ∃ m nextBlock noted, Vacated s e l b m nextBlock noted := by
  obtain ⟨m, noted, succession⟩ := succession_of sound home
  obtain ⟨nextBlock, removed, nextSound, frame, _, tenants⟩ :=
    remove_row_ok home.keeps.sound l.row l.enabled home.side
  rw [succession.held] at tenants
  rw [succession.name] at removed
  exact ⟨m, nextBlock, noted, succession, removed, nextSound, frame, tenants⟩

theorem leave_ok {b nextBlock : Block} {m : Tenant} {noted : Directory} {store : Store}
    (vacated : Vacated s e l b m nextBlock noted) (storeSound : store.Sound s.registry)
    (alike : Store.Alike s.store store) (stays : store.block? l.block = some b) :
    ∃ told final, (store.put l.block nextBlock).bump.releaseIfEmpty l.block = .ok (told, final) ∧
      final.Sound s.registry ∧ Store.Alike s.store final ∧
      (∃ turns ≤ 1, Store.Ages (store.put l.block nextBlock).bump final turns) ∧
      ∀ q, final.block? q = if q = l.block ∧ nextBlock.occupied = 0 then none
        else if q = l.block then some nextBlock else store.block? q := by
  have blocks := Store.block_put stays nextBlock
  have putSound := Store.sound_put storeSound stays vacated.sound vacated.frame
  obtain ⟨told, final, freed, finalSound, finalAlike, ages, content⟩ :=
    Store.release_if_empty_ok (Store.sound_bump putSound)
      (show (store.put l.block nextBlock).bump.block? l.block = some nextBlock from
        (blocks l.block).trans (if_pos rfl))
  have changed := alike.trans ((Store.alike_put store l.block nextBlock).trans (Store.alike_bump _))
  exact ⟨told, final, freed, finalSound, changed.trans finalAlike, ages, fun q =>
    (content q).trans (congrArg (ite _ none) (blocks q))⟩

end Scene

end EntityStore
