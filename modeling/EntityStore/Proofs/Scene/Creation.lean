import EntityStore.Proofs.Bundle
import EntityStore.Proofs.Scene.Sound

set_option autoImplicit false

namespace EntityStore.Scene

open Checked

variable {s next : Scene} {e : Entity}

-- What can stop an operation of a sound scene: all indices are used, a member or a frame is one too
-- many, or no layout can be computed.
def Stops (s : Scene) (fault : Fault) : Prop :=
  fault = .indexSpaceExhausted ∧ 0xffffffff ≤ s.directory.size ∨ fault = .sumOverflow ∧ ¬ s.Sparse ∨
    ∃ signature, s.store.Overflows s.registry signature fault

def Reserves (slots : Slots) (e : Entity) : Prop :=
  slots e.index.toNat = some (e.generation, false) ∨ slots e.index.toNat = none ∧ e.generation = 1

structure Uncreated (s next : Scene) (e : Entity) : Prop where
  reserves : Reserves s.slots e
  becomes : Becomes s next 2 s.world (Function.update s.slots e.index.toNat (some (e.generation, false)))
  learns : Store.Learns s.store next.store
  rest : next = { s with store := next.store, directory := next.directory }
  locations : next.directory.location? = s.directory.location?
  alive : next.directory.alive = s.directory.alive

structure Created (s next : Scene) (limit : Nat) (e : Entity) (components : Components) : Prop where
  unused : s.world e = none
  reserves : Reserves s.slots e
  becomes : Becomes s next limit (Function.update s.world e (some ⟨true, components⟩))
    (Function.update s.slots e.index.toNat (some (e.generation, true)))

section Place

variable {directory : Directory}

-- A refused creation leaves its index behind, free again.
theorem abandon_uncreated (sound : s.Sound) (reserved : Directory.Reserved s.directory directory e)
    {layouts : Table Signature Layout} (storeSound : ({ s.store with layouts } : Store).Sound s.registry)
    (alike : Store.Alike s.store { s.store with layouts })
    (ages : ∃ turns ≤ 2, Store.Ages s.store { s.store with layouts } turns) :
    ∃ final, directory.abandon e = .ok final ∧
      Uncreated s { s with store := { s.store with layouts }, directory := final } e := by
  obtain ⟨final, abandoned, finalSound, locations, living, slots⟩ := Directory.abandon_ok reserved
  let next : Scene := { s with store := { s.store with layouts }, directory := final }
  have housing : next.housing = s.housing := congrArg (Housing.mk · s.store.tenant?) locations
  refine ⟨final, abandoned, reserved.slot, ⟨⟨storeSound, finalSound, ?_, sound.inhabited, sound.hierarchy⟩,
    ⟨alike, rfl⟩, ages, ?_, ?_⟩, ⟨layouts, rfl⟩, rfl, locations, living⟩
  · show next.housing.Matched
    rw [housing]
    exact sound.matched
  · show next.housing.world = _
    rw [housing]
    rfl
  · funext i
    rw [Function.update_apply]
    exact (slots i).trans (reserved.slots i)

theorem place_created (sound : s.Sound) (reserved : Directory.Reserved s.directory directory e) {store : Store}
    (storeSound : store.Sound s.registry) (alike : Store.Alike s.store store)
    (ages : ∃ turns ≤ 2, Store.Ages s.store store turns) {spot : Spot} {components : Components}
    (vacant : s.store.tenant? spot = none)
    (housed : store.tenant? = Function.update s.store.tenant? spot (some ⟨e, true, components⟩)) {b : Block}
    (occupied : b.occupied ≠ 0) (blocks : ∀ q, store.block? q = if q = spot.1 then some b else s.store.block? q) :
    ∃ final, directory.place e spot.1 spot.2 = .ok final ∧
      Created s { s with store, directory := final } 2 e components ∧
      final.location? e = some ⟨spot.1, spot.2, true⟩ := by
  have narrow : spot.2 < UInt32.size :=
    Store.row_narrow storeSound spot ((congrFun housed spot).trans (Function.update_self _ _ _))
  obtain ⟨final, placed, finalSound, locations, _, slots⟩ := Directory.place_ok reserved spot.1 narrow
  let t : Tenant := ⟨e, true, components⟩
  let next : Scene := { s with store, directory := final }
  have housing : next.housing = s.housing.settle spot t := congrArg₂ Housing.mk locations housed
  have homeless : s.housing.location t.entity = none := reserved.unused
  refine ⟨final, placed, ⟨?_, reserved.slot, ⟨storeSound, finalSound, ?_, fun q other hit => ?_, sound.hierarchy⟩,
    ⟨alike, rfl⟩, ages, ?_, ?_⟩, ?_⟩
  · exact dead_of_stale sound reserved.unused
  · show next.housing.Matched
    rw [housing]
    exact Housing.matched_settle sound.matched vacant homeless
  · exact Store.inhabited_put sound.inhabited blocks occupied q other hit
  · show next.housing.world = _
    rw [housing, Housing.world_settle sound.matched vacant]
    rfl
  · funext i
    rw [Function.update_apply]
    exact slots i
  · rw [locations, Function.update_self]

theorem place_new_ok (sound : s.Sound) (signature : Signature) :
    Ensures s.Stops (s.placeNew signature) fun (outcome, next) =>
      match outcome with
      | .error error => s.store.Cramped s.registry signature error ∧ ∃ e, Uncreated s next e
      | .ok (e, block, row) => Created s next 2 e (s.registry.defaults signature) ∧
          next.directory.location? e = some ⟨block, row, true⟩ := by
  unfold placeNew
  refine ensures_bind _ (ensures_mono (Directory.reserve_ok sound.directory)
    (fun fault stopped => Or.inl stopped) fun _ post => post) ?_
  rintro ⟨e, directory⟩ reserved
  refine ensures_bind _ (ensures_mono (Store.insert_ok sound.store signature e)
    (fun fault stopped => Or.inr (Or.inr ⟨signature, stopped⟩)) fun _ post => post) ?_
  rintro ⟨outcome, store⟩ ⟨storeSound, alike, ages, inserted⟩
  cases outcome with
  | error error =>
      obtain ⟨⟨layouts, rfl⟩, cramped⟩ := inserted
      obtain ⟨final, abandoned, uncreated⟩ := abandon_uncreated sound reserved storeSound alike ages
      simp only [abandoned, ok_bind]
      exact ⟨cramped, e, uncreated⟩
  | ok spot =>
      obtain ⟨vacant, housed, b, _, occupied, blocks⟩ := inserted
      obtain ⟨final, placed, created⟩ :=
        place_created sound reserved storeSound alike ages vacant housed occupied blocks
      simp only [placed, ok_bind]
      exact created

end Place

theorem create_entity_ok (sound : s.Sound) (signature : Signature) :
    Ensures s.Stops (s.createEntity signature) fun (outcome, next) =>
      match outcome with
      | .error error => s.store.Cramped s.registry signature error ∧ ∃ e, Uncreated s next e
      | .ok e => Created s next 2 e (s.registry.defaults signature) := by
  unfold createEntity
  refine ensures_bind _ (place_new_ok sound signature) ?_
  rintro ⟨outcome, next⟩ result
  cases outcome with
  | error error => exact result
  | ok placed => exact result.1

theorem placed_of_created {signature : Signature} (created : s.createEntity signature = .ok (.ok e, next)) :
    ∃ block row, s.placeNew signature = .ok (.ok (e, block, row), next) := by
  obtain ⟨⟨outcome, last⟩, placed, same⟩ := bind_ok_iff.mp created
  obtain ⟨accepted, rfl⟩ := Prod.mk.inj (Except.ok.inj same)
  cases outcome with
  | error error => contradiction
  | ok spot =>
      obtain ⟨handle, block, row⟩ := spot
      obtain rfl : handle = e := Except.ok.inj accepted
      exact ⟨block, row, placed⟩

theorem unplaced_of_refused {signature : Signature} {error : StoreError}
    (refused : s.createEntity signature = .ok (.error error, next)) :
    s.placeNew signature = .ok (.error error, next) := by
  obtain ⟨⟨outcome, last⟩, placed, same⟩ := bind_ok_iff.mp refused
  obtain ⟨failed, rfl⟩ := Prod.mk.inj (Except.ok.inj same)
  cases outcome with
  | ok spot => contradiction
  | error other =>
      obtain rfl : other = error := Except.error.inj failed
      exact placed

theorem created_home {limit : Nat} {components : Components} {l : Location}
    (created : Created s next limit e components) (located : next.directory.location? e = some l) :
    ∃ b t, Home next e l b t ∧ t.components = components := by
  obtain ⟨b, t, home⟩ := home_of created.becomes.sound located
  have content := home.world
  rw [created.becomes.world, Function.update_self] at content
  exact ⟨b, t, home, (congrArg Content.components (Option.some.inj content)).symm⟩

theorem defaults_present {registry : Registry} {bundle : Bundle}
    (known : ∀ value ∈ bundle.values, registry.check value.type = .ok ()) (value : Component)
    (member : value ∈ bundle.values) : registry.defaults bundle.signature value.type.id ≠ none := by
  obtain ⟨d, found, _⟩ := (Registry.check_ok registry value.type).mp (known value member)
  rw [Registry.defaults, if_pos ((bundle.listed_iff _).mpr (List.mem_map_of_mem member)), found]
  exact Option.some_ne_none _

theorem spawn_ok (sound : s.Sound) (bundle : Bundle) :
    Ensures s.Stops (s.spawn bundle) fun (outcome, next) =>
      match outcome with
      | .error error => next = s ∧ error.Expected ∨
          s.store.Cramped s.registry bundle.signature error ∧ ∃ e, Uncreated s next e
      | .ok e => Created s next 2 e bundle.components := by
  rw [spawn, Bundle.repeated_eq]
  cases repeated : bundle.firstRepeat? with
  | some id => exact Or.inl ⟨rfl, fun _ => by simp⟩
  | none =>
      cases checked : bundle.check s.registry with
      | error error => exact Or.inl ⟨rfl, Bundle.check_all_expected bundle.values checked⟩
      | ok done =>
          refine ensures_bind _ (place_new_ok sound bundle.signature) ?_
          rintro ⟨outcome, middle⟩ result
          cases outcome with
          | error error => exact Or.inr result
          | ok placed =>
              obtain ⟨e, block, row⟩ := placed
              obtain ⟨created, located⟩ := result
              have middleSound := created.becomes.sound
              obtain ⟨b, t, home, started⟩ := created_home created located
              obtain ⟨distinct, _⟩ := (Signature.first_repeat_none_iff _ _).mp repeated
              have known := (Bundle.check_all_ok bundle.values).mp checked
              have registry : middle.registry = s.registry := created.becomes.alike.registry
              have present : ∀ value ∈ bundle.values, t.components value.type.id ≠ none :=
                started ▸ defaults_present known
              obtain ⟨nextBlock, wrote, change⟩ := Bundle.write_all_ok middleSound.store.genuine row
                bundle.values b home.keeps.sound t home.tenant (registry ▸ known) distinct present
              have written := rewrite_ok middleSound home change
              simp only [home.block, Bundle.write, wrote, ok_bind]
              have becomes := created.becomes.trans written
              refine ⟨created.unused, created.reserves, ?_⟩
              rw [created.becomes.world, Function.update_idem, started, bundle.components_eq, home.enabled,
                created.becomes.slots] at becomes
              exact becomes

end EntityStore.Scene
