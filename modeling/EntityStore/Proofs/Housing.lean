import EntityStore.Proofs.Block.Tenants
import EntityStore.Directory
import Mathlib.Logic.Function.Basic

set_option autoImplicit false

namespace EntityStore

abbrev Spot := BlockId × Nat

namespace Location

def spot (l : Location) : Spot := (l.block, l.row)

end Location

structure Content where
  enabled : Bool
  components : Components

def Content.set (content : Content) (id : ComponentId) (bytes : Option (List UInt8)) : Content :=
  { content with components := Function.update content.components id bytes }

theorem Content.set_apply (content : Content) (id : ComponentId) (bytes : Option (List UInt8))
    (other : ComponentId) :
    (content.set id bytes).components other = if other = id then bytes else content.components other :=
  Function.update_apply ..

abbrev World := Entity → Option Content

namespace Tenant

def content (t : Tenant) : Content := ⟨t.enabled, t.components⟩

def locationAt (t : Tenant) (spot : Spot) : Location := ⟨spot.1, spot.2, t.enabled⟩

end Tenant

structure Housing where
  location : Entity → Option Location
  tenant : Spot → Option Tenant

namespace Housing

structure Matched (h : Housing) : Prop where
  home : ∀ e l, h.location e = some l →
    ∃ t, h.tenant l.spot = some t ∧ t.entity = e ∧ t.enabled = l.enabled
  known : ∀ spot t, h.tenant spot = some t → h.location t.entity = some (t.locationAt spot)

def world (h : Housing) : World :=
  fun e => (h.location e).bind fun l => (h.tenant l.spot).map Tenant.content

def vacate (h : Housing) (e : Entity) (spot : Spot) : Housing :=
  ⟨Function.update h.location e none, Function.update h.tenant spot none⟩

def settle (h : Housing) (spot : Spot) (t : Tenant) : Housing :=
  ⟨Function.update h.location t.entity (some (t.locationAt spot)),
    Function.update h.tenant spot (some t)⟩

def move (h : Housing) (source target : Spot) (t : Tenant) : Housing :=
  (h.vacate t.entity source).settle target t

variable {h : Housing} {e : Entity} {l : Location} {t : Tenant} {spot source target : Spot}

theorem world_of_tenant (matched : h.Matched) (held : h.tenant spot = some t) :
    h.world t.entity = some t.content := by
  have same : (t.locationAt spot).spot = spot := rfl
  rw [world, matched.known spot t held, Option.bind_some, same, held, Option.map_some]

theorem world_of_location (found : h.location e = some l) (held : h.tenant l.spot = some t) :
    h.world e = some t.content := by
  rw [world, found, Option.bind_some, held, Option.map_some]

theorem world_none_iff (matched : h.Matched) (e : Entity) : h.world e = none ↔ h.location e = none := by
  unfold world
  cases found : h.location e with
  | none => simp
  | some l =>
      obtain ⟨t, held, _⟩ := matched.home e l found
      simp [held]

theorem spot_unique (matched : h.Matched) (other : Tenant) (held : h.tenant spot = some t)
    (also : h.tenant target = some other) (same : t.entity = other.entity) : spot = target := by
  have first := matched.known spot t held
  have second := matched.known target other also
  rw [same, second] at first
  obtain ⟨block, row, _⟩ := Location.mk.inj (Option.some.inj first)
  exact (Prod.ext block row).symm

theorem spot_of_other (matched : h.Matched) (held : h.tenant spot = some t)
    (found : h.location e = some l) (other : e ≠ t.entity) : l.spot ≠ spot := by
  intro here
  obtain ⟨u, lives, entity, _⟩ := matched.home e l found
  rw [here, held] at lives
  exact other (entity.symm.trans (congrArg Tenant.entity (Option.some.inj lives.symm)))

theorem matched_vacate (matched : h.Matched) (held : h.tenant spot = some t) :
    (h.vacate t.entity spot).Matched := by
  constructor
  · intro f l found
    have other : f ≠ t.entity := fun same => by simp [vacate, same] at found
    have found : h.location f = some l := by simpa [vacate, other] using found
    obtain ⟨u, lives, entity, side⟩ := matched.home f l found
    have elsewhere := spot_of_other matched held found other
    exact ⟨u, by simpa [vacate, elsewhere] using lives, entity, side⟩
  · intro place u lives
    have elsewhere : place ≠ spot := fun same => by simp [vacate, same] at lives
    have lives : h.tenant place = some u := by simpa [vacate, elsewhere] using lives
    have other : u.entity ≠ t.entity :=
      fun same => elsewhere (spot_unique matched t lives held same)
    simpa [vacate, other] using matched.known place u lives

theorem matched_settle (matched : h.Matched) (vacant : h.tenant spot = none)
    (homeless : h.location t.entity = none) : (h.settle spot t).Matched := by
  constructor
  · intro f l found
    by_cases same : f = t.entity
    · have at_spot : t.locationAt spot = l := by simpa [settle, same] using found
      subst at_spot
      exact ⟨t, by simp [settle, Tenant.locationAt, Location.spot], same.symm, rfl⟩
    · have found : h.location f = some l := by simpa [settle, same] using found
      obtain ⟨u, lives, entity, side⟩ := matched.home f l found
      have elsewhere : l.spot ≠ spot := fun hit => by simp [hit, vacant] at lives
      exact ⟨u, by simpa [settle, elsewhere] using lives, entity, side⟩
  · intro place u lives
    by_cases here : place = spot
    · have same : t = u := by simpa [settle, here] using lives
      subst same
      simp [settle, here]
    · have lives : h.tenant place = some u := by simpa [settle, here] using lives
      have known := matched.known place u lives
      have other : u.entity ≠ t.entity := fun same => by simp [same, homeless] at known
      simpa [settle, other] using known

theorem world_vacate (matched : h.Matched) (held : h.tenant spot = some t) :
    (h.vacate t.entity spot).world = Function.update h.world t.entity none := by
  funext f
  by_cases same : f = t.entity
  · simp [world, vacate, same]
  · rw [Function.update_of_ne same]
    simp only [world, vacate, Function.update_of_ne same]
    cases found : h.location f with
    | none => rfl
    | some l =>
        have elsewhere := spot_of_other matched held found same
        rw [Option.bind_some, Option.bind_some, Function.update_of_ne elsewhere]

theorem world_settle (matched : h.Matched) (vacant : h.tenant spot = none) :
    (h.settle spot t).world = Function.update h.world t.entity (some t.content) := by
  funext f
  by_cases same : f = t.entity
  · simp [world, settle, same, Tenant.locationAt, Location.spot]
  · rw [Function.update_of_ne same]
    simp only [world, settle, Function.update_of_ne same]
    cases found : h.location f with
    | none => rfl
    | some l =>
        obtain ⟨u, lives, _⟩ := matched.home f l found
        have elsewhere : l.spot ≠ spot := fun hit => by simp [hit, vacant] at lives
        rw [Option.bind_some, Option.bind_some, Function.update_of_ne elsewhere]

theorem vacant_after (held : h.tenant source = some t) (vacant : h.tenant target = none) :
    (h.vacate t.entity source).tenant target = none := by
  have away : target ≠ source := fun same => by simp [same, held] at vacant
  simpa [vacate, away] using vacant

section Move

variable (matched : h.Matched) (held : h.tenant source = some t)
  (vacant : h.tenant target = none)

include matched held vacant

theorem matched_move : (h.move source target t).Matched :=
  matched_settle (matched_vacate matched held) (vacant_after held vacant)
    (by simp [vacate])

theorem world_move : (h.move source target t).world = h.world := by
  rw [move, world_settle (matched_vacate matched held) (vacant_after held vacant),
    world_vacate matched held, Function.update_idem, ← world_of_tenant matched held,
    Function.update_eq_self]

end Move

section Change

variable (matched : h.Matched) (held : h.tenant spot = some t) (changed : Tenant)

include matched held

theorem matched_change (entity : changed.entity = t.entity) (side : changed.enabled = t.enabled) :
    (⟨h.location, Function.update h.tenant spot (some changed)⟩ : Housing).Matched := by
  constructor
  · intro f l found
    obtain ⟨u, lives, same, flag⟩ := matched.home f l found
    by_cases here : l.spot = spot
    · rw [here, held] at lives
      obtain rfl := Option.some.inj lives
      exact ⟨changed, by simp [here], entity.trans same, side.trans flag⟩
    · exact ⟨u, by simpa [here] using lives, same, flag⟩
  · intro place u lives
    by_cases here : place = spot
    · have same : changed = u := by simpa [here] using lives
      subst same
      have known := matched.known spot t held
      rw [here, entity]
      simpa [Tenant.locationAt, side] using known
    · exact matched.known place u (by simpa [here] using lives)

theorem world_change :
    (⟨h.location, Function.update h.tenant spot (some changed)⟩ : Housing).world =
      Function.update h.world t.entity (some changed.content) := by
  have known := matched.known spot t held
  funext f
  by_cases same : f = t.entity
  · have there : (t.locationAt spot).spot = spot := rfl
    simp [world, same, known, there]
  · rw [Function.update_of_ne same]
    unfold world
    cases found : h.location f with
    | none => simp
    | some l =>
        have elsewhere := spot_of_other matched held found same
        simp [Function.update_of_ne elsewhere]

end Change

-- Somebody leaves a spot for good, and whoever lives at the edge takes it over.
def depart (h : Housing) (t m : Tenant) (spot edge : Spot) : Housing :=
  if spot = edge then h.vacate t.entity spot else (h.vacate t.entity spot).move edge spot m

def transfer (h : Housing) (t m arrived : Tenant) (spot edge target : Spot) : Housing :=
  (h.depart t m spot edge).settle target arrived

section Depart

variable {m : Tenant} {edge : Spot}

theorem edge_after (last : h.tenant edge = some m) (away : spot ≠ edge) :
    (h.vacate t.entity spot).tenant edge = some m := by
  simpa [vacate, Ne.symm away] using last

theorem tenant_depart (h : Housing) (t m : Tenant) (spot edge place : Spot) :
    (h.depart t m spot edge).tenant place =
      if place = edge then none else if place = spot then some m else h.tenant place := by
  unfold depart
  by_cases same : spot = edge
  · rw [if_pos same, ← same]
    by_cases here : place = spot <;> simp [vacate, here]
  · rw [if_neg same]
    by_cases here : place = spot
    · simp [move, settle, here, same]
    · by_cases there : place = edge <;> simp [move, settle, vacate, here, there, Ne.symm same]

theorem tenant_transfer (h : Housing) (t m arrived : Tenant) (spot edge target place : Spot) :
    (h.transfer t m arrived spot edge target).tenant place =
      if place = target then some arrived
      else if place = edge then none
      else if place = spot then some m
      else h.tenant place := by
  by_cases here : place = target
  · simp [transfer, settle, here]
  · rw [if_neg here, ← tenant_depart h t m]
    simp [transfer, settle, here]

variable (matched : h.Matched) (held : h.tenant spot = some t) (last : h.tenant edge = some m)

include matched held last

theorem matched_depart : (h.depart t m spot edge).Matched := by
  unfold depart
  by_cases same : spot = edge
  · rw [if_pos same]
    exact matched_vacate matched held
  · rw [if_neg same]
    exact matched_move (matched_vacate matched held) (edge_after last same) (by simp [vacate])

theorem world_depart : (h.depart t m spot edge).world = Function.update h.world t.entity none := by
  unfold depart
  by_cases same : spot = edge
  · rw [if_pos same, world_vacate matched held]
  · rw [if_neg same, world_move (matched_vacate matched held) (edge_after last same)
      (by simp [vacate]), world_vacate matched held]

theorem location_depart : (h.depart t m spot edge).location =
    Function.update (if spot = edge then h.location
      else Function.update h.location m.entity (some (m.locationAt spot))) t.entity none := by
  unfold depart
  by_cases same : spot = edge
  · rw [if_pos same, if_pos same]
    rfl
  · have other : m.entity ≠ t.entity :=
      fun equal => same (spot_unique matched m held last equal.symm)
    rw [if_neg same, if_neg same]
    show Function.update (Function.update (Function.update _ _ _) _ _) _ _ = _
    rw [Function.update_idem, Function.update_comm other]

variable {target : Spot} (arrived : Tenant) (entity : arrived.entity = t.entity)

include entity

theorem location_transfer : (h.transfer t m arrived spot edge target).location =
    Function.update (if spot = edge then h.location
      else Function.update h.location m.entity (some (m.locationAt spot))) t.entity
      (some (arrived.locationAt target)) := by
  show Function.update (h.depart t m spot edge).location _ _ = _
  rw [location_depart matched held last, entity, Function.update_idem]

variable (free : target = edge ∨ h.tenant target = none)

include free

omit matched last entity in
theorem target_after : (h.depart t m spot edge).tenant target = none := by
  rw [tenant_depart]
  rcases free with here | vacant
  · rw [if_pos here]
  · have away : target ≠ spot := fun same => by simp [same, held] at vacant
    by_cases here : target = edge
    · rw [if_pos here]
    · rw [if_neg here, if_neg away, vacant]

theorem matched_transfer : (h.transfer t m arrived spot edge target).Matched := by
  refine matched_settle (matched_depart matched held last) (target_after held free) ?_
  rw [location_depart matched held last, entity, Function.update_self]

theorem world_transfer : (h.transfer t m arrived spot edge target).world =
    Function.update h.world t.entity (some arrived.content) := by
  rw [transfer, world_settle (matched_depart matched held last) (target_after held free),
    world_depart matched held last, entity, Function.update_idem]

end Depart

end Housing

end EntityStore
