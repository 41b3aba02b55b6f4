import EntityStore.Proofs.Housing
import EntityStore.Proofs.Store.Blocks

set_option autoImplicit false

namespace EntityStore

namespace Block

variable {registry : Registry} {b : Block}

theorem tenant_of_empty (sound : b.Sound registry) (empty : b.occupied = 0) (row : Nat) :
    b.tenant? row = none := by
  have limit := sound.disabled_le
  unfold occupied disabledCount at empty
  exact tenant_none row ((side_none row).mpr ⟨by omega, by omega⟩)

end Block

namespace Store

def tenant? (s : Store) (spot : Spot) : Option Tenant :=
  (s.block? spot.1).bind fun b => b.tenant? spot.2

variable {registry : Registry} {s next : Store} {id : BlockId} {b : Block}

theorem tenant_eq (found : s.block? id = some b) (row : Nat) : s.tenant? (id, row) = b.tenant? row := by
  rw [tenant?, found, Option.bind_some]

theorem row_narrow (sound : s.Sound registry) (spot : Spot) {t : Tenant} (held : s.tenant? spot = some t) :
    spot.2 < UInt32.size := by
  obtain ⟨b, found, tenant⟩ := Option.bind_eq_some_iff.mp held
  have kept := sound.keeps spot.1 b found
  have inRange := Block.side_in_range kept.sound spot.2 t.enabled (Block.tenant_side spot.2 t tenant).1
  exact Nat.lt_trans (kept.capacity ▸ inRange) sound.narrow

theorem tenant_of_same (blocks : ∀ q, next.block? q = s.block? q) : next.tenant? = s.tenant? := by
  funext spot
  rw [tenant?, blocks]
  rfl

theorem tenant_of_room {signature : Signature} (sound : next.Sound registry) (room : Room s next signature id b) :
    next.tenant? = s.tenant? := by
  funext spot
  by_cases here : spot.1 = id
  · rw [tenant?, tenant?, here, room.found, Option.bind_some]
    rcases room.kept with same | ⟨vacant, empty⟩
    · rw [same, Option.bind_some]
    · rw [vacant, Option.bind_none]
      exact Block.tenant_of_empty (sound.keeps id b room.found).sound empty spot.2
  · rw [tenant?, room.others spot.1 here]
    rfl

theorem tenant_replaced (sound : b.Sound registry)
    (blocks : ∀ q, next.block? q =
      if q = id ∧ b.occupied = 0 then none else if q = id then some b else s.block? q)
    (spot : Spot) :
    next.tenant? spot = if spot.1 = id then b.tenant? spot.2 else s.tenant? spot := by
  rw [tenant?, blocks]
  by_cases here : spot.1 = id
  · rw [if_pos here]
    by_cases empty : b.occupied = 0
    · rw [if_pos ⟨here, empty⟩, Option.bind_none, Block.tenant_of_empty sound empty, if_pos here]
    · rw [if_neg fun both => empty both.2, if_pos here, Option.bind_some]
  · rw [if_neg fun both => here both.1, if_neg here, if_neg here]
    rfl

theorem inhabited_replaced (inhabited : ∀ q other, s.block? q = some other → other.occupied ≠ 0)
    (blocks : ∀ q, next.block? q =
      if q = id ∧ b.occupied = 0 then none else if q = id then some b else s.block? q)
    (q : BlockId) (other : Block) (found : next.block? q = some other) : other.occupied ≠ 0 := by
  rw [blocks] at found
  by_cases here : q = id
  · by_cases empty : b.occupied = 0
    · rw [if_pos ⟨here, empty⟩] at found
      contradiction
    · rw [if_neg fun both => empty both.2, if_pos here] at found
      exact Option.some.inj found ▸ empty
  · rw [if_neg fun both => here both.1, if_neg here] at found
    exact inhabited q other found

theorem inhabited_put (inhabited : ∀ q other, s.block? q = some other → other.occupied ≠ 0)
    (blocks : ∀ q, next.block? q = if q = id then some b else s.block? q) (occupied : b.occupied ≠ 0) :
    ∀ q other, next.block? q = some other → other.occupied ≠ 0 := by
  have replaced (q : BlockId) : next.block? q =
      if q = id ∧ b.occupied = 0 then none else if q = id then some b else s.block? q := by
    rw [blocks, if_neg fun both : q = id ∧ b.occupied = 0 => occupied both.2]
  exact inhabited_replaced inhabited replaced

section Insert

open Checked

theorem insert_ok (sound : s.Sound registry) (signature : Signature) (e : Entity) :
    Ensures (s.Overflows registry signature) (s.insert registry signature e) fun (outcome, next) =>
      next.Sound registry ∧ Alike s next ∧ (∃ turns ≤ 2, Ages s next turns) ∧
        match outcome with
        | .error error => Learns s next ∧ s.Cramped registry signature error
        | .ok spot => s.tenant? spot = none ∧
            next.tenant? = Function.update s.tenant? spot
              (some ⟨e, true, registry.defaults signature⟩) ∧
            ∃ b, b.signature = signature ∧ b.occupied ≠ 0 ∧
              ∀ q, next.block? q = if q = spot.1 then some b else s.block? q := by
  unfold insert
  refine ensures_bind _ (acquire_ok sound signature) ?_
  rintro ⟨outcome, middle⟩ ⟨middleSound, alike, ⟨turns, bound, ages⟩, acquired⟩
  cases outcome with
  | error error => exact ⟨middleSound, alike, ⟨turns, by omega, ages⟩, acquired⟩
  | ok id =>
      obtain ⟨b, room⟩ := acquired
      have kept := middleSound.keeps id b room.found
      have housed := tenant_of_room middleSound room
      obtain ⟨nextBlock, pushed, nextSound, frame, count, _, _, tenants⟩ :=
        Block.push_ok middleSound.genuine kept.sound room.space e
      have putSound := sound_put middleSound room.found nextSound frame
      have blocks := block_put room.found nextBlock
      let next : Store := (middle.put id nextBlock).bump
      have content (q : BlockId) :
          next.block? q = if q = id then some nextBlock else s.block? q := by
        refine (blocks q).trans ?_
        by_cases here : q = id
        · rw [if_pos here, if_pos here]
        · rw [if_neg here, if_neg here, room.others q here]
      have vacant : b.tenant? b.entityCount = none := by
        have space := room.space
        exact Block.tenant_none _ ((Block.side_none _).mpr ⟨by omega, by omega⟩)
      simp only [room.found, pushed, ok_bind]
      refine ⟨sound_bump putSound, (alike.trans (alike_put middle id nextBlock)).trans (alike_bump _),
        ⟨turns + 1, by omega, ages.trans (Ages.of_bump rfl fun _ _ hit => hit)⟩, ?_, ?_, nextBlock,
        frame.signature.trans room.signature, by omega, content⟩
      · rw [← housed, tenant_eq room.found, vacant]
      · funext ⟨q, row⟩
        rw [Function.update_apply, tenant?, content, ← housed]
        by_cases here : q = id
        · subst here
          rw [if_pos rfl, Option.bind_some, tenants, tenant_eq room.found,
            room.signature]
          by_cases arrived : row = b.entityCount
          · rw [if_pos arrived, if_pos (by rw [arrived])]
          · rw [if_neg arrived, if_neg fun same => arrived (Prod.mk.inj same).2]
        · rw [if_neg here, if_neg fun same => here (Prod.mk.inj same).1, housed]
          rfl

end Insert

end Store

end EntityStore
