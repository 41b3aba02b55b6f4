import EntityStore.Bundle
import EntityStore.Proofs.Block.Arrivals

set_option autoImplicit false

namespace EntityStore.Bundle

variable {registry : Registry} {b : Block}

def components (b : Bundle) : Components :=
  fun id => (b.values.find? fun value => value.type.id = id).map Component.bytes

theorem listed_iff (bundle : Bundle) (id : ComponentId) : bundle.signature.contains id = true ↔
    id ∈ bundle.values.map fun value => value.type.id :=
  Signature.contains_of_list bundle.ids id

theorem components_some (bundle : Bundle) (id : ComponentId) :
    (bundle.components id).isSome = bundle.signature.contains id := by
  apply Bool.eq_iff_iff.mpr
  rw [listed_iff, List.mem_map, components, Option.isSome_map, List.find?_isSome]
  simp

theorem components_eq (bundle : Bundle) (registry : Registry) :
    (fun id => ((bundle.values.find? fun value => value.type.id = id).map Component.bytes).or
      (registry.defaults bundle.signature id)) = bundle.components := by
  funext id
  unfold components
  cases found : bundle.values.find? fun value => value.type.id = id with
  | some value => rfl
  | none =>
      have absent : ¬ bundle.signature.contains id = true := by
        rw [listed_iff, List.mem_map]
        rintro ⟨value, member, same⟩
        exact List.find?_eq_none.mp found value member (decide_eq_true same)
      rw [Registry.defaults, if_neg absent]
      rfl

theorem check_all_ok (values : List Component) :
    checkAll registry values = .ok () ↔ ∀ value ∈ values, registry.check value.type = .ok () := by
  induction values with
  | nil => simp [checkAll]
  | cons value rest ih =>
      rw [checkAll, List.forall_mem_cons, ← ih]
      cases check : registry.check value.type with
      | error error => simp [bind, Except.bind]
      | ok done => exact (and_iff_right rfl).symm

theorem check_all_expected (values : List Component) {error : StoreError}
    (refused : checkAll registry values = .error error) : error.Expected := by
  induction values with
  | nil => simp [checkAll] at refused
  | cons value rest ih =>
      rw [checkAll] at refused
      cases check : registry.check value.type with
      | error other =>
          rw [check] at refused
          exact Except.error.inj refused ▸ Registry.check_expected check
      | ok done =>
          rw [check] at refused
          exact ih refused

theorem write_all_ok (genuine : registry.Genuine) (row : Nat) (values : List Component) (b : Block)
    (sound : b.Sound registry) (old : Tenant) (tenant : b.tenant? row = some old)
    (known : ∀ value ∈ values, registry.check value.type = .ok ())
    (distinct : (values.map fun value => value.type.id).Nodup)
    (present : ∀ value ∈ values, old.components value.type.id ≠ none) :
    ∃ next, writeAll row b values = .ok next ∧ Block.Rewrites b next row fun id =>
      ((values.find? fun value => value.type.id = id).map Component.bytes).or (old.components id) := by
  induction values generalizing b old with
  | nil =>
      obtain ⟨_, _, components⟩ := Block.tenant_side row old tenant
      have same := Block.Rewrites.refl b row
      rw [← components] at same
      exact ⟨b, rfl, same⟩
  | cons value rest ih =>
      obtain ⟨side, _, _⟩ := Block.tenant_side row old tenant
      obtain ⟨knownHere, knownLater⟩ := List.forall_mem_cons.mp known
      obtain ⟨presentHere, presentLater⟩ := List.forall_mem_cons.mp present
      obtain ⟨fresh, distinct⟩ := List.nodup_cons.mp distinct
      obtain ⟨middle, wrote, first⟩ :=
        Block.set_component_ok genuine sound row value old tenant knownHere presentHere
      have middleSound := first.sound sound (by simp [side])
      have middleTenant := first.tenant sound row
      rw [if_pos rfl, tenant, Option.map_some] at middleTenant
      have kept : ∀ later ∈ rest,
          Function.update old.components value.type.id (some value.bytes) later.type.id ≠ none := by
        intro later member
        by_cases same : later.type.id = value.type.id
        · simp [same]
        · rw [Function.update_of_ne same]
          exact presentLater later member
      obtain ⟨next, done, others⟩ := ih middle middleSound _ middleTenant knownLater distinct kept
      refine ⟨next, ?_, ?_⟩
      · rw [writeAll, wrote]
        exact done
      · have whole := first.trans others
        refine { whole with components := whole.components.trans ?_ }
        funext id
        by_cases here : value.type.id = id
        · have absent : rest.find? (fun later => later.type.id = id) = none := by
            refine List.find?_eq_none.mpr fun later member same => fresh ?_
            have equal : later.type.id = value.type.id := (of_decide_eq_true same).trans here.symm
            exact List.mem_map.mpr ⟨later, member, equal⟩
          simp [absent, here]
        · simp [here, Function.update_of_ne (Ne.symm here)]

end EntityStore.Bundle
