import EntityStore.Component.Registry.Operation
import EntityStore.Proofs.Registry

set_option autoImplicit false

namespace EntityStore.Registry

variable {r : Registry}

structure Accepts (r : Registry) (d : Descriptor) : Prop where
  room : r.size < ComponentId.limit
  next : d.id.val = r.size
  size : d.size ≠ 0
  align : d.align ≤ maxAlign

inductive Refuses (r : Registry) (d : Descriptor) : StoreError → Prop where
  | full (full : ComponentId.limit ≤ r.size) : Refuses r d .registryFull
  | order (room : r.size < ComponentId.limit) (other : d.id.val ≠ r.size) :
      Refuses r d (.registrationOrder d.name d.id.val r.size)
  | layout (room : r.size < ComponentId.limit) (next : d.id.val = r.size) (unfit : d.size = 0 ∨ maxAlign < d.align) :
      Refuses r d (.unsupportedLayout d.name d.size d.align)

theorem Accepts.not_refuses {d : Descriptor} {error : StoreError} (accepts : Accepts r d) : ¬ Refuses r d error := by
  rintro (full | ⟨_, other⟩ | ⟨_, _, unfit⟩)
  · exact Nat.not_le_of_lt accepts.room full
  · exact other accepts.next
  · rcases unfit with zero | large
    · exact accepts.size zero
    · exact Nat.not_lt_of_le accepts.align large

theorem Refuses.unique {d : Descriptor} {error other : StoreError} (refuses : Refuses r d error)
    (again : Refuses r d other) : error = other := by
  rcases refuses with full | ⟨room, away⟩ | ⟨room, own, _⟩
  · rcases again with _ | ⟨room, _⟩ | ⟨room, _, _⟩
    · rfl
    · exact absurd full (Nat.not_le_of_lt room)
    · exact absurd full (Nat.not_le_of_lt room)
  · rcases again with full | _ | ⟨_, own, _⟩
    · exact absurd full (Nat.not_le_of_lt room)
    · rfl
    · exact absurd own away
  · rcases again with full | ⟨_, away⟩ | _
    · exact absurd full (Nat.not_le_of_lt room)
    · exact absurd own away
    · rfl

inductive Follows (r : Registry) (operation : Operation) : Prop where
  | accepted (accepts : Accepts r operation.descriptor)
      (done : r.operate operation = (.ok operation.descriptor.id, ⟨r.descriptors ++ [operation.descriptor]⟩))
  | refused (error : StoreError) (refuses : Refuses r operation.descriptor error)
      (done : r.operate operation = (.error error, r))

theorem operate_follows (r : Registry) (operation : Operation) : Follows r operation := by
  by_cases full : ComponentId.limit ≤ r.size
  · refine .refused _ (.full full) ?_
    simp only [operate, insert, if_pos full]
  · have room := Nat.lt_of_not_le full
    by_cases next : operation.descriptor.id.val = r.size
    · by_cases unfit : operation.descriptor.size = 0 ∨ maxAlign < operation.descriptor.align
      · refine .refused _ (.layout room next unfit) ?_
        simp only [operate, insert, if_neg full, if_neg (not_not_intro next), if_pos unfit]
      · refine .accepted ⟨room, next, fun zero => unfit (Or.inl zero), ?_⟩ ?_
        · exact Nat.le_of_not_lt fun large => unfit (Or.inr large)
        · simp only [operate, insert, if_neg full, if_neg (not_not_intro next), if_neg unfit]
    · refine .refused _ (.order room next) ?_
      simp only [operate, insert, if_neg full, if_pos next]

structure Answers (r : Registry) (operation : Operation) : Prop where
  succeeds : ∀ id, (r.operate operation).1 = .ok id ↔ id = operation.descriptor.id ∧ Accepts r operation.descriptor
  fails : ∀ error, (r.operate operation).1 = .error error ↔ Refuses r operation.descriptor error
  appended : ∀ id, (r.operate operation).1 = .ok id →
    (r.operate operation).2.descriptors = r.descriptors ++ [operation.descriptor]
  unchanged : ∀ error, (r.operate operation).1 = .error error → (r.operate operation).2 = r
  kept : ∀ slot, slot < r.size → (r.operate operation).2.descriptors[slot]? = r.descriptors[slot]?

theorem answers_ok (r : Registry) (operation : Operation) : Answers r operation := by
  rcases operate_follows r operation with ⟨accepts, done⟩ | ⟨error, refuses, done⟩
  · refine ⟨fun id => ?_, fun error => ?_, fun id _ => ?_, fun error failed => ?_, fun slot before => ?_⟩
    · rw [done, Except.ok.injEq, eq_comm]
      exact (and_iff_left accepts).symm
    · rw [done]
      exact ⟨(nomatch ·), fun refuses => absurd refuses accepts.not_refuses⟩
    · rw [done]
    · rw [done] at failed
      contradiction
    · rw [done]
      exact List.getElem?_append_left before
  · refine ⟨fun id => ?_, fun other => ?_, fun id succeeded => ?_, fun _ _ => ?_, fun slot _ => ?_⟩
    · rw [done]
      exact ⟨(nomatch ·), fun both => absurd refuses both.2.not_refuses⟩
    · rw [done, Except.error.injEq]
      exact ⟨fun same => same ▸ refuses, refuses.unique⟩
    · rw [done] at succeeded
      contradiction
    · rw [done]
    · rw [done]

def accepted : List Operation → List (Outcome ComponentId) → List Descriptor
  | operation :: operations, .ok _ :: answers => operation.descriptor :: accepted operations answers
  | _ :: operations, .error _ :: answers => accepted operations answers
  | _, _ => []

structure Grows (r : Registry) (operations : List Operation) (answers : List (Outcome ComponentId)) (last : Registry) :
    Prop where
  answered : answers.length = operations.length
  history : last.descriptors = r.descriptors ++ accepted operations answers
  told : ∀ (number : Nat) (operation : Operation) (id : ComponentId), operations[number]? = some operation →
    answers[number]? = some (Except.ok id) →
      id = operation.descriptor.id ∧ operation.descriptor ∈ accepted operations answers
  built : last.Built

theorem operate_all_grows (built : r.Built) (operations : List Operation) :
    Grows r operations (r.operateAll operations).1 (r.operateAll operations).2 := by
  induction operations generalizing r with
  | nil => exact ⟨rfl, (List.append_nil _).symm, fun _ _ _ found => by simp at found, built⟩
  | cons operation rest ih =>
      rcases operate_follows r operation with ⟨accepts, done⟩ | ⟨error, _, done⟩
      · have inserted : r.insert operation.descriptor = .ok ⟨r.descriptors ++ [operation.descriptor]⟩ := by
          have result := congrArg Prod.fst done
          cases tried : r.insert operation.descriptor with
          | error error => simp [operate, tried] at result
          | ok next => rw [(insert_ok r next _ tried).2.2.2]
        obtain ⟨answered, history, told, last⟩ := ih (.insert built inserted)
        simp only [operateAll, done]
        refine ⟨congrArg Nat.succ answered, ?_, fun number other id asked answer => ?_, last⟩
        · rw [history, accepted, List.append_assoc, List.singleton_append]
        · rw [accepted, List.mem_cons]
          cases number with
          | zero =>
              obtain rfl := Option.some.inj asked
              obtain rfl := Except.ok.inj (Option.some.inj answer)
              exact ⟨rfl, Or.inl rfl⟩
          | succ number =>
              obtain ⟨same, member⟩ := told number other id asked answer
              exact ⟨same, Or.inr member⟩
      · obtain ⟨answered, history, told, last⟩ := ih built
        simp only [operateAll, done]
        refine ⟨congrArg Nat.succ answered, by rw [history, accepted], fun number other id asked answer => ?_, last⟩
        rw [accepted]
        cases number with
        | zero => simp at answer
        | succ number => exact told number other id asked answer

section Built

variable (built : r.Built)

include built

theorem size_le : r.size ≤ ComponentId.limit := by
  cases built with
  | empty => exact Nat.zero_le _
  | @insert first _ d _ accepted =>
      obtain ⟨own, _, _, rfl⟩ := insert_ok first r d accepted
      have small := d.id.isLt
      rw [size, List.length_append, List.length_singleton, ← size, ComponentId.limit]
      omega

theorem get_iff (id : ComponentId) (d : Descriptor) : r.get? id = some d ↔ d ∈ r.descriptors ∧ d.id = id := by
  constructor
  · intro found
    exact ⟨List.mem_of_getElem? found, Fin.ext (built_entry r built id.val d found).id⟩
  · rintro ⟨member, rfl⟩
    obtain ⟨slot, found⟩ := List.mem_iff_getElem?.mp member
    rw [get?, (built_entry r built slot d found).id, found]

-- The ids ascend with the slots, so the first descriptor of a name has the lowest id.
theorem find_by_name_iff (name : String) (d : Descriptor) : r.findByName? name = some d ↔
    d ∈ r.descriptors ∧ d.name = name ∧ ∀ other ∈ r.descriptors, other.name = name → d.id ≤ other.id := by
  rw [findByName?, List.find?_eq_some_iff_getElem]
  simp only [decide_eq_true_eq, Bool.not_eq_true', decide_eq_false_iff_not]
  constructor
  · rintro ⟨named, slot, inside, rfl, first⟩
    refine ⟨List.getElem_mem inside, named, fun other member same => ?_⟩
    obtain ⟨later, bound, rfl⟩ := List.mem_iff_getElem.mp member
    rw [Fin.le_def, (built_entry r built slot _ (List.getElem?_eq_getElem inside)).id,
      (built_entry r built later _ (List.getElem?_eq_getElem bound)).id]
    exact Nat.le_of_not_lt fun before => first later before same
  · rintro ⟨member, named, lowest⟩
    obtain ⟨slot, inside, rfl⟩ := List.mem_iff_getElem.mp member
    refine ⟨named, slot, inside, rfl, fun earlier before same => ?_⟩
    have bound := Nat.lt_trans before inside
    have above := lowest _ (List.getElem_mem bound) same
    rw [Fin.le_def, (built_entry r built slot _ (List.getElem?_eq_getElem inside)).id,
      (built_entry r built earlier _ (List.getElem?_eq_getElem bound)).id] at above
    omega

end Built

theorem present_iff (r : Registry) (id : ComponentId) : (r.get? id).isSome = true ↔ id.val < r.size := by
  simp [get?, size]

theorem find_by_name_none (r : Registry) (name : String) :
    r.findByName? name = none ↔ ∀ d ∈ r.descriptors, d.name ≠ name := by
  simp [findByName?]

structure Dense (base : Registry) (operations : List Operation) (answers : List (Outcome ComponentId))
    (last : Registry) : Prop where
  answered : answers.length = operations.length
  history : last.descriptors = base.descriptors ++ accepted operations answers
  limited : last.size ≤ ComponentId.limit
  seated : ∀ slot d, last.descriptors[slot]? = some d → Seated slot d
  get : ∀ id d, last.get? id = some d ↔ d ∈ base.descriptors ++ accepted operations answers ∧ d.id = id
  inserted : ∀ (number : Nat) (operation : Operation) (id : ComponentId), operations[number]? = some operation →
    answers[number]? = some (Except.ok id) → last.get? id = some operation.descriptor
  present : ∀ id, (last.get? id).isSome = true ↔ id.val < last.size
  named : ∀ name d, last.findByName? name = some d ↔
    d ∈ last.descriptors ∧ d.name = name ∧ ∀ other ∈ last.descriptors, other.name = name → d.id ≤ other.id
  unnamed : ∀ name, last.findByName? name = none ↔ ∀ d ∈ last.descriptors, d.name ≠ name
  next : ∀ operation, Answers last operation
  kept : ∀ later, last.descriptors <+: (last.operateAll later).2.descriptors

theorem operate_all_dense (built : r.Built) (operations : List Operation) :
    Dense r operations (r.operateAll operations).1 (r.operateAll operations).2 := by
  obtain ⟨answered, history, told, last⟩ := operate_all_grows built operations
  refine ⟨answered, history, size_le last, built_entry _ last, fun id d => ?_, ?_, present_iff _,
    find_by_name_iff last, find_by_name_none _, answers_ok _, fun later => ?_⟩
  · rw [get_iff last, history]
  · intro number operation id asked answer
    obtain ⟨rfl, member⟩ := told number operation id asked answer
    rw [get_iff last, history]
    exact ⟨List.mem_append_right _ member, rfl⟩
  · rw [(operate_all_grows last later).history]
    exact List.prefix_append _ _

/-- Component types are registered in the order of their ids. After any operations on the empty registry or on
the one with the built-in types there are at most as many descriptors as ids, each in the slot of its id, not
empty and aligned no further than buffers are. They are those that were there and those that were accepted since:
an id is looked up as the descriptor that was inserted under it and a name as the lowest id that has it. An
operation is accepted exactly if there is room, its id is the next one and its layout is supported; otherwise it
names the first of these that fails. Nothing that was accepted changes later. -/
theorem registered_in_order (base : Registry) (start : base = .empty ∨ base = .builtins) (operations : List Operation) :
    Dense base operations (base.operateAll operations).1 (base.operateAll operations).2 := by
  rcases start with rfl | rfl
  · exact operate_all_dense .empty operations
  · exact operate_all_dense builtins_genuine.built operations

def spare (id : ComponentId) : Descriptor := { Descriptor.ofType .light true with id, name := "Spare" }

def mixedHistory (next after far : ComponentId) : List Operation :=
  [.register .light, .insert (spare far), .insert (spare next), .insert (spare next),
    .insert { spare after with size := 0 }, .insert { spare after with align := 128 }, .insert (spare after)]

theorem registered_in_order_mixed : (builtins = .empty ∨ builtins = .builtins) ∧
    (builtins.operateAll (mixedHistory 7 8 42)).1 = [.error (.registrationOrder "Light" 6 7),
      .error (.registrationOrder "Spare" 42 7), .ok 7, .error (.registrationOrder "Spare" 7 8),
      .error (.unsupportedLayout "Spare" 0 4), .error (.unsupportedLayout "Spare" 20 128), .ok 8] ∧
    Dense builtins (mixedHistory 7 8 42) (builtins.operateAll (mixedHistory 7 8 42)).1
      (builtins.operateAll (mixedHistory 7 8 42)).2 :=
  ⟨Or.inr rfl, rfl, registered_in_order builtins (Or.inr rfl) (mixedHistory 7 8 42)⟩

end EntityStore.Registry
