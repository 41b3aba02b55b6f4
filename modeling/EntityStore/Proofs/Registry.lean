import EntityStore.Component.Registry

set_option autoImplicit false

namespace EntityStore

-- The errors that a scene may give: its pool of blocks never runs out before its slab does.
def StoreError.Expected (error : StoreError) : Prop := ∀ capacity, error ≠ .outOfBlocks capacity

namespace Registry

inductive Genuine : Registry → Prop where
  | empty : Genuine .empty
  | insert {r next : Registry} {type : ComponentType} {serializable : Bool} (built : Genuine r)
      (accepted : r.insert (.ofType type serializable) = .ok next) : Genuine next

inductive Built : Registry → Prop where
  | empty : Built .empty
  | insert {r next : Registry} {d : Descriptor} (built : Built r) (accepted : r.insert d = .ok next) :
      Built next

structure Seated (slot : Nat) (d : Descriptor) : Prop where
  id : d.id.val = slot
  size_pos : 0 < d.size
  align_le : d.align ≤ maxAlign

structure Entry (slot : Nat) (d : Descriptor) : Prop where
  made : d = .ofType d.type d.serializable
  id : d.id.val = slot
  size_pos : 0 < d.size
  align_le : d.align ≤ maxAlign

theorem insert_ok (r next : Registry) (d : Descriptor) (accepted : r.insert d = .ok next) :
    d.id.val = r.size ∧ 0 < d.size ∧ d.align ≤ maxAlign ∧ next = ⟨r.descriptors ++ [d]⟩ := by
  unfold insert at accepted
  by_cases full : ComponentId.limit ≤ r.size
  · simp [full] at accepted
  · by_cases order : d.id.val = r.size
    · by_cases layout : d.size = 0 ∨ maxAlign < d.align
      · simp [full, order, layout] at accepted
      · rw [if_neg full, if_neg (not_not_intro order), if_neg layout] at accepted
        have same := Except.ok.inj accepted
        exact ⟨order, by omega, by omega, same.symm⟩
    · simp [full, order] at accepted

theorem built_entry (r : Registry) (built : r.Built) (slot : Nat) (d : Descriptor)
    (entry : r.descriptors[slot]? = some d) : Seated slot d := by
  induction built with
  | empty => simp [empty] at entry
  | @insert r next other _ accepted ih =>
      obtain ⟨order, size, align, rfl⟩ := insert_ok r next other accepted
      rw [List.getElem?_append] at entry
      by_cases before : slot < r.descriptors.length
      · rw [if_pos before] at entry
        exact ih entry
      · rw [if_neg before] at entry
        obtain ⟨at_end, same⟩ := List.getElem?_eq_some_iff.mp entry
        have last : slot = r.size := by
          rw [List.length_singleton] at at_end
          unfold Registry.size
          omega
        rw [List.getElem_singleton] at same
        exact same ▸ ⟨order.trans last.symm, size, align⟩

theorem Genuine.built {r : Registry} (genuine : r.Genuine) : r.Built := by
  induction genuine with
  | empty => exact .empty
  | insert _ accepted ih => exact .insert ih accepted

theorem genuine_made (r : Registry) (genuine : r.Genuine) :
    ∀ d ∈ r.descriptors, d = .ofType d.type d.serializable := by
  induction genuine with
  | empty => exact fun d member => absurd member List.not_mem_nil
  | @insert r next type serializable _ accepted ih =>
      obtain ⟨_, _, _, rfl⟩ := insert_ok r next _ accepted
      exact List.forall_mem_append.mpr ⟨ih, List.forall_mem_singleton.mpr rfl⟩

theorem genuine_entry (r : Registry) (genuine : r.Genuine) (slot : Nat) (d : Descriptor)
    (entry : r.descriptors[slot]? = some d) : Entry slot d := by
  have seated := built_entry r genuine.built slot d entry
  exact ⟨genuine_made r genuine d (List.mem_of_getElem? entry), seated.id, seated.size_pos, seated.align_le⟩

theorem genuine_get (r : Registry) (genuine : r.Genuine) (id : ComponentId) (d : Descriptor)
    (found : r.get? id = some d) : Entry id.val d :=
  genuine_entry r genuine id.val d found

theorem entry_id (r : Registry) (genuine : r.Genuine) (id : ComponentId) (d : Descriptor)
    (found : r.get? id = some d) : d.id = id :=
  Fin.ext (genuine_get r genuine id d found).id

theorem find_ok (r : Registry) (id : ComponentId) (d : Descriptor) :
    r.find id = .ok d ↔ r.get? id = some d := by
  unfold find
  cases r.get? id <;> simp

theorem check_ok (r : Registry) (type : ComponentType) :
    r.check type = .ok () ↔ ∃ d, r.get? type.id = some d ∧ d.type = type := by
  unfold check find
  cases found : r.get? type.id with
  | none => simp [bind, Except.bind]
  | some d => by_cases same : d.type = type <;> simp [bind, Except.bind, Descriptor.is, same]

theorem check_unique {r : Registry} {type other : ComponentType} (same : other.id = type.id)
    (known : r.check type = .ok ()) (alike : r.check other = .ok ()) : other = type := by
  obtain ⟨d, found, own⟩ := (check_ok r type).mp known
  obtain ⟨e, again, named⟩ := (check_ok r other).mp alike
  rw [same, found] at again
  rw [← named, ← own, Option.some.inj again]

theorem check_error {r : Registry} {type : ComponentType} {error : StoreError}
    (refused : r.check type = .error error) : error = .unregisteredComponent type.id := by
  unfold check find at refused
  cases found : r.get? type.id with
  | none =>
      rw [found] at refused
      exact (Except.error.inj refused).symm
  | some d =>
      rw [found] at refused
      by_cases same : d.is type = true
      · simp [bind, Except.bind, same] at refused
      · simp only [bind, Except.bind, if_neg same, Except.error.injEq] at refused
        exact refused.symm

theorem find_expected {r : Registry} {id : ComponentId} {error : StoreError}
    (refused : r.find id = .error error) : error.Expected := by
  unfold find at refused
  cases found : r.get? id with
  | some d => simp [found] at refused
  | none =>
      rw [found] at refused
      exact fun _ => by simp [← Except.error.inj refused]

theorem check_expected {r : Registry} {type : ComponentType} {error : StoreError}
    (refused : r.check type = .error error) : error.Expected := by
  rw [check_error refused]
  exact fun _ => by simp

section Entry

variable {slot : Nat} {d : Descriptor}

theorem entry_size (entry : Entry slot d) : d.size = d.type.size := congrArg Descriptor.size entry.made

theorem entry_align (entry : Entry slot d) : d.align = d.type.align :=
  congrArg Descriptor.align entry.made

theorem entry_type_id (entry : Entry slot d) : d.type.id = d.id :=
  (congrArg Descriptor.id entry.made).symm

theorem initial_length (entry : Entry slot d) : d.type.initial.length = d.size :=
  d.type.initial_length.trans (entry_size entry).symm

theorem fit_ok (bytes : List UInt8) (length : bytes.length = d.size) : d.fit bytes = .ok bytes := by
  rw [Descriptor.fit, Descriptor.fitTo, if_pos length]

theorem initial_ok (entry : Entry slot d) : d.initial = .ok d.type.initial :=
  fit_ok d.type.initial (initial_length entry)

end Entry

theorem builtins_genuine : builtins.Genuine := by
  have g0 := Genuine.empty
  have g1 := @Genuine.insert _ _ .transform true g0 rfl
  have g2 := @Genuine.insert _ _ .worldTransform true g1 rfl
  have g3 := @Genuine.insert _ _ .child true g2 rfl
  have g4 := @Genuine.insert _ _ .renderItem true g3 rfl
  have g5 := @Genuine.insert _ _ .physicsBody true g4 rfl
  have g6 := @Genuine.insert _ _ .camera true g5 rfl
  exact @Genuine.insert _ _ .light true g6 rfl

end Registry

end EntityStore
