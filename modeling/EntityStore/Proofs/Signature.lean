import EntityStore.Bundle
import EntityStore.Query
import Mathlib.Data.List.FinRange
import Mathlib.Data.List.Nodup

set_option autoImplicit false

namespace EntityStore.Signature

theorem nodup_ids (s : Signature) : s.ids.Nodup := (List.nodup_finRange 256).filter _

theorem ids_ascend (s : Signature) : s.ids.Pairwise (· < ·) := (List.pairwise_lt_finRange 256).filter _

theorem contains_foldl (ids : List ComponentId) (s : Signature) (id : ComponentId) :
    (ids.foldl insert s).contains id = true ↔ s.contains id = true ∨ id ∈ ids := by
  induction ids generalizing s with
  | nil => simp
  | cons first rest ih =>
      rw [List.foldl_cons, ih, contains_insert, List.mem_cons]
      simp only [Bool.or_eq_true, decide_eq_true_eq]
      rw [eq_comm (a := first), or_comm (a := id = first), or_assoc]

theorem contains_of_list (ids : List ComponentId) (id : ComponentId) :
    (ofList ids).contains id = true ↔ id ∈ ids := by
  rw [ofList, contains_foldl, contains_empty]
  simp

theorem inter_eq_iff (s t : Signature) : s.inter t = t ↔ s.isSuperset t = true := by
  unfold isSuperset inter
  rw [beq_iff_eq]
  constructor
  · intro same
    exact congrArg bits same
  · intro same
    rw [same]

theorem superset_iff (s t : Signature) :
    s.isSuperset t = true ↔ ∀ id, t.contains id = true → s.contains id = true := by
  rw [← inter_eq_iff]
  constructor
  · intro same id present
    rw [← same, contains_inter] at present
    exact (Bool.and_eq_true_iff.mp present).1
  · intro included
    apply ext_contains
    intro id
    rw [contains_inter]
    cases present : t.contains id with
    | false => exact Bool.and_false _
    | true => rw [included id present, Bool.and_true]

theorem is_empty_iff (s : Signature) : s.isEmpty = true ↔ s = empty := by
  obtain ⟨bits⟩ := s
  rw [isEmpty, beq_iff_eq, empty, mk.injEq]

theorem count_bits {n : Nat} (x : BitVec n) (k : Nat) :
    x.cpopNatRec k 0 = (List.range k).countP x.getLsbD := by
  induction k with
  | zero => rfl
  | succ k ih =>
      rw [BitVec.cpopNatRec_succ, BitVec.cpopNatRec_add, ih, List.range_succ, List.countP_append,
        List.countP_singleton]
      cases x.getLsbD k <;> rfl

theorem size_eq (s : Signature) : s.size = s.ids.length := by
  rw [size, BitVec.toNat_cpop, count_bits, ids, ← List.countP_eq_length_filter,
    ← List.map_coe_finRange_eq_range, List.countP_map]
  rfl

theorem of_list_ids (s : Signature) : ofList s.ids = s :=
  ext_contains _ s fun id => Bool.eq_iff_iff.mpr ((contains_of_list s.ids id).trans (s.mem_ids id))

theorem first_repeat_none_iff (ids : List ComponentId) (seen : Signature) :
    firstRepeat seen ids = none ↔ ids.Nodup ∧ ∀ id ∈ ids, seen.contains id = false := by
  induction ids generalizing seen with
  | nil => simp [firstRepeat]
  | cons first rest ih =>
      rw [firstRepeat, List.nodup_cons, List.forall_mem_cons]
      by_cases met : seen.contains first = true
      · simp [met]
      · rw [if_neg met, ih, Bool.not_eq_true] at *
        constructor
        · rintro ⟨distinct, unseen⟩
          refine ⟨⟨fun again => ?_, distinct⟩, met, fun id member => ?_⟩
          · have here := unseen first again
            simp at here
          · have here := unseen id member
            rw [contains_insert, Bool.or_eq_false_iff] at here
            exact here.2
        · rintro ⟨⟨fresh, distinct⟩, _, unseen⟩
          refine ⟨distinct, fun id member => ?_⟩
          have other : first ≠ id := fun same => fresh (same ▸ member)
          rw [contains_insert, unseen id member, decide_eq_false other]
          rfl

theorem first_repeat_some_iff (ids : List ComponentId) (seen : Signature) (id : ComponentId) :
    firstRepeat seen ids = some id ↔ ∃ before after, ids = before ++ id :: after ∧
      firstRepeat seen before = none ∧ (seen.contains id = true ∨ id ∈ before) := by
  induction ids generalizing seen with
  | nil => simp [firstRepeat]
  | cons first rest ih =>
      rw [firstRepeat]
      by_cases met : seen.contains first = true
      · rw [if_pos met]
        constructor
        · intro same
          obtain rfl := Option.some.inj same
          exact ⟨[], rest, rfl, rfl, Or.inl met⟩
        · rintro ⟨before, after, split, fresh, _⟩
          cases before with
          | nil =>
              obtain ⟨rfl, _⟩ := List.cons.inj split
              rfl
          | cons other more =>
              obtain ⟨rfl, _⟩ := List.cons.inj split
              rw [firstRepeat, if_pos met] at fresh
              contradiction
      · rw [if_neg met, ih]
        constructor
        · rintro ⟨before, after, rfl, fresh, again⟩
          refine ⟨first :: before, after, rfl, ?_, ?_⟩
          · rw [firstRepeat, if_neg met, fresh]
          · rw [contains_insert, Bool.or_eq_true, decide_eq_true_eq] at again
            rcases again with (here | before) | later
            · exact Or.inr (here ▸ List.mem_cons_self)
            · exact Or.inl before
            · exact Or.inr (List.mem_cons_of_mem first later)
        · rintro ⟨before, after, split, fresh, again⟩
          cases before with
          | nil =>
              obtain ⟨rfl, _⟩ := List.cons.inj split
              rcases again with before | later
              · exact absurd before met
              · exact absurd later List.not_mem_nil
          | cons other more =>
              obtain ⟨rfl, same⟩ := List.cons.inj split
              rw [firstRepeat, if_neg met] at fresh
              refine ⟨more, after, same, fresh, ?_⟩
              rw [contains_insert, Bool.or_eq_true, decide_eq_true_eq]
              rcases again with before | later
              · exact Or.inl (Or.inr before)
              · rcases List.mem_cons.mp later with here | there
                · exact Or.inl (Or.inl here.symm)
                · exact Or.inr there

theorem first_repeat_nodup (ids : List ComponentId) : firstRepeat .empty ids = none ↔ ids.Nodup := by
  rw [first_repeat_none_iff]
  simp

theorem first_repeat_again (ids : List ComponentId) (id : ComponentId) : firstRepeat .empty ids = some id ↔
    ∃ before after, ids = before ++ id :: after ∧ before.Nodup ∧ id ∈ before := by
  rw [first_repeat_some_iff]
  refine exists_congr fun before => exists_congr fun after => and_congr_right fun _ => ?_
  rw [first_repeat_nodup]
  simp

theorem size_of_list_iff (ids : List ComponentId) : (ofList ids).size = ids.length ↔ ids.Nodup := by
  have same (id : ComponentId) : id ∈ (ofList ids).ids ↔ id ∈ ids := by
    rw [mem_ids, contains_of_list]
  rw [size_eq]
  refine ⟨fun length => ?_, fun distinct => ?_⟩
  · have part := List.subperm_of_subset (nodup_ids (ofList ids)) fun id => (same id).mp
    exact (part.perm_of_length_le (Nat.le_of_eq length.symm)).nodup (nodup_ids (ofList ids))
  · exact ((List.perm_ext_iff_of_nodup (nodup_ids (ofList ids)) distinct).mpr same).length_eq

end EntityStore.Signature

theorem EntityStore.Bundle.repeated_eq (b : Bundle) : b.repeated? = b.firstRepeat? := by
  rw [repeated?, signature, firstRepeat?]
  by_cases distinct : b.ids.Nodup
  · rw [if_pos ((Signature.size_of_list_iff b.ids).mpr distinct),
      (Signature.first_repeat_nodup b.ids).mpr distinct]
  · rw [if_neg (mt (Signature.size_of_list_iff b.ids).mp distinct)]
    cases again : Signature.firstRepeat .empty b.ids with
    | none => exact absurd ((Signature.first_repeat_nodup b.ids).mp again) distinct
    | some id => rfl
