import EntityStore.Pool
import EntityStore.Proofs.Checked
import Mathlib.Data.List.Nodup
import Mathlib.Data.List.Perm.Basic

set_option autoImplicit false

namespace EntityStore.Pool

variable {α : Type}

structure Sound (p : Pool α) : Prop where
  free_nodup : p.free.Nodup
  mem_free : ∀ slot, slot ∈ p.free ↔ slot < p.capacity ∧ p.get? slot = none
  balance : p.allocated + p.free.length = p.capacity

theorem get_beyond (p : Pool α) (slot : Nat) (beyond : p.capacity ≤ slot) : p.get? slot = none := by
  simp [get?, Array.getElem?_eq_none (show p.slots.size ≤ slot from beyond)]

theorem get_replace (slots : Array (Option α)) (free : List Nat) (allocated slot : Nat)
    (inRange : slot < slots.size) (value : Option α) (other : Nat) :
    (⟨slots.setIfInBounds slot value, free, allocated⟩ : Pool α).get? other =
      if other = slot then value else slots[other]?.join := by
  rw [get?, Array.getElem?_setIfInBounds]
  by_cases here : other = slot
  · subst here
    simp [inRange]
  · simp [here, Ne.symm here]

theorem get_in_range (p : Pool α) (slot : Nat) (value : α) (found : p.get? slot = some value) :
    slot < p.capacity := by
  by_cases inRange : slot < p.capacity
  · exact inRange
  · rw [get_beyond p slot (Nat.le_of_not_lt inRange)] at found
    contradiction

section Entries

variable (p : Pool α)

theorem mem_entries (slot : Nat) (value : α) :
    (slot, value) ∈ p.entries ↔ p.get? slot = some value := by
  unfold entries get?
  rw [← Array.getElem?_toList, Option.join_eq_some_iff, List.mem_filterMap]
  constructor
  · rintro ⟨⟨entry, i⟩, member, hit⟩
    obtain ⟨found, held, same⟩ := Option.map_eq_some_iff.mp hit
    obtain ⟨rfl, rfl⟩ := Prod.mk.inj same
    subst held
    exact List.mem_zipIdx_iff_getElem?.mp member
  · intro found
    exact ⟨(some value, slot), List.mem_zipIdx_iff_getElem?.mpr found, rfl⟩

theorem entries_ascend : p.entries.Pairwise fun a b => a.1 < b.1 := by
  have indices : p.slots.toList.zipIdx.Pairwise fun a b => a.2 < b.2 := by
    rw [← List.pairwise_map (f := Prod.snd), List.zipIdx_map_snd]
    exact List.pairwise_lt_range'
  refine List.Pairwise.filterMap _ ?_ indices
  intro a b before x left y right
  obtain ⟨_, _, rfl⟩ := Option.map_eq_some_iff.mp left
  obtain ⟨_, _, rfl⟩ := Option.map_eq_some_iff.mp right
  exact before

theorem entries_slots_nodup : (p.entries.map Prod.fst).Nodup := by
  refine List.pairwise_map.mpr ((entries_ascend p).imp fun before => ?_)
  exact Nat.ne_of_lt before

theorem values_eq : p.slots.toList.filterMap id = p.entries.map Prod.snd := by
  unfold entries
  generalize 0 = start
  induction p.slots.toList generalizing start with
  | nil => rfl
  | cons slot rest ih =>
      cases slot with
      | none => simpa using ih (start + 1)
      | some value => simpa using ih (start + 1)

end Entries

section Operations

variable {p : Pool α}

theorem allocated_eq (sound : p.Sound) : p.allocated = p.entries.length := by
  have occupied : p.entries.map Prod.fst |>.Perm
      ((List.range p.capacity).filter fun slot => (p.get? slot).isSome) := by
    rw [List.perm_ext_iff_of_nodup (entries_slots_nodup p) (List.nodup_range.filter _)]
    intro slot
    rw [List.mem_map, List.mem_filter, List.mem_range, Option.isSome_iff_exists]
    constructor
    · rintro ⟨⟨slot, value⟩, member, rfl⟩
      have found := (mem_entries p slot value).mp member
      exact ⟨get_in_range p slot value found, value, found⟩
    · rintro ⟨_, value, found⟩
      exact ⟨(slot, value), (mem_entries p slot value).mpr found, rfl⟩
  have vacant : p.free.Perm
      ((List.range p.capacity).filter fun slot => ¬ (p.get? slot).isSome) := by
    rw [List.perm_ext_iff_of_nodup sound.free_nodup (List.nodup_range.filter _)]
    intro slot
    rw [sound.mem_free, List.mem_filter, List.mem_range]
    simp
  have total := List.length_eq_countP_add_countP (fun slot => (p.get? slot).isSome)
    (l := List.range p.capacity)
  have some := occupied.length_eq
  have none := vacant.length_eq
  have whole := sound.balance
  rw [List.length_map, ← List.countP_eq_length_filter] at some
  rw [← List.countP_eq_length_filter] at none
  rw [List.length_range] at total
  omega

theorem create_ok (capacity : Nat) (positive : 0 < capacity) :
    ∃ p : Pool α, create capacity = .ok p ∧ p.Sound ∧ p.capacity = capacity ∧ p.allocated = 0 ∧
      ∀ slot, p.get? slot = none := by
  have nothing (slot : Nat) : (Array.replicate capacity (none : Option α))[slot]?.join = none := by
    by_cases inRange : slot < capacity <;> simp [inRange]
  refine ⟨⟨Array.replicate capacity none, List.range capacity, 0⟩,
    by rw [create, if_neg (Nat.ne_of_gt positive)], ⟨?_, ?_, ?_⟩, ?_, rfl, nothing⟩
  · exact List.nodup_range
  · intro slot
    simp [Pool.capacity, get?, nothing]
  · simp [Pool.capacity]
  · simp [Pool.capacity]

theorem allocate_ok (sound : p.Sound) (value : α) :
    p.allocated = p.capacity ∧ p.allocate value = .ok (.error value) ∨
      ∃ slot next, p.allocate value = .ok (.ok (slot, next)) ∧ next.Sound ∧
      next.capacity = p.capacity ∧ p.free = slot :: next.free ∧ next.allocated = p.allocated + 1 ∧
      p.get? slot = none ∧ ∀ q, next.get? q = if q = slot then some value else p.get? q := by
  unfold allocate
  cases free : p.free with
  | nil =>
      have whole := sound.balance
      rw [free] at whole
      exact Or.inl ⟨whole, rfl⟩
  | cons slot rest =>
      right
      obtain ⟨inRange, vacant⟩ := (sound.mem_free slot).mp (by simp [free])
      have distinct := sound.free_nodup
      rw [free] at distinct
      obtain ⟨away, nodup⟩ := List.nodup_cons.mp distinct
      have whole := sound.balance
      rw [free, List.length_cons] at whole
      let next : Pool α := ⟨p.slots.setIfInBounds slot (some value), rest, p.allocated + 1⟩
      have size : next.capacity = p.capacity := Array.size_setIfInBounds
      have content (q : Nat) : next.get? q = if q = slot then some value else p.get? q :=
        get_replace p.slots rest (p.allocated + 1) slot inRange (some value) q
      refine ⟨slot, next, if_pos inRange, ⟨nodup, fun q => ?_, ?_⟩, size, rfl, rfl, vacant, content⟩
      · have before := sound.mem_free q
        rw [free, List.mem_cons] at before
        rw [size, content]
        by_cases here : q = slot
        · subst here
          simpa using away
        · simpa [here] using before
      · rw [size]
        exact (Nat.add_right_comm _ _ _).trans whole

theorem release_ok (sound : p.Sound) (slot : Nat) (value : α) (found : p.get? slot = some value) :
    ∃ next, p.release slot = .ok (some (value, next)) ∧ next.Sound ∧ next.capacity = p.capacity ∧
      next.allocated + 1 = p.allocated ∧
      ∀ q, next.get? q = if q = slot then none else p.get? q := by
  have inRange := get_in_range p slot value found
  have positive : 0 < p.allocated := by
    rw [allocated_eq sound]
    exact List.length_pos_of_mem ((mem_entries p slot value).mpr found)
  let next : Pool α := ⟨p.slots.setIfInBounds slot none, slot :: p.free, p.allocated - 1⟩
  have size : next.capacity = p.capacity := Array.size_setIfInBounds
  have content (q : Nat) : next.get? q = if q = slot then none else p.get? q :=
    get_replace p.slots (slot :: p.free) (p.allocated - 1) slot inRange none q
  have away : slot ∉ p.free := by
    rw [sound.mem_free, found]
    simp
  refine ⟨next, ?_, ⟨List.nodup_cons.mpr ⟨away, sound.free_nodup⟩, fun q => ?_, ?_⟩, size,
    Nat.succ_pred_eq_of_pos positive, content⟩
  · rw [release, found]
    simp only [Checked.sub_ok p.allocated 1 positive, Checked.ok_bind, Checked.pure_eq_ok]
    rfl
  · rw [size, content, List.mem_cons, sound.mem_free]
    by_cases here : q = slot
    · simpa [here] using inRange
    · simp [here]
  · have whole := sound.balance
    rw [size, List.length_cons]
    show p.allocated - 1 + (p.free.length + 1) = p.capacity
    omega

theorem get_set (p : Pool α) (slot : Nat) (value : α) (q : Nat) :
    (p.set slot value).get? q =
      if q = slot then (p.get? slot).map fun _ => value else p.get? q := by
  unfold set
  cases found : p.get? slot with
  | none =>
      by_cases here : q = slot
      · rw [if_pos here, here, found, Option.map_none]
      · rw [if_neg here]
  | some old =>
      exact get_replace p.slots p.free p.allocated slot (get_in_range p slot old found) _ q

theorem set_some (p : Pool α) (slot : Nat) (old value : α) (found : p.get? slot = some old) :
    p.set slot value = { p with slots := p.slots.setIfInBounds slot (some value) } := by
  rw [set, found]

theorem set_same (p : Pool α) (slot : Nat) (value : α) (found : p.get? slot = some value) :
    p.set slot value = p := by
  have inRange : slot < p.slots.size := get_in_range p slot value found
  have held : p.slots[slot]? = some (some value) := Option.join_eq_some_iff.mp found
  rw [set_some p slot value value found]
  refine congrArg (fun slots => ({ p with slots } : Pool α)) (Array.ext_getElem? fun i => ?_)
  rw [Array.getElem?_setIfInBounds]
  by_cases here : slot = i
  · subst here
    rw [if_pos rfl, if_pos inRange, held]
  · rw [if_neg here]

theorem set_set (p : Pool α) (slot : Nat) (first second : α) :
    (p.set slot first).set slot second = p.set slot second := by
  cases found : p.get? slot with
  | none =>
      have kept (value : α) : p.set slot value = p := by rw [set, found]
      rw [kept, kept]
  | some old =>
      have held : (p.set slot first).get? slot = some first := by
        rw [get_set, if_pos rfl, found, Option.map_some]
      rw [set_some _ slot first second held, set_some p slot old first found,
        set_some p slot old second found]
      exact congrArg (fun slots => ({ p with slots } : Pool α)) (Array.setIfInBounds_setIfInBounds _)

theorem set_frame (p : Pool α) (slot : Nat) (value : α) :
    (p.set slot value).capacity = p.capacity ∧ (p.set slot value).allocated = p.allocated ∧
      (p.set slot value).free = p.free := by
  unfold set
  cases p.get? slot with
  | none => exact ⟨rfl, rfl, rfl⟩
  | some old => exact ⟨Array.size_setIfInBounds, rfl, rfl⟩

theorem set_sound (sound : p.Sound) (slot : Nat) (value : α) : (p.set slot value).Sound := by
  obtain ⟨size, allocated, free⟩ := set_frame p slot value
  refine ⟨free ▸ sound.free_nodup, fun q => ?_, ?_⟩
  · rw [free, size, get_set, sound.mem_free]
    by_cases here : q = slot
    · rw [if_pos here, here, Option.map_eq_none_iff]
    · rw [if_neg here]
  · rw [allocated, free, size]
    exact sound.balance

def getPair? (p : Pool α) (a b : Nat) : Option (α × α) :=
  if a = b then none
  else
    match p.get? a, p.get? b with
    | some x, some y => some (x, y)
    | _, _ => none

-- Parted at the higher slot, the lower one lies in the first part and the higher one begins the second.
theorem parted_slots (p : Pool α) {low high : Nat} (before : low < high) (inRange : high < p.capacity) :
    ∃ head tail first second, Checked.part p.slots.toList high = .ok (head, tail) ∧
      Checked.item head low = .ok first ∧ Checked.item tail 0 = .ok second ∧
      p.get? low = first ∧ p.get? high = second := by
  have bound : high < p.slots.toList.length := inRange
  have lower : low < p.slots.toList.length := Nat.lt_trans before bound
  refine ⟨p.slots.toList.take high, p.slots.toList.drop high, p.slots.toList[low], p.slots.toList[high],
    Checked.part_ok (Nat.le_of_lt bound), Checked.item_ok ?_, Checked.item_ok ?_, ?_, ?_⟩
  · rw [List.getElem?_take_of_lt before, List.getElem?_eq_getElem lower]
  · rw [List.getElem?_drop, Nat.add_zero, List.getElem?_eq_getElem bound]
  · rw [get?, ← Array.getElem?_toList, List.getElem?_eq_getElem lower, Option.join_some]
  · rw [get?, ← Array.getElem?_toList, List.getElem?_eq_getElem bound, Option.join_some]

@[simp] theorem get_pair_eq (p : Pool α) (a b : Nat) : p.getPair a b = .ok (p.getPair? a b) := by
  by_cases same : a = b
  · rw [getPair, if_pos (Or.inl same), getPair?, if_pos same]
  by_cases first : p.capacity ≤ a
  · rw [getPair, if_pos (Or.inr (Or.inl first)), getPair?, if_neg same, get_beyond p a first]
  by_cases second : p.capacity ≤ b
  · rw [getPair, if_pos (Or.inr (Or.inr second)), getPair?, if_neg same, get_beyond p b second]
    cases p.get? a <;> rfl
  rw [getPair, if_neg fun outside => outside.elim same fun beyond => beyond.elim first second, getPair?,
    if_neg same]
  by_cases before : a < b
  · obtain ⟨head, tail, x, y, parted, low, high, heldLow, heldHigh⟩ :=
      parted_slots p before (Nat.lt_of_not_le second)
    simp only [if_pos before, parted, low, high, Checked.ok_bind, heldLow, heldHigh]
    cases x <;> cases y <;> rfl
  · obtain ⟨head, tail, x, y, parted, low, high, heldLow, heldHigh⟩ :=
      parted_slots p (Nat.lt_of_le_of_ne (Nat.le_of_not_lt before) (Ne.symm same)) (Nat.lt_of_not_le first)
    simp only [if_neg before, parted, low, high, Checked.ok_bind, heldLow, heldHigh]
    cases x <;> cases y <;> rfl

theorem get_of_pair {a b : Nat} {x y : α} (pair : p.getPair? a b = some (x, y)) :
    p.get? a = some x ∧ p.get? b = some y := by
  unfold getPair? at pair
  by_cases same : a = b
  · simp [same] at pair
  · rw [if_neg same] at pair
    cases first : p.get? a <;> cases second : p.get? b <;> simp_all

theorem drain_ok (p : Pool α) :
    p.drain.1 = p.entries.map Prod.snd ∧ p.drain.2.Sound ∧ p.drain.2.capacity = p.capacity ∧
      p.drain.2.allocated = 0 ∧ ∀ slot, p.drain.2.get? slot = none := by
  have nothing (slot : Nat) :
      (Array.replicate p.slots.size (none : Option α))[slot]?.join = none := by
    by_cases inRange : slot < p.slots.size <;> simp [inRange]
  have size : p.drain.2.capacity = p.capacity := by simp [drain, capacity]
  refine ⟨values_eq p, ⟨List.nodup_range, fun slot => ?_, ?_⟩, size, rfl, nothing⟩
  · rw [size]
    simp [drain, capacity, get?, nothing]
  · simp [drain, capacity]

end Operations

end EntityStore.Pool
