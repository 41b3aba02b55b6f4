import EntityStore.Proofs.Store.Choice

set_option autoImplicit false

namespace EntityStore.Store

open Checked

variable {registry : Registry} {s next : Store} {signature : Signature} {count id : Nat} {b : Block}

def blocksFor (capacity count : Nat) : Nat := (count + capacity - 1) / capacity

section Arithmetic

variable {capacity : Nat} (positive : 0 < capacity)

include positive

theorem blocks_for_eq (count : Nat) : blocksFor capacity count =
    if count % capacity = 0 then count / capacity else count / capacity + 1 := by
  have whole := Nat.div_add_mod count capacity
  have bound := Nat.mod_lt count positive
  rw [blocksFor]
  by_cases even : count % capacity = 0
  · rw [if_pos even]
    refine Nat.div_eq_of_lt_le ?_ ?_
    · rw [Nat.mul_comm]
      omega
    · rw [Nat.succ_mul, Nat.mul_comm]
      omega
  · rw [if_neg even]
    refine Nat.div_eq_of_lt_le ?_ ?_
    · rw [Nat.succ_mul, Nat.mul_comm]
      omega
    · rw [Nat.succ_mul, Nat.succ_mul, Nat.mul_comm]
      omega

theorem blocks_for_le {slots : Nat} (bound : count ≤ capacity * slots) : blocksFor capacity count ≤ slots := by
  refine Nat.lt_succ_iff.mp ((Nat.div_lt_iff_lt_mul positive).mpr ?_)
  rw [Nat.succ_mul, Nat.mul_comm]
  omega

theorem blocks_for_succ (count : Nat) : blocksFor capacity (count + 1) = count / capacity + 1 := by
  rw [blocksFor, show count + 1 + capacity - 1 = count + capacity by omega, Nat.add_div_right count positive]

theorem div_mod_succ (count : Nat) :
    (count % capacity + 1 = capacity ∧ (count + 1) / capacity = count / capacity + 1 ∧
      (count + 1) % capacity = 0) ∨
    (count % capacity + 1 < capacity ∧ (count + 1) / capacity = count / capacity ∧
      (count + 1) % capacity = count % capacity + 1) := by
  have whole := Nat.div_add_mod count capacity
  have bound := Nat.mod_lt count positive
  by_cases last : count % capacity + 1 = capacity
  · refine Or.inl ⟨last, (Nat.div_mod_unique positive).mpr ⟨?_, positive⟩⟩
    rw [Nat.mul_succ]
    omega
  · exact Or.inr ⟨by omega, (Nat.div_mod_unique positive).mpr ⟨by omega, by omega⟩⟩

end Arithmetic

theorem create_free {settings : Settings} (created : create settings = .ok s) : s.pool.free = List.range s.pool.capacity := by
  rw [create, Pool.create] at created
  by_cases none : settings.maxBlocks = 0
  · simp [if_pos none] at created
  · rw [if_neg none, ok_bind] at created
    cases slab : Slab.create settings.blockBytes settings.maxBlocks with
    | error fault => simp [slab] at created
    | ok buffers =>
        rw [slab] at created
        obtain rfl := Except.ok.inj created
        exact congrArg List.range Array.size_replicate.symm

-- A store that took so many entities of a signature and nothing else. All blocks before the one that
-- takes the next entity are full.
structure Filled (s : Store) (signature : Signature) (count : Nat) : Prop where
  bound : count ≤ s.capacity * s.pool.capacity
  free : s.pool.free =
    List.range' (blocksFor s.capacity count) (s.pool.capacity - blocksFor s.capacity count)
  blocks : ∀ (id : Nat) b, s.block? id = some b → b.signature = signature ∧ b.disabledStart = s.capacity ∧
    b.entityCount = if id < count / s.capacity then s.capacity else count % s.capacity

section Last

variable (standing : s.Standing registry) (filled : s.Filled signature count)

include standing filled

theorem filled_live (id : Nat) : (∃ b, s.block? id = some b) ↔ id < blocksFor s.capacity count := by
  have bound := blocks_for_le standing.positive filled.bound
  have free := standing.pool.mem_free id
  rw [filled.free, List.mem_range'_1] at free
  constructor
  · intro ⟨b, found⟩
    have inRange := Pool.get_in_range s.pool id b found
    by_contra beyond
    have vacant := (free.mp ⟨by omega, by omega⟩).2
    exact absurd (vacant.symm.trans found) (by simp)
  · intro before
    refine Option.ne_none_iff_exists'.mp fun vacant => ?_
    have listed := free.mpr ⟨by omega, vacant⟩
    omega

theorem filled_count : s.blockCount = blocksFor s.capacity count := by
  have bound := blocks_for_le standing.positive filled.bound
  have balance := standing.pool.balance
  rw [filled.free, List.length_range'] at balance
  unfold blockCount
  omega

theorem filled_full (found : s.block? id = some b) (before : id + 1 < s.blockCount) :
    b.entityCount = s.capacity := by
  obtain ⟨_, _, rows⟩ := filled.blocks id b found
  rw [filled_count standing filled, blocks_for_eq standing.positive] at before
  rw [rows, if_pos]
  split at before <;> omega

theorem filled_rows (found : s.block? id = some b) :
    b.entityCount = min s.capacity (count - s.capacity * id) := by
  obtain ⟨_, _, rows⟩ := filled.blocks id b found
  have parts := Nat.div_add_mod count s.capacity
  have rest := Nat.mod_lt count standing.positive
  by_cases early : id < count / s.capacity
  · have whole := Nat.mul_le_mul_left s.capacity (Nat.succ_le_of_lt early)
    rw [Nat.mul_succ] at whole
    rw [rows, if_pos early]
    omega
  · have before := (filled_live standing filled id).mp ⟨b, found⟩
    rw [blocks_for_eq standing.positive] at before
    have here : id = count / s.capacity := by
      split at before <;> omega
    rw [rows, if_neg early, here]
    omega

theorem fits_last (fits : s.Fits signature id b) :
    count % s.capacity ≠ 0 ∧ id = count / s.capacity ∧ b.entityCount = count % s.capacity := by
  have space := (Block.free_row_iff (standing.shaped id b fits.live)).mp fits.free
  have before := (filled_live standing filled id).mp ⟨b, fits.live⟩
  obtain ⟨_, start, rows⟩ := filled.blocks id b fits.live
  rw [blocks_for_eq standing.positive] at before
  by_cases early : id < count / s.capacity
  · rw [if_pos early] at rows
    omega
  · rw [if_neg early] at rows
    by_cases even : count % s.capacity = 0
    · rw [if_pos even] at before
      omega
    · rw [if_neg even] at before
      exact ⟨even, by omega, rows⟩

theorem last_fits (uneven : count % s.capacity ≠ 0) : ∃ b, s.Fits signature (count / s.capacity) b := by
  have before : count / s.capacity < blocksFor s.capacity count := by
    rw [blocks_for_eq standing.positive, if_neg uneven]
    exact Nat.lt_succ_self _
  obtain ⟨b, found⟩ := (filled_live standing filled _).mpr before
  obtain ⟨signed, start, rows⟩ := filled.blocks _ b found
  rw [if_neg (Nat.lt_irrefl _)] at rows
  have bound := Nat.mod_lt count standing.positive
  exact ⟨b, found, signed, (Block.free_row_iff (standing.shaped _ b found)).mpr (by omega)⟩

theorem full_even (full : ∀ id b, ¬ s.Fits signature id b) : count % s.capacity = 0 := by
  by_contra uneven
  obtain ⟨b, fits⟩ := last_fits standing filled uneven
  exact full _ b fits

theorem filled_succ {after : Block} (alike : Alike s next) (room : count < s.capacity * s.pool.capacity)
    (free : next.pool.free =
      List.range' (count / s.capacity + 1) (s.pool.capacity - (count / s.capacity + 1)))
    (blocks : ∀ q : Nat, next.block? q = if q = count / s.capacity then some after else s.block? q)
    (signed : after.signature = signature) (start : after.disabledStart = s.capacity)
    (rows : after.entityCount = count % s.capacity + 1) : next.Filled signature (count + 1) := by
  refine ⟨?_, ?_, fun q b found => ?_⟩
  · rw [alike.capacity, alike.slots]
    exact room
  · rw [alike.capacity, alike.slots, blocks_for_succ standing.positive, free]
  · rw [alike.capacity]
    have step := div_mod_succ standing.positive count
    rw [blocks] at found
    by_cases here : q = count / s.capacity
    · rw [if_pos here] at found
      obtain rfl := Option.some.inj found
      refine ⟨signed, start, ?_⟩
      rw [rows, here]
      rcases step with ⟨full, quotient, _⟩ | ⟨_, quotient, remainder⟩
      · rw [quotient, if_pos (Nat.lt_succ_self _), full]
      · rw [quotient, if_neg (Nat.lt_irrefl _), remainder]
    · rw [if_neg here] at found
      obtain ⟨signed, start, rows⟩ := filled.blocks q b found
      have before := (filled_live standing filled q).mp ⟨b, found⟩
      have limit : q < count / s.capacity := by
        rw [blocks_for_eq standing.positive] at before
        split at before <;> omega
      rw [if_pos limit] at rows
      rw [if_pos (by omega)]
      exact ⟨signed, start, rows⟩

end Last

theorem filled_new {settings : Settings} (created : create settings = .ok s)
    (bare : Bare settings registry s) (positive : 0 < s.capacity) : s.Filled signature 0 := by
  refine ⟨Nat.zero_le _, ?_, fun id b found => absurd ((bare.vacant id).symm.trans found) (by simp)⟩
  have none : blocksFor s.capacity 0 = 0 := by
    rw [blocksFor, Nat.zero_add]
    exact Nat.div_eq_of_lt (Nat.sub_lt positive Nat.one_pos)
  rw [none, Nat.sub_zero, ← List.range_eq_range']
  exact create_free created

section Insert

variable (standing : s.Standing registry) (filled : s.Filled signature count) {middle : Store} {after : Block} {e : Entity}
  (alike : Alike s next) (appends : Block.Appends b after e) (free : next.pool.free = middle.pool.free)
  (blocks : ∀ q, next.block? q = if q = id then some after else middle.block? q)

include standing filled alike appends free blocks

theorem filled_chosen (fits : s.Fits signature id b) (same : middle = s) :
    count < s.capacity * s.pool.capacity ∧ id = count / s.capacity ∧ b.entityCount = count % s.capacity ∧
      next.Filled signature (count + 1) := by
  subst same
  obtain ⟨uneven, rfl, rows⟩ := fits_last standing filled fits
  obtain ⟨signed, start, _⟩ := filled.blocks _ b fits.live
  have room : count < middle.capacity * middle.pool.capacity :=
    Nat.lt_of_le_of_ne filled.bound fun same => uneven (by rw [same, Nat.mul_mod_right])
  have used := filled.free
  rw [blocks_for_eq standing.positive, if_neg uneven] at used
  refine ⟨room, rfl, rows, ?_⟩
  exact filled_succ standing filled alike room (free.trans used) blocks (appends.signature.trans signed)
    (appends.disabledStart.trans start) (by rw [appends.entityCount, rows])

theorem filled_created (nextStanding : next.Standing registry) (even : count % s.capacity = 0)
    (adds : s.Adds middle signature id b) :
    count < s.capacity * s.pool.capacity ∧ id = count / s.capacity ∧ b.entityCount = count % s.capacity ∧
      next.Filled signature (count + 1) := by
  have used := filled.free
  rw [blocks_for_eq standing.positive, if_pos even, adds.slot, eq_comm, List.range'_eq_cons_iff] at used
  obtain ⟨rfl, left, rest⟩ := used
  have room : count < s.capacity * s.pool.capacity := by
    have parts := Nat.div_add_mod count s.capacity
    have before := (Nat.mul_lt_mul_left standing.positive).mpr (Nat.lt_of_sub_pos left)
    omega
  -- The block is as empty as one can be, so none of its rows is disabled.
  have there : next.block? (count / s.capacity) = some after := (blocks _).trans (if_pos rfl)
  have empty := adds.empty
  have limit := (nextStanding.shaped _ after there).disabled_le
  have capacity := (nextStanding.capacities _ after there).trans alike.capacity
  rw [appends.disabledStart, appends.capacity] at limit
  rw [appends.capacity] at capacity
  unfold Block.occupied Block.disabledCount at empty
  have rows : b.entityCount = count % s.capacity := by omega
  refine ⟨room, rfl, rows, ?_⟩
  refine filled_succ standing filled alike room (free.trans rest) (fun q => ?_)
    (appends.signature.trans adds.signed) (appends.disabledStart.trans (by omega))
    (by rw [appends.entityCount, rows])
  rw [blocks]
  by_cases here : q = count / s.capacity
  · rw [if_pos here, if_pos here]
  · rw [if_neg here, if_neg here, adds.blocks, if_neg here]

end Insert

theorem insert_fills (standing : s.Standing registry) (filled : s.Filled signature count) {layout : Layout}
    (made : Layout.generate signature registry s.capacity s.blockBytes = .ok (.ok layout)) (e : Entity) :
    (count < s.capacity * s.pool.capacity ∧ ∃ next, next.Standing registry ∧ Alike s next ∧
        s.insert registry signature e = .ok (.ok (count / s.capacity, count % s.capacity), next) ∧
        next.Filled signature (count + 1)) ∨
      (count = s.capacity * s.pool.capacity ∧ ∃ next, next.Standing registry ∧ Alike s next ∧
        s.insert registry signature e = .ok (.error (.outOfSlabs s.pool.capacity), next) ∧
        next.Filled signature count) := by
  have inserts := insert_inserts standing signature e
  have acquires := acquire_acquires standing signature
  have stays := insert_stays standing signature e
  generalize s.insert registry signature e = result at inserts stays
  cases inserts with
  | placed id middle next b after acquired live appends free blocks =>
      obtain ⟨nextStanding, alike, _⟩ := stays
      rw [acquired] at acquires
      cases acquires with
      | chosen _ held chosen =>
          obtain rfl := Option.some.inj (live.symm.trans chosen.live)
          obtain ⟨room, rfl, rows, filledNext⟩ :=
            filled_chosen standing filled alike appends free blocks chosen.toFits rfl
          exact Or.inl ⟨room, next, nextStanding, alike, by rw [rows], filledNext⟩
      | created full _ held _ adds =>
          have here := adds.blocks id
          rw [if_pos rfl, live] at here
          obtain rfl := Option.some.inj here
          have even := full_even standing filled full
          obtain ⟨room, rfl, rows, filledNext⟩ :=
            filled_created standing filled alike appends free blocks nextStanding even adds
          exact Or.inl ⟨room, next, nextStanding, alike, by rw [rows], filledNext⟩
  | refused error next acquired =>
      obtain ⟨nextStanding, alike, _⟩ := stays
      rw [acquired] at acquires
      cases acquires with
      | refused full _ reason _ learns =>
          rcases reason with unfit | ⟨rfl, spent⟩
          · exact absurd (Except.ok.inj (made.symm.trans unfit)) (by simp)
          · have even := full_even standing filled full
            rw [filled_count standing filled, blocks_for_eq standing.positive, if_pos even] at spent
            have parts := Nat.div_add_mod count s.capacity
            rw [even, spent] at parts
            obtain ⟨layouts, rfl⟩ := learns
            exact Or.inr ⟨parts.symm, _, nextStanding, alike, rfl, filled.bound, filled.free, filled.blocks⟩
  | overflow fault acquired =>
      rw [acquired] at acquires
      cases acquires with
      | overflow full _ unmade =>
          rw [made] at unmade
          contradiction

end EntityStore.Store
