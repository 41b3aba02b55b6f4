import EntityStore.Proofs.Buffer
import EntityStore.Proofs.Slab
import EntityStore.Slab.Operation
import Mathlib.Order.Bounds.Basic

set_option autoImplicit false

namespace EntityStore.Slab

open Checked

-- `peak` is the largest number of buffers that were held so far.
structure Lends (bufferBytes capacity peak : Nat) (l : Loans) : Prop where
  clean : l.slab.Clean
  buffers : l.slab.bufferBytes = bufferBytes
  budget : l.slab.capacity = capacity
  outstanding : l.slab.outstanding = l.held.length
  sizes : ∀ buffer ∈ l.held, buffer.size = bufferBytes
  made : l.held.length + l.slab.pooledCount = peak
  limit : peak ≤ capacity

inductive Operation.Stops (bufferBytes : Nat) : Operation → Fault → Prop where
  | write (holder start : Nat) (bytes : List UInt8) (beyond : bufferBytes < start + bytes.length) :
      Stops bufferBytes (.write holder start bytes)
        (.spanBeyondEnd start (start + bytes.length) bufferBytes)

def Answer.Zeroed (bufferBytes : Nat) (answer : Answer) : Prop :=
  ∀ buffer, answer = .lent (some buffer) → buffer = .zeroed bufferBytes

namespace Loans

variable {bufferBytes capacity peak : Nat} {l : Loans}

section Operations

variable (lends : Lends bufferBytes capacity peak l)

include lends

theorem allocate_none_iff : l.slab.allocate = none ↔ l.held.length = capacity := by
  have limit := lends.limit
  have made := lends.made
  refine ⟨fun refused => ?_, fun whole => ?_⟩
  · have full := allocate_none refused
    rw [lends.budget, lends.outstanding] at full
    omega
  · rw [allocate, if_pos (by rw [lends.budget, lends.outstanding, whole])]

theorem allocate_lends : ∃ answer next, l.operate .allocate = .ok (answer, next) ∧
    Lends bufferBytes capacity (max peak next.held.length) next ∧ answer.Zeroed bufferBytes := by
  have made := lends.made
  have limit := lends.limit
  rw [operate]
  cases taken : l.slab.allocate with
  | none =>
      refine ⟨.lent none, l, rfl, ?_, fun buffer same => by simp at same⟩
      rw [Nat.max_eq_left (by omega)]
      exact lends
  | some result =>
      obtain ⟨buffer, slab⟩ := result
      obtain ⟨zeroed, clean, bytes, same, out, room⟩ := allocate_some lends.clean buffer slab taken
      have pooled := allocate_pooled taken
      rw [lends.budget, lends.outstanding] at room
      rw [lends.buffers] at zeroed
      refine ⟨.lent (some buffer), _, rfl, ⟨clean, bytes.trans lends.buffers,
        same.trans lends.budget, ?_, ?_, ?_, ?_⟩, fun other same => ?_⟩
      · rw [out, lends.outstanding, List.length_append, List.length_singleton]
      · refine List.forall_mem_append.mpr ⟨lends.sizes, List.forall_mem_singleton.mpr ?_⟩
        rw [zeroed, Buffer.size_zeroed]
      -- A buffer is made only if none waits, so there are as many as before or as are held now.
      · rw [List.length_append, List.length_singleton, pooled]
        omega
      · rw [List.length_append, List.length_singleton]
        omega
      · obtain rfl := Option.some.inj (Answer.lent.inj same)
        exact zeroed

theorem write_lends (holder start : Nat) (bytes : List UInt8) :
    Ensures ((Operation.write holder start bytes).Stops bufferBytes)
      (l.operate (.write holder start bytes)) fun (answer, next) =>
        Lends bufferBytes capacity (max peak next.held.length) next ∧ answer.Zeroed bufferBytes := by
  have made := lends.made
  rw [operate]
  cases found : l.held[holder]? with
  | none =>
      refine ⟨?_, fun buffer same => by simp at same⟩
      rw [Nat.max_eq_left (by omega)]
      exact lends
  | some buffer =>
      have size := lends.sizes buffer (List.mem_of_getElem? found)
      by_cases inside : start + bytes.length ≤ buffer.size
      · simp only [Buffer.splice_ok buffer start bytes inside, ok_bind]
        refine ⟨?_, fun buffer same => by simp at same⟩
        rw [List.length_set, Nat.max_eq_left (by omega)]
        refine { lends with
          outstanding := lends.outstanding.trans List.length_set.symm
          sizes := fun other member => ?_
          made := by rw [List.length_set]; exact made }
        rcases List.mem_or_eq_of_mem_set member with old | rfl
        · exact lends.sizes other old
        · rw [Buffer.size_write, size]
      · simp only [Buffer.splice, Buffer.checkSpan, require, inside, decide_false]
        rw [size] at inside ⊢
        exact .write holder start bytes (Nat.lt_of_not_le inside)

theorem release_lends (holder : Nat) : ∃ answer next, l.operate (.release holder) = .ok (answer, next) ∧
    Lends bufferBytes capacity (max peak next.held.length) next ∧ answer.Zeroed bufferBytes := by
  have made := lends.made
  rw [operate]
  cases found : l.held[holder]? with
  | none =>
      refine ⟨.released false, l, rfl, ?_, fun buffer same => by simp at same⟩
      rw [Nat.max_eq_left (by omega)]
      exact lends
  | some buffer =>
      have size := lends.sizes buffer (List.mem_of_getElem? found)
      obtain ⟨inRange, _⟩ := List.getElem?_eq_some_iff.mp found
      obtain ⟨slab, released, clean, bytes, same, out⟩ := release_ok lends.clean buffer
        (size.trans lends.buffers.symm) (by rw [lends.outstanding]; omega)
      have pooled := release_pooled released
      have fewer := List.length_eraseIdx_of_lt inRange
      refine ⟨.released true, ⟨slab, l.held.eraseIdx holder⟩, ?_, ⟨clean, bytes.trans lends.buffers,
        same.trans lends.budget, ?_, fun other member => ?_, ?_, ?_⟩, fun buffer same => by simp at same⟩
      · simp only [released, ok_bind, pure_eq_ok]
      · have before := lends.outstanding
        show slab.outstanding = (l.held.eraseIdx holder).length
        omega
      · exact lends.sizes other (List.mem_of_mem_eraseIdx member)
      · rw [pooled, fewer]
        omega
      · have limit := lends.limit
        rw [fewer]
        omega

theorem operate_lends (operation : Operation) :
    Ensures (operation.Stops bufferBytes) (l.operate operation) fun (answer, next) =>
      Lends bufferBytes capacity (max peak next.held.length) next ∧ answer.Zeroed bufferBytes := by
  cases operation with
  | allocate =>
      obtain ⟨answer, next, done, holds⟩ := allocate_lends lends
      exact ensures_of_eq done holds
  | write holder start bytes => exact write_lends lends holder start bytes
  | release holder =>
      obtain ⟨answer, next, done, holds⟩ := release_lends lends holder
      exact ensures_of_eq done holds

end Operations

def counts (l : Loans) (operations : List Operation) : Set Nat :=
  { n | ∃ before answers middle, before <+: operations ∧
    l.operateAll before = .ok (answers, middle) ∧ middle.held.length = n }

theorem now_mem_counts (l : Loans) (operations : List Operation) :
    l.held.length ∈ l.counts operations :=
  ⟨[], [], l, List.nil_prefix, rfl, rfl⟩

theorem counts_nil (l : Loans) : l.counts [] = {l.held.length} := by
  refine Set.ext fun n => ⟨?_, fun same => same ▸ now_mem_counts l []⟩
  rintro ⟨before, answers, middle, early, ran, rfl⟩
  obtain rfl := List.prefix_nil.mp early
  obtain ⟨_, rfl⟩ := Prod.mk.inj (Except.ok.inj ran)
  rfl

theorem counts_cons {operation : Operation} {answer : Answer} {next : Loans}
    (done : l.operate operation = .ok (answer, next)) (rest : List Operation) :
    l.counts (operation :: rest) = insert l.held.length (next.counts rest) := by
  refine Set.ext fun n => ⟨?_, ?_⟩
  · rintro ⟨before, answers, middle, early, ran, rfl⟩
    cases before with
    | nil =>
        obtain ⟨_, rfl⟩ := Prod.mk.inj (Except.ok.inj ran)
        exact Set.mem_insert _ _
    | cons first before =>
        obtain ⟨rfl, shorter⟩ := List.cons_prefix_cons.mp early
        rw [operateAll, done, ok_bind] at ran
        obtain ⟨⟨others, last⟩, went, same⟩ := bind_ok_iff.mp ran
        obtain ⟨_, rfl⟩ := Prod.mk.inj (Except.ok.inj same)
        exact Set.mem_insert_of_mem _ ⟨before, others, last, shorter, went, rfl⟩
  · rintro (rfl | ⟨before, answers, middle, early, ran, rfl⟩)
    · exact now_mem_counts l _
    · refine ⟨operation :: before, answer :: answers, middle, List.cons_prefix_cons.mpr ⟨rfl, early⟩, ?_, rfl⟩
      simp only [operateAll, done, ran, ok_bind, pure_eq_ok]

theorem greatest_cons {operation : Operation} {answer : Answer} {next : Loans} {top : Nat}
    (bound : l.held.length ≤ peak) (done : l.operate operation = .ok (answer, next))
    (rest : List Operation)
    (greatest : IsGreatest (insert (max peak next.held.length) (next.counts rest)) top) :
    IsGreatest (insert peak (l.counts (operation :: rest))) top := by
  obtain ⟨member, above⟩ := greatest
  have highest : max peak next.held.length ≤ top := above (Set.mem_insert _ _)
  rw [counts_cons done rest]
  constructor
  · rcases member with rfl | later
    · rcases Nat.le_total peak next.held.length with grown | shrunk
      · rw [Nat.max_eq_right grown]
        exact Or.inr (Or.inr (now_mem_counts next rest))
      · rw [Nat.max_eq_left shrunk]
        exact Or.inl rfl
    · exact Or.inr (Or.inr later)
  · intro n counted
    rcases counted with rfl | rfl | later
    · omega
    · omega
    · exact above (Or.inr later)

theorem operate_all_peak (lends : Lends bufferBytes capacity peak l) (operations : List Operation) :
    Ensures (fun fault => ∃ operation ∈ operations, operation.Stops bufferBytes fault)
      (l.operateAll operations) fun (answers, last) =>
        (∃ top, Lends bufferBytes capacity top last ∧ IsGreatest (insert peak (l.counts operations)) top) ∧
          ∀ answer ∈ answers, answer.Zeroed bufferBytes := by
  induction operations generalizing l peak with
  | nil =>
      have made := lends.made
      refine ⟨⟨peak, lends, Or.inl rfl, ?_⟩, fun _ member => absurd member List.not_mem_nil⟩
      intro n counted
      rw [counts_nil] at counted
      rcases counted with rfl | rfl <;> omega
  | cons operation rest ih =>
      have step := operate_lends lends operation
      rw [operateAll]
      cases done : l.operate operation with
      | error fault =>
          rw [done] at step
          exact ⟨operation, List.mem_cons_self, step⟩
      | ok result =>
          obtain ⟨answer, next⟩ := result
          rw [done] at step
          obtain ⟨nextLends, zeroed⟩ := step
          rw [ok_bind]
          refine ensures_bind _ (ensures_mono (ih nextLends) (fun fault ⟨later, member, stops⟩ =>
            ⟨later, List.mem_cons_of_mem operation member, stops⟩) fun _ holds => holds) ?_
          rintro ⟨answers, last⟩ ⟨⟨top, lastLends, greatest⟩, each⟩
          have made := lends.made
          exact ⟨⟨top, lastLends, greatest_cons (by omega) done rest greatest⟩,
            List.forall_mem_cons.mpr ⟨zeroed, each⟩⟩

end Loans

/-- Buffers are lent and come back. A history of a slab stops only at a write beyond the end of a buffer.
Every buffer that was lent has the size of the slab and is zero, whatever was written to it before; at
the end no buffer is lent exactly if as many as allowed are held, and those that are held and those
that wait are together as many as were held at once when most were. -/
theorem operate_all_lends {bufferBytes : Nat} (positive : 0 < bufferBytes) (even : bufferBytes % line = 0)
    (capacity : Nat) :
    ∃ slab, create bufferBytes capacity = .ok slab ∧ ∀ operations,
      Ensures (fun fault => ∃ operation ∈ operations, operation.Stops bufferBytes fault)
        (Loans.operateAll ⟨slab, []⟩ operations) fun (answers, last) =>
          (∀ buffer, .lent (some buffer) ∈ answers → buffer.size = bufferBytes ∧ ∀ i, buffer.get i = 0) ∧
          (∀ buffer ∈ last.held, buffer.size = bufferBytes) ∧
          (last.slab.allocate = none ↔ last.held.length = capacity) ∧
          last.slab.outstanding = last.held.length ∧
          IsGreatest (Loans.counts ⟨slab, []⟩ operations)
            (last.slab.outstanding + last.slab.pooledCount) ∧
          last.slab.outstanding + last.slab.pooledCount ≤ capacity := by
  have created := create_ok bufferBytes capacity (by simp [Nat.ne_of_gt positive, even])
  have lends : Lends bufferBytes capacity 0 ⟨⟨bufferBytes, capacity, 0, []⟩, []⟩ := by
    refine ⟨fun buffer member => absurd member List.not_mem_nil, rfl, rfl, rfl,
      fun buffer member => absurd member List.not_mem_nil, rfl, Nat.zero_le capacity⟩
  refine ⟨_, created, fun operations => ?_⟩
  refine ensures_mono (Loans.operate_all_peak lends operations) (fun _ stopped => stopped) ?_
  rintro ⟨answers, last⟩ ⟨⟨top, lastLends, greatest⟩, zeroed⟩
  have made := lastLends.made
  rw [← lastLends.outstanding] at made
  have none : 0 ∈ Loans.counts ⟨⟨bufferBytes, capacity, 0, []⟩, []⟩ operations :=
    Loans.now_mem_counts _ operations
  rw [Set.insert_eq_of_mem none] at greatest
  refine ⟨fun buffer member => ?_, lastLends.sizes, Loans.allocate_none_iff lastLends,
    lastLends.outstanding, made ▸ greatest, made ▸ lastLends.limit⟩
  rw [zeroed _ member buffer rfl]
  exact ⟨Buffer.size_zeroed bufferBytes, Buffer.get_zeroed bufferBytes⟩

def lendingHistory : List Operation :=
  [.allocate, .write 0 5 [0xab], .release 0, .allocate, .allocate, .release 1, .release 1, .allocate, .allocate]

theorem operate_all_lends_twice : (0 < 64 ∧ 64 % line = 0) ∧ ∃ slab answers last,
    create 64 2 = .ok slab ∧ Loans.operateAll ⟨slab, []⟩ lendingHistory = .ok (answers, last) ∧
      last.slab.allocate = none ∧ last.held.length = 2 ∧
      IsGreatest (Loans.counts ⟨slab, []⟩ lendingHistory) 2 := by
  obtain ⟨slab, created, runs⟩ := operate_all_lends (show 0 < 64 by decide) (by decide) 2
  obtain ⟨first, answers, last, made, ran, held, waiting⟩ : ∃ first answers last, create 64 2 = .ok first ∧
      Loans.operateAll ⟨first, []⟩ lendingHistory = .ok (answers, last) ∧ last.held.length = 2 ∧
      last.slab.pooledCount = 0 := ⟨_, _, _, rfl, rfl, rfl, rfl⟩
  obtain rfl := Except.ok.inj (created.symm.trans made)
  have run := runs lendingHistory
  rw [ran] at run
  obtain ⟨_, _, full, outstanding, greatest, _⟩ := run
  rw [outstanding, held, waiting] at greatest
  exact ⟨⟨by decide, by decide⟩, slab, answers, last, created, ran, full.mpr held, held, greatest⟩

end EntityStore.Slab
