import EntityStore.Proofs.Layout
import Mathlib.Algebra.Order.BigOperators.Group.List
import Mathlib.Algebra.Order.Ring.Nat

set_option autoImplicit false

namespace EntityStore.Layout

open Checked

-- The computation of a layout is stopped by a size that does not fit in 64 bits only.
def Excess (fault : Fault) : Prop := fault = .sumOverflow ∨ fault = .productOverflow

theorem add_limit (a b : Nat) : Ensures (fun fault => Excess fault ∧ sizeLimit ≤ a + b) (add a b)
    fun sum => sum = a + b ∧ sum < sizeLimit := by
  unfold add
  by_cases bound : a + b < sizeLimit
  · rw [if_pos bound]
    exact ⟨rfl, bound⟩
  · rw [if_neg bound]
    exact ⟨Or.inl rfl, Nat.le_of_not_lt bound⟩

theorem mul_limit (a b : Nat) : Ensures (fun fault => Excess fault ∧ sizeLimit ≤ a * b) (mul a b)
    fun product => product = a * b := by
  unfold mul
  by_cases bound : a * b < sizeLimit
  · rw [if_pos bound]
    exact rfl
  · rw [if_neg bound]
    exact ⟨Or.inr rfl, Nat.le_of_not_lt bound⟩

theorem add_excess (a b : Nat) : Ensures Excess (add a b) fun sum => sum = a + b :=
  ensures_mono (add_limit a b) (fun _ stops => stops.1) fun _ sum => sum.1

theorem mul_excess (a b : Nat) : Ensures Excess (mul a b) fun product => product = a * b :=
  ensures_mono (mul_limit a b) (fun _ stops => stops.1) fun _ product => product

theorem align_up_excess (n align : Nat) (positive : 0 < align) :
    Ensures Excess (alignUp n align) fun start => start ≤ n + align := by
  unfold alignUp
  rw [if_neg (Nat.ne_of_gt positive)]
  by_cases already : n % align = 0
  · rw [if_pos already]
    exact Nat.le_add_right n align
  · rw [if_neg already]
    refine ensures_mono (add_excess n _) (fun _ excess => excess) fun start same => ?_
    subst same
    exact Nat.add_le_add_left (Nat.sub_le align _) n

variable {registry : Registry}

theorem place_columns_excess (genuine : registry.Genuine) (capacity offset : Nat)
    (ids : List ComponentId) :
    Ensures Excess (placeColumns registry capacity offset ids) fun _ => True := by
  induction ids generalizing offset with
  | nil => trivial
  | cons id rest ih =>
      rw [placeColumns]
      cases found : registry.find id with
      | error error => trivial
      | ok d =>
          have entry := Registry.genuine_get registry genuine id d
            ((Registry.find_ok registry id d).mp found)
          refine ensures_bind _ (align_up_excess offset d.align ?_) fun start _ => ?_
          · rw [Registry.entry_align entry]
            exact d.type.align_pos
          refine ensures_bind _ (mul_excess d.size capacity) fun bytes _ => ?_
          refine ensures_bind _ (add_excess start bytes) fun stop _ => ?_
          exact ensures_bind _ (ih stop) fun _ _ => trivial

theorem generate_excess (genuine : registry.Genuine) (signature : Signature) (capacity blockBytes : Nat) :
    Ensures Excess (generate signature registry capacity blockBytes) fun _ => True := by
  unfold generate
  refine ensures_bind _ (mul_excess Entity.width capacity) fun entityBytes _ => ?_
  refine ensures_bind _ (place_columns_excess genuine capacity entityBytes signature.ids) fun placed _ => ?_
  cases placed with
  | error error => trivial
  | ok result =>
      by_cases large : blockBytes < result.2
      · simp only [if_pos large]
        trivial
      · simp only [if_neg large]
        trivial

def columnDemand (registry : Registry) (capacity : Nat) (id : ComponentId) : Nat :=
  match registry.get? id with
  | none => 0
  | some d => d.align + d.size * capacity

def demand (registry : Registry) (capacity : Nat) : Nat :=
  Entity.width * capacity + ((List.finRange 256).map (columnDemand registry capacity)).sum

theorem align_up_small (n align : Nat) (positive : 0 < align) (bound : n + align < sizeLimit) :
    ∃ start, alignUp n align = .ok start ∧ start ≤ n + align := by
  have within := align_up_excess n align positive
  cases aligned : alignUp n align with
  | ok start =>
      rw [aligned] at within
      exact ⟨start, rfl, within⟩
  | error fault =>
      rw [alignUp, if_neg (Nat.ne_of_gt positive)] at aligned
      by_cases already : n % align = 0
      · simp [already] at aligned
      · have gap := Nat.sub_le align (n % align)
        rw [if_neg already, add_ok _ _ (by omega)] at aligned
        contradiction

theorem place_columns_small (genuine : registry.Genuine) (capacity offset : Nat)
    (ids : List ComponentId)
    (room : offset + (ids.map (columnDemand registry capacity)).sum < sizeLimit) :
    ∃ outcome, placeColumns registry capacity offset ids = .ok outcome := by
  induction ids generalizing offset with
  | nil => exact ⟨_, rfl⟩
  | cons id rest ih =>
      rw [List.map_cons, List.sum_cons, columnDemand] at room
      rw [placeColumns]
      cases found : registry.find id with
      | error error => exact ⟨_, rfl⟩
      | ok d =>
          have registered := (Registry.find_ok registry id d).mp found
          have entry := Registry.genuine_get registry genuine id d registered
          have positive : 0 < d.align := Registry.entry_align entry ▸ d.type.align_pos
          simp only [registered] at room
          obtain ⟨start, aligned, within⟩ := align_up_small offset d.align positive (by omega)
          obtain ⟨placed, done⟩ := ih (start + d.size * capacity) (by omega)
          simp only [aligned, mul_ok d.size capacity (by omega),
            add_ok start (d.size * capacity) (by omega), ok_bind, done]
          exact ⟨_, rfl⟩

theorem generate_small (genuine : registry.Genuine) (signature : Signature) (capacity blockBytes : Nat)
    (room : demand registry capacity < sizeLimit) :
    ∃ outcome, generate signature registry capacity blockBytes = .ok outcome := by
  have part : (signature.ids.map (columnDemand registry capacity)).sum ≤
      ((List.finRange 256).map (columnDemand registry capacity)).sum :=
    (List.filter_sublist.map _).sum_le_sum fun _ _ => Nat.zero_le _
  unfold demand at room
  obtain ⟨placed, done⟩ := place_columns_small genuine capacity (Entity.width * capacity) signature.ids
    (by omega)
  rw [generate, mul_ok _ _ (by omega), ok_bind, done, ok_bind]
  cases placed with
  | error error => exact ⟨_, rfl⟩
  | ok result =>
      by_cases large : blockBytes < result.2
      · exact ⟨_, if_pos large⟩
      · exact ⟨_, if_neg large⟩

end EntityStore.Layout
