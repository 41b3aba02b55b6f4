import EntityStore.Pool.Operation
import EntityStore.Proofs.Pool
import Mathlib.Logic.Function.Basic

set_option autoImplicit false

namespace EntityStore.Pool

open Checked

variable {α : Type}

structure Shelf (α : Type) where
  held : Nat → Option α
  /-- Slots that were given back and not taken since, the last one first. -/
  recent : List Nat
  /-- The slots from here on were not taken since the shelf was bare. -/
  fresh : Nat

namespace Shelf

def bare : Shelf α := ⟨fun _ => none, [], 0⟩

def entries (capacity : Nat) (s : Shelf α) : List (Nat × α) :=
  (List.range capacity).filterMap fun slot => (s.held slot).map fun value => (slot, value)

def operate (capacity : Nat) (s : Shelf α) : Operation α → Answer α × Shelf α
  | .allocate value =>
    match s.recent with
    | slot :: rest => (.placed slot, ⟨Function.update s.held slot (some value), rest, s.fresh⟩)
    | [] =>
      if s.fresh < capacity then
        (.placed s.fresh, ⟨Function.update s.held s.fresh (some value), [], s.fresh + 1⟩)
      else (.full value, s)
  | .release slot =>
    match s.held slot with
    | none => (.held none, s)
    | some value =>
      (.held (some value), ⟨Function.update s.held slot none, slot :: s.recent, s.fresh⟩)
  | .get slot => (.held (s.held slot), s)
  | .set slot value =>
    (.held (s.held slot),
      { s with held := Function.update s.held slot ((s.held slot).map fun _ => value) })
  | .swap a b =>
    match s.held a, s.held b with
    | some x, some y =>
      if a = b then (.pair none, s)
      else (.pair (some (x, y)),
        { s with held := Function.update (Function.update s.held a (some y)) b (some x) })
    | _, _ => (.pair none, s)
  | .visit f => (.entries (s.entries capacity), { s with held := fun slot => (s.held slot).map (f slot) })
  | .drain => (.values ((s.entries capacity).map Prod.snd), bare)

def operateAll (capacity : Nat) (s : Shelf α) : List (Operation α) → List (Answer α) × Shelf α
  | [] => ([], s)
  | operation :: rest =>
    let (answer, s) := s.operate capacity operation
    let (answers, s) := s.operateAll capacity rest
    (answer :: answers, s)

end Shelf

structure Shows (p : Pool α) (s : Shelf α) : Prop where
  sound : p.Sound
  held : p.get? = s.held
  free : p.free = s.recent ++ List.range' s.fresh (p.capacity - s.fresh)

variable {p next : Pool α} {s : Shelf α}

section Operations

theorem release_free {slot : Nat} {value : α} (released : p.release slot = .ok (some (value, next))) :
    next.free = slot :: p.free := by
  rw [release] at released
  cases found : p.get? slot with
  | none => simp [found] at released
  | some old =>
      simp only [found] at released
      obtain ⟨allocated, _, same⟩ := bind_ok_iff.mp released
      obtain ⟨_, rfl⟩ := Prod.mk.inj (Option.some.inj (Except.ok.inj same))
      rfl

theorem get_updated {value : Option α} {slot : Nat}
    (content : ∀ q, next.get? q = if q = slot then value else p.get? q) :
    next.get? = Function.update p.get? slot value :=
  funext fun q => (content q).trans (Function.update_apply p.get? slot value q).symm

theorem get_visit (p : Pool α) (f : Nat → α → α) (slot : Nat) :
    (p.visit f).get? slot = (p.get? slot).map (f slot) := by
  rw [get?, visit, Array.getElem?_mapIdx, get?]
  cases p.slots[slot]? with
  | none => rfl
  | some value => rfl

theorem visit_sound (sound : p.Sound) (f : Nat → α → α) : (p.visit f).Sound := by
  have size : (p.visit f).capacity = p.capacity := Array.size_mapIdx
  refine ⟨sound.free_nodup, fun slot => ?_, size ▸ sound.balance⟩
  rw [size, get_visit, Option.map_eq_none_iff]
  exact sound.mem_free slot

theorem entries_eq (p : Pool α) : p.entries =
    (List.range p.capacity).filterMap fun slot => (p.get? slot).map fun value => (slot, value) := by
  have ascend : ((List.range p.capacity).filterMap fun slot =>
      (p.get? slot).map fun value => (slot, value)).Pairwise fun a b => a.1 < b.1 := by
    refine List.Pairwise.filterMap _ (fun a b before x left y right => ?_) List.pairwise_lt_range
    obtain ⟨_, _, rfl⟩ := Option.map_eq_some_iff.mp left
    obtain ⟨_, _, rfl⟩ := Option.map_eq_some_iff.mp right
    exact before
  have distinct {entries : List (Nat × α)} (ascend : entries.Pairwise fun a b => a.1 < b.1) :
      entries.Nodup := ascend.imp fun before same => Nat.ne_of_lt before (congrArg Prod.fst same)
  have perm : p.entries.Perm ((List.range p.capacity).filterMap fun slot =>
      (p.get? slot).map fun value => (slot, value)) := by
    rw [List.perm_ext_iff_of_nodup (distinct (entries_ascend p)) (distinct ascend)]
    rintro ⟨slot, value⟩
    rw [mem_entries, List.mem_filterMap]
    constructor
    · intro found
      exact ⟨slot, List.mem_range.mpr (get_in_range p slot value found), by rw [found, Option.map_some]⟩
    · rintro ⟨other, _, hit⟩
      obtain ⟨_, found, same⟩ := Option.map_eq_some_iff.mp hit
      obtain ⟨rfl, rfl⟩ := Prod.mk.inj same
      exact found
  exact perm.eq_of_pairwise (fun a b _ _ first second => absurd first (Nat.lt_asymm second))
    (entries_ascend p) ascend

theorem get_pair_iff (p : Pool α) (a b : Nat) (x y : α) :
    p.getPair? a b = some (x, y) ↔ a ≠ b ∧ p.get? a = some x ∧ p.get? b = some y := by
  refine ⟨fun pair => ⟨fun same => ?_, get_of_pair pair⟩, fun ⟨apart, first, second⟩ => ?_⟩
  · rw [getPair?, if_pos same] at pair
    contradiction
  · rw [getPair?, if_neg apart, first, second]

end Operations

section Shows

variable (shows : p.Shows s)

include shows

theorem allocate_shows (value : α) :
    ∃ next, p.operate (.allocate value) = .ok ((s.operate p.capacity (.allocate value)).1, next) ∧
      next.capacity = p.capacity ∧ next.Shows (s.operate p.capacity (.allocate value)).2 := by
  have stack := shows.free
  have whole := shows.sound.balance
  rcases allocate_ok shows.sound value with ⟨full, refused⟩ |
    ⟨slot, next, stored, sound, size, takes, _, _, content⟩
  · have empty : p.free = [] := List.length_eq_zero_iff.mp (by omega)
    obtain ⟨none, spent⟩ := List.append_eq_nil_iff.mp (stack.symm.trans empty)
    have beyond : ¬ s.fresh < p.capacity := by
      rw [List.range'_eq_nil_iff] at spent
      omega
    refine ⟨p, ?_, rfl, ?_⟩
    · simp only [operate, refused, ok_bind, Shelf.operate, none, if_neg beyond, pure_eq_ok]
    · simp only [Shelf.operate, none, if_neg beyond]
      exact shows
  · rw [takes] at stack
    have filled : next.get? = Function.update s.held slot (some value) :=
      shows.held ▸ get_updated content
    cases recent : s.recent with
    | cons last rest =>
        rw [recent, List.cons_append, List.cons.injEq] at stack
        obtain ⟨rfl, others⟩ := stack
        refine ⟨next, ?_, size, ?_⟩
        · simp only [operate, stored, ok_bind, Shelf.operate, recent, pure_eq_ok]
        · simp only [Shelf.operate, recent]
          exact ⟨sound, filled, size ▸ others⟩
    | nil =>
        rw [recent, List.nil_append] at stack
        have room : s.fresh < p.capacity := by
          by_contra beyond
          rw [Nat.sub_eq_zero_of_le (Nat.le_of_not_lt beyond)] at stack
          contradiction
        have count : p.capacity - s.fresh = (p.capacity - (s.fresh + 1)) + 1 := by omega
        rw [count, List.range'_succ, List.cons.injEq] at stack
        obtain ⟨rfl, others⟩ := stack
        refine ⟨next, ?_, size, ?_⟩
        · simp only [operate, stored, ok_bind, Shelf.operate, recent, if_pos room, pure_eq_ok]
        · simp only [Shelf.operate, recent, if_pos room]
          exact ⟨sound, filled, size ▸ others⟩

theorem release_shows (slot : Nat) :
    ∃ next, p.operate (.release slot) = .ok ((s.operate p.capacity (.release slot)).1, next) ∧
      next.capacity = p.capacity ∧ next.Shows (s.operate p.capacity (.release slot)).2 := by
  cases found : p.get? slot with
  | none =>
      have held : s.held slot = none := shows.held ▸ found
      refine ⟨p, ?_, rfl, ?_⟩
      · simp only [operate, release, found, ok_bind, Shelf.operate, held, pure_eq_ok]
      · simp only [Shelf.operate, held]
        exact shows
  | some value =>
      have held : s.held slot = some value := shows.held ▸ found
      obtain ⟨next, released, sound, size, _, content⟩ := release_ok shows.sound slot value found
      refine ⟨next, ?_, size, ?_⟩
      · simp only [operate, released, ok_bind, Shelf.operate, held, pure_eq_ok]
      · simp only [Shelf.operate, held]
        refine ⟨sound, shows.held ▸ get_updated content, ?_⟩
        rw [release_free released, shows.free, size, List.cons_append]

theorem set_shows (slot : Nat) (value : α) : (p.set slot value).Shows
    { s with held := Function.update s.held slot ((s.held slot).map fun _ => value) } := by
  obtain ⟨size, _, free⟩ := set_frame p slot value
  refine ⟨set_sound shows.sound slot value, ?_, ?_⟩
  · rw [← shows.held]
    exact get_updated (get_set p slot value)
  · rw [free, size]
    exact shows.free

theorem swap_shows (a b : Nat) :
    ∃ next, p.operate (.swap a b) = .ok ((s.operate p.capacity (.swap a b)).1, next) ∧
      next.capacity = p.capacity ∧ next.Shows (s.operate p.capacity (.swap a b)).2 := by
  cases pair : p.getPair? a b with
  | some values =>
      obtain ⟨x, y⟩ := values
      obtain ⟨apart, first, second⟩ := (get_pair_iff p a b x y).mp pair
      rw [shows.held] at first second
      refine ⟨(p.set a y).set b x, ?_, ?_, ?_⟩
      · simp only [operate, get_pair_eq, pair, ok_bind, Shelf.operate, first, second, if_neg apart, pure_eq_ok]
      · exact (set_frame _ b x).1.trans (set_frame p a y).1
      · have both := set_shows (set_shows shows a y) b x
        simpa only [Shelf.operate, first, second, if_neg apart, Function.update_of_ne (Ne.symm apart),
          Option.map_some] using both
  | none =>
      have alone : ∀ x y, ¬ (a ≠ b ∧ s.held a = some x ∧ s.held b = some y) := by
        intro x y holds
        rw [← shows.held] at holds
        rw [(get_pair_iff p a b x y).mpr holds] at pair
        contradiction
      have unchanged : s.operate p.capacity (.swap a b) = (.pair none, s) := by
        rw [Shelf.operate]
        cases first : s.held a with
        | none => rfl
        | some x =>
            cases second : s.held b with
            | none => rfl
            | some y =>
                have same : a = b := by
                  by_contra apart
                  exact alone x y ⟨apart, first, second⟩
                simp only [if_pos same]
      refine ⟨p, ?_, rfl, ?_⟩
      · simp only [operate, get_pair_eq, pair, unchanged, ok_bind, pure_eq_ok]
      · rw [unchanged]
        exact shows

theorem operate_shows (operation : Operation α) :
    ∃ next, p.operate operation = .ok ((s.operate p.capacity operation).1, next) ∧
      next.capacity = p.capacity ∧ next.Shows (s.operate p.capacity operation).2 := by
  have listed : p.entries = s.entries p.capacity := by
    rw [entries_eq, shows.held]
    rfl
  cases operation with
  | allocate value => exact allocate_shows shows value
  | release slot => exact release_shows shows slot
  | get slot => exact ⟨p, by rw [operate, shows.held, Shelf.operate], rfl, shows⟩
  | set slot value =>
      refine ⟨p.set slot value, ?_, (set_frame p slot value).1, set_shows shows slot value⟩
      rw [operate, shows.held, Shelf.operate]
  | swap a b => exact swap_shows shows a b
  | visit f =>
      refine ⟨p.visit f, ?_, Array.size_mapIdx, visit_sound shows.sound f, ?_, ?_⟩
      · rw [operate, listed, Shelf.operate]
      · funext slot
        rw [get_visit, shows.held]
        rfl
      · rw [show (p.visit f).capacity = p.capacity from Array.size_mapIdx]
        exact shows.free
  | drain =>
      obtain ⟨values, sound, size, _, content⟩ := drain_ok p
      refine ⟨p.drain.2, ?_, size, sound, funext content, ?_⟩
      · rw [operate, Shelf.operate, ← listed, ← values]
      · rw [size]
        exact List.range_eq_range'

end Shows

theorem operate_all_shows (shows : p.Shows s) (operations : List (Operation α)) :
    ∃ last, p.operateAll operations = .ok ((s.operateAll p.capacity operations).1, last) ∧
      last.capacity = p.capacity ∧ last.Shows (s.operateAll p.capacity operations).2 := by
  induction operations generalizing p s with
  | nil => exact ⟨p, rfl, rfl, shows⟩
  | cons operation rest ih =>
      obtain ⟨next, done, size, nextShows⟩ := operate_shows shows operation
      obtain ⟨last, ran, same, lastShows⟩ := ih nextShows
      rw [size] at ran same lastShows
      refine ⟨last, ?_, same, lastShows⟩
      simp only [operateAll, done, ran, ok_bind, Shelf.operateAll, pure_eq_ok]

-- What a pool does in a state: it knows its free slots, and each operation does to them and to the
-- values what its caller expects. `first` is the pool as it was when it was created.
structure Orderly (first p : Pool α) : Prop where
  free_nodup : p.free.Nodup
  mem_free : ∀ slot, slot ∈ p.free ↔ slot < p.capacity ∧ p.get? slot = none
  counted : p.allocated = ((List.range p.capacity).filter fun slot => (p.get? slot).isSome).length
  bounded : ∀ slot value, p.get? slot = some value → slot < p.capacity
  announces : p.next? = none ↔ ∀ slot, slot < p.capacity → p.get? slot ≠ none
  refuses : p.next? = none → ∀ value, p.allocate value = .ok (.error value)
  stores : ∀ slot, p.next? = some slot → slot < p.capacity ∧ p.get? slot = none ∧
    ∀ value, ∃ next, p.allocate value = .ok (.ok (slot, next)) ∧
      ∀ q, next.get? q = if q = slot then some value else p.get? q
  gives : ∀ slot value, p.get? slot = some value →
    ∃ next, p.release slot = .ok (some (value, next)) ∧ next.next? = some slot ∧
      ∀ q, next.get? q = if q = slot then none else p.get? q
  ignores : ∀ slot, p.get? slot = none → p.release slot = .ok none
  pairs : ∀ a b, ∃ pair, p.getPair a b = .ok pair ∧
    ∀ x y, pair = some (x, y) ↔ a ≠ b ∧ p.get? a = some x ∧ p.get? b = some y
  drains : p.drain = ((List.range p.capacity).filterMap p.get?, first)

theorem next_none_iff (sound : p.Sound) :
    p.next? = none ↔ ∀ slot, slot < p.capacity → p.get? slot ≠ none := by
  rw [next?, List.head?_eq_none_iff, List.eq_nil_iff_forall_not_mem]
  refine forall_congr' fun slot => ?_
  rw [sound.mem_free, not_and]

theorem allocate_next (sound : p.Sound) {slot : Nat} (announced : p.next? = some slot) (value : α) :
    ∃ next, p.allocate value = .ok (.ok (slot, next)) ∧
      ∀ q, next.get? q = if q = slot then some value else p.get? q := by
  obtain ⟨rest, stack⟩ := List.head?_eq_some_iff.mp announced
  rcases allocate_ok sound value with ⟨full, _⟩ | ⟨other, next, stored, _, _, takes, _, _, content⟩
  · have whole := sound.balance
    rw [stack, List.length_cons] at whole
    omega
  · obtain ⟨rfl, _⟩ := List.cons.inj (stack.symm.trans takes)
    exact ⟨next, stored, content⟩

theorem orderly_of_sound {first : Pool α} (sound : p.Sound)
    (created : create p.capacity = .ok first) : Orderly first p where
  free_nodup := sound.free_nodup
  mem_free := sound.mem_free
  counted := by
    have occupied (slot : Nat) : (((p.get? slot).map fun value => (slot, value)).isSome) =
        (p.get? slot).isSome := Option.isSome_map
    rw [allocated_eq sound, entries_eq, List.length_filterMap_eq_countP, List.countP_eq_length_filter]
    simp only [occupied]
  bounded := get_in_range p
  announces := next_none_iff sound
  refuses := fun announced value => by
    rw [allocate, List.head?_eq_none_iff.mp announced]
  stores := fun slot announced => by
    obtain ⟨inRange, vacant⟩ := (sound.mem_free slot).mp (List.mem_of_mem_head? announced)
    exact ⟨inRange, vacant, allocate_next sound announced⟩
  gives := fun slot value found => by
    obtain ⟨next, released, _, _, _, content⟩ := release_ok sound slot value found
    exact ⟨next, released, by rw [next?, release_free released, List.head?_cons], content⟩
  ignores := fun slot vacant => by rw [release, vacant]
  pairs := fun a b => ⟨p.getPair? a b, get_pair_eq p a b, get_pair_iff p a b⟩
  drains := by
    rw [create, if_neg (by rintro zero; simp [zero] at created)] at created
    obtain rfl := Except.ok.inj created
    refine Prod.ext ?_ rfl
    rw [(drain_ok p).1, entries_eq, List.map_filterMap]
    refine List.filterMap_congr fun slot _ => ?_
    cases p.get? slot <;> rfl

/-- A pool is a map of bounded size with a stack of free slots. A history of any operations, with slots
of any numbers, is carried out on a new pool, it gives the answers that the same history of a bare shelf
gives, and at its end the pool holds what the shelf holds, in good order. -/
theorem operate_all_shelf {capacity : Nat} (positive : 0 < capacity) :
    ∃ first : Pool α, create capacity = .ok first ∧ ∀ operations, ∃ last,
      first.operateAll operations = .ok ((Shelf.bare.operateAll capacity operations).1, last) ∧
        last.Shows (Shelf.bare.operateAll capacity operations).2 ∧ last.capacity = capacity ∧
        Orderly first last := by
  obtain ⟨first, created, sound, size, _, vacant⟩ := create_ok (α := α) capacity positive
  have shows : first.Shows Shelf.bare := by
    refine ⟨sound, funext vacant, ?_⟩
    rw [create, if_neg (Nat.ne_of_gt positive)] at created
    obtain rfl := Except.ok.inj created
    rw [size]
    exact List.range_eq_range'
  refine ⟨first, created, fun operations => ?_⟩
  obtain ⟨last, ran, same, lastShows⟩ := operate_all_shows shows operations
  rw [size] at ran same lastShows
  exact ⟨last, ran, lastShows, same, orderly_of_sound lastShows.sound (same.symm ▸ created)⟩

def reuseHistory : List (Operation Nat) :=
  [.allocate 5, .allocate 6, .release 0, .release 1, .release 1, .allocate 7, .allocate 8, .allocate 9,
    .allocate 10, .swap 0 2, .swap 1 3, .visit fun slot value => slot + value, .drain]

theorem operate_all_shelf_reuse : ∃ first last : Pool Nat, create 3 = .ok first ∧
    first.operateAll reuseHistory = .ok ([.placed 0, .placed 1, .held (some 5), .held (some 6), .held none,
      .placed 1, .placed 0, .placed 2, .full 10, .pair (some (8, 9)), .pair none,
      .entries [(0, 9), (1, 7), (2, 8)], .values [9, 8, 10]], last) ∧ Orderly first last := by
  obtain ⟨first, created, runs⟩ := operate_all_shelf (α := Nat) (show 0 < 3 by decide)
  obtain ⟨last, ran, _, _, orderly⟩ := runs reuseHistory
  exact ⟨first, last, created, ran, orderly⟩

end EntityStore.Pool
