import EntityStore.Proofs.Scene.Steps

set_option autoImplicit false

namespace EntityStore

namespace Directory

theorem slot_none_iff (d : Directory) (index : Nat) : d.slot? index = none ↔ d.size ≤ index := by
  rw [slot?, Option.map_eq_none_iff, Array.getElem?_eq_none_iff, size]

end Directory

namespace Scene

open Checked

variable {s next last : Scene}

section Create

structure Blank (settings : Settings) (registry : Registry) (s : Scene) : Prop where
  sound : s.Sound
  fresh : s.store.Fresh 0
  world : s.world = fun _ => none
  slots : s.slots = fun _ => none
  registry : s.registry = registry
  capacity : s.store.capacity = settings.blockCapacity
  blockBytes : s.store.blockBytes = settings.blockBytes
  caches : s.store.cacheQueries = settings.cacheQueries
  roll : s.roll = []
  frame : s.frame = 0

theorem create_ok (name : String) (settings : Settings) (registry : Registry)
    (valid : settings.validate = .ok ()) (genuine : registry.Genuine) :
    ∃ s, create name settings registry = .ok (.ok s) ∧ Blank settings registry s := by
  obtain ⟨capacity, _, _⟩ := settings.valid_bounds valid
  obtain ⟨store, stored, bare⟩ := Store.create_bare settings registry valid
  obtain ⟨directorySound, nowhere, unused⟩ := Directory.create_sound settings.recycleIndices
  let s : Scene :=
    { name, settings, registry, store, directory := .create settings.recycleIndices, hierarchy := .empty,
      listeners := 0, deliveries := [], frame := 0 }
  have noBlock (id : BlockId) : s.store.block? id = none := bare.vacant id
  have noTenant (spot : Spot) : s.housing.tenant spot = none := by
    show store.tenant? spot = none
    rw [Store.tenant?, noBlock, Option.bind_none]
  have noLocation (e : Entity) : s.housing.location e = none := nowhere e
  have books := bare.books
  refine ⟨s, ?_, ⟨⟨?_, directorySound, ⟨fun e l found => ?_, fun spot t held => ?_⟩,
    fun id b found => ?_, ⟨[], Hierarchy.records_empty []⟩⟩, Store.fresh_create settings stored, ?_, ?_, rfl,
    bare.capacity, bare.blockBytes, bare.caches, rfl, rfl⟩⟩
  · simp only [create, valid, build, stored, ok_bind]
    rfl
  · refine ⟨genuine, bare.capacity ▸ capacity, bare.capacity ▸ settings.valid_narrow valid,
      books.pool, books.clean, books.buffers, books.lent, books.budget, fun id b found => ?_, books.index, books.cached, books.layouts⟩
    rw [noBlock] at found
    contradiction
  · rw [noLocation] at found
    contradiction
  · rw [noTenant] at held
    contradiction
  · rw [noBlock] at found
    contradiction
  · funext e
    rw [world, Housing.world, noLocation, Option.bind_none]
  · exact funext unused

theorem blank_of_created {name : String} {settings : Settings} {registry : Registry}
    (genuine : registry.Genuine) (made : create name settings registry = .ok (.ok s)) :
    Blank settings registry s := by
  cases valid : settings.validate with
  | error error =>
      simp [create, valid] at made
  | ok done =>
      obtain ⟨first, created, blank⟩ := create_ok name settings registry valid genuine
      rw [made] at created
      obtain rfl := Except.ok.inj (Except.ok.inj created)
      exact blank

end Create

section Run

variable {commands others : List Command} {outcomes : List (Outcome Reply)}

theorem perform_all_cons_iff (command : Command) (rest : List Command) :
    s.performAll (command :: rest) = .ok (outcomes, last) ↔ ∃ outcome middle following,
      s.perform command = .ok (outcome, middle) ∧ middle.performAll rest = .ok (following, last) ∧
        outcomes = outcome :: following := by
  constructor
  · intro ran
    obtain ⟨⟨outcome, middle⟩, performed, ran⟩ := bind_ok_iff.mp ran
    obtain ⟨⟨following, final⟩, went, same⟩ := bind_ok_iff.mp ran
    obtain ⟨rfl, rfl⟩ := Prod.mk.inj (Except.ok.inj same)
    exact ⟨outcome, middle, following, performed, went, rfl⟩
  · rintro ⟨outcome, middle, following, performed, went, rfl⟩
    simp only [performAll, performed, went, ok_bind, pure_eq_ok]

theorem perform_all_append (first : s.performAll commands = .ok (outcomes, next))
    {following : List (Outcome Reply)} (second : next.performAll others = .ok (following, last)) :
    s.performAll (commands ++ others) = .ok (outcomes ++ following, last) := by
  induction commands generalizing s outcomes with
  | nil =>
      obtain ⟨rfl, rfl⟩ := Prod.mk.inj (Except.ok.inj first)
      exact second
  | cons command rest ih =>
      obtain ⟨outcome, middle, results, performed, went, rfl⟩ := (perform_all_cons_iff command rest).mp first
      exact (perform_all_cons_iff command (rest ++ others)).mpr
        ⟨outcome, middle, results ++ following, performed, ih went, rfl⟩

theorem performed_step (sound : s.Sound) {command : Command} {outcome : Outcome Reply}
    (performed : s.perform command = .ok (outcome, next)) : Stepped s command outcome next := by
  have step := perform_ok sound command
  rw [performed] at step
  exact step

theorem Stepped.sound {command : Command} {outcome : Outcome Reply}
    (step : Stepped s command outcome next) : next.Sound := by
  obtain ⟨_, _, _, becomes⟩ := step
  exact becomes.sound

theorem Stepped.alike {command : Command} {outcome : Outcome Reply}
    (step : Stepped s command outcome next) : Alike s next := by
  obtain ⟨_, _, _, becomes⟩ := step
  exact becomes.alike

theorem run_sound (sound : s.Sound) (ran : s.performAll commands = .ok (outcomes, last)) :
    last.Sound ∧ Alike s last := by
  induction commands generalizing s outcomes with
  | nil =>
      obtain ⟨_, rfl⟩ := Prod.mk.inj (Except.ok.inj ran)
      exact ⟨sound, ⟨Store.Alike.refl s.store, rfl⟩⟩
  | cons command rest ih =>
      obtain ⟨outcome, middle, following, performed, went, rfl⟩ := (perform_all_cons_iff command rest).mp ran
      have step := performed_step sound performed
      obtain ⟨lastSound, alike⟩ := ih step.sound went
      exact ⟨lastSound, alike_trans step.alike alike⟩

theorem Stepped.ages {command : Command} {outcome : Outcome Reply}
    (step : Stepped s command outcome next) : ∃ count ≤ 3, Store.Ages s.store next.store count ∧
      (next.store.generation - s.store.generation).toNat = count := by
  obtain ⟨_, _, _, becomes⟩ := step
  obtain ⟨count, bound, ages⟩ := becomes.ages
  refine ⟨count, bound, ages, ?_⟩
  rw [ages.generation, UInt64.add_comm, UInt64.add_sub_cancel, UInt64.toNat_ofNat']
  omega

-- Number of generations of the store that a history goes through.
def turns (s : Scene) : List Command → Nat
  | [] => 0
  | command :: rest =>
    match s.perform command with
    | .error _ => 0
    | .ok (_, next) => (next.store.generation - s.store.generation).toNat + next.turns rest

theorem turns_le (sound : s.Sound) (commands : List Command) : s.turns commands ≤ 3 * commands.length := by
  induction commands generalizing s with
  | nil => exact Nat.le_refl 0
  | cons command rest ih =>
      rw [turns]
      cases performed : s.perform command with
      | error fault => exact Nat.zero_le _
      | ok result =>
          obtain ⟨outcome, next⟩ := result
          have step := performed_step sound performed
          obtain ⟨count, bound, _, counted⟩ := step.ages
          have following := ih step.sound
          simp only [counted, List.length_cons]
          omega

theorem run_fresh (sound : s.Sound) (ran : s.performAll commands = .ok (outcomes, last)) (before : Nat)
    (fresh : s.store.Fresh before) : last.store.Fresh (before + s.turns commands) := by
  induction commands generalizing s outcomes before with
  | nil =>
      obtain ⟨_, rfl⟩ := Prod.mk.inj (Except.ok.inj ran)
      exact fresh
  | cons command rest ih =>
      obtain ⟨outcome, middle, following, performed, went, rfl⟩ := (perform_all_cons_iff command rest).mp ran
      have step := performed_step sound performed
      obtain ⟨count, _, ages, counted⟩ := step.ages
      have final := ih step.sound went (before + count) (ages.fresh before fresh)
      rw [turns, performed]
      simp only [counted]
      rw [← Nat.add_assoc]
      exact final

def Reaches (s : Scene) (commands : List Command) (middle : Scene) : Prop :=
  ∃ before outcomes, before <+: commands ∧ s.performAll before = .ok (outcomes, middle)

theorem reaches_start (s : Scene) (commands : List Command) : s.Reaches commands s :=
  ⟨[], [], List.nil_prefix, rfl⟩

theorem reaches_later {command : Command} {outcome : Outcome Reply}
    (performed : s.perform command = .ok (outcome, next)) (reaches : next.Reaches commands last) :
    s.Reaches (command :: commands) last := by
  obtain ⟨before, outcomes, part, ran⟩ := reaches
  exact ⟨command :: before, outcome :: outcomes, List.cons_prefix_cons.mpr ⟨rfl, part⟩,
    (perform_all_cons_iff command before).mpr ⟨outcome, next, outcomes, performed, ran, rfl⟩⟩

theorem reaches_end (ran : s.performAll commands = .ok (outcomes, last)) : s.Reaches commands last :=
  ⟨commands, outcomes, List.prefix_rfl, ran⟩

end Run

section Halt

theorem step_size {command : Command} {outcome : Outcome Reply} (step : Stepped s command outcome next) :
    next.directory.size ≤ s.directory.size + 1 := by
  obtain ⟨world, slots, steps, becomes⟩ := step
  have one : ∃ k, ∀ i, i ≠ k → (slots i = none ↔ s.slots i = none) := by
    cases steps with
    | uncreated _ _ _ e _ => exact ⟨e.index.toNat, fun i away => by rw [Function.update_of_ne away]⟩
    | create _ e _ _ => exact ⟨e.index.toNat, fun i away => by rw [Function.update_of_ne away]⟩
    | spawn _ e _ _ => exact ⟨e.index.toNat, fun i away => by rw [Function.update_of_ne away]⟩
    | destroy e _ _ => exact ⟨e.index.toNat, fun i away => by rw [Function.update_of_ne away]⟩
    | unload => exact ⟨0, fun i _ => by rw [cleared, Option.map_eq_none_iff]⟩
    | _ => exact ⟨0, fun _ _ => Iff.rfl⟩
  obtain ⟨k, same⟩ := one
  rw [← becomes.slots] at same
  -- A command touches the slot of at most one index, so the size changes at this index or not at all.
  have kept (i : Nat) (away : i ≠ k) : next.directory.size ≤ i ↔ s.directory.size ≤ i := by
    rw [← Directory.slot_none_iff, ← Directory.slot_none_iff]
    exact same i away
  by_cases here : s.directory.size + 1 = k
  · have first := (kept s.directory.size (by omega)).mpr (Nat.le_refl _)
    omega
  · exact (kept (s.directory.size + 1) here).mpr (by omega)

-- What can stop a history: there are more commands than indices, somewhere on the way there are too
-- many members or frames, or no layout can be computed.
def Halts (s : Scene) (commands : List Command) (fault : Fault) : Prop :=
  fault = .indexSpaceExhausted ∧ 0xffffffff ≤ s.directory.size + commands.length ∨
    fault = .sumOverflow ∧ (∃ middle, s.Reaches commands middle ∧ ¬ middle.Sparse) ∨
    ∃ signature, s.store.Overflows s.registry signature fault

theorem perform_all_ok (sound : s.Sound) (commands : List Command) :
    Ensures (s.Halts commands) (s.performAll commands) fun (_, last) => last.Sound := by
  induction commands generalizing s with
  | nil => exact sound
  | cons command rest ih =>
      have first := perform_ok sound command
      rw [performAll]
      cases performed : s.perform command with
      | error fault =>
          rw [performed] at first
          obtain ⟨exhausted, bound⟩ | ⟨stopped, crowded⟩ | overflow := first
          · exact Or.inl ⟨exhausted, Nat.le_trans bound (Nat.le_add_right _ _)⟩
          · exact Or.inr (Or.inl ⟨stopped, s, reaches_start s _, crowded⟩)
          · exact Or.inr (Or.inr overflow)
      | ok result =>
          obtain ⟨outcome, middle⟩ := result
          rw [performed] at first
          have step : Stepped s command outcome middle := first
          have grown := step_size step
          rw [ok_bind]
          refine ensures_bind _ (ensures_mono (ih step.sound) ?_ fun _ final => final) fun _ final => final
          rintro fault (⟨exhausted, bound⟩ | ⟨stopped, last, reaches, crowded⟩ | ⟨signature, overflow⟩)
          · refine Or.inl ⟨exhausted, ?_⟩
            rw [List.length_cons]
            omega
          · exact Or.inr (Or.inl ⟨stopped, last, reaches_later performed reaches, crowded⟩)
          · refine Or.inr (Or.inr ⟨signature, ?_⟩)
            rw [step.alike.registry] at overflow
            exact (step.alike.overflows signature fault).mp overflow

end Halt

end Scene

end EntityStore
