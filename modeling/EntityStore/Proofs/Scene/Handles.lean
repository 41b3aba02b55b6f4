import EntityStore.Proofs.Scene.Runs

set_option autoImplicit false

namespace EntityStore

abbrev Slot := Option (UInt32 × Bool)

namespace Slot

-- Dead, then live with generation 1, then dead, then live with generation 2, and so on.
def phase : Slot → Nat
  | none => 0
  | some (generation, live) => 2 * generation.toNat + live.toNat

inductive Step : Slot → Slot → Prop where
  | kept (slot : Slot) : Step slot slot
  | born (live : Bool) : Step none (some (1, live))
  | placed (generation : UInt32) : Step (some (generation, false)) (some (generation, true))
  | released (generation : UInt32) :
      Step (some (generation, true)) (some (Record.nextGeneration generation, false))

def live (slot : Slot) : Bool := slot.any Prod.snd

def released (before after : Slot) : Bool := live before && !live after

def Counted (count : Nat) : Slot → Prop
  | none => count = 0
  | some (generation, _) => generation.toNat = count + 1

theorem phase_live_iff (slot : Slot) (generation : UInt32) :
    slot.phase = 2 * generation.toNat + 1 ↔ slot = some (generation, true) := by
  cases slot with
  | none => simp [phase]
  | some state =>
      obtain ⟨other, live⟩ := state
      constructor
      · intro same
        cases live with
        | false =>
            simp only [phase, Bool.toNat_false] at same
            omega
        | true =>
            simp only [phase, Bool.toNat_true] at same
            have equal : other = generation := UInt32.toNat_inj.mp (by omega)
            rw [equal]
      · intro same
        obtain ⟨rfl, rfl⟩ := Prod.mk.inj (Option.some.inj same)
        rfl

theorem next_generation_toNat (generation : UInt32) (more : generation.toNat + 1 < 0x100000000) :
    (Record.nextGeneration generation).toNat = generation.toNat + 1 := by
  have sum : (generation + 1).toNat = generation.toNat + 1 := by
    rw [UInt32.toNat_add]
    exact Nat.mod_eq_of_lt more
  rw [Record.nextGeneration, if_neg, sum]
  intro wrapped
  rw [wrapped] at sum
  contradiction

theorem step_ok {before after : Slot} (step : Step before after) (count : Nat)
    (counted : Counted count before) (few : count + (released before after).toNat < 0xffffffff) :
    Counted (count + (released before after).toNat) after ∧ phase before ≤ phase after := by
  cases step with
  | kept =>
      have still : released before before = false := by
        rw [released]
        cases live before <;> rfl
      rw [still]
      exact ⟨counted, Nat.le_refl _⟩
  | born live =>
      have none : count = 0 := counted
      subst none
      exact ⟨rfl, Nat.zero_le _⟩
  | placed generation => exact ⟨counted, by simp [phase]⟩
  | released generation =>
      have counted : generation.toNat = count + 1 := counted
      have few : count + 1 < 0xffffffff := few
      have next := next_generation_toNat generation (by omega)
      refine ⟨?_, ?_⟩
      · show (Record.nextGeneration generation).toNat = count + 1 + 1
        rw [next, counted]
      · simp only [phase, next, Bool.toNat_true, Bool.toNat_false]
        omega

end Slot

namespace Scene

variable {s next last early middle : Scene} {e : Entity} {commands : List Command}
  {outcomes : List (Outcome Reply)}

theorem alive_iff_phase (s : Scene) (e : Entity) :
    s.isAlive e = true ↔ Slot.phase (s.slots e.index.toNat) = 2 * e.generation.toNat + 1 := by
  rw [Slot.phase_live_iff]
  exact Directory.alive_slot s.directory e

theorem slot_of_alive (alive : s.isAlive e = true) :
    s.slots e.index.toNat = some (e.generation, true) :=
  (Directory.alive_slot s.directory e).mp alive

section Step

variable {command : Command} {outcome : Outcome Reply} {world : World} {slots : Slots}

theorem reserved_step (reserves : Reserves s.slots e) (live : Bool) (index : Nat) :
    Slot.Step (s.slots index) (Function.update s.slots e.index.toNat (some (e.generation, live)) index) := by
  rw [Function.update_apply]
  by_cases here : index = e.index.toNat
  · rw [if_pos here, here]
    rcases reserves with dead | ⟨unused, first⟩
    · rw [dead]
      cases live with
      | false => exact .kept _
      | true => exact .placed _
    · rw [unused, first]
      exact .born live
  · rw [if_neg here]
    exact .kept _

theorem steps_slot (sound : s.Sound) (steps : Steps s next command outcome world slots) (index : Nat) :
    Slot.Step (s.slots index) (slots index) := by
  cases steps with
  | uncreated _ _ _ e reserves => exact reserved_step reserves false index
  | create _ e _ reserves => exact reserved_step reserves true index
  | spawn _ e _ reserves => exact reserved_step reserves true index
  | destroy e content held =>
      have alive : s.isAlive e = true := by
        rw [alive_iff_world sound, held]
        rfl
      rw [Function.update_apply]
      by_cases here : index = e.index.toNat
      · rw [if_pos here, here, slot_of_alive alive]
        exact .released _
      · rw [if_neg here]
        exact .kept _
  | unload =>
      rw [cleared]
      cases s.slots index with
      | none => exact .kept none
      | some state =>
          obtain ⟨generation, live⟩ := state
          cases live with
          | false => exact .kept _
          | true => exact .released generation
  | _ => exact .kept _

def issuedBy : Command → Outcome Reply → Option Entity
  | .create _, .ok (.entity e) | .spawn _, .ok (.entity e) => some e
  | _, _ => none

theorem steps_issued (steps : Steps s next command outcome world slots)
    (made : issuedBy command outcome = some e) :
    Reserves s.slots e ∧ slots e.index.toNat = some (e.generation, true) := by
  cases steps with
  | create _ f _ reserves =>
      obtain rfl := Option.some.inj made
      exact ⟨reserves, Function.update_self ..⟩
  | spawn _ f _ reserves =>
      obtain rfl := Option.some.inj made
      exact ⟨reserves, Function.update_self ..⟩
  | refused command => cases command <;> simp [issuedBy] at made
  | uncreated command => cases command <;> simp [issuedBy] at made
  | quiet command _ quiet => cases command <;> first | exact False.elim quiet | simp [issuedBy] at made
  | _ => simp [issuedBy] at made

theorem phase_of_reserves (reserves : Reserves s.slots e) :
    Slot.phase (s.slots e.index.toNat) < 2 * e.generation.toNat + 1 := by
  rcases reserves with dead | ⟨unused, _⟩
  · rw [dead]
    simp [Slot.phase]
  · rw [unused]
    exact Nat.succ_pos _

end Step

section Run

def retirements (s : Scene) (index : Nat) : List Command → Nat
  | [] => 0
  | command :: rest =>
    match s.perform command with
    | .error _ => 0
    | .ok (_, next) =>
      (Slot.released (s.slots index) (next.slots index)).toNat + next.retirements index rest

theorem retirements_append (index : Nat) (others : List Command)
    (ran : s.performAll commands = .ok (outcomes, last)) :
    s.retirements index (commands ++ others) =
      s.retirements index commands + last.retirements index others := by
  induction commands generalizing s outcomes with
  | nil =>
      obtain ⟨_, rfl⟩ := Prod.mk.inj (Except.ok.inj ran)
      exact (Nat.zero_add _).symm
  | cons command rest ih =>
      obtain ⟨outcome, middle, following, performed, went, rfl⟩ := (perform_all_cons_iff command rest).mp ran
      rw [List.cons_append, retirements, retirements, performed]
      simp only [ih went, Nat.add_assoc]

theorem run_phase (sound : s.Sound) (ran : s.performAll commands = .ok (outcomes, last)) (index count : Nat)
    (counted : Slot.Counted count (s.slots index))
    (few : count + s.retirements index commands < 0xffffffff) :
    Slot.Counted (count + s.retirements index commands) (last.slots index) ∧
      Slot.phase (s.slots index) ≤ Slot.phase (last.slots index) := by
  induction commands generalizing s outcomes count with
  | nil =>
      obtain ⟨_, rfl⟩ := Prod.mk.inj (Except.ok.inj ran)
      exact ⟨counted, Nat.le_refl _⟩
  | cons command rest ih =>
      obtain ⟨outcome, middle, following, performed, went, rfl⟩ := (perform_all_cons_iff command rest).mp ran
      obtain ⟨world, slots, steps, becomes⟩ := performed_step sound performed
      have step := steps_slot sound steps index
      -- The bound on the releases still to come keeps the generation from wrapping in this step.
      rw [← becomes.slots] at step
      rw [retirements, performed] at few ⊢
      simp only at few ⊢
      obtain ⟨countedNext, grows⟩ := Slot.step_ok step count counted (by omega)
      rw [← Nat.add_assoc] at few ⊢
      obtain ⟨countedLast, growsOn⟩ := ih becomes.sound went _ countedNext few
      exact ⟨countedLast, Nat.le_trans grows growsOn⟩

def issued : List Command → List (Outcome Reply) → List Entity
  | command :: commands, outcome :: outcomes =>
    (issuedBy command outcome).toList ++ issued commands outcomes
  | _, _ => []

theorem run_issued (sound : s.Sound) (ran : s.performAll commands = .ok (outcomes, last))
    (counts : Nat → Nat) (counted : ∀ index, Slot.Counted (counts index) (s.slots index))
    (few : ∀ index, counts index + s.retirements index commands < 0xffffffff) :
    (issued commands outcomes).Nodup ∧ ∀ e ∈ issued commands outcomes,
      Slot.phase (s.slots e.index.toNat) < 2 * e.generation.toNat + 1 := by
  induction commands generalizing s outcomes counts with
  | nil => exact ⟨List.nodup_nil, fun e member => absurd member List.not_mem_nil⟩
  | cons command rest ih =>
      obtain ⟨outcome, middle, following, performed, went, rfl⟩ := (perform_all_cons_iff command rest).mp ran
      obtain ⟨world, slots, steps, becomes⟩ := performed_step sound performed
      have step (index : Nat) := steps_slot sound steps index
      rw [← becomes.slots] at step
      have total (index : Nat) : s.retirements index (command :: rest) =
          (Slot.released (s.slots index) (middle.slots index)).toNat + middle.retirements index rest := by
        rw [retirements, performed]
      have next (index : Nat) := Slot.step_ok (step index) (counts index) (counted index) (by
        have bound := few index
        rw [total] at bound
        omega)
      -- Handles issued later are of a later phase than the slot has now, and this one is of the present phase.
      obtain ⟨distinct, early⟩ := ih becomes.sound went _ (fun index => (next index).1) (fun index => by
        have bound := few index
        rw [total] at bound
        omega)
      have sooner : ∀ e ∈ issued rest following,
          Slot.phase (s.slots e.index.toNat) < 2 * e.generation.toNat + 1 :=
        fun e member => Nat.lt_of_le_of_lt (next e.index.toNat).2 (early e member)
      rw [issued]
      cases made : issuedBy command outcome with
      | none => exact ⟨distinct, sooner⟩
      | some e =>
          obtain ⟨reserves, placed⟩ := steps_issued steps made
          rw [← becomes.slots] at placed
          refine ⟨List.nodup_cons.mpr ⟨fun again => ?_, distinct⟩, fun f member => ?_⟩
          · have before := early e again
            rw [(Slot.phase_live_iff _ _).mpr placed] at before
            omega
          · rcases List.mem_cons.mp member with rfl | later
            · exact phase_of_reserves reserves
            · exact sooner f later

end Run

-- Nothing can be done to a handle any more.
structure Stale (s : Scene) (e : Entity) : Prop where
  dead : s.isAlive e = false
  destroy : s.destroy e = .ok (.error (.staleEntity e), s)
  enable : s.enable e = .ok (.error (.staleEntity e), s)
  disable : s.disable e = .ok (.error (.staleEntity e), s)
  isEnabled : s.isEnabled e = .error (.staleEntity e)
  signatureOf : s.signatureOf e = .error (.staleEntity e)
  get : ∀ type, s.get e type = .ok (.error (.staleEntity e))
  replace : ∀ value, s.replace e value = .ok (.error (.staleEntity e), s)
  addComponent : ∀ value, s.addComponent e value = .ok (.error (.staleEntity e), s)
  removeComponent : ∀ type, s.removeComponent e type = .ok (.error (.staleEntity e), s)
  addToHierarchy : s.addToHierarchy e = .ok (.error (.staleEntity e), s)

theorem stale_of_dead (dead : s.isAlive e = false) : s.Stale e := by
  have gone : s.directory.location? e = none := by
    rw [isAlive, Directory.alive_eq] at dead
    exact Option.isSome_eq_false_iff.mp dead |> Option.isNone_iff_eq_none.mp
  exact ⟨dead, destroy_stale gone, set_enabled_stale gone true, set_enabled_stale gone false,
    congrArg (Except.map _) (locate_none gone), signature_of_stale gone, get_stale gone, replace_stale gone,
    add_component_stale gone, remove_component_stale gone, hierarchy_insert_stale gone⟩

theorem dead_of_generation_zero (sound : s.Sound) (zero : e.generation = 0) : s.isAlive e = false := by
  rw [← Bool.not_eq_true]
  intro alive
  obtain ⟨r, record, generation, _⟩ := (Directory.slot_some_iff _ _ _).mp (slot_of_alive alive)
  exact (sound.directory.valid _ r record).born (generation.trans zero)

theorem dead_invalid (sound : s.Sound) : s.isAlive .invalid = false := by
  rw [← Bool.not_eq_true]
  intro alive
  obtain ⟨r, record, _⟩ := (Directory.slot_some_iff _ _ _).mp (slot_of_alive alive)
  have bounded := sound.directory.bounded
  have inside := (Array.getElem?_eq_some_iff.mp record).1
  exact absurd inside (Nat.not_lt.mpr bounded)

theorem dead_forever (ended : early.isAlive e = true ∧ middle.isAlive e = false)
    (sooner : Slot.phase (early.slots e.index.toNat) ≤ Slot.phase (middle.slots e.index.toNat))
    (later : Slot.phase (middle.slots e.index.toNat) ≤ Slot.phase (last.slots e.index.toNat)) :
    last.Stale e := by
  obtain ⟨alive, dead⟩ := ended
  have first := (alive_iff_phase early e).mp alive
  refine stale_of_dead ?_
  rw [← Bool.not_eq_true, alive_iff_phase] at dead ⊢
  omega

theorem live_handle_unique {f : Entity} (alive : s.isAlive e = true) (also : s.isAlive f = true)
    (index : e.index = f.index) : e = f := by
  have first := slot_of_alive alive
  rw [index, slot_of_alive also] at first
  obtain ⟨generation, _⟩ := Prod.mk.inj (Option.some.inj first)
  obtain ⟨_, _⟩ := e
  obtain ⟨_, _⟩ := f
  exact congrArg₂ Entity.mk index generation.symm

theorem ended_by_destroy (sound : s.Sound)
    (performed : s.perform (.destroy e) = .ok (.ok .done, next)) :
    s.isAlive e = true ∧ next.isAlive e = false := by
  obtain ⟨world, slots, steps, becomes⟩ := performed_step sound performed
  cases steps with
  | quiet _ _ quiet => exact False.elim quiet
  | destroy _ content held =>
      refine ⟨by rw [alive_iff_world sound, held]; rfl, ?_⟩
      rw [alive_iff_world becomes.sound, becomes.world, Function.update_self]
      rfl

theorem ended_by_unload (sound : s.Sound) {outcome : Outcome Reply}
    (performed : s.perform .unload = .ok (outcome, next)) (alive : s.isAlive e = true) :
    s.isAlive e = true ∧ next.isAlive e = false := by
  obtain ⟨final, unloaded, becomes⟩ := unload_ok sound
  have same : s.perform .unload = .ok (.ok .done, final) := congrArg (Except.map _) unloaded
  rw [performed] at same
  obtain ⟨_, rfl⟩ := Prod.mk.inj (Except.ok.inj same)
  refine ⟨alive, ?_⟩
  rw [alive_iff_world becomes.sound, becomes.world]
  rfl

theorem retirements_le (s : Scene) (index : Nat) (commands : List Command) :
    s.retirements index commands ≤ commands.length := by
  induction commands generalizing s with
  | nil => exact Nat.le_refl 0
  | cons command rest ih =>
      rw [retirements]
      cases s.perform command with
      | error fault => exact Nat.zero_le _
      | ok result =>
          have here := Bool.toNat_le (Slot.released (s.slots index) (result.2.slots index))
          have others := ih result.2
          rw [List.length_cons]
          simp only
          omega

/-- In a history that releases no index too often handles are issued once, belong to one entity at a
time and never come back. -/
theorem run_handles {name : String} {settings : Settings} {registry : Registry} {first : Scene}
    {before after : List Command} {command : Command} {following : List (Outcome Reply)}
    {outcome : Outcome Reply} (genuine : registry.Genuine)
    (made : create name settings registry = .ok (.ok first))
    (began : first.performAll before = .ok (outcomes, early))
    (performed : early.perform command = .ok (outcome, middle))
    (went : middle.performAll after = .ok (following, last))
    (few : ∀ index, first.retirements index (before ++ command :: after) < 0xffffffff) :
    (issued (before ++ command :: after) (outcomes ++ outcome :: following)).Nodup ∧
      (∀ e f, last.isAlive e = true → last.isAlive f = true → e.index = f.index → e = f) ∧
      (∀ e, early.isAlive e = true → middle.isAlive e = false → last.Stale e) ∧
      (∀ e, command = .destroy e → outcome = .ok .done → last.Stale e) ∧
      (∀ e, command = .unload → early.isAlive e = true → last.Stale e) ∧
      (∀ e, e.generation = 0 → last.isAlive e = false) ∧ last.isAlive .invalid = false := by
  have blank := blank_of_created genuine made
  have counted (index : Nat) : Slot.Counted 0 (first.slots index) := by
    rw [blank.slots]
    exact rfl
  have earlySound := (run_sound blank.sound began).1
  have middleSound := (performed_step earlySound performed).sound
  have lastSound := (run_sound middleSound went).1
  have onwards := (perform_all_cons_iff command after).mpr
    ⟨outcome, middle, following, performed, went, rfl⟩
  have whole := perform_all_append began onwards
  have total (index : Nat) : first.retirements index (before ++ command :: after) =
      first.retirements index before + ((Slot.released (early.slots index) (middle.slots index)).toNat +
        middle.retirements index after) := by
    rw [retirements_append index _ began, retirements, performed]
  have ages (index : Nat) : Slot.phase (early.slots index) ≤ Slot.phase (middle.slots index) ∧
      Slot.phase (middle.slots index) ≤ Slot.phase (last.slots index) := by
    have bound := few index
    rw [total] at bound
    obtain ⟨world, slots, steps, becomes⟩ := performed_step earlySound performed
    have step := steps_slot earlySound steps index
    rw [← becomes.slots] at step
    obtain ⟨countedEarly, _⟩ := run_phase blank.sound began index 0 (counted index) (by omega)
    obtain ⟨countedMiddle, sooner⟩ := Slot.step_ok step _ countedEarly (by omega)
    obtain ⟨_, later⟩ := run_phase middleSound went index _ countedMiddle (by omega)
    exact ⟨sooner, later⟩
  have stale (e : Entity) (ended : early.isAlive e = true ∧ middle.isAlive e = false) : last.Stale e :=
    dead_forever ended (ages e.index.toNat).1 (ages e.index.toNat).2
  refine ⟨?_, fun e f alive also index => live_handle_unique alive also index,
    fun e alive dead => stale e ⟨alive, dead⟩, ?_, ?_, fun e zero => dead_of_generation_zero lastSound zero,
    dead_invalid lastSound⟩
  · refine (run_issued blank.sound whole (fun _ => 0) counted fun index => ?_).1
    rw [Nat.zero_add]
    exact few index
  · rintro e rfl rfl
    exact stale e (ended_by_destroy earlySound performed)
  · rintro e rfl alive
    exact stale e (ended_by_unload earlySound performed alive)

theorem run_handles_recycled : ∃ first early middle last outcomes following,
    create "world" .least .builtins = .ok (.ok first) ∧
      first.performAll [.create .empty] = .ok (outcomes, early) ∧
      early.perform (.destroy ⟨0, 1⟩) = .ok (.ok .done, middle) ∧
      middle.performAll [.create .empty] = .ok (following, last) ∧
      issued [.create .empty, .destroy ⟨0, 1⟩, .create .empty] (outcomes ++ .ok .done :: following) =
        [⟨0, 1⟩, ⟨0, 2⟩] ∧ last.Stale ⟨0, 1⟩ := by
  obtain ⟨first, early, middle, last, outcomes, following, made, began, performed, went, handles⟩ :
      ∃ first early middle last outcomes following, create "world" .least .builtins = .ok (.ok first) ∧
        first.performAll [.create .empty] = .ok (outcomes, early) ∧
        early.perform (.destroy ⟨0, 1⟩) = .ok (.ok .done, middle) ∧
        middle.performAll [.create .empty] = .ok (following, last) ∧
        issued [.create .empty, .destroy ⟨0, 1⟩, .create .empty] (outcomes ++ .ok .done :: following) =
          [⟨0, 1⟩, ⟨0, 2⟩] := ⟨_, _, _, _, _, _, rfl, rfl, rfl, rfl, rfl⟩
  have safe := run_handles Registry.builtins_genuine made began performed went fun index =>
    Nat.lt_of_le_of_lt (retirements_le first index _) (by decide)
  obtain ⟨_, _, _, destroyed, _⟩ := safe
  exact ⟨first, early, middle, last, outcomes, following, made, began, performed, went, handles,
    destroyed ⟨0, 1⟩ rfl rfl⟩

end Scene

end EntityStore
