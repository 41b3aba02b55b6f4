import EntityStore.Proofs.Scene.Losses
import Mathlib.Logic.Function.Iterate

set_option autoImplicit false

namespace EntityStore

namespace Scene

open Checked

variable {s next last : Scene} {e : Entity} {c : ComponentId} {command : Command} {outcome : Outcome Reply}
  {commands : List Command} {outcomes : List (Outcome Reply)} {i : Nat}

section Heard

def heard (s : Scene) (i : Nat) : List Event :=
  (s.deliveries.filter fun d => d.listener = i).map Delivery.event

theorem heard_of_tells {told : List Event} (tells : Tells s next told) (hears : i < s.listeners) :
    next.heard i = s.heard i ++ told := by
  have once : (List.range s.listeners).filter (fun j => j = i) = [i] := by
    refine List.perm_singleton.mp ((List.perm_ext_iff_of_nodup (List.nodup_range.filter _)
      (List.nodup_singleton i)).mpr fun j => ?_)
    rw [List.mem_filter, List.mem_range, List.mem_singleton, decide_eq_true_eq]
    exact ⟨fun both => both.2, fun same => ⟨same ▸ hears, same⟩⟩
  have each (event : Event) :
      (((List.range s.listeners).map fun j => (⟨j, event⟩ : Delivery)).filter fun d => d.listener = i) =
        [⟨i, event⟩] := by
    rw [List.filter_map]
    exact congrArg (List.map _) once
  rw [heard, heard, tells.deliveries, List.filter_append, List.map_append, List.filter_flatMap]
  refine congrArg _ ?_
  simp only [each]
  rw [← List.map_eq_flatMap, List.map_map]
  exact List.map_id told

theorem perform_hears (sound : s.Sound) (performed : s.perform command = .ok (outcome, next)) :
    ∃ told, Says s command outcome told ∧ s.listeners ≤ next.listeners ∧
      ∀ i < s.listeners, next.heard i = s.heard i ++ told := by
  have silent (lasting : ∀ reply, outcome = .ok reply → ¬ command.Parts)
      (listeners : s.listeners ≤ next.listeners) (deliveries : next.deliveries = s.deliveries) :
      ∃ told, Says s command outcome told ∧ s.listeners ≤ next.listeners ∧
        ∀ i < s.listeners, next.heard i = s.heard i ++ told := by
    refine ⟨[], says_nothing command outcome lasting, listeners, fun i _ => ?_⟩
    rw [heard, heard, deliveries, List.append_nil]
  cases perform_course sound performed with
  | aside _ _ _ told spoken aside =>
      exact ⟨told, spoken, Nat.le_of_eq aside.listeners.symm, fun i hears => heard_of_tells aside.toTells hears⟩
  | insert e result inserted =>
      exact silent (fun _ _ => not_false) (by rw [inserted.frame]) (by rw [inserted.frame])
  | queue e same => exact silent (fun _ _ => not_false) (by rw [same]; rfl) (by rw [same]; rfl)
  | update refreshed =>
      exact silent (fun _ _ => not_false) (by rw [refreshed.frame]) (by rw [refreshed.frame])
  | endFrame ended => exact silent (fun _ _ => not_false) (by rw [ended.frame]) (by rw [ended.frame])
  | unload unloads =>
      exact ⟨_, .unload, Nat.le_of_eq unloads.listeners.symm, fun i hears => heard_of_tells unloads.toTells hears⟩
  | listen same =>
      exact silent (fun _ _ => not_false) (by rw [same]; exact Nat.le_succ _) (by rw [same]; rfl)

end Heard

section Run

def losses (s : Scene) (e : Entity) (c : ComponentId) : List Command → List (List UInt8)
  | [] => []
  | command :: rest =>
    match s.perform command with
    | .error _ => []
    | .ok (_, next) => (s.lost? next e c).toList ++ next.losses e c rest

def gained (e : Entity) (c : ComponentId) : List Command → List (Outcome Reply) → Nat
  | command :: commands, outcome :: outcomes =>
    (command.gains e c outcome).toNat + gained e c commands outcomes
  | _, _ => 0

theorem step_balance (sound : s.Sound) (performed : s.perform command = .ok (outcome, next)) (e : Entity) :
    (s.isAlive e && !next.isAlive e).toNat + (next.isAlive e).toNat =
        (s.isAlive e).toNat + (issuedBy command outcome).toList.count e ∧
      ∀ c, s.registry.owns c = true → (s.lost? next e c).toList.length + (next.carries e c).toNat =
        (s.carries e c).toNat + (command.gains e c outcome).toNat := by
  obtain ⟨world, slots, steps, becomes⟩ := performed_step sound performed
  rw [← becomes.world] at steps
  obtain ⟨life, hold⟩ := steps_turn steps e
  rw [← alive_iff_world sound, ← alive_iff_world becomes.sound] at life
  refine ⟨?_, fun c owned => ?_⟩
  · rw [life.balance]
    cases issuedBy command outcome with
    | none => rfl
    | some f => by_cases same : f = e <;> simp [same]
  · have balance := (hold c (Registry.owned_known owned)).balance
    rw [← carries_world sound, ← carries_world becomes.sound] at balance
    rw [← balance, lost?, carries_world sound, bytes_of_world sound]
    cases next.carries e c <;> cases s.world.bytes? e c <;> rfl

theorem freed_append (first second : List Event) (e : Entity) (c : ComponentId) :
    freed (first ++ second) e c = freed first e c ++ freed second e c := List.filterMap_append

theorem endings_append (first second : List Event) (e : Entity) :
    endings (first ++ second) e = endings first e + endings second e := List.countP_append

theorem run_losses (sound : s.Sound) (ran : s.performAll commands = .ok (outcomes, last))
    (hears : i < s.listeners) (e : Entity) :
    endings (last.heard i) e + (last.isAlive e).toNat =
        endings (s.heard i) e + (s.isAlive e).toNat + (issued commands outcomes).count e ∧
      ∀ c, freed (last.heard i) e c =
          freed (s.heard i) e c ++ (if s.registry.owns c then s.losses e c commands else []) ∧
        (s.registry.owns c = true → (s.losses e c commands).length + (last.carries e c).toNat =
          (s.carries e c).toNat + gained e c commands outcomes) := by
  induction commands generalizing s outcomes with
  | nil =>
      obtain ⟨rfl, rfl⟩ := Prod.mk.inj (Except.ok.inj ran)
      simp [losses, issued, gained]
  | cons command rest ih =>
      obtain ⟨outcome, middle, following, performed, went, rfl⟩ := (perform_all_cons_iff command rest).mp ran
      have step := performed_step sound performed
      obtain ⟨told, spoken, more, hearing⟩ := perform_hears sound performed
      have parted := parted sound spoken performed
      obtain ⟨life, hold⟩ := step_balance sound performed e
      obtain ⟨endedRest, rest⟩ := ih step.sound went (Nat.lt_of_lt_of_le hears more)
      have registry : middle.registry = s.registry := step.alike.registry
      rw [hearing i hears, endings_append, parted.ended] at endedRest
      rw [issued, List.count_append]
      refine ⟨by omega, fun c => ?_⟩
      obtain ⟨freedRest, balanceRest⟩ := rest c
      rw [hearing i hears, freed_append, registry] at freedRest
      rw [registry] at balanceRest
      rw [losses, performed, freedRest, gained]
      simp only [List.length_append]
      refine ⟨?_, fun owned => ?_⟩
      · rw [List.append_assoc]
        cases owned : s.registry.owns c with
        | false =>
            rw [parted.foreign e c owned]
            rfl
        | true =>
            rw [parted.freed e c owned]
            rfl
      · have here := hold c owned
        have later := balanceRest owned
        omega

structure Accounts (first last : Scene) (i : Nat) (commands : List Command) (outcomes : List (Outcome Reply)) :
    Prop where
  -- Each resource that was lost is released once, with the bytes that it had, in the order of the losses.
  freed : ∀ e c, first.registry.owns c = true → freed (last.heard i) e c = first.losses e c commands
  counted : ∀ e c, first.registry.owns c = true →
    (Scene.freed (last.heard i) e c).length + (last.carries e c).toNat = gained e c commands outcomes
  foreign : ∀ e c, first.registry.owns c = false → Scene.freed (last.heard i) e c = []
  -- The end of an entity is told once if there was one.
  ended : ∀ e, endings (last.heard i) e =
    if e ∈ issued commands outcomes ∧ last.isAlive e = false then 1 else 0

theorem run_listeners (sound : s.Sound) (ran : s.performAll commands = .ok (outcomes, last)) :
    s.listeners ≤ last.listeners := by
  induction commands generalizing s outcomes with
  | nil =>
      obtain ⟨_, rfl⟩ := Prod.mk.inj (Except.ok.inj ran)
      exact Nat.le_refl _
  | cons command rest ih =>
      obtain ⟨outcome, middle, following, performed, went, _⟩ := (perform_all_cons_iff command rest).mp ran
      obtain ⟨_, _, more, _⟩ := perform_hears sound performed
      exact Nat.le_trans more (ih (performed_step sound performed).sound went)

theorem attached {name : String} {settings : Settings} {registry : Registry} {first : Scene}
    (genuine : registry.Genuine) (made : create name settings registry = .ok (.ok first)) (count : Nat) :
    Blank settings registry (addListener^[count] first) ∧ (addListener^[count] first).listeners = count ∧
      (addListener^[count] first).deliveries = [] := by
  induction count with
  | zero => exact ⟨blank_of_created genuine made, (vacant_of_created made).2⟩
  | succ count ih =>
      obtain ⟨blank, listeners, deliveries⟩ := ih
      rw [Function.iterate_succ_apply']
      have same : Becomes (addListener^[count] first) (addListener (addListener^[count] first)) 0 _ _ :=
        becomes_same blank.sound rfl rfl rfl blank.sound.hierarchy
      exact ⟨⟨same.sound, blank.fresh, blank.world, blank.slots, blank.registry, blank.capacity,
        blank.blockBytes, blank.caches, blank.roll, blank.frame⟩, congrArg Nat.succ listeners, deliveries⟩

/-- A listener that was there before the first command is told of every loss of an owned resource
once and with its bytes, and of the end of every entity once and before its resources. -/
theorem run_releases {name : String} {settings : Settings} {registry : Registry} {first : Scene} {count : Nat}
    (genuine : registry.Genuine) (made : create name settings registry = .ok (.ok first)) (hears : i < count)
    (ran : (addListener^[count] first).performAll commands = .ok (outcomes, s))
    (few : ∀ index, (addListener^[count] first).retirements index commands < 0xffffffff) :
    Accounts (addListener^[count] first) s i commands outcomes ∧
      ∀ command outcome next, s.perform command = .ok (outcome, next) →
        ∃ told, next.heard i = s.heard i ++ told ∧ Parted s next command outcome told := by
  obtain ⟨blank, listeners, deliveries⟩ := attached genuine made count
  have sound := (run_sound blank.sound ran).1
  have here : i < (addListener^[count] first).listeners := listeners.symm ▸ hears
  have silent : (addListener^[count] first).heard i = [] := by
    rw [heard, deliveries]
    rfl
  have dead (e : Entity) : (addListener^[count] first).isAlive e = false := by
    rw [alive_iff_world blank.sound, blank.world]
    rfl
  have bare (e : Entity) (c : ComponentId) : (addListener^[count] first).carries e c = false := by
    rw [carries_world blank.sound, blank.world]
    rfl
  have told (e : Entity) := run_losses blank.sound ran here e
  simp only [silent, dead, bare, freed, endings, List.filterMap_nil, List.nil_append, List.countP_nil,
    Bool.toNat_false, Nat.zero_add] at told
  obtain ⟨distinct, _⟩ := run_issued blank.sound ran (fun _ => 0) (fun index => by rw [blank.slots]; rfl)
    fun index => by rw [Nat.zero_add]; exact few index
  refine ⟨⟨fun e c owned => ?_, fun e c owned => ?_, fun e c foreign => ?_, fun e => ?_⟩,
    fun command outcome next performed => ?_⟩
  · exact ((told e).2 c).1.trans (if_pos owned)
  · obtain ⟨losses, balance⟩ := (told e).2 c
    rw [freed, losses, if_pos owned]
    exact balance owned
  · exact ((told e).2 c).1.trans (if_neg (Bool.not_eq_true _ ▸ foreign))
  · have balance := (told e).1
    rw [distinct.count] at balance
    rw [endings]
    cases alive : s.isAlive e with
    | false =>
        rw [alive] at balance
        simpa using balance
    | true =>
        rw [alive, Bool.toNat_true] at balance
        rw [if_neg fun both => absurd both.2 (by decide)]
        split at balance <;> omega
  · obtain ⟨told, spoken, _, hearing⟩ := perform_hears sound performed
    exact ⟨told, hearing i (Nat.lt_of_lt_of_le here (run_listeners blank.sound ran)),
      parted sound spoken performed⟩

theorem run_releases_body : ∃ first outcomes s, create "world" .least .builtins = .ok (.ok first) ∧
    (addListener^[1] first).performAll [.create (.ofList [ComponentType.physicsBody.id]), .destroy ⟨0, 1⟩] =
      .ok (outcomes, s) ∧
    s.heard 0 = [.destroyed ⟨0, 1⟩ (.ofList [ComponentType.physicsBody.id]),
      .released ⟨0, 1⟩ ComponentType.physicsBody.id [0, 0, 0, 0]] ∧
    Accounts (addListener^[1] first) s 0
      [.create (.ofList [ComponentType.physicsBody.id]), .destroy ⟨0, 1⟩] outcomes := by
  obtain ⟨first, outcomes, s, made, ran, told⟩ : ∃ first outcomes s,
      create "world" .least .builtins = .ok (.ok first) ∧
        (addListener^[1] first).performAll
            [.create (.ofList [ComponentType.physicsBody.id]), .destroy ⟨0, 1⟩] = .ok (outcomes, s) ∧
        s.heard 0 = [.destroyed ⟨0, 1⟩ (.ofList [ComponentType.physicsBody.id]),
          .released ⟨0, 1⟩ ComponentType.physicsBody.id [0, 0, 0, 0]] :=
    ⟨_, _, _, rfl, rfl, rfl⟩
  have accounts := run_releases Registry.builtins_genuine made Nat.zero_lt_one ran fun index =>
    Nat.lt_of_le_of_lt (retirements_le _ index _) (by decide)
  exact ⟨first, outcomes, s, made, ran, told, accounts.1⟩

end Run

end Scene

end EntityStore
