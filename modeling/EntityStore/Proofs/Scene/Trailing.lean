import EntityStore.Proofs.Scene.Archive
import EntityStore.Proofs.Scene.FrameEnd

set_option autoImplicit false

namespace EntityStore.Scene

open Checked Hierarchy

variable {s next last : Scene} {e : Entity} {outcome : Outcome Reply}
  {outcomes : List (Outcome Reply)} {before after : List (Option Mat4)}

def remains (s next : Scene) (e : Entity) : Command → Bool
  | .endFrame =>
    match s.hierarchy.prune s.directory with
    | .error _ => false
    | .ok pruned => pruned.contains e
  | _ => s.hierarchy.contains e && next.hierarchy.contains e

-- The world matrices that an entity had right after each update since it became a member, latest first.
def matricesAfter (s next : Scene) (e : Entity) (before : List (Option Mat4)) (command : Command) :
    List (Option Mat4) :=
  if s.remains next e command then
    match command with
    | .updateHierarchy => next.hierarchy.world? e :: before
    | _ => before
  else []

def matrices (s : Scene) (e : Entity) (before : List (Option Mat4)) : List Command → List (Option Mat4)
  | [] => before
  | command :: rest =>
    match s.perform command with
    | .error _ => before
    | .ok (_, next) => next.matrices e (s.matricesAfter next e before command) rest

theorem matrices_append {commands : List Command} (ran : s.performAll commands = .ok (outcomes, last))
    (e : Entity) (before : List (Option Mat4)) (others : List Command) :
    s.matrices e before (commands ++ others) = last.matrices e (s.matrices e before commands) others := by
  induction commands generalizing s before outcomes with
  | nil =>
      obtain ⟨_, rfl⟩ := Prod.mk.inj (Except.ok.inj ran)
      rfl
  | cons command rest ih =>
      obtain ⟨outcome, middle, following, performed, went, rfl⟩ := (perform_all_cons_iff command rest).mp ran
      rw [List.cons_append, matrices, matrices, performed]
      exact ih went _

theorem Refreshed.members (refreshed : Refreshed s next) (e : Entity) :
    next.hierarchy.contains e = s.hierarchy.contains e := by
  rw [refreshed.frame]
  rfl

theorem matrices_updated (member : s.hierarchy.contains e = true) (refreshed : Refreshed s next)
    (before : List (Option Mat4)) :
    s.matricesAfter next e before .updateHierarchy = next.hierarchy.world? e :: before := by
  show (if s.hierarchy.contains e && next.hierarchy.contains e then next.hierarchy.world? e :: before
    else []) = next.hierarchy.world? e :: before
  rw [refreshed.members, member, Bool.and_self, if_pos rfl]

inductive Turns (s next : Scene) (e : Entity) : List (Option Mat4) → List (Option Mat4) → Prop where
  | kept (before : List (Option Mat4)) (member : s.hierarchy.contains e = true)
      (still : next.hierarchy.contains e = true) (world : next.hierarchy.world? e = s.hierarchy.world? e)
      (previous : next.hierarchy.previous? e = s.hierarchy.previous? e) : Turns s next e before before
  | updated (before : List (Option Mat4)) (matrix : Mat4) (member : s.hierarchy.contains e = true)
      (still : next.hierarchy.contains e = true) (world : next.hierarchy.world? e = some matrix)
      (previous : s.isAlive e = true →
        next.hierarchy.previous? e = (s.hierarchy.world? e).or (s.hierarchy.previous? e)) :
      Turns s next e before (some matrix :: before)
  | joined (before : List (Option Mat4)) (alive : next.isAlive e = true)
      (world : next.hierarchy.world? e = none)
      (previous : (s.hierarchy.contains e = false → s.hierarchy.previous? e = none) →
        next.hierarchy.previous? e = none) : Turns s next e before []
  | outside (before : List (Option Mat4)) (stranger : next.hierarchy.contains e = false)
      (previous : (s.hierarchy.contains e = false → s.hierarchy.previous? e = none) →
        next.hierarchy.previous? e = none) : Turns s next e before []

section Step

theorem turns_same (before : List (Option Mat4)) (contains : next.hierarchy.contains e = s.hierarchy.contains e)
    (world : next.hierarchy.world? e = s.hierarchy.world? e)
    (previous : next.hierarchy.previous? e = s.hierarchy.previous? e) :
    Turns s next e before (if s.hierarchy.contains e && next.hierarchy.contains e then before else []) := by
  rw [contains, Bool.and_self]
  cases member : s.hierarchy.contains e with
  | true => exact .kept before member (contains.trans member) world previous
  | false => exact .outside before (contains.trans member) fun unknown => previous.trans (unknown member)

theorem turns_added (sound : s.Sound) {f : Entity} {outcome : Outcome Unit} (inserted : Inserted s f outcome next)
    (before : List (Option Mat4)) : Turns s next e before (s.matricesAfter next e before (.addToHierarchy f)) := by
  cases member : s.hierarchy.contains e with
  | true =>
      have unmoved := inserted.unmoved sound member
      have contains : next.hierarchy.contains e = s.hierarchy.contains e := by
        rw [member]
        exact (inserted.members sound e).mpr (Or.inl member)
      have same := turns_same (s := s) before contains unmoved.world unmoved.previous
      exact same
  | false =>
      have previous : next.hierarchy.previous? e = s.hierarchy.previous? e := by
        rw [inserted.frame]
        rfl
      have unknown (known : s.hierarchy.contains e = false → s.hierarchy.previous? e = none) :
          next.hierarchy.previous? e = none := previous.trans (known member)
      have none : s.matricesAfter next e before (.addToHierarchy f) = [] := by
        show (if s.hierarchy.contains e && next.hierarchy.contains e then before else []) = []
        rw [member, Bool.false_and, if_neg Bool.false_ne_true]
      rw [none]
      cases inside : next.hierarchy.contains e with
      | false => exact .outside before inside unknown
      | true =>
          obtain old | new := (inserted.members sound e).mp inside
          · rw [member] at old
            contradiction
          · refine .joined before ?_ (inserted.world sound new) unknown
            rw [inserted.frame]
            exact (Tree.joining_fit sound.directory new).2.1

theorem turns_updated (sound : s.Sound) (refreshed : Refreshed s next) (before : List (Option Mat4)) :
    Turns s next e before (s.matricesAfter next e before .updateHierarchy) := by
  have archives := refreshed_archives sound refreshed
  have still := refreshed.members e
  cases member : s.hierarchy.contains e with
  | true =>
      obtain ⟨matrix, computed⟩ := archives.computed e member
      rw [matrices_updated member refreshed, computed]
      exact .updated before matrix member (still.trans member) computed (archives.trailing e member)
  | false =>
      have none : s.matricesAfter next e before .updateHierarchy = [] := by
        show (if s.hierarchy.contains e && _ then _ else []) = []
        rw [member, Bool.false_and, if_neg Bool.false_ne_true]
      rw [none]
      exact .outside before (still.trans member) fun unknown => archives.unknown e member (unknown member)

theorem turns_ended (sound : s.Sound) (done : s.endFrame = .ok next) (before : List (Option Mat4)) :
    Turns s next e before (s.matricesAfter next e before .endFrame) := by
  obtain ⟨calm, calms, closes⟩ := end_frame_closes sound done
  have left : s.remains next e .endFrame = calm.hierarchy.contains e := by
    obtain ⟨pruned, sifted, _, rfl⟩ := calms.pruned
    rw [remains, sifted]
    rfl
  show Turns s next e before (if s.remains next e .endFrame then before else [])
  rw [left]
  cases survived : calm.hierarchy.contains e with
  | true =>
      have pruned := closes.prunes.unmoved e survived
      have flushed := closes.unmoved e survived
      exact .kept before ((closes.prunes.members e).mp survived).1 (flushed.contains.trans survived)
        (flushed.world.trans pruned.world) (flushed.previous.trans pruned.previous)
  | false =>
      have unknown (known : s.hierarchy.contains e = false → s.hierarchy.previous? e = none) :
          next.hierarchy.previous? e = none := by
        rw [closes.previous]
        cases member : s.hierarchy.contains e with
        | true => exact closes.prunes.forgotten e member survived
        | false =>
            rw [closes.prunes.remembered e fun inside => by rw [member] at inside; contradiction]
            exact known member
      rw [if_neg Bool.false_ne_true]
      cases inside : next.hierarchy.contains e with
      | false => exact .outside before inside unknown
      | true => exact .joined before (closes.living e inside) (closes.fresh e survived inside) unknown

theorem perform_turns (sound : s.Sound) {command : Command} (performed : s.perform command = .ok (outcome, next))
    (e : Entity) (before : List (Option Mat4)) : Turns s next e before (s.matricesAfter next e before command) := by
  cases perform_course sound performed with
  | aside _ _ settled _ _ aside =>
      have plain : s.matricesAfter next e before command =
          if s.hierarchy.contains e && next.hierarchy.contains e then before else [] := by
        cases command <;> first | rfl | exact absurd trivial settled
      rw [plain]
      exact turns_same before (by rw [aside.hierarchy]) (by rw [aside.hierarchy]) (by rw [aside.hierarchy])
  | insert f result inserted => exact turns_added sound inserted before
  | queue f same =>
      rw [same]
      exact turns_same before rfl rfl rfl
  | update refreshed => exact turns_updated sound refreshed before
  | endFrame _ =>
      obtain ⟨_, done, same⟩ := map_ok_iff.mp performed
      obtain ⟨_, rfl⟩ := Prod.mk.inj same
      exact turns_ended sound done before
  | unload unloads =>
      show Turns s next e before (if s.hierarchy.contains e && next.hierarchy.contains e then before else [])
      have gone : next.hierarchy.contains e = false := by
        rw [unloads.hierarchy]
        rfl
      rw [gone, Bool.and_false, if_neg Bool.false_ne_true]
      exact .outside before gone fun _ => by
        rw [unloads.hierarchy]
        rfl
  | listen same =>
      rw [same]
      exact turns_same before rfl rfl rfl

end Step

-- What is known of an entity's matrices. The dead do not live again, so nothing is asked of them.
structure Lags (s : Scene) (e : Entity) (log : List (Option Mat4)) : Prop where
  born : s.hierarchy.contains e = true → 2 * e.generation.toNat + 1 ≤ Slot.phase (s.slots e.index.toNat)
  unknown : s.hierarchy.contains e = false → s.hierarchy.previous? e = none
  trails : s.hierarchy.contains e = true → s.isAlive e = true → ∃ worlds : List Mat4,
    log = worlds.map some ∧ s.hierarchy.world? e = worlds[0]? ∧ s.hierarchy.previous? e = worlds[1]?

theorem alive_of_later (lags : Lags s e before) (member : s.hierarchy.contains e = true)
    (grows : Slot.phase (s.slots e.index.toNat) ≤ Slot.phase (next.slots e.index.toNat))
    (alive : next.isAlive e = true) : s.isAlive e = true := by
  have born := lags.born member
  rw [alive_iff_phase] at alive ⊢
  omega

theorem lags_turns (lags : Lags s e before) (turns : Turns s next e before after)
    (grows : Slot.phase (s.slots e.index.toNat) ≤ Slot.phase (next.slots e.index.toNat)) :
    Lags next e after := by
  cases turns with
  | kept member still world previous =>
      refine ⟨fun _ => (lags.born member).trans grows, fun stranger => ?_, fun _ alive => ?_⟩
      · rw [still] at stranger
        contradiction
      · obtain ⟨worlds, same, current, last⟩ := lags.trails member (alive_of_later lags member grows alive)
        exact ⟨worlds, same, world.trans current, previous.trans last⟩
  | updated matrix member still world previous =>
      refine ⟨fun _ => (lags.born member).trans grows, fun stranger => ?_, fun _ alive => ?_⟩
      · rw [still] at stranger
        contradiction
      · have living := alive_of_later lags member grows alive
        obtain ⟨worlds, same, current, last⟩ := lags.trails member living
        refine ⟨matrix :: worlds, by rw [same, List.map_cons], world, ?_⟩
        -- The matrix until now is remembered. Without one nothing was remembered before either.
        rw [previous living, current, last]
        cases worlds <;> rfl
  | joined alive world previous =>
      have unknown := previous lags.unknown
      refine ⟨fun _ => Nat.le_of_eq ((alive_iff_phase next e).mp alive).symm, fun _ => unknown, fun _ _ => ?_⟩
      exact ⟨[], rfl, world, unknown⟩
  | outside stranger previous =>
      refine ⟨fun member => ?_, fun _ => previous lags.unknown, fun member => ?_⟩
      · rw [stranger] at member
        contradiction
      · rw [stranger] at member
        contradiction

theorem run_lags {commands : List Command} (sound : s.Sound)
    (lags : Lags s e before) (ran : s.performAll commands = .ok (outcomes, last)) (count : Nat)
    (counted : Slot.Counted count (s.slots e.index.toNat))
    (few : count + s.retirements e.index.toNat commands < 0xffffffff) :
    Lags last e (s.matrices e before commands) := by
  induction commands generalizing s before outcomes count with
  | nil =>
      obtain ⟨_, rfl⟩ := Prod.mk.inj (Except.ok.inj ran)
      exact lags
  | cons command rest ih =>
      obtain ⟨outcome, middle, following, performed, went, rfl⟩ := (perform_all_cons_iff command rest).mp ran
      obtain ⟨world, slots, steps, becomes⟩ := performed_step sound performed
      have step := steps_slot sound steps e.index.toNat
      rw [← becomes.slots] at step
      rw [retirements, performed] at few
      simp only at few
      -- The bound on the releases still to come keeps the generation from wrapping in this step.
      obtain ⟨countedNext, grows⟩ := Slot.step_ok step count counted (by omega)
      rw [matrices, performed]
      refine ih becomes.sound ?_ went _ countedNext (by omega)
      exact lags_turns lags (perform_turns sound performed e before) grows

/-- In every state that a history leads to, the world matrix of a living member is that of the last
update since it became a member, and its previous one that of the update before. There is none if
there were not so many updates. -/
theorem run_trails {name : String} {settings : Settings} {registry : Registry} {first : Scene}
    {commands : List Command} (genuine : registry.Genuine)
    (made : create name settings registry = .ok (.ok first))
    (ran : first.performAll commands = .ok (outcomes, s))
    (few : first.retirements e.index.toNat commands < 0xffffffff) (alive : s.isAlive e = true)
    (member : s.hierarchy.contains e = true) : ∃ worlds : List Mat4,
    first.matrices e [] commands = worlds.map some ∧ s.hierarchy.world? e = worlds[0]? ∧
      s.hierarchy.previous? e = worlds[1]? := by
  have blank := blank_of_created genuine made
  have vacant := (vacant_of_created made).1
  have unborn : first.slots e.index.toNat = none := by rw [blank.slots]
  have counted : Slot.Counted 0 (first.slots e.index.toNat) := by
    rw [unborn]
    exact rfl
  have lags : Lags first e [] := by
    refine ⟨fun member => ?_, fun _ => ?_, fun member => ?_⟩
    · rw [vacant] at member
      contradiction
    · rw [vacant]
      rfl
    · rw [vacant] at member
      contradiction
  exact (run_lags blank.sound lags ran 0 counted (by omega)).trails member alive

theorem run_trails_adoption : ∃ first outcomes s latest previous earlier,
    create "world" { blockCapacity := 2, blockBytes := 128, maxBlocks := 1 } .builtins = .ok (.ok first) ∧
      first.performAll (adoption ++ [.updateHierarchy, .updateHierarchy]) = .ok (outcomes, s) ∧
      first.matrices ⟨0, 1⟩ [] (adoption ++ [.updateHierarchy, .updateHierarchy]) =
        some latest :: some previous :: earlier ∧
      s.hierarchy.world? ⟨0, 1⟩ = some latest ∧ s.hierarchy.previous? ⟨0, 1⟩ = some previous := by
  obtain ⟨first, outcomes, start, made, began, verdict, named, living, calm⟩ := adoption_verdict
  have blank := blank_of_created Registry.builtins_genuine made
  have sparse := sparse_of_few blank (by decide) (reaches_end began)
  have sound := (run_sound blank.sound began).1
  obtain ⟨outcome, middle, path, added, joins, only⟩ := add_to_hierarchy_joins sound sparse.few ⟨1, 1⟩
  obtain ⟨rfl, rfl⟩ := (only _ _).mp verdict
  have grown := perform_all_append began
    (show start.performAll [.addToHierarchy ⟨1, 1⟩] = .ok ([.ok .done], middle) by
      simp only [performAll, perform, perform.told, added, ok_map, ok_bind, pure_eq_ok]
      rfl)
  have member : middle.hierarchy.contains ⟨0, 1⟩ = true :=
    (joins.members ⟨0, 1⟩).mpr (Or.inr (List.mem_cons_of_mem _ List.mem_cons_self))
  have alive : middle.isAlive ⟨0, 1⟩ = true := by
    rw [joins.frame]
    exact living
  obtain ⟨once, updated, refreshed⟩ := update_hierarchy_ok (run_sound blank.sound grown).1
  obtain ⟨s, again, refreshedAgain⟩ := update_hierarchy_ok refreshed.becomes.sound
  have performed : middle.perform .updateHierarchy = .ok (.ok .done, once) := congrArg (Except.map _) updated
  have performedAgain : once.perform .updateHierarchy = .ok (.ok .done, s) := congrArg (Except.map _) again
  have ran : middle.performAll [.updateHierarchy, .updateHierarchy] = .ok (_, s) :=
    (perform_all_cons_iff _ _).mpr ⟨_, _, _, performed,
      (perform_all_cons_iff _ _).mpr ⟨_, _, _, performedAgain, rfl, rfl⟩, rfl⟩
  have memberOnce := (refreshed.members ⟨0, 1⟩).trans member
  have whole := perform_all_append grown ran
  obtain ⟨worlds, list, world, previous⟩ := run_trails (e := ⟨0, 1⟩) Registry.builtins_genuine made whole
    (Nat.lt_of_le_of_lt (retirements_le first _ _) (by decide)) (by rw [refreshedAgain.frame, refreshed.frame]; exact alive)
    ((refreshedAgain.members ⟨0, 1⟩).trans memberOnce)
  have twice (before : List (Option Mat4)) :
      middle.matrices ⟨0, 1⟩ before [.updateHierarchy, .updateHierarchy] =
        s.hierarchy.world? ⟨0, 1⟩ :: once.hierarchy.world? ⟨0, 1⟩ :: before := by
    simp only [matrices, performed, performedAgain, matrices_updated member refreshed,
      matrices_updated memberOnce refreshedAgain]
  have shape := (list.symm.trans (matrices_append grown ⟨0, 1⟩ [] _)).trans (twice _)
  cases worlds with
  | nil => contradiction
  | cons latest rest =>
      cases rest with
      | nil => exact absurd (List.cons.inj shape).2 (List.cons_ne_nil _ _).symm
      | cons before rest =>
          exact ⟨first, _, s, latest, before, rest.map some, made, whole, list, world, previous⟩

end EntityStore.Scene
