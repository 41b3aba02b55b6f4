import EntityStore.Proofs.Scene.Announced

set_option autoImplicit false

namespace EntityStore

namespace Hierarchy

variable {h next : Hierarchy} {log : Lineage} {store : Store} {directory : Directory}

theorem end_frame_members (records : h.Records log) (sound : directory.Sound)
    (readable : Readable store directory) (done : h.endFrame store directory = .ok next) {e : Entity}
    (member : next.contains e = true) : h.contains e = true ∨ directory.isAlive e = true := by
  obtain ⟨pruned, sifted, went⟩ := Checked.bind_ok_iff.mp done
  obtain ⟨recordsPruned, same⟩ := prune_done records sifted
  obtain ⟨-, tree⟩ := flush_done recordsPruned sound readable went
  have old (x : Entity) (left : Tree.contains { pruned with pending := [] }.tree x = true) :
      h.contains x = true := by
    have left : (h.tree.prune directory).contains x = true := same ▸ left
    exact ((Tree.prune_contains_iff directory records.traces x).mp left).1
  have known : ∀ x, (Tree.flush store directory _ h.pending).contains x = true →
      h.contains x = true ∨ directory.isAlive x = true :=
    Tree.flush_members store sound recordsPruned.traces h.pending (fun x left => Or.inl (old x left))
      fun x alive => Or.inr alive
  have member : next.tree.contains e = true := member
  rw [tree] at member
  exact known e member

end Hierarchy

namespace Scene

open Checked

variable {s next first last : Scene} {e : Entity} {command : Command} {outcome : Outcome Reply}
  {commands : List Command}

theorem step_living (step : Stepped s command outcome next) :
    ∃ e, ∀ x, next.isAlive x = true → s.isAlive x = true ∨ x = e := by
  obtain ⟨world, slots, steps, becomes⟩ := step
  have one : ∃ e : Entity, ∀ x : Entity, slots x.index.toNat = some (x.generation, true) →
      s.slots x.index.toNat = some (x.generation, true) ∨ x = e := by
    have updated (e : Entity) (record : UInt32 × Bool)
        (fits : record.2 = true → record.1 = e.generation) (x : Entity)
        (live : Function.update s.slots e.index.toNat (some record) x.index.toNat = some (x.generation, true)) :
        s.slots x.index.toNat = some (x.generation, true) ∨ x = e := by
      rw [Function.update_apply] at live
      split at live
      · rename_i here
        obtain rfl := Option.some.inj live
        obtain ⟨_, _⟩ := x
        obtain ⟨_, _⟩ := e
        exact Or.inr (congrArg₂ Entity.mk (UInt32.toNat_inj.mp here) (fits rfl))
      · exact Or.inl live
    cases steps with
    | uncreated _ _ _ e _ => exact ⟨e, updated e _ fun live => by contradiction⟩
    | create _ e _ _ => exact ⟨e, updated e _ fun _ => rfl⟩
    | spawn _ e _ _ => exact ⟨e, updated e _ fun _ => rfl⟩
    | destroy e _ _ => exact ⟨e, updated e _ fun live => by contradiction⟩
    | unload =>
        refine ⟨.invalid, fun x live => ?_⟩
        rw [cleared] at live
        obtain ⟨record, _, same⟩ := Option.map_eq_some_iff.mp live
        exact absurd (Prod.mk.inj same).2 Bool.false_ne_true
    | _ => exact ⟨.invalid, fun _ live => Or.inl live⟩
  rw [← becomes.slots] at one
  obtain ⟨e, born⟩ := one
  refine ⟨e, fun x alive => ?_⟩
  have alive : next.directory.isAlive x = true := alive
  rw [Directory.alive_slot] at alive
  exact (born x alive).imp_left (Directory.alive_slot s.directory x).mpr

theorem course_members (sound : s.Sound) (course : Course s next command outcome) {x : Entity}
    (member : next.hierarchy.contains x = true) : s.hierarchy.contains x = true ∨ next.isAlive x = true := by
  obtain ⟨log, records⟩ := sound.hierarchy
  cases course with
  | aside _ _ _ _ _ aside => exact Or.inl (aside.hierarchy ▸ member)
  | insert e result inserted =>
      have member : next.hierarchy.tree.contains x = true := member
      rw [inserted.tree, Tree.tried_contains s.store sound.directory records.traces] at member
      refine member.imp_right fun new => ?_
      rw [inserted.frame]
      exact (Tree.joining_fit sound.directory new).2.1
  | queue e same =>
      rw [same] at member
      exact Or.inl member
  | update refreshed =>
      rw [refreshed.frame] at member
      exact Or.inl member
  | endFrame ended =>
      rw [ended.frame]
      exact Hierarchy.end_frame_members records sound.directory (readable sound) ended.hierarchy member
  | unload unloads =>
      rw [unloads.hierarchy] at member
      contradiction
  | listen same =>
      rw [same] at member
      exact Or.inl member

theorem course_frame (course : Course s next command outcome) : next.frame.toNat ≤ s.frame.toNat + 1 := by
  cases course with
  | aside _ _ _ _ _ aside => rw [aside.frame]; omega
  | insert e result inserted => rw [inserted.frame]; exact Nat.le_succ _
  | queue e same => rw [same]; exact Nat.le_succ _
  | update refreshed => rw [refreshed.frame]; exact Nat.le_succ _
  | endFrame ended =>
      rw [ended.frame]
      show (s.frame + 1).toNat ≤ _
      rw [UInt64.toNat_add]
      exact Nat.mod_le _ _
  | unload unloads => rw [unloads.frame]; omega
  | listen same => rw [same]; exact Nat.le_succ _

-- The roll gets longer by those only who come to life.
theorem roll_le (sound : s.Sound) (later : next.Sound) (born : List Entity)
    (living : ∀ x, next.isAlive x = true → s.isAlive x = true ∨ x ∈ born)
    (members : ∀ x, next.hierarchy.contains x = true → s.hierarchy.contains x = true ∨ next.isAlive x = true) :
    next.roll.length ≤ born.length + s.roll.length := by
  have inside : next.roll ⊆ born ++ s.roll := by
    intro x listed
    rw [List.mem_append, mem_roll sound]
    rcases (mem_roll later x).mp listed with alive | member
    · exact (living x alive).symm.imp_right Or.inl
    · rcases members x member with before | alive
      · exact Or.inr (Or.inr before)
      · exact (living x alive).symm.imp_right Or.inl
  rw [← List.length_append]
  exact ((nodup_roll later).subperm inside).length_le

theorem step_roll (sound : s.Sound) (performed : s.perform command = .ok (outcome, next)) :
    next.roll.length ≤ s.roll.length + 1 := by
  have step := performed_step sound performed
  have course := perform_course sound performed
  obtain ⟨e, born⟩ := step_living step
  rw [Nat.add_comm]
  exact roll_le sound step.sound [e] (fun x alive => (born x alive).imp_right List.mem_singleton.mpr)
    fun x => course_members sound course

theorem reaches_room (sound : s.Sound) (reaches : s.Reaches commands last) :
    last.roll.length ≤ s.roll.length + commands.length ∧
      last.frame.toNat ≤ s.frame.toNat + commands.length := by
  obtain ⟨before, outcomes, part, ran⟩ := reaches
  suffices room : last.roll.length ≤ s.roll.length + before.length ∧
      last.frame.toNat ≤ s.frame.toNat + before.length by
    have short := part.length_le
    omega
  clear part
  induction before generalizing s outcomes with
  | nil =>
      obtain ⟨_, rfl⟩ := Prod.mk.inj (Except.ok.inj ran)
      exact ⟨Nat.le_refl _, Nat.le_refl _⟩
  | cons command rest ih =>
      obtain ⟨outcome, middle, following, performed, went, -⟩ := (perform_all_cons_iff command rest).mp ran
      have roll := step_roll sound performed
      have frame := course_frame (perform_course sound performed)
      obtain ⟨rolls, frames⟩ := ih (performed_step sound performed).sound following went
      rw [List.length_cons]
      omega

theorem ended_of_sparse (sound : s.Sound) (sparse : s.Sparse) : ∃ next, s.endFrame = .ok next ∧ Ended s next := by
  have done := end_frame_ok sound
  cases ran : s.endFrame with
  | error fault =>
      rw [ran] at done
      exact absurd sparse done.2
  | ok next =>
      rw [ran] at done
      exact ⟨next, rfl, done⟩

theorem Ended.roll (sound : s.Sound) (ended : Ended s next) : next.roll.length ≤ s.roll.length := by
  have directory : next.directory = s.directory := by rw [ended.frame]
  have kept := roll_le sound (ended.becomes sound).sound [] (fun x alive => Or.inl ?_)
    fun x => course_members sound (.endFrame ended)
  · rwa [List.length_nil, Nat.zero_add] at kept
  · rwa [isAlive, directory] at alive

theorem sparse_of_few {settings : Settings} {registry : Registry} (blank : Blank settings registry first)
    (few : commands.length < 0xffffffff) (reaches : first.Reaches commands last) : last.Sparse := by
  obtain ⟨rolls, frames⟩ := reaches_room blank.sound reaches
  rw [blank.roll, List.length_nil] at rolls
  rw [blank.frame] at frames
  refine ⟨by simp only [UInt32.size]; omega, fun wrapped => ?_⟩
  have sum := congrArg UInt64.toNat wrapped
  rw [UInt64.toNat_add] at sum
  simp only [UInt64.toNat_zero, UInt64.toNat_one] at sum frames
  omega

theorem Blank.halts {settings : Settings} {registry : Registry} (blank : Blank settings registry first)
    {fault : Fault} (halts : first.Halts commands fault) :
    (fault = .indexSpaceExhausted ∨ fault = .sumOverflow) ∧ 0xffffffff ≤ commands.length ∨
      ∃ signature, Layout.generate signature registry settings.blockCapacity settings.blockBytes =
        .error fault := by
  have empty : first.directory.size = 0 := by
    have unused := congrFun blank.slots 0
    exact Nat.le_zero.mp ((Directory.slot_none_iff first.directory 0).mp unused)
  obtain ⟨exhausted, bound⟩ | ⟨stopped, last, reaches, crowded⟩ | ⟨signature, overflow⟩ := halts
  · exact Or.inl ⟨Or.inl exhausted, by omega⟩
  · refine Or.inl ⟨Or.inr stopped, ?_⟩
    by_contra few
    exact crowded (sparse_of_few blank (by omega) reaches)
  · refine Or.inr ⟨signature, ?_⟩
    rw [Store.Overflows, blank.capacity, blank.blockBytes] at overflow
    exact blank.registry ▸ overflow

end Scene

end EntityStore
