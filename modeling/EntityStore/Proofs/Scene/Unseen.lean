import EntityStore.Proofs.Renamed.Unloaded
import EntityStore.Proofs.Scene.Mirrored
import EntityStore.Proofs.Store.Recalling
import EntityStore.Proofs.Twin.Scene

set_option autoImplicit false

namespace EntityStore

open Checked

def Command.creates : Command → Bool
  | .create _ | .spawn _ => true
  | _ => false

inductive Padded where
  | own (command : Command)
  | extra (command : Command)

namespace Padded

def command : Padded → Command
  | .own command | .extra command => command

def history : List Padded → List Command
  | [] => []
  | .own command :: steps => command :: history steps
  | .extra _ :: steps => history steps

def answers {α : Type} : List Padded → List α → List α
  | .own _ :: steps, answer :: rest => answer :: answers steps rest
  | .extra _ :: steps, _ :: rest => answers steps rest
  | _, _ => []

end Padded

namespace Scene

variable {s other next : Scene} {d : Directory}

-- Whatever is put in between is a creation, and it is refused when its turn comes.
def PaddedInVain (s : Scene) : List Padded → Prop
  | [] => True
  | .own command :: steps =>
      ∀ outcome next, s.perform command = .ok (outcome, next) → next.PaddedInVain steps
  | .extra command :: steps => command.creates = true ∧
      ∃ error next, s.perform command = .ok (.error error, next) ∧ next.PaddedInVain steps

theorem in_vain_own {command : Command} {outcome : Outcome Reply} {steps : List Padded}
    (performed : s.perform command = .ok (outcome, next)) (later : next.PaddedInVain steps) :
    s.PaddedInVain (.own command :: steps) := by
  intro other result same
  obtain ⟨rfl, rfl⟩ := Prod.mk.inj (Except.ok.inj (performed.symm.trans same))
  exact later

theorem in_vain_extra {command : Command} {error : StoreError} {steps : List Padded} (creates : command.creates = true)
    (refused : s.perform command = .ok (.error error, next)) (later : next.PaddedInVain steps) :
    s.PaddedInVain (.extra command :: steps) := ⟨creates, error, next, refused, later⟩

section Refused

inductive Forgoes (s : Scene) : Scene → Prop where
  | left (d : Directory) (store : Store) (twin : s.directory.Twin d) (learns : Store.Learns s.store store) :
      Forgoes s ((s.under d).rebased id store)

theorem place_new_refused (sound : s.Sound) (twin : s.directory.Twin d) {signature : Signature} {error : StoreError}
    (refused : (s.under d).placeNew signature = .ok (.error error, next)) : Forgoes s next := by
  obtain ⟨⟨e, given⟩, reserved, refused⟩ := bind_ok_iff.mp refused
  obtain ⟨⟨outcome, store⟩, tried, refused⟩ := bind_ok_iff.mp refused
  have inserted := Store.insert_ok sound.store signature e
  rw [show s.store.insert s.registry signature e = _ from tried] at inserted
  cases outcome with
  | ok spot =>
      obtain ⟨final, placed, same⟩ := bind_ok_iff.mp refused
      simp at same
  | error other =>
      obtain ⟨final, abandoned, same⟩ := bind_ok_iff.mp refused
      obtain ⟨-, rfl⟩ := Prod.mk.inj (Except.ok.inj same)
      exact .left final store (twin.forgo reserved abandoned) inserted.2.2.2.1

theorem spawn_refused (sound : s.Sound) (twin : s.directory.Twin d) {bundle : Bundle} {error : StoreError}
    (refused : (s.under d).spawn bundle = .ok (.error error, next)) : Forgoes s next := by
  rw [spawn] at refused
  cases repeated : bundle.repeated? with
  | some id =>
      rw [repeated] at refused
      obtain ⟨-, rfl⟩ := Prod.mk.inj (Except.ok.inj refused)
      exact .left d s.store twin (Store.learns_refl s.store)
  | none =>
      rw [repeated] at refused
      cases checked : bundle.check (s.under d).registry with
      | error other =>
          rw [checked] at refused
          obtain ⟨-, rfl⟩ := Prod.mk.inj (Except.ok.inj refused)
          exact .left d s.store twin (Store.learns_refl s.store)
      | ok done =>
          rw [checked] at refused
          obtain ⟨⟨outcome, last⟩, placed, same⟩ := bind_ok_iff.mp refused
          cases outcome with
          | error other =>
              obtain ⟨-, rfl⟩ := Prod.mk.inj (Except.ok.inj same)
              exact place_new_refused sound twin placed
          | ok home =>
              -- With a handle placed, the bundle cannot be refused any more.
              simp only at same
              cases held : last.store.block? home.2.1 with
              | none => simp [held] at same
              | some block =>
                  simp only [held] at same
                  obtain ⟨_, _, same⟩ := bind_ok_iff.mp same
                  simp at same

theorem creation_refused (sound : s.Sound) (twin : s.directory.Twin d) {command : Command} {error : StoreError}
    (creates : command.creates = true) (refused : (s.under d).perform command = .ok (.error error, next)) :
    Forgoes s next := by
  have untold {result : Checked (Outcome Entity × Scene)}
      (told : perform.told .entity result = .ok (.error error, next)) : result = .ok (.error error, next) := by
    cases result with
    | error fault => contradiction
    | ok both =>
        obtain ⟨outcome, last⟩ := both
        obtain ⟨failed, rfl⟩ := Prod.mk.inj (Except.ok.inj told)
        cases outcome with
        | ok e => contradiction
        | error other => rw [Except.error.inj failed]
  cases command with
  | create signature => exact place_new_refused sound twin (unplaced_of_refused (untold refused))
  | spawn bundle => exact spawn_refused sound twin (untold refused)
  | _ => contradiction

end Refused

section Runs

inductive Shadows (s : Scene) : Scene → Prop where
  | along (d : Directory) (store : Store) (twin : s.directory.Twin d)
      (recalling : Store.Recalling s.registry s.store store) : Shadows s ((s.under d).rebased id store)

inductive Shadowed {α : Type} : α × Scene → α × Scene → Prop where
  | both (answer : α) {s other : Scene} (shadows : Shadows s other) : Shadowed (answer, s) (answer, other)

theorem perform_recalling {store : Store} (recalling : Store.Recalling s.registry s.store store) (command : Command) :
    Alongside (Beside id (Store.Recalling s.registry)) (s.perform command) ((s.rebased id store).perform command) :=
  perform_beside (Store.mirrors_recalling s.registry) recalling rfl (Store.matching_blocks_recalling recalling) command

theorem perform_shadows (sound : s.Sound) (shadows : Shadows s other) (command : Command) :
    Both id Shadowed (s.perform command) (other.perform command) := by
  obtain ⟨d, store, twin, recalling⟩ := shadows
  have twins := perform_twin twin command
  have beside := perform_recalling (s := s.under d) recalling command
  generalize performed : s.perform command = x at twins ⊢
  generalize (s.under d).perform command = y at twins beside
  generalize ((s.under d).rebased id store).perform command = z at beside ⊢
  cases twins with
  | error faults =>
      cases beside with
      | error _ => exact .error faults
  | ok follows =>
      obtain ⟨outcome, next, twin⟩ := follows
      cases beside with
      | ok both =>
          cases both with
          | both _ _ recalling =>
              have registry : next.registry = s.registry := (performed_step sound performed).alike.registry
              exact .ok (.both outcome (.along _ _ twin (registry ▸ recalling)))

theorem creation_shadows (sound : s.Sound) (shadows : Shadows s other) {command : Command} {error : StoreError}
    (creates : command.creates = true) (refused : other.perform command = .ok (.error error, next)) :
    Shadows s next := by
  obtain ⟨d, store, twin, recalling⟩ := shadows
  have beside := perform_recalling (s := s.under d) recalling command
  rw [refused] at beside
  generalize here : (s.under d).perform command = x at beside
  cases beside with
  | ok both =>
      cases both with
      | both _ middle recalling =>
          obtain ⟨e, _, twins, ⟨layouts, rfl⟩⟩ := creation_refused sound twin creates here
          obtain ⟨⟨others, rfl⟩, _, recalls⟩ := recalling
          exact .along e _ twins ⟨⟨others, rfl⟩, sound.store.layouts, recalls⟩

structure Retold (steps : List Padded) (x y : List (Outcome Reply) × Scene) : Prop where
  answers : Padded.answers steps y.1 = x.1
  scene : Shadows x.2 y.2

-- The induction follows the longer history. Its own commands are carried out on both sides; what is put
-- in between changes one side only, and leaves the directories twins.
theorem perform_all_padded (sound : s.Sound) (shadows : Shadows s other) (steps : List Padded)
    (inVain : other.PaddedInVain steps) :
    Both id (Retold steps) (s.performAll (Padded.history steps)) (other.performAll (steps.map Padded.command)) := by
  induction steps generalizing s other with
  | nil => exact .ok ⟨rfl, shadows⟩
  | cons step rest ih =>
      cases step with
      | own command =>
          have performed := perform_shadows sound shadows command
          rw [Padded.history, List.map_cons, Padded.command, performAll, performAll]
          generalize here : s.perform command = x at performed
          generalize there : other.perform command = y at performed
          cases performed with
          | error faults => exact .error faults
          | ok shadowed =>
              obtain ⟨outcome, follow⟩ := shadowed
              have nextSound := (performed_step sound here).sound
              rw [ok_bind, ok_bind]
              refine both_bind (ih nextSound follow (inVain _ _ there)) fun _ _ retold => .ok ⟨?_, retold.scene⟩
              exact congrArg (outcome :: ·) retold.answers
      | extra command =>
          obtain ⟨creates, error, next, refused, later⟩ := inVain
          have following := ih sound (creation_shadows sound shadows creates refused) later
          rw [Padded.history, List.map_cons, Padded.command, performAll, refused]
          simp only [ok_bind]
          generalize s.performAll (Padded.history rest) = x at following
          generalize next.performAll (rest.map Padded.command) = y at following
          cases following with
          | error faults => exact .error faults
          | ok retold => exact .ok ⟨retold.answers, retold.scene⟩

-- Scenes that answer all questions alike. They differ in nothing but their directories, one of which may
-- have a record more, and in the layouts that they keep.
structure SameButRecords (s other : Scene) : Prop where
  rest : ∃ layouts, other = { s with directory := other.directory, store := { s.store with layouts } }
  size : s.directory.size ≤ other.directory.size ∧ other.directory.size ≤ s.directory.size + 1
  stats : other.stats = { s.stats with directoryRecords := other.directory.size }
  entities : other.entities = s.entities
  alive : ∀ e, other.isAlive e = s.isAlive e
  located : ∀ e, other.locate e = s.locate e
  signature : ∀ e, other.signatureOf e = s.signatureOf e
  got : ∀ e type, other.get e type = s.get e type
  serialized : ∀ e id, other.serializeComponent e id = s.serializeComponent e id
  inspected : ∀ e, other.inspectEntity e = s.inspectEntity e

theorem same_but_records (shadows : Shadows s other) : s.SameButRecords other := by
  obtain ⟨d, store, twin, recalling⟩ := shadows
  obtain ⟨layouts, rfl⟩ := recalling.learns
  have home (e : Entity) : ((s.under d).rebased id { s.store with layouts }).blockOf e = s.blockOf e :=
    block_of_under twin e
  exact {
    rest := ⟨layouts, rfl⟩
    size := twin.size
    stats := by
      rw [stats, stats, rebased_directory, under_directory, twin.alive]
      rfl
    entities := twin.entities
    alive := twin.is_alive
    located := twin.locate
    signature := signature_under twin
    got := get_under twin
    serialized := fun e id => by
      rw [serializeComponent, serializeComponent, home, rebased_registry, under_registry]
    inspected := fun e => by
      rw [inspectEntity, inspectEntity, home] }

/-- With recycling, put any creations that fail anywhere into a history. The longer history stops with
the same fault as the history itself, or gives the same answers to the commands of the history, the same
handles among them, and leads to the same scene except for its directory, which has one record more at
most. -/
theorem run_failures_unseen {name : String} {settings : Settings} {registry : Registry} {first : Scene}
    (genuine : registry.Genuine) (made : create name settings registry = .ok (.ok first))
    (recycles : settings.recycleIndices = true) (steps : List Padded) (inVain : first.PaddedInVain steps) :
    (∀ fault, first.performAll (Padded.history steps) = .error fault ↔
      first.performAll (steps.map Padded.command) = .error fault) ∧
    ∀ outcomes last, first.performAll (Padded.history steps) = .ok (outcomes, last) →
      ∃ all final, first.performAll (steps.map Padded.command) = .ok (all, final) ∧
        Padded.answers steps all = outcomes ∧ last.SameButRecords final := by
  have sound := (blank_of_created genuine made).sound
  have start : first.directory = .create true := recycles ▸ (parts_of_created made).2
  have twin : first.directory.Twin first.directory := start ▸ Directory.Twin.of_create
  have shadows : first.Shadows first :=
    .along first.directory first.store twin ⟨Store.learns_refl first.store, sound.store.layouts, sound.store.layouts⟩
  have both := perform_all_padded sound shadows steps inVain
  generalize first.performAll (Padded.history steps) = x at both
  generalize first.performAll (steps.map Padded.command) = y at both
  cases both with
  | error faults =>
      refine ⟨fun fault => ?_, fun outcomes last ran => by contradiction⟩
      cases faults <;> rfl
  | @ok x y retold =>
      obtain ⟨replies, last⟩ := x
      obtain ⟨all, final⟩ := y
      obtain ⟨answers, shadows⟩ := retold
      refine ⟨fun fault => ⟨fun ran => by contradiction, fun ran => by contradiction⟩, fun outcomes other ran => ?_⟩
      obtain ⟨rfl, rfl⟩ := Prod.mk.inj (Except.ok.inj ran)
      exact ⟨all, _, rfl, answers, same_but_records shadows⟩

-- The creations in between fail because a component is not registered, because the only block is taken,
-- and because a bundle names a component twice. The record that they leave behind waits under an index
-- that is freed later, and is used up when the history itself needs a new one.
def fruitless : List Padded :=
  [.extra (.create (.ofList [⟨37, by decide⟩])), .own (.create (.ofList [ComponentType.light.id])),
    .extra (.create .empty), .own (.destroy ⟨0, 1⟩),
    .extra (.spawn (.join (.one (.initial .light)) (.one (.initial .light)))),
    .own (.create (.ofList [ComponentType.light.id])), .own (.create (.ofList [ComponentType.light.id]))]

set_option maxRecDepth 2000 in
theorem run_failures_unseen_light : ∃ first all final,
    create "world" { Settings.least with blockCapacity := 2 } .builtins = .ok (.ok first) ∧
    first.performAll (fruitless.map Padded.command) = .ok (all, final) ∧
    Padded.answers fruitless all =
      [.ok (.entity ⟨0, 1⟩), .ok .done, .ok (.entity ⟨0, 2⟩), .ok (.entity ⟨1, 1⟩)] ∧
    final.directory.size ≤ 3 := by
  obtain ⟨first, last, made, inVain, ran, size⟩ : ∃ first last,
      create "world" { Settings.least with blockCapacity := 2 } .builtins = .ok (.ok first) ∧
      first.PaddedInVain fruitless ∧
      first.performAll (Padded.history fruitless) = .ok ([.ok (.entity ⟨0, 1⟩), .ok .done,
        .ok (.entity ⟨0, 2⟩), .ok (.entity ⟨1, 1⟩)], last) ∧ last.directory.size = 2 := by
    refine ⟨_, _, rfl, ?_, rfl, rfl⟩
    refine in_vain_extra rfl rfl (in_vain_own rfl (in_vain_extra rfl rfl ?_))
    exact in_vain_own rfl (in_vain_extra rfl rfl (in_vain_own rfl (in_vain_own rfl trivial)))
  obtain ⟨all, final, went, answers, same⟩ :=
    (run_failures_unseen Registry.builtins_genuine made rfl fruitless inVain).2 _ last ran
  have records := same.size.2
  rw [size] at records
  exact ⟨first, all, final, made, went, answers, records⟩

end Runs

end Scene

end EntityStore
