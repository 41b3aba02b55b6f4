import EntityStore.Proofs.Scene.Runs

set_option autoImplicit false

namespace EntityStore

open Checked

namespace Directory

abbrev Steadily (d : Directory) (result : Checked Directory) : Prop :=
  Ensures (fun _ => True) result fun next => next.recycle = d.recycle

theorem reserve_steady (d : Directory) :
    Ensures (fun _ => True) d.reserve fun (_, next) => next.recycle = d.recycle := by
  have appended : Ensures (fun _ => True) d.append fun (_, next) => next.recycle = d.recycle :=
    ensures_bind _ (ensures_any _) fun _ _ => rfl
  rw [reserve]
  split
  · split
    · trivial
    · rfl
  · exact appended

theorem abandon_steady (d : Directory) (e : Entity) : Steadily d (d.abandon e) := by
  refine ensures_bind _ (ensures_any _) fun _ _ => ?_
  split <;> rfl

theorem place_steady (d : Directory) (e : Entity) (block : BlockId) (row : Nat) :
    Steadily d (d.place e block row) := by
  rw [place]
  cases d.records[e.index.toNat]? with
  | none => trivial
  | some record => exact ensures_bind _ (ensures_any _) fun _ _ => rfl

theorem relocate_steady (d : Directory) (e : Entity) (block : BlockId) (row : Nat) :
    Steadily d (d.relocate e block row) := by
  rw [relocate]
  cases d.get? e with
  | none => trivial
  | some record => rfl

theorem relocate_moved_steady (d : Directory) (moved : Option Entity) (block : BlockId) (row : Nat) :
    Steadily d (d.relocateMoved moved block row) := by
  cases moved with
  | none => rfl
  | some e => exact relocate_steady d e block row

theorem set_enabled_steady (d : Directory) (e : Entity) (enabled : Bool) :
    (d.setEnabled e enabled).recycle = d.recycle := by
  rw [setEnabled]
  cases d.get? e <;> rfl

theorem release_steady (d : Directory) (e : Entity) : Steadily d (d.release e) := by
  rw [release]
  cases d.get? e with
  | none => rfl
  | some record => exact ensures_bind _ (ensures_any _) fun _ _ => rfl

end Directory

namespace Scene

variable {s next last : Scene} {α : Type}

abbrev Steadily (s : Scene) (result : Checked (α × Scene)) : Prop :=
  Ensures (fun _ => True) result fun (_, next) => next.directory.recycle = s.directory.recycle

theorem place_new_steady (s : Scene) (signature : Signature) : Steadily s (s.placeNew signature) := by
  refine ensures_bind _ (Directory.reserve_steady s.directory) fun reserved steady => ?_
  refine ensures_bind _ (ensures_any _) fun inserted _ => ?_
  obtain ⟨outcome, store⟩ := inserted
  cases outcome with
  | error error =>
      exact ensures_bind _ (Directory.abandon_steady reserved.2 reserved.1) fun _ same => same.trans steady
  | ok spot =>
      exact ensures_bind _ (Directory.place_steady reserved.2 reserved.1 spot.1 spot.2) fun _ same =>
        same.trans steady

theorem spawn_steady (s : Scene) (bundle : Bundle) : Steadily s (s.spawn bundle) := by
  rw [spawn]
  cases bundle.repeated? with
  | some id => rfl
  | none =>
      cases bundle.check s.registry with
      | error error => rfl
      | ok checked =>
          refine ensures_bind _ (place_new_steady s bundle.signature) fun placed steady => ?_
          obtain ⟨outcome, next⟩ := placed
          cases outcome with
          | error error => exact steady
          | ok home =>
              simp only
              cases next.store.block? home.2.1 with
              | none => exact steady
              | some block => exact ensures_bind _ (ensures_any _) fun _ _ => steady

theorem destroy_steady (s : Scene) (e : Entity) : Steadily s (s.destroy e) := by
  rw [destroy]
  cases s.locate e with
  | error error => rfl
  | ok l =>
      simp only
      cases s.store.block? l.block with
      | none => rfl
      | some block =>
          refine ensures_bind _ (ensures_any _) fun events _ => ?_
          obtain ⟨deliveries, told⟩ := announce_all_eq s events
          simp only [told]
          refine ensures_bind _ (ensures_any _) fun removed _ => ?_
          refine ensures_bind _ (Directory.relocate_moved_steady s.directory removed.1 l.block l.row)
            fun noted same => ?_
          refine ensures_bind _ (Directory.release_steady noted e) fun released still => ?_
          exact ensures_bind _ (ensures_any _) fun _ _ => still.trans same

theorem set_enabled_steady (s : Scene) (e : Entity) (enabled : Bool) : Steadily s (s.setEnabled e enabled) := by
  rw [setEnabled]
  cases s.locate e with
  | error error => rfl
  | ok l =>
      by_cases still : l.enabled = enabled
      · simp only [if_pos still]
        rfl
      · simp only [if_neg still]
        cases s.store.block? l.block with
        | none => rfl
        | some block =>
            have landed (d : Directory) (same : d.recycle = s.directory.recycle) (row : Nat) :
                Ensures (fun _ => True) (d.relocate e l.block row) fun next =>
                  (next.setEnabled e enabled).recycle = s.directory.recycle :=
              ensures_mono (Directory.relocate_steady d e l.block row) (fun _ _ => trivial) fun next steady =>
                (Directory.set_enabled_steady next e enabled).trans (steady.trans same)
            cases enabled
            all_goals
              refine ensures_bind _ (ensures_any _) fun crossed _ => ?_
              cases crossed.1.displaced with
              | none =>
                  simp only [pure_eq_ok, ok_bind]
                  exact ensures_bind _ (landed s.directory rfl crossed.1.newRow) fun _ steady => steady
              | some displaced =>
                  refine ensures_bind _ (Directory.relocate_steady s.directory displaced.1 l.block displaced.2)
                    fun noted same => ?_
                  exact ensures_bind _ (landed noted same crossed.1.newRow) fun _ steady => steady

theorem replace_steady (s : Scene) (e : Entity) (value : Component) : Steadily s (s.replace e value) := by
  rw [replace]
  cases s.locate e with
  | error error => rfl
  | ok l =>
      simp only
      cases s.store.block? l.block with
      | none => rfl
      | some block =>
          refine ensures_bind _ (ensures_any _) fun found _ => ?_
          cases found with
          | none => rfl
          | some old =>
              refine ensures_bind _ (ensures_any _) fun written _ => ?_
              cases written <;> rfl

theorem deserialize_component_steady (s : Scene) (e : Entity) (id : ComponentId) (document : Document) :
    Steadily s (s.deserializeComponent e id document) := by
  rw [deserializeComponent]
  cases s.registry.find id with
  | error error => rfl
  | ok descriptor =>
      simp only
      cases s.locate e with
      | error error => rfl
      | ok l =>
          simp only
          cases s.store.block? l.block with
          | none => rfl
          | some block =>
              refine ensures_bind _ (ensures_any _) fun found _ => ?_
              cases found with
              | none => rfl
              | some old =>
                  refine ensures_bind _ (ensures_any _) fun decoded _ => ?_
                  cases decoded with
                  | error error => rfl
                  | ok bytes =>
                      refine ensures_bind _ (ensures_any _) fun written _ => ?_
                      cases written <;> rfl

theorem migrate_steady (s : Scene) (e : Entity) (target : Signature) : Steadily s (s.migrate e target) := by
  rw [migrate]
  cases s.locate e with
  | error error => rfl
  | ok old =>
      refine ensures_bind _ (ensures_any _) fun acquired _ => ?_
      obtain ⟨outcome, store⟩ := acquired
      cases outcome with
      | error error => rfl
      | ok newId =>
          refine ensures_bind _ (ensures_any _) fun pair _ => ?_
          cases pair with
          | none => rfl
          | some pair =>
              refine ensures_bind _ (ensures_any _) fun pushed _ => ?_
              cases pushed with
              | none => rfl
              | some pushed =>
                  refine ensures_bind _ (ensures_any _) fun copied _ => ?_
                  refine ensures_bind _ (ensures_any _) fun events _ => ?_
                  obtain ⟨deliveries, told⟩ := announce_all_eq s events
                  simp only [told]
                  refine ensures_bind _ (ensures_any _) fun removed _ => ?_
                  cases old.enabled
                  case' false => refine ensures_bind _ (ensures_any _) fun crossed _ => ?_
                  all_goals
                    refine ensures_bind _ (ensures_any _) fun settled _ => ?_
                    refine ensures_bind _ (Directory.relocate_moved_steady s.directory removed.1 old.block old.row)
                      fun noted same => ?_
                    refine ensures_bind _ (ensures_any _) fun emptied _ => ?_
                    exact ensures_bind _ (Directory.relocate_steady noted e newId settled.1) fun _ still =>
                      still.trans same

theorem add_component_steady (s : Scene) (e : Entity) (value : Component) :
    Steadily s (s.addComponent e value) := by
  rw [addComponent]
  cases s.signatureOf e with
  | error error => rfl
  | ok signature =>
      simp only
      split
      · rfl
      · cases s.registry.check value.type with
        | error error => rfl
        | ok checked =>
            refine ensures_bind _ (migrate_steady s e (signature.insert value.type.id)) fun moved steady => ?_
            obtain ⟨outcome, next⟩ := moved
            cases outcome with
            | error error => exact steady
            | ok _ => exact ensures_bind _ (replace_steady next e value) fun _ same => same.trans steady

theorem remove_component_steady (s : Scene) (e : Entity) (type : ComponentType) :
    Steadily s (s.removeComponent e type) := by
  refine ensures_bind _ (ensures_any _) fun value _ => ?_
  cases value with
  | error error => rfl
  | ok value =>
      simp only
      cases s.signatureOf e with
      | error error => rfl
      | ok signature =>
          refine ensures_bind _ (migrate_steady s e (signature.erase type.id)) fun moved steady => ?_
          obtain ⟨outcome, next⟩ := moved
          cases outcome <;> exact steady

theorem steadily_told (reply : α → Reply) {result : Checked (Outcome α × Scene)} (steady : Steadily s result) :
    Steadily s (perform.told reply result) := ensures_map _ steady fun _ same => same

theorem perform_steady (s : Scene) (command : Command) : Steadily s (s.perform command) := by
  cases command with
  | create signature => exact steadily_told _ (ensures_bind _ (place_new_steady s signature) fun _ same => same)
  | spawn bundle => exact steadily_told _ (spawn_steady s bundle)
  | destroy e => exact steadily_told _ (destroy_steady s e)
  | enable e => exact steadily_told _ (set_enabled_steady s e true)
  | disable e => exact steadily_told _ (set_enabled_steady s e false)
  | add e value => exact steadily_told _ (add_component_steady s e value)
  | remove e type => exact steadily_told _ (remove_component_steady s e type)
  | replace e value => exact steadily_told _ (replace_steady s e value)
  | deserialize e id document => exact steadily_told _ (deserialize_component_steady s e id document)
  | query q => exact ensures_map _ (ensures_any _) fun _ _ => rfl
  | visit q limit edit =>
      simp only [perform, queryMut]
      cases q.firstRepeat? with
      | some id => rfl
      | none =>
          refine ensures_bind _ (ensures_bind _ (ensures_any _) fun rows _ => ?_) fun _ same => same
          exact ensures_bind _ (ensures_any _) fun _ _ => rfl
  | singleton id =>
      refine steadily_told Reply.entity (ensures_bind _ (ensures_any _) fun found _ => ?_)
      cases found.flatten <;> rfl
  | addToHierarchy e =>
      refine steadily_told _ (ensures_bind _ (ensures_any _) fun inserted _ => ?_)
      cases inserted <;> rfl
  | updateHierarchy =>
      have steady : Ensures (fun _ => True) s.updateHierarchy fun next =>
          next.directory.recycle = s.directory.recycle :=
        ensures_bind _ (ensures_any _) fun _ _ => rfl
      exact ensures_map _ steady fun _ same => same
  | unload =>
      have steady : Ensures (fun _ => True) s.unload fun next =>
          next.directory.recycle = s.directory.recycle := by
        refine ensures_bind _ (ensures_any _) fun events _ => ?_
        obtain ⟨deliveries, told⟩ := announce_all_eq s events
        simp only [told]
        exact ensures_bind _ (ensures_any _) fun _ _ => rfl
      exact ensures_map _ steady fun _ same => same
  | endFrame =>
      have steady : Ensures (fun _ => True) s.endFrame fun next =>
          next.directory.recycle = s.directory.recycle :=
        ensures_bind _ (ensures_any _) fun _ _ => ensures_bind _ (ensures_any _) fun _ _ => rfl
      exact ensures_map _ steady fun _ same => same
  | matching | queueHierarchyInsert | listen => rfl

theorem run_steady {commands : List Command} {outcomes : List (Outcome Reply)}
    (ran : s.performAll commands = .ok (outcomes, last)) : last.directory.recycle = s.directory.recycle := by
  induction commands generalizing s outcomes with
  | nil =>
      obtain ⟨_, rfl⟩ := Prod.mk.inj (Except.ok.inj ran)
      rfl
  | cons command rest ih =>
      obtain ⟨outcome, middle, following, performed, went, rfl⟩ := (perform_all_cons_iff command rest).mp ran
      have steady := perform_steady s command
      rw [performed] at steady
      exact (ih went).trans steady

end Scene

end EntityStore
