import EntityStore.Proofs.Scene.Partition

set_option autoImplicit false

namespace EntityStore

namespace Directory

variable {d next : Directory}

theorem residents_ascend (sound : d.Sound) :
    d.residents.Pairwise fun e f => e.index.toNat < f.index.toNat := by
  have indices : d.records.toList.Pairwise fun r t => r.entity.index.toNat < t.entity.index.toNat := by
    rw [← List.pairwise_map (f := fun r : Record => r.entity.index.toNat), indices_eq sound]
    exact List.pairwise_lt_range
  exact List.pairwise_map.mpr (indices.sublist List.filter_sublist)

theorem residents_of_locations (sound : d.Sound) (nextSound : next.Sound)
    (same : next.location? = d.location?) : next.residents = d.residents := by
  have perm : next.residents.Perm d.residents := by
    refine (List.perm_ext_iff_of_nodup (nodup_residents nextSound) (nodup_residents sound)).mpr fun e => ?_
    rw [mem_residents nextSound, mem_residents sound, same]
  refine perm.eq_of_pairwise (fun e f _ _ before after => ?_) (residents_ascend nextSound)
    (residents_ascend sound)
  exact absurd before (Nat.lt_asymm after)

end Directory

namespace Tree

variable {h : Tree} {store : Store} {directory : Directory}

theorem climb_expected (unvisited path : List Entity) (current : Entity) {error : StoreError}
    (refused : h.climb store directory unvisited path current = .error error) : error.Expected := by
  induction unvisited, path, current using climb.induct h store directory with
  | case1 unvisited path current orphan =>
      rw [climb, orphan] at refused
      contradiction
  | case2 unvisited path current parent named alive unmet member =>
      rw [climb, named] at refused
      simp only [if_pos alive, dif_pos unmet, if_pos member] at refused
      contradiction
  | case3 unvisited path current parent named alive unmet stranger ih =>
      rw [climb, named] at refused
      simp only [if_pos alive, dif_pos unmet, if_neg stranger] at refused
      exact ih refused
  | case4 unvisited path current parent named alive met =>
      rw [climb, named] at refused
      simp only [if_pos alive, dif_neg met, Except.error.injEq] at refused
      exact fun _ => by simp [← refused]
  | case5 unvisited path current parent named dead =>
      rw [climb, named] at refused
      simp only [if_neg dead, Except.error.injEq] at refused
      exact fun _ => by simp [← refused]

theorem ascent_expected (e : Entity) {error : StoreError}
    (refused : h.ascent store directory e = .error error) : error.Expected := by
  unfold ascent at refused
  by_cases alive : directory.isAlive e = true
  · by_cases member : h.contains e = true
    · simp [alive, member] at refused
    · rw [if_pos alive, if_neg member] at refused
      cases climbed : h.climb store directory (directory.handles.erase e) [e] e with
      | error other =>
          simp only [climbed, Except.error.injEq] at refused
          exact climb_expected _ _ _ (refused ▸ climbed)
      | ok path =>
          simp only [climbed] at refused
          cases lacking : path.find? fun member => !Hierarchy.hasTransform store directory member with
          | none => simp [lacking] at refused
          | some missing =>
              simp only [lacking, Except.error.injEq] at refused
              exact fun _ => by simp [← refused]
  · rw [if_neg alive, Except.error.injEq] at refused
    exact fun _ => by simp [← refused]

end Tree

namespace Scene

open Checked

variable {s next : Scene} {e : Entity}

structure Spared (s next : Scene) : Prop where
  learns : Store.Learns s.store next.store
  rest : next = { s with store := next.store, directory := next.directory }
  locate : ∀ e, next.locate e = s.locate e
  alive : ∀ e, next.isAlive e = s.isAlive e
  entities : next.entities = s.entities
  count : next.entityCount = s.entityCount
  records : next.directory.size = s.directory.size ∨ next.directory.size = s.directory.size + 1

theorem spared_refl (s : Scene) : Spared s s :=
  ⟨Store.learns_refl s.store, rfl, fun _ => rfl, fun _ => rfl, rfl, rfl, Or.inl rfl⟩

theorem size_of_reserved (uncreated : Uncreated s next e) :
    next.directory.size = s.directory.size ∨ next.directory.size = s.directory.size + 1 := by
  have slots (i : Nat) : next.directory.slot? i = Function.update s.slots e.index.toNat
      (some (e.generation, false)) i := congrFun uncreated.becomes.slots i
  have kept (i : Nat) (away : i ≠ e.index.toNat) : next.directory.size ≤ i ↔ s.directory.size ≤ i := by
    rw [← Directory.slot_none_iff, ← Directory.slot_none_iff, slots, Function.update_of_ne away]
    exact Iff.rfl
  have inside : ¬ next.directory.size ≤ e.index.toNat := by
    rw [← Directory.slot_none_iff, slots, Function.update_self]
    simp
  have below := kept next.directory.size
  have same := kept s.directory.size
  have beyond := kept (e.index.toNat + 1) (by omega)
  omega

theorem spared_of_uncreated (sound : s.Sound) (uncreated : Uncreated s next e) : Spared s next where
  learns := uncreated.learns
  rest := uncreated.rest
  locate f := by rw [locate, locate, Directory.locate_eq, Directory.locate_eq, uncreated.locations]
  alive f := by rw [isAlive, isAlive, Directory.alive_eq, Directory.alive_eq, uncreated.locations]
  entities := Directory.residents_of_locations sound.directory uncreated.becomes.sound.directory
    uncreated.locations
  count := uncreated.alive
  records := size_of_reserved uncreated

-- What a command that is refused leaves behind. A block that is asked for in vain may leave its layout,
-- and looking for a singleton may fill the cache.
def Leaves (s next : Scene) : Command → Prop
  | .create _ | .spawn _ => Spared s next
  | .add _ _ | .remove _ _ => Learns s next
  | .singleton id => next = (s.blocksMatching (Signature.empty.insert id)).2
  | _ => next = s

def Refuses {α : Type} (left : Scene → Prop) (result : Checked (Outcome α × Scene)) : Prop :=
  Ensures (fun _ => True) result fun (outcome, next) =>
    ∀ error, outcome = .error error → error.Expected ∧ left next

section Refuses

variable {α : Type} {left : Scene → Prop}

theorem refuses_told (reply : α → Reply) {result : Checked (Outcome α × Scene)}
    (refuses : Refuses left result) : Refuses left (perform.told reply result) := by
  refine ensures_map _ refuses ?_
  rintro ⟨outcome, next⟩ refused error failed
  cases outcome with
  | error other => exact refused error (congrArg Except.error (Except.error.inj failed))
  | ok value => contradiction

theorem refuses_done {result : Checked (Outcome α × Scene)} {value : α}
    (done : result = .ok (.ok value, next)) : Refuses left result :=
  ensures_of_eq done fun _ failed => by contradiction

theorem refuses_error {result : Checked (Outcome α × Scene)} {error : StoreError}
    (done : result = .ok (.error error, next)) (expected : error.Expected) (holds : left next) :
    Refuses left result :=
  ensures_of_eq done fun _ failed => Except.error.inj failed ▸ ⟨expected, holds⟩

end Refuses

theorem destroy_refuses (sound : s.Sound) (e : Entity) : Refuses (· = s) (s.destroy e) := by
  cases found : s.directory.location? e with
  | none => exact refuses_error (destroy_stale found) (fun _ => by simp) rfl
  | some l =>
      obtain ⟨next, destroyed, _⟩ := destroy_ok sound found
      exact refuses_done destroyed

theorem set_enabled_refuses (sound : s.Sound) (e : Entity) (enabled : Bool) :
    Refuses (· = s) (s.setEnabled e enabled) := by
  cases found : s.directory.location? e with
  | none => exact refuses_error (set_enabled_stale found enabled) (fun _ => by simp) rfl
  | some l =>
      obtain ⟨b, t, home⟩ := home_of sound found
      by_cases same : l.enabled = enabled
      · subst same
        exact refuses_done (set_enabled_same found)
      · obtain ⟨next, done, _⟩ := set_enabled_ok sound home enabled (Bool.eq_not_of_ne same)
        exact refuses_done done

theorem add_component_refuses (sound : s.Sound) (e : Entity) (value : Component) :
    Refuses (Learns s) (s.addComponent e value) := by
  cases found : s.directory.location? e with
  | none => exact refuses_error (add_component_stale found value) (fun _ => by simp) (learns_refl s)
  | some l =>
      obtain ⟨b, t, home⟩ := home_of sound found
      refine ensures_mono (add_component_ok sound home value) (fun _ _ => trivial) ?_
      rintro ⟨outcome, next⟩ result error rfl
      exact ⟨result.2.2, result.1⟩

theorem remove_component_refuses (sound : s.Sound) (e : Entity) (type : ComponentType) :
    Refuses (Learns s) (s.removeComponent e type) := by
  cases found : s.directory.location? e with
  | none => exact refuses_error (remove_component_stale found type) (fun _ => by simp) (learns_refl s)
  | some l =>
      obtain ⟨b, t, home⟩ := home_of sound found
      refine ensures_mono (remove_component_ok sound home type) (fun _ _ => trivial) ?_
      rintro ⟨outcome, next⟩ result error rfl
      exact ⟨result.2.2, result.1⟩

theorem replace_refuses (sound : s.Sound) (e : Entity) (value : Component) :
    Refuses (· = s) (s.replace e value) := by
  cases found : s.directory.location? e with
  | none => exact refuses_error (replace_stale found value) (fun _ => by simp) rfl
  | some l =>
      obtain ⟨b, t, home⟩ := home_of sound found
      rcases replace_ok sound home value with ⟨old, next, replaced, _⟩ | ⟨refused, _⟩
      · exact refuses_done replaced
      · exact refuses_error refused (fun _ => by simp) rfl

theorem deserialize_component_refuses (sound : s.Sound) (e : Entity) (id : ComponentId)
    (document : Document) : Refuses (· = s) (s.deserializeComponent e id document) := by
  obtain ⟨outcome, next, done, result⟩ := deserialize_component_ok sound e id document
  cases outcome with
  | error error => exact refuses_error done result.2.1 result.1
  | ok finished => exact refuses_done done

theorem create_entity_refuses (sound : s.Sound) (signature : Signature) :
    Refuses (Spared s) (s.createEntity signature) := by
  refine ensures_mono (create_entity_ok sound signature) (fun _ _ => trivial) ?_
  rintro ⟨outcome, next⟩ result error rfl
  obtain ⟨cramped, e, uncreated⟩ := result
  exact ⟨cramped.expected, spared_of_uncreated sound uncreated⟩

theorem spawn_refuses (sound : s.Sound) (bundle : Bundle) : Refuses (Spared s) (s.spawn bundle) := by
  refine ensures_mono (spawn_ok sound bundle) (fun _ _ => trivial) ?_
  rintro ⟨outcome, next⟩ result error rfl
  rcases result with ⟨rfl, expected⟩ | ⟨cramped, e, uncreated⟩
  · exact ⟨expected, spared_refl next⟩
  · exact ⟨cramped.expected, spared_of_uncreated sound uncreated⟩

theorem query_mut_refuses (q : Query) {error : StoreError} (refused : s.queryMut q = (.error error, next)) :
    next = s ∧ error.Expected := by
  unfold queryMut at refused
  cases repeated : q.firstRepeat? with
  | none =>
      rw [repeated] at refused
      simp at refused
  | some id =>
      rw [repeated] at refused
      obtain ⟨failed, rfl⟩ := Prod.mk.inj refused
      exact ⟨rfl, Except.error.inj failed ▸ fun _ => by simp⟩

theorem singleton_refuses (sound : s.Sound) (id : ComponentId) :
    Refuses (· = (s.blocksMatching (Signature.empty.insert id)).2) (s.singletonEntity id) := by
  rw [singleton_entity_ok sound]
  split
  · exact refuses_error rfl (fun _ => by simp) rfl
  · exact refuses_done rfl

theorem add_to_hierarchy_refuses (sound : s.Sound) (e : Entity) : Refuses (· = s) (s.addToHierarchy e) := by
  refine ensures_mono (add_to_hierarchy_ok sound e) (fun _ _ => trivial) ?_
  rintro ⟨outcome, next⟩ inserted error rfl
  have answer := inserted.answer
  rw [Tree.fate] at answer
  cases risen : s.hierarchy.tree.ascent s.store s.directory e with
  | error other =>
      rw [risen] at answer
      obtain rfl : error = other := Except.error.inj answer
      exact ⟨Tree.ascent_expected e risen, inserted.refused error rfl⟩
  | ok path =>
      rw [risen] at answer
      contradiction

theorem perform_refuses (sound : s.Sound) (command : Command) :
    Refuses (Leaves s · command) (s.perform command) := by
  cases command with
  | create signature => exact refuses_told _ (create_entity_refuses sound signature)
  | spawn bundle => exact refuses_told _ (spawn_refuses sound bundle)
  | destroy e => exact refuses_told _ (destroy_refuses sound e)
  | enable e => exact refuses_told _ (set_enabled_refuses sound e true)
  | disable e => exact refuses_told _ (set_enabled_refuses sound e false)
  | add e value => exact refuses_told _ (add_component_refuses sound e value)
  | remove e type => exact refuses_told _ (remove_component_refuses sound e type)
  | replace e value => exact refuses_told _ (replace_refuses sound e value)
  | deserialize e id document => exact refuses_told _ (deserialize_component_refuses sound e id document)
  | visit q limit edit =>
      simp only [perform]
      cases asked : s.queryMut q with
      | mk outcome looked =>
          cases outcome with
          | error error =>
              obtain ⟨rfl, expected⟩ := query_mut_refuses q asked
              exact refuses_error rfl expected rfl
          | ok view =>
              refine ensures_bind _ (ensures_any _) fun visited _ error failed => ?_
              contradiction
  | singleton id => exact refuses_told _ (singleton_refuses sound id)
  | addToHierarchy e => exact refuses_told _ (add_to_hierarchy_refuses sound e)
  | matching | queueHierarchyInsert | listen => exact refuses_done rfl
  | query | updateHierarchy | endFrame | unload =>
      refine ensures_map _ (ensures_any _) fun _ _ error failed => ?_
      contradiction

/-- Whatever a scene has gone through, a command that it refuses changes nothing, and nothing that can
be seen of the entities if it is a creation. -/
theorem run_refusals {name : String} {settings : Settings} {registry : Registry} {first s : Scene}
    {commands : List Command} {replies : List (Outcome Reply)} (genuine : registry.Genuine)
    (made : create name settings registry = .ok (.ok first))
    (ran : first.performAll commands = .ok (replies, s)) :
    (∀ command error next, s.perform command = .ok (.error error, next) → s.Leaves next command) ∧
      ∀ q error next, s.queryMut q = (.error error, next) → next = s := by
  have sound := (run_sound (blank_of_created genuine made).sound ran).1
  refine ⟨fun command error next refused => ?_, fun q error next refused => (query_mut_refuses q refused).1⟩
  have refuses := perform_refuses sound command
  rw [refused] at refuses
  exact (refuses error rfl).2

theorem run_refusals_full : ∃ first replies s next last,
    create "world" .least .builtins = .ok (.ok first) ∧
      first.performAll [.create .empty] = .ok (replies, s) ∧
      s.perform (.add ⟨0, 1⟩ (.initial .light)) = .ok (.error (.outOfSlabs 1), next) ∧ Learns s next ∧
      s.perform (.create (.ofList [ComponentType.light.id])) = .ok (.error (.outOfSlabs 1), last) ∧
      Spared s last := by
  obtain ⟨first, replies, s, next, last, made, ran, added, created⟩ : ∃ first replies s next last,
      create "world" .least .builtins = .ok (.ok first) ∧
        first.performAll [.create .empty] = .ok (replies, s) ∧
        s.perform (.add ⟨0, 1⟩ (.initial .light)) = .ok (.error (.outOfSlabs 1), next) ∧
        s.perform (.create (.ofList [ComponentType.light.id])) =
          .ok (.error (.outOfSlabs 1), last) := ⟨_, _, _, _, _, rfl, rfl, rfl, rfl⟩
  have refusals := (run_refusals Registry.builtins_genuine made ran).1
  exact ⟨first, replies, s, next, last, made, ran, added, refusals _ _ _ added, created,
    refusals _ _ _ created⟩

end Scene

end EntityStore
