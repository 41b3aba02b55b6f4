import EntityStore.Proofs.Scene.Mirrored
import EntityStore.Proofs.Scene.Runs
import EntityStore.Proofs.Store.Uncached

set_option autoImplicit false

namespace EntityStore.Scene

open Checked

structure SameButCache (s other : Scene) : Prop where
  name : other.name = s.name
  settings : other.settings = { s.settings with cacheQueries := other.settings.cacheQueries }
  store : other.store =
    { s.store with cacheQueries := other.store.cacheQueries, cache := other.store.cache }
  registry : other.registry = s.registry
  directory : other.directory = s.directory
  hierarchy : other.hierarchy = s.hierarchy
  listeners : other.listeners = s.listeners
  deliveries : other.deliveries = s.deliveries
  frame : other.frame = s.frame
  stats : other.stats = { s.stats with cachedQueries := other.stats.cachedQueries }
  located : ∀ e, other.locate e = s.locate e
  got : ∀ e type, other.get e type = s.get e type
  serialized : ∀ e id, other.serializeComponent e id = s.serializeComponent e id
  inspected : ∀ e, other.inspectEntity e = s.inspectEntity e

def uncached (s : Scene) : Scene := s.rebased (fun settings => { settings with cacheQueries := false }) s.store.uncached

theorem same_but_cache_uncached (s : Scene) : s.SameButCache s.uncached :=
  ⟨rfl, rfl, rfl, rfl, rfl, rfl, rfl, rfl, rfl, rfl, fun _ => rfl, fun _ _ => rfl, fun _ _ => rfl,
    fun _ => rfl⟩

theorem create_uncached (name : String) (settings : Settings) (registry : Registry) :
    create name { settings with cacheQueries := false } registry =
      (create name settings registry).map (Except.map uncached) := by
  have valid : ({ settings with cacheQueries := false } : Settings).validate = settings.validate := rfl
  have stored : Store.create { settings with cacheQueries := false } =
      (Store.create settings).map Store.uncached :=
    bind_related _ _ _ _ fun pool => bind_related _ _ _ _ fun slab => rfl
  rw [create, valid, create]
  cases settings.validate with
  | error error => rfl
  | ok done =>
      simp only [build, stored]
      cases Store.create settings <;> rfl

abbrev Plain {α : Type} (x y : Checked (α × Scene)) : Prop :=
  Alongside (Beside (fun settings => { settings with cacheQueries := false }) fun s other => other = s.uncached) x y

-- The induction carries that kept answers are right, which holds until generations wrap around.
theorem perform_all_uncached {s : Scene} (sound : s.Sound) (before : Nat) (fresh : s.store.Fresh before)
    (commands : List Command) (few : before + s.turns commands < 0x10000000000000000) :
    Plain (s.performAll commands) (s.uncached.performAll commands) := by
  induction commands generalizing s before with
  | nil => exact .ok (.both [] s rfl)
  | cons command rest ih =>
      have asked (signature : Signature) : Store.Abreast (fun s other => other = s.uncached)
          (s.store.matchingBlocks signature) (s.store.uncached.matchingBlocks signature) := by
        rw [Store.matching_blocks_uncached s.store before fresh (by omega)]
        exact .both _ rfl
      have here : Plain (s.perform command) (s.uncached.perform command) :=
        perform_beside (Store.mirrors_uncached s.registry) rfl rfl asked command
      rw [performAll, performAll]
      generalize performed : s.perform command = x at here
      generalize s.uncached.perform command = y at here
      cases here with
      | error fault => exact .error fault
      | ok beside =>
          obtain ⟨outcome, next, rfl⟩ := beside
          have step := performed_step sound performed
          obtain ⟨count, _, ages, counted⟩ := step.ages
          simp only [turns, performed, counted] at few
          rw [ok_bind, ok_bind]
          refine alongside_bind (ih step.sound (before + count) (ages.fresh before fresh) (by omega)) fun _ _ later => ?_
          obtain ⟨outcomes, last, rfl⟩ := later
          exact .ok (.both _ last rfl)

/-- For all valid settings, a history of fewer than 2^64 generations is the same with the cache as
without: both stop with the same fault, or both give the same outcomes and the same scene but for
the answers that are kept. -/
theorem run_cache_transparent (name : String) (settings : Settings) (registry : Registry)
    (valid : settings.validate = .ok ()) (genuine : registry.Genuine) :
    ∃ cached bare, create name { settings with cacheQueries := true } registry = .ok (.ok cached) ∧
      create name { settings with cacheQueries := false } registry = .ok (.ok bare) ∧
      ∀ commands, cached.turns commands < 0x10000000000000000 →
        (∀ fault, bare.performAll commands = .error fault ↔ cached.performAll commands = .error fault) ∧
        ∀ outcomes last, cached.performAll commands = .ok (outcomes, last) →
          ∃ final, bare.performAll commands = .ok (outcomes, final) ∧ last.SameButCache final := by
  obtain ⟨cached, made, blank⟩ := create_ok name { settings with cacheQueries := true } registry valid genuine
  have bare := create_uncached name { settings with cacheQueries := true } registry
  rw [made] at bare
  refine ⟨cached, cached.uncached, made, bare, fun commands few => ?_⟩
  have same := perform_all_uncached blank.sound 0 blank.fresh commands (by omega)
  generalize cached.performAll commands = x at same
  generalize cached.uncached.performAll commands = y at same
  cases same with
  | error fault => exact ⟨fun _ => Iff.rfl, fun _ _ ran => by contradiction⟩
  | ok beside =>
      obtain ⟨outcomes, last, rfl⟩ := beside
      refine ⟨fun fault => by simp, fun _ _ ran => ?_⟩
      obtain ⟨rfl, rfl⟩ := Prod.mk.inj (Except.ok.inj ran)
      exact ⟨last.uncached, rfl, same_but_cache_uncached last⟩

def lookUpTwice : List Command :=
  [.create (.ofList [ComponentType.light.id]), .singleton ComponentType.light.id, .destroy ⟨0, 1⟩,
    .singleton ComponentType.light.id]

theorem run_cache_transparent_light : ∃ bare final,
    create "world" { Settings.least with cacheQueries := false } .builtins = .ok (.ok bare) ∧
    bare.performAll lookUpTwice = .ok ([.ok (.entity ⟨0, 1⟩), .ok (.entity ⟨0, 1⟩), .ok .done,
      .error (.noSingleton ComponentType.light.id)], final) := by
  obtain ⟨cached, bare, made, other, same⟩ :=
    run_cache_transparent "world" .least .builtins rfl Registry.builtins_genuine
  obtain ⟨first, last, begun, ran⟩ : ∃ first last,
      create "world" { Settings.least with cacheQueries := true } .builtins = .ok (.ok first) ∧
      first.performAll lookUpTwice = .ok ([.ok (.entity ⟨0, 1⟩), .ok (.entity ⟨0, 1⟩), .ok .done,
        .error (.noSingleton ComponentType.light.id)], last) := ⟨_, _, rfl, rfl⟩
  obtain rfl := Except.ok.inj (Except.ok.inj (made.symm.trans begun))
  have sound := (blank_of_created Registry.builtins_genuine made).sound
  have few : cached.turns lookUpTwice < 0x10000000000000000 :=
    Nat.lt_of_le_of_lt (turns_le sound lookUpTwice) (by decide)
  obtain ⟨final, went, _⟩ := (same lookUpTwice few).2 _ last ran
  exact ⟨bare, final, other, went⟩

end EntityStore.Scene
