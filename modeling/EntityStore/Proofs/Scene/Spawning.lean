import EntityStore.Proofs.Block.Overwrites
import EntityStore.Proofs.Scene.Runs

set_option autoImplicit false

namespace EntityStore

namespace Bundle

variable {registry : Registry} {bundle : Bundle}

def Repeats (bundle : Bundle) (id : ComponentId) : Prop :=
  ∃ before after, bundle.ids = before ++ id :: after ∧ before.Nodup ∧ id ∈ before

def Strays (bundle : Bundle) (registry : Registry) (id : ComponentId) : Prop :=
  ∃ before value after, bundle.values = before ++ value :: after ∧
    (∀ other ∈ before, registry.Knows other.type) ∧ ¬ registry.Knows value.type ∧ value.type.id = id

theorem repeats_of_some {id : ComponentId} (repeated : bundle.firstRepeat? = some id) : bundle.Repeats id :=
  (Signature.first_repeat_again bundle.ids id).mp repeated

theorem distinct_of_none (repeated : bundle.firstRepeat? = none) : bundle.ids.Nodup :=
  (Signature.first_repeat_nodup bundle.ids).mp repeated

theorem check_all_stray (values : List Component) {error : StoreError}
    (refused : checkAll registry values = .error error) :
    ∃ before value after, values = before ++ value :: after ∧
      (∀ other ∈ before, registry.Knows other.type) ∧ ¬ registry.Knows value.type ∧
      error = .unregisteredComponent value.type.id := by
  induction values with
  | nil => simp [checkAll] at refused
  | cons value rest ih =>
      rw [checkAll] at refused
      cases check : registry.check value.type with
      | error other =>
          rw [check] at refused
          obtain rfl := Except.error.inj refused
          refine ⟨[], value, rest, rfl, fun _ member => absurd member List.not_mem_nil, ?_,
            Registry.check_error check⟩
          simp [Registry.Knows, check]
      | ok done =>
          rw [check] at refused
          obtain ⟨before, stray, after, rfl, known, unknown, named⟩ := ih refused
          exact ⟨value :: before, stray, after, rfl, List.forall_mem_cons.mpr ⟨check, known⟩, unknown, named⟩

theorem signature_perm {other : Bundle} (same : other.values.Perm bundle.values) :
    other.signature = bundle.signature := by
  refine Signature.ext_contains _ _ fun id => Bool.eq_iff_iff.mpr ?_
  rw [listed_iff, listed_iff]
  exact (same.map _).mem_iff

end Bundle

namespace Scene

open Checked

variable {s made : Scene} {e : Entity} {l : Location} {b : Block} {t : Tenant} {bundle : Bundle}
  {values : List Component}

theorem home_takes (home : Home s e l b t) (known : ∀ value ∈ values, s.registry.Knows value.type)
    (present : ∀ value ∈ values, t.components value.type.id ≠ none) :
    Block.Takes s.registry b l.row values := by
  have laid := home.keeps.sound.laid
  refine ⟨laid, ?_, Block.side_in_range home.keeps.sound l.row l.enabled home.side, fun value member => ?_⟩
  · rw [Block.occupied_iff, home.side]
    rfl
  · have held := present value member
    rw [home.components] at held
    obtain ⟨c, found⟩ : ∃ c, b.column? value.type.id = some c :=
      Option.ne_none_iff_exists'.mp fun missing => held (by rw [Block.componentsAt, missing, Option.map_none])
    exact ⟨c, (Block.typed_column_known laid value.type c).mpr ⟨found, known value member⟩⟩

theorem replace_takes (sound : s.Sound) (home : Home s e l b t) {value : Component}
    {rest : List Component} (takes : Block.Takes s.registry b l.row (value :: rest)) :
    ∃ old next nextBlock t', s.replace e value = .ok (.ok old, next) ∧
      nextBlock = b.overwrite (b.placeOf l.row value.type) value.bytes ∧
      next = { s with store := s.store.put l.block nextBlock } ∧ next.Sound ∧ Home next e l nextBlock t' ∧
      Block.Takes s.registry nextBlock l.row rest := by
  obtain ⟨c, typed⟩ := takes.typed value List.mem_cons_self
  have found : b.component? value.type l.row = some (b.valueAt value.type (c.span.place l.row)) := by
    rw [Block.component?, if_pos takes.occupied, typed, Option.map_some]
  have wrote := takes.set_component sound.store.genuine List.mem_cons_self
  have done : s.replace e value = .ok (.ok (b.valueAt value.type (c.span.place l.row)), { s with
      store := s.store.put l.block (b.overwrite (b.placeOf l.row value.type) value.bytes) }) := by
    simp only [replace, locate_some home.found, home.block, home.read_component sound, found, wrote, ok_bind,
      pure_eq_ok]
  rcases replace_ok sound home value with ⟨old, next, replaced, _, _, _, becomes⟩ | ⟨refused, _⟩
  · obtain ⟨_, rfl⟩ := Prod.mk.inj (Except.ok.inj (done.symm.trans replaced))
    obtain ⟨nextBlock, t', nextHome⟩ := home_of becomes.sound home.found
    have written := (Store.block_put home.block
      (b.overwrite (b.placeOf l.row value.type) value.bytes) l.block).trans (if_pos rfl)
    obtain rfl := Option.some.inj (written.symm.trans nextHome.block)
    exact ⟨_, _, _, t', done, rfl, rfl, becomes.sound, nextHome, takes.tail _ _⟩
  · rw [done] at refused
    simp at refused

structure Sets (s : Scene) (e : Entity) (values : List Component) (last : Scene)
    (replies : List (Outcome Reply)) : Prop where
  ran : s.performAll (values.map (.replace e)) = .ok (replies, last)
  accepted : ∀ reply ∈ replies, ∃ old, reply = .ok (.value old)

theorem writes_all (sound : s.Sound) (home : Home s e l b t) (takes : Block.Takes s.registry b l.row values) :
    ∃ replies, Sets s e values
      { s with store := s.store.put l.block (b.overwriteAll l.row values) } replies := by
  induction values generalizing s b t with
  | nil =>
      refine ⟨[], ?_, fun _ member => absurd member List.not_mem_nil⟩
      rw [Block.overwrite_all_nil, Store.put_same home.block]
      rfl
  | cons value rest ih =>
      obtain ⟨old, next, nextBlock, t', replaced, written, changed, nextSound, nextHome, nextTakes⟩ :=
        replace_takes sound home takes
      have registry : next.registry = s.registry := by rw [changed]
      obtain ⟨replies, ran, accepted⟩ := ih nextSound nextHome (registry ▸ nextTakes)
      refine ⟨.ok (.value old) :: replies, ?_, List.forall_mem_cons.mpr ⟨⟨old, rfl⟩, accepted⟩⟩
      have performed : s.perform (.replace e value) = .ok (.ok (.value old), next) := by
        rw [perform, perform.told, replaced]
        rfl
      refine (perform_all_cons_iff _ _).mpr ⟨_, next, replies, performed, ran.trans ?_, rfl⟩
      subst written
      subst changed
      rw [Store.put_put, Block.overwrite_all_cons]

theorem created_takes (known : ∀ value ∈ bundle.values, s.registry.Knows value.type)
    {block : BlockId} {row : Nat} (created : Created s made 2 e (s.registry.defaults bundle.signature))
    (located : made.directory.location? e = some ⟨block, row, true⟩) :
    ∃ b t, Home made e ⟨block, row, true⟩ b t ∧ Block.Takes made.registry b row bundle.values := by
  have registry : made.registry = s.registry := created.becomes.alike.registry
  obtain ⟨b, t, home, started⟩ := created_home created located
  exact ⟨b, t, home, home_takes home (registry ▸ known) (started ▸ defaults_present known)⟩

structure Spawns (s : Scene) (bundle : Bundle) : Prop where
  faults : ∀ fault, s.createEntity bundle.signature = .error fault → s.spawn bundle = .error fault
  refuses : ∀ error next, s.createEntity bundle.signature = .ok (.error error, next) →
    s.spawn bundle = .ok (.error error, next)
  fills : ∀ e made, s.createEntity bundle.signature = .ok (.ok e, made) →
    ∃ last, s.spawn bundle = .ok (.ok e, last) ∧
      ∀ values, values.Perm bundle.values → ∃ replies, Sets made e values last replies
  regroups : ∀ other : Bundle, other.values.Perm bundle.values → s.spawn other = s.spawn bundle

def fill (bundle : Bundle) : Outcome (Entity × BlockId × Nat) × Scene → Checked (Outcome Entity × Scene)
  | (.error error, s) => .ok (.error error, s)
  | (.ok (e, id, row), s) =>
    match s.store.block? id with
    | none => .ok (.ok e, s)
    | some block => do
      let block ← bundle.write block row
      return (.ok e, { s with store := s.store.put id block })

section Spawn

variable (distinct : bundle.ids.Nodup) (known : ∀ value ∈ bundle.values, s.registry.Knows value.type)

include distinct known

theorem spawn_eq : s.spawn bundle = s.placeNew bundle.signature >>= fill bundle := by
  have unrepeated : bundle.repeated? = none :=
    bundle.repeated_eq.trans ((Signature.first_repeat_nodup bundle.ids).mpr distinct)
  have checked : bundle.check s.registry = .ok () := (Bundle.check_all_ok bundle.values).mpr known
  simp only [spawn, unrepeated, checked]
  cases s.placeNew bundle.signature with
  | error fault => rfl
  | ok result =>
      obtain ⟨outcome, made⟩ := result
      cases outcome <;> rfl

variable (sound : s.Sound)

include sound

theorem spawn_placed {block : BlockId} {row : Nat}
    (placed : s.placeNew bundle.signature = .ok (.ok (e, block, row), made)) :
    made.Sound ∧ ∃ b t, Home made e ⟨block, row, true⟩ b t ∧ Block.Takes made.registry b row bundle.values ∧
      s.spawn bundle = .ok (.ok e,
        { made with store := made.store.put block (b.overwriteAll row bundle.values) }) := by
  have result := place_new_ok sound bundle.signature
  rw [placed] at result
  obtain ⟨created, located⟩ := result
  obtain ⟨b, t, home, takes⟩ := created_takes known created located
  refine ⟨created.becomes.sound, b, t, home, takes, ?_⟩
  rw [spawn_eq distinct known, placed]
  simp only [ok_bind, fill, home.block, Bundle.write, takes.write_all created.becomes.sound.store.genuine,
    pure_eq_ok]

theorem spawn_fills (created : s.createEntity bundle.signature = .ok (.ok e, made)) :
    ∃ last, s.spawn bundle = .ok (.ok e, last) ∧
      ∀ values, values.Perm bundle.values → ∃ replies, Sets made e values last replies := by
  obtain ⟨block, row, placed⟩ := placed_of_created created
  obtain ⟨madeSound, b, t, home, takes, done⟩ := spawn_placed distinct known sound placed
  refine ⟨_, done, fun values same => ?_⟩
  rw [← takes.overwrite_all_perm madeSound.store.genuine distinct same]
  exact writes_all madeSound home (takes.perm same)

theorem spawn_regroups {other : Bundle} (same : other.values.Perm bundle.values) :
    s.spawn other = s.spawn bundle := by
  have others : other.ids.Nodup := (same.map _).nodup_iff.mpr distinct
  have knownToo : ∀ value ∈ other.values, s.registry.Knows value.type := fun value member =>
    known value (same.subset member)
  have signatures := Bundle.signature_perm same
  cases placed : s.placeNew bundle.signature with
  | error fault => rw [spawn_eq distinct known, spawn_eq others knownToo, signatures, placed]; rfl
  | ok result =>
      obtain ⟨outcome, made⟩ := result
      cases outcome with
      | error error => rw [spawn_eq distinct known, spawn_eq others knownToo, signatures, placed]; rfl
      | ok spot =>
          obtain ⟨e, block, row⟩ := spot
          obtain ⟨madeSound, b, t, home, takes, done⟩ := spawn_placed distinct known sound placed
          obtain ⟨_, b', t', home', _, doneToo⟩ := spawn_placed others knownToo sound (signatures ▸ placed)
          obtain rfl := Option.some.inj (home.block.symm.trans home'.block)
          rw [done, doneToo, takes.overwrite_all_perm madeSound.store.genuine distinct same]

theorem spawns : Spawns s bundle := by
  have whole := spawn_eq (s := s) distinct known
  refine ⟨fun fault stopped => ?_, fun error next failed => ?_,
    fun e made created => spawn_fills distinct known sound created,
    fun other same => spawn_regroups distinct known sound same⟩
  · cases placed : s.placeNew bundle.signature with
    | error other =>
        rw [createEntity, placed] at stopped
        rw [whole, placed, Except.error.inj stopped]
        rfl
    | ok result =>
        rw [createEntity, placed] at stopped
        contradiction
  · rw [whole, unplaced_of_refused failed]
    rfl

end Spawn

/-- After every history of a new scene, spawning is creation and then a write of each value in any
order. A bundle that names an id again is refused for the first such id; failing that, one with a type
that is not the registered one is refused for the first such type; both leave the scene as it is. -/
theorem run_spawns {name : String} {settings : Settings} {registry : Registry} {first : Scene}
    {commands : List Command} {outcomes : List (Outcome Reply)} (genuine : registry.Genuine)
    (created : create name settings registry = .ok (.ok first))
    (ran : first.performAll commands = .ok (outcomes, s)) (bundle : Bundle) :
    (¬ bundle.ids.Nodup →
      ∃ id, bundle.Repeats id ∧ s.spawn bundle = .ok (.error (.duplicateBundleComponent id), s)) ∧
    (bundle.ids.Nodup → (¬ ∀ value ∈ bundle.values, registry.Knows value.type) →
      ∃ id, bundle.Strays registry id ∧ s.spawn bundle = .ok (.error (.unregisteredComponent id), s)) ∧
    (bundle.ids.Nodup → (∀ value ∈ bundle.values, registry.Knows value.type) → Spawns s bundle) := by
  have blank := blank_of_created genuine created
  obtain ⟨sound, alike⟩ := run_sound blank.sound ran
  obtain rfl : s.registry = registry := (alike.registry : s.registry = first.registry).trans blank.registry
  refine ⟨fun again => ?_, fun distinct unknown => ?_, fun distinct known => spawns distinct known sound⟩
  · cases repeated : bundle.firstRepeat? with
    | none => exact absurd (Bundle.distinct_of_none repeated) again
    | some id => exact ⟨id, Bundle.repeats_of_some repeated, by rw [spawn, Bundle.repeated_eq, repeated]⟩
  · have unrepeated : bundle.firstRepeat? = none := (Signature.first_repeat_nodup bundle.ids).mpr distinct
    cases checked : bundle.check s.registry with
    | ok done => exact absurd ((Bundle.check_all_ok bundle.values).mp checked) unknown
    | error error =>
        obtain ⟨before, value, after, split, known, stray, rfl⟩ := Bundle.check_all_stray bundle.values checked
        refine ⟨value.type.id, ⟨before, value, after, split, known, stray, rfl⟩, ?_⟩
        rw [spawn, Bundle.repeated_eq, unrepeated, checked]

def darkCamera : Bundle := .join (.one (.initial .camera)) (.one ⟨.light, List.replicate 20 0, rfl⟩)

theorem run_spawns_pair : ∃ first e made last replies,
    create "world" .least .builtins = .ok (.ok first) ∧ first.performAll [] = .ok ([], first) ∧
      first.createEntity darkCamera.signature = .ok (.ok e, made) ∧
      first.spawn darkCamera = .ok (.ok e, last) ∧ Sets made e darkCamera.values.reverse last replies ∧
      first.spawn (.join (.one ⟨.light, List.replicate 20 0, rfl⟩) (.one (.initial .camera))) =
        .ok (.ok e, last) := by
  obtain ⟨first, e, made, created, placed⟩ : ∃ first e made,
      create "world" .least .builtins = .ok (.ok first) ∧
        first.createEntity darkCamera.signature = .ok (.ok e, made) := ⟨_, _, _, rfl, rfl⟩
  have ran : first.performAll [] = .ok ([], first) := rfl
  have spawned := (run_spawns Registry.builtins_genuine created ran darkCamera).2.2 (by decide) (by decide)
  obtain ⟨last, done, writes⟩ := spawned.fills e made placed
  obtain ⟨replies, written⟩ := writes _ (List.reverse_perm darkCamera.values)
  have swapped := spawned.regroups
    (.join (.one ⟨.light, List.replicate 20 0, rfl⟩) (.one (.initial .camera))) (.swap _ _ [])
  exact ⟨first, e, made, last, replies, created, ran, placed, done, written, swapped.trans done⟩

end Scene

end EntityStore
