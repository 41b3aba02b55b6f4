import EntityStore.Proofs.Renamed.Unloaded

set_option autoImplicit false

namespace EntityStore

open Checked

def Reply.renamed (ρ : Entity → Entity) : Reply → Reply
  | .entity e => .entity (ρ e)
  | .rows view listed => .rows view (listed.map (named ρ))
  | reply => reply

-- A command that names entities by the order of their creation. A visitor is told which entity it sees,
-- if this is one of them.
inductive Request where
  | create (signature : Signature)
  | spawn (bundle : Bundle)
  | destroy (n : Nat)
  | enable (n : Nat)
  | disable (n : Nat)
  | add (n : Nat) (value : Component)
  | remove (n : Nat) (type : ComponentType)
  | replace (n : Nat) (value : Component)
  | deserialize (n : Nat) (id : ComponentId) (document : Document)
  | matching (signature : Signature)
  | query (q : Query)
  | visit (q : Query) (limit : Option Nat) (edit : Option Nat → Block.Change)
  | singleton (id : ComponentId)

namespace Request

variable {ρ : Renaming}

def nth (created : List Entity) (n : Nat) : Entity := created.getD n ⟨0, 0⟩

def command (created : List Entity) : Request → Command
  | .create signature => .create signature
  | .spawn bundle => .spawn bundle
  | .destroy n => .destroy (nth created n)
  | .enable n => .enable (nth created n)
  | .disable n => .disable (nth created n)
  | .add n value => .add (nth created n) value
  | .remove n type => .remove (nth created n) type
  | .replace n value => .replace (nth created n) value
  | .deserialize n id document => .deserialize (nth created n) id document
  | .matching signature => .matching signature
  | .query q => .query q
  | .visit q limit edit => .visit q limit fun e => edit (created.idxOf? e)
  | .singleton id => .singleton id

def names (created : List Entity) : Request → Outcome Reply → List Entity
  | .create _, .ok (.entity e) => created ++ [e]
  | .spawn _, .ok (.entity e) => created ++ [e]
  | _, _ => created

theorem nth_renamed (created : List Entity) (n : Nat) :
    nth (created.map ρ.handle) n = ρ.handle (nth created n) := by
  rw [nth, nth, List.getD_eq_getElem?_getD, List.getD_eq_getElem?_getD, List.getElem?_map]
  cases created[n]? <;> rfl

theorem position_renamed (created : List Entity) (e : Entity) :
    (created.map ρ.handle).idxOf? (ρ.handle e) = created.idxOf? e := by
  rw [List.idxOf?, List.idxOf?, List.findIdx?_map]
  refine congrArg (List.findIdx? · created) (funext fun f => ?_)
  exact beq_eq_beq.mpr ρ.handle_injective.eq_iff

theorem names_renamed (created : List Entity) (request : Request) (outcome : Outcome Reply) :
    request.names (created.map ρ.handle) (Outcome.renamed ρ.handle (Reply.renamed ρ.handle) outcome) =
      (request.names created outcome).map ρ.handle := by
  cases outcome with
  | error error => cases request <;> rfl
  | ok reply =>
      cases reply with
      | entity e =>
          cases request with
          | create | spawn => simp [names, Reply.renamed]
          | _ => rfl
      | _ => cases request <;> rfl

end Request

namespace Scene

variable {ρ : Renaming} {spare : Nat} {shift : UInt64} {s other next : Scene} {requests : List Request}

def follow (s : Scene) (created : List Entity) : List Request → Checked (List (Outcome Reply × Scene))
  | [] => .ok []
  | request :: rest => do
    let (outcome, next) ← s.perform (request.command created)
    let following ← next.follow (request.names created outcome) rest
    return (outcome, next) :: following

def Spacious (s : Scene) (created : List Entity) : List Request → Prop
  | [] => s.directory.size < 0xffffffff
  | request :: rest => s.directory.size < 0xffffffff ∧
      ∀ outcome next, s.perform (request.command created) = .ok (outcome, next) →
        next.Spacious (request.names created outcome) rest

-- Everything that can be asked about the entities of one scene is so of their counterparts in another
-- one, where nobody else lives.
structure Mirrors (ρ : Entity → Entity) (s other : Scene) : Prop where
  entities : other.entities = s.entities.map ρ
  count : other.entityCount = s.entityCount
  located : ∀ e, other.locate (ρ e) = Outcome.renamed ρ id (s.locate e)
  world : ∀ e, other.world (ρ e) = s.world e
  got : ∀ e type, Both ρ (fun x y => y = Outcome.renamed ρ id x) (s.get e type) (other.get (ρ e) type)
  serialized : ∀ e id, Both ρ (fun x y => y = Outcome.renamed ρ (fun document => document) x)
    (s.serializeComponent e id) (other.serializeComponent (ρ e) id)
  blocks : other.store.blockCount = s.store.blockCount
  buffers : other.store.buffersInUse = s.store.buffersInUse

structure Retells (ρ : Entity → Entity) (x y : Outcome Reply × Scene) : Prop where
  outcome : y.1 = Outcome.renamed ρ (Reply.renamed ρ) x.1
  scene : Mirrors ρ x.2 y.2

namespace Renamed

theorem told_renamed {α : Type} {f : α → α} {reply : α → Reply} {x y : Checked (Outcome α × Scene)}
    (same : ∀ a, reply (f a) = (reply a).renamed ρ.handle)
    (answered : Both ρ.handle (Corresponds ρ spare shift f) x y) :
    Both ρ.handle (Corresponds ρ spare shift (Reply.renamed ρ.handle)) (perform.told reply x)
      (perform.told reply y) := by
  refine both_map answered fun a b both => ⟨?_, both.2⟩
  exact (congrArg (Except.map reply) both.1).trans (Outcome.renamed_map f (Reply.renamed ρ.handle) reply same a.1)

theorem perform (renamed : Renamed ρ spare shift s other) (room : s.HasRoom spare) (created : List Entity)
    (request : Request) :
    Both ρ.handle (Corresponds ρ spare shift (Reply.renamed ρ.handle)) (s.perform (request.command created))
      (other.perform (request.command (created.map ρ.handle))) := by
  cases request with
  | create signature => exact told_renamed (fun _ => rfl) (renamed.create_entity room signature)
  | spawn bundle => exact told_renamed (fun _ => rfl) (renamed.spawn room bundle)
  | destroy n =>
      rw [Request.command, Request.command, Request.nth_renamed]
      exact told_renamed (fun _ => rfl) (renamed.destroy _)
  | enable n =>
      rw [Request.command, Request.command, Request.nth_renamed]
      exact told_renamed (fun _ => rfl) (renamed.set_enabled _ true)
  | disable n =>
      rw [Request.command, Request.command, Request.nth_renamed]
      exact told_renamed (fun _ => rfl) (renamed.set_enabled _ false)
  | add n value =>
      rw [Request.command, Request.command, Request.nth_renamed]
      exact told_renamed (fun _ => rfl) (renamed.add_component _ value)
  | remove n type =>
      rw [Request.command, Request.command, Request.nth_renamed]
      exact told_renamed (fun _ => rfl) (renamed.remove_component _ type)
  | replace n value =>
      rw [Request.command, Request.command, Request.nth_renamed]
      exact told_renamed (fun _ => rfl) (renamed.replace _ value)
  | deserialize n id document =>
      rw [Request.command, Request.command, Request.nth_renamed]
      exact told_renamed (fun _ => rfl) (renamed.deserialize_component _ id document)
  | matching signature =>
      obtain ⟨blocks, scenes⟩ := renamed.blocks_matching signature
      exact .ok ⟨congrArg (fun ids => Except.ok (Reply.blocks ids)) blocks, scenes⟩
  | query q =>
      have views := renamed.query q
      rcases asked : s.query q with ⟨_, next⟩
      rcases askedOther : other.query q with ⟨view, nextOther⟩
      rw [asked, askedOther] at views
      obtain ⟨rfl, scenes⟩ := views
      simp only [Request.command, Scene.perform, asked, askedOther]
      refine both_map (scenes.read_rows view) fun rows others shown => ⟨?_, scenes⟩
      rw [shown]
      rfl
  | visit q limit edit =>
      have views := renamed.query_mut q
      rcases asked : s.queryMut q with ⟨outcome, next⟩
      rcases askedOther : other.queryMut q with ⟨_, nextOther⟩
      rw [asked, askedOther] at views
      obtain ⟨rfl, scenes⟩ := views
      simp only [Request.command, Scene.perform, asked, askedOther]
      cases outcome with
      | error error => exact .ok ⟨rfl, scenes⟩
      | ok view =>
          have scenes : Renamed ρ spare shift next nextOther := scenes
          have edits (e : Entity) : edit ((created.map ρ.handle).idxOf? (ρ.handle e)) = edit (created.idxOf? e) :=
            congrArg edit (Request.position_renamed created e)
          refine both_bind (scenes.visit view limit edits) fun x y visited => .ok ⟨?_, visited.2⟩
          rw [visited.1]
          rfl
  | singleton id => exact told_renamed (fun _ => rfl) (renamed.singleton_entity id)

section Observing

theorem block_content {b named : Block} (renamed : Block.Renamed ρ.handle b named) (row : Nat) :
    (named.tenant? row).map Tenant.content = (b.tenant? row).map Tenant.content := by
  have cells (c : Column) (member : c ∈ b.columns) : named.cell c row = b.cell c row :=
    renamed.payload.read c.span.size (renamed.behind member row)
  have side : named.side? row = b.side? row := by
    rw [renamed.frame]
    rfl
  have components : named.componentsAt row = b.componentsAt row := by
    funext id
    have columns : named.column? id = b.column? id := by
      rw [renamed.frame]
      rfl
    rw [Block.componentsAt, Block.componentsAt, columns]
    cases found : b.column? id with
    | none => simp only [Option.map_none]
    | some c => simp only [Option.map_some, cells c (Block.column_mem found)]
  rw [Block.tenant?, Block.tenant?, side, components]
  cases b.side? row with
  | none => simp only [Option.map_none]
  | some enabled => simp only [Option.map_some, Tenant.content]

theorem location (renamed : Renamed ρ spare shift s other) (e : Entity) :
    other.directory.location? (ρ.handle e) = s.directory.location? e := by
  have located := renamed.directory.locate e
  rw [Directory.locate_eq, Directory.locate_eq] at located
  cases here : s.directory.location? e with
  | none =>
      cases there : other.directory.location? (ρ.handle e) with
      | none => rfl
      | some l =>
          rw [here, there] at located
          contradiction
  | some l =>
      cases there : other.directory.location? (ρ.handle e) with
      | none =>
          rw [here, there] at located
          contradiction
      | some k =>
          rw [here, there] at located
          exact congrArg some (Except.ok.inj located)

theorem world (renamed : Renamed ρ spare shift s other) (e : Entity) : other.world (ρ.handle e) = s.world e := by
  show (other.directory.location? (ρ.handle e)).bind _ = (s.directory.location? e).bind _
  rw [renamed.location]
  refine congrArg _ (funext fun l => ?_)
  show (other.store.tenant? l.spot).map Tenant.content = (s.store.tenant? l.spot).map Tenant.content
  have blocks := renamed.store.block l.spot.1
  rw [Store.tenant?, Store.tenant?]
  generalize s.store.block? l.spot.1 = x at blocks
  generalize other.store.block? l.spot.1 = y at blocks
  cases blocks with
  | none => rfl
  | some sized => exact block_content sized.1 l.spot.2

theorem mirrors (renamed : Renamed ρ spare shift s other) : Mirrors ρ.handle s other where
  entities := renamed.directory.entities
  count := renamed.directory.alive
  located := renamed.locate
  world := renamed.world
  got := renamed.get
  serialized := renamed.serialize_component
  blocks := renamed.store.pool.allocated
  buffers := by
    rw [Store.buffersInUse, renamed.store.slab.frame]
    rfl

end Observing

end Renamed

-- The induction carries that both scenes are about the same entities, and that the ones created so far
-- are counterparts of each other.
theorem follow_renamed (renamed : Renamed ρ spare shift s other) (created : List Entity) (requests : List Request)
    (room : s.directory.recycle = false → other.Spacious (created.map ρ.handle) requests) :
    Both ρ.handle (List.Forall₂ (Retells ρ.handle)) (s.follow created requests)
      (other.follow (created.map ρ.handle) requests) := by
  induction requests generalizing s other created with
  | nil => exact .ok .nil
  | cons request rest ih =>
      have roomy : s.HasRoom spare := fun appends => by
        have small := (room appends).1
        have supply := renamed.directory.supply
        rw [if_neg (by rw [appends]; decide)] at supply
        exact supply.size ▸ small
      have performed := renamed.perform roomy created request
      have steady := perform_steady s (request.command created)
      rw [follow, follow]
      generalize s.perform (request.command created) = x at performed steady
      generalize answered : other.perform (request.command (created.map ρ.handle)) = y at performed
      cases performed with
      | error faults => exact .error faults
      | @ok x y both =>
          obtain ⟨outcome, next⟩ := x
          obtain ⟨_, nextOther⟩ := y
          obtain ⟨rfl, scenes⟩ := both
          have scenes : Renamed ρ spare shift next nextOther := scenes
          have steady : next.directory.recycle = s.directory.recycle := steady
          have following := ih scenes (request.names created outcome) fun appends => by
            have later := (room (steady ▸ appends)).2 _ _ answered
            rw [Request.names_renamed] at later
            exact later
          simp only [ok_bind, Request.names_renamed]
          exact both_bind following fun _ _ told => .ok (.cons ⟨rfl, scenes.mirrors⟩ told)

theorem spacious_of_few (sound : s.Sound) (created : List Entity) (requests : List Request)
    (few : s.directory.size + requests.length < 0xffffffff) : s.Spacious created requests := by
  induction requests generalizing s created with
  | nil => exact few
  | cons request rest ih =>
      rw [List.length_cons] at few
      refine ⟨by omega, fun outcome next performed => ?_⟩
      have step := performed_step sound performed
      have grown := step_size step
      exact ih step.sound _ (by omega)

/-- Whatever a new scene has gone through, once it is unloaded it answers all further requests as it
did when it was new, under other handles. With recycling these have the same indices, without it the
same generations and indices that are moved up by the number of records that are left. -/
theorem run_unloaded {name : String} {settings : Settings} {registry : Registry} {first : Scene}
    {commands : List Command} {outcomes : List (Outcome Reply)} (genuine : registry.Genuine)
    (made : create name settings registry = .ok (.ok first))
    (ran : first.performAll commands = .ok (outcomes, s)) :
    ∃ unloaded ρ, s.unload = .ok unloaded ∧ Function.Injective ρ ∧
      (settings.recycleIndices = true → ∀ e, (ρ e).index = e.index) ∧
      (settings.recycleIndices = false → ∀ e, e.generation ≠ 0 →
        ρ e = ⟨e.index + .ofNat unloaded.directory.size, e.generation⟩) ∧
      Mirrors ρ first unloaded ∧
      ∀ requests, (settings.recycleIndices = false → unloaded.Spacious [] requests) →
        Both ρ (List.Forall₂ (Retells ρ)) (first.follow [] requests) (unloaded.follow [] requests) := by
  obtain ⟨unloaded, shift, unloads, recycle, renamed⟩ := renamed_of_unloaded genuine made ran
  have before : first.directory.recycle = settings.recycleIndices :=
    renamed.directory.recycle.symm.trans recycle
  refine ⟨unloaded, (Renaming.past unloaded.directory).handle, unloads, Renaming.handle_injective _,
    fun recycles e => ?_, fun appends e born => ?_, renamed.mirrors, fun requests room => ?_⟩
  · exact renamed.directory.index_same (before.trans recycles) e
  · rw [Renaming.handle_born born, Renaming.past, if_neg (by rw [recycle, appends]; decide)]
    rfl
  · exact follow_renamed renamed [] requests fun appends => room (before.symm.trans appends)

theorem run_unloaded_appending : ∃ first s unloaded next,
    create "world" { Settings.least with recycleIndices := false } .builtins = .ok (.ok first) ∧
    first.performAll [.create .empty] = .ok ([.ok (.entity ⟨0, 1⟩)], s) ∧ s.unload = .ok unloaded ∧
    unloaded.follow [] [.create .empty] = .ok [(.ok (.entity ⟨1, 1⟩), next)] ∧
    next.locate ⟨1, 1⟩ = .ok ⟨0, 0, true⟩ := by
  obtain ⟨first, s, early, made, ran, size, followed, located⟩ : ∃ first s early,
      create "world" { Settings.least with recycleIndices := false } .builtins = .ok (.ok first) ∧
      first.performAll [.create .empty] = .ok ([.ok (.entity ⟨0, 1⟩)], s) ∧ s.directory.size = 1 ∧
      first.follow [] [.create .empty] = .ok [(.ok (.entity ⟨0, 1⟩), early)] ∧
      early.locate ⟨0, 1⟩ = .ok ⟨0, 0, true⟩ := ⟨_, _, _, rfl, rfl, rfl, rfl, rfl⟩
  obtain ⟨unloaded, ρ, unloads, -, -, moved, -, retold⟩ := run_unloaded Registry.builtins_genuine made ran
  have records : unloaded.directory.size = 1 := by
    rw [directory_of_unloaded unloads]
    exact (Directory.size_clear s.directory).trans size
  have handle : ρ ⟨0, 1⟩ = ⟨1, 1⟩ := (records ▸ moved rfl ⟨0, 1⟩ (by decide) :)
  have sound := (run_sound (blank_of_created Registry.builtins_genuine made).sound ran).1
  obtain ⟨_, emptied, becomes⟩ := unload_ok sound
  obtain rfl := Except.ok.inj (emptied.symm.trans unloads)
  have told := retold [.create .empty] fun _ => spacious_of_few becomes.sound _ _ (by rw [records]; decide)
  rw [followed] at told
  generalize went : Scene.follow _ [] [.create .empty] = y at told
  cases told with
  | ok both =>
      cases both with
      | @cons _ answered _ _ here rest =>
          cases rest
          obtain ⟨outcome, next⟩ := answered
          have same : outcome = .ok (.entity (ρ ⟨0, 1⟩)) := here.outcome
          rw [same, handle] at went
          have there := here.scene.located ⟨0, 1⟩
          rw [handle, located] at there
          exact ⟨first, s, _, next, made, ran, unloads, went, there⟩

end Scene

end EntityStore
