import EntityStore.Proofs.Renamed.Directory
import EntityStore.Proofs.Renamed.Query
import EntityStore.Proofs.Scene.Sound
import EntityStore.Scene.Command

set_option autoImplicit false

namespace EntityStore

open Checked

theorem Bundle.check_renamed (ρ : Entity → Entity) {registry : Registry} (values : List Component)
    {error : StoreError} (refused : Bundle.checkAll registry values = .error error) :
    error.renamed ρ = error := by
  induction values with
  | nil => contradiction
  | cons value rest ih =>
      rw [checkAll] at refused
      cases checked : registry.check value.type with
      | error other =>
          rw [checked] at refused
          exact Except.error.inj refused ▸ Registry.check_renamed ρ checked
      | ok _ =>
          rw [checked] at refused
          exact ih refused

namespace Descriptor

theorem deserialize_renamed (ρ : Entity → Entity) (d : Descriptor) (document : Document) :
    Ensures (fun _ => True) (d.deserialize document) fun outcome =>
      Outcome.renamed ρ (fun bytes => bytes) outcome = outcome := by
  rw [deserialize]
  split
  · split
    · exact ensures_map _ (ensures_any _) fun _ _ => rfl
    · rfl
  · rfl

theorem serialize_renamed (ρ : Entity → Entity) (d : Descriptor) (bytes : List UInt8) :
    Ensures (fun _ => True) (d.serialize bytes) fun outcome =>
      Outcome.renamed ρ (fun document => document) outcome = outcome := by
  rw [serialize]
  split
  · split
    · split <;> rfl
    · trivial
  · rfl

end Descriptor

namespace Scene

variable {ρ : Renaming} {spare : Nat} {shift : UInt64} {s other : Scene} {α β : Type}

structure Renamed (ρ : Renaming) (spare : Nat) (shift : UInt64) (s other : Scene) : Prop where
  registry : other.registry = s.registry
  store : Store.Renamed ρ.handle shift s.registry s.store other.store
  directory : Directory.Renamed ρ spare s.directory other.directory

def Corresponds (ρ : Renaming) (spare : Nat) (shift : UInt64) (f : α → α) (x y : Outcome α × Scene) : Prop :=
  y.1 = Outcome.renamed ρ.handle f x.1 ∧ Renamed ρ spare shift x.2 y.2

def HasRoom (spare : Nat) (s : Scene) : Prop :=
  s.directory.recycle = false → spare + s.directory.size < 0xffffffff

inductive Found (ρ : Renaming) (s other : Scene) (e : Entity) : Prop where
  | nowhere (error : StoreError) (located : s.locate e = .error error)
      (there : other.locate (ρ.handle e) = .error (error.renamed ρ.handle))
  | gone (l : Location) (located : s.locate e = .ok l) (there : other.locate (ρ.handle e) = .ok l)
      (missing : s.store.block? l.block = none) (missingOther : other.store.block? l.block = none)
  | housed (l : Location) (b named : Block) (located : s.locate e = .ok l)
      (there : other.locate (ρ.handle e) = .ok l) (block : s.store.block? l.block = some b)
      (blockOther : other.store.block? l.block = some named)
      (sized : Block.Sized ρ.handle s.store.capacity b named)

namespace Renamed

theorem told (renamed : Renamed ρ spare shift s other) (deliveries others : List Delivery) :
    Renamed ρ spare shift { s with deliveries } { other with deliveries := others } :=
  ⟨renamed.registry, renamed.store, renamed.directory⟩

theorem locate (renamed : Renamed ρ spare shift s other) (e : Entity) :
    other.locate (ρ.handle e) = Outcome.renamed ρ.handle id (s.locate e) := renamed.directory.locate e

theorem find (renamed : Renamed ρ spare shift s other) (e : Entity) : Found ρ s other e := by
  have located := renamed.locate e
  cases here : s.locate e with
  | error error =>
      rw [here] at located
      exact .nowhere error here located
  | ok l =>
      rw [here] at located
      have blocks := renamed.store.block l.block
      cases held : s.store.block? l.block with
      | none =>
          rw [held] at blocks
          generalize heldOther : other.store.block? l.block = y at blocks
          cases blocks
          exact .gone l here located held heldOther
      | some b =>
          rw [held] at blocks
          generalize heldOther : other.store.block? l.block = y at blocks
          cases blocks with
          | some sized => exact .housed l b _ here located held heldOther sized

theorem signature_of (renamed : Renamed ρ spare shift s other) (e : Entity) :
    other.signatureOf (ρ.handle e) = Outcome.renamed ρ.handle id (s.signatureOf e) := by
  rw [signatureOf, signatureOf, blockOf, blockOf]
  cases renamed.find e with
  | nowhere error located there =>
      rw [located, there]
      rfl
  | gone l located there missing missingOther =>
      simp only [located, there, missing, missingOther]
      rfl
  | housed l b named located there block blockOther sized =>
      simp only [located, there, block, blockOther]
      rw [sized.1.frame]
      rfl

theorem get (renamed : Renamed ρ spare shift s other) (e : Entity) (type : ComponentType) :
    Both ρ.handle (fun x y => y = Outcome.renamed ρ.handle id x) (s.get e type)
      (other.get (ρ.handle e) type) := by
  rw [Scene.get, Scene.get, blockOf, blockOf]
  cases renamed.find e with
  | nowhere error located there =>
      rw [located, there]
      exact .ok rfl
  | gone l located there missing missingOther =>
      simp only [located, there, missing, missingOther]
      exact .ok rfl
  | housed l b named located there block blockOther sized =>
      simp only [located, there, block, blockOther, sized.1.read_component]
      refine both_bind_same _ fun value _ => ?_
      cases value <;> exact .ok rfl

theorem serialize_component (renamed : Renamed ρ spare shift s other) (e : Entity) (id : ComponentId) :
    Both ρ.handle (fun x y => y = Outcome.renamed ρ.handle (fun document => document) x)
      (s.serializeComponent e id) (other.serializeComponent (ρ.handle e) id) := by
  rw [serializeComponent, serializeComponent, renamed.registry, blockOf, blockOf]
  cases found : s.registry.find id with
  | error error => exact .ok (congrArg Except.error (Registry.find_renamed ρ.handle found).symm)
  | ok descriptor =>
      cases renamed.find e with
      | nowhere error located there =>
          rw [located, there]
          exact .ok rfl
      | gone l located there missing missingOther =>
          simp only [located, there, missing, missingOther]
          exact .ok rfl
      | housed l b named located there block blockOther sized =>
          simp only [located, there, block, blockOther, sized.1.read_bytes]
          refine both_bind_same _ fun held _ => ?_
          cases held with
          | none => exact .ok rfl
          | some bytes =>
              have nameless := descriptor.serialize_renamed ρ.handle bytes
              simp only
              cases serialized : descriptor.serialize bytes with
              | error fault => exact .error (.same fault)
              | ok outcome =>
                  rw [serialized] at nameless
                  exact .ok nameless.symm

section Lifecycle

theorem place_new (renamed : Renamed ρ spare shift s other) (room : s.HasRoom spare) (signature : Signature) :
    Both ρ.handle (Corresponds ρ spare shift (Prod.map ρ.handle id)) (s.placeNew signature)
      (other.placeNew signature) := by
  refine both_bind (renamed.directory.reserve room) fun x y given => ?_
  obtain ⟨e, directory⟩ := x
  obtain ⟨_, directoryOther⟩ := y
  obtain ⟨rfl, directories, born, r, held, entity⟩ := given
  rw [renamed.registry]
  refine both_bind (renamed.store.insert ρ.handle_void signature e) fun x y inserted => ?_
  obtain ⟨outcome, store⟩ := x
  obtain ⟨_, storeOther⟩ := y
  obtain ⟨rfl, stores⟩ := inserted
  cases outcome with
  | error error => exact both_bind (directories.abandon held) fun x y abandoned => .ok ⟨rfl, rfl, stores, abandoned⟩
  | ok spot =>
      obtain ⟨block, row⟩ := spot
      exact both_bind (directories.place born held entity block row) fun x y placed => .ok ⟨rfl, rfl, stores, placed⟩

theorem create_entity (renamed : Renamed ρ spare shift s other) (room : s.HasRoom spare) (signature : Signature) :
    Both ρ.handle (Corresponds ρ spare shift ρ.handle) (s.createEntity signature)
      (other.createEntity signature) := by
  refine both_bind (renamed.place_new room signature) fun x y placed => .ok ⟨?_, placed.2⟩
  rw [placed.1]
  exact Outcome.renamed_map _ ρ.handle Prod.fst (fun _ => rfl) x.1

theorem spawn (renamed : Renamed ρ spare shift s other) (room : s.HasRoom spare) (bundle : Bundle) :
    Both ρ.handle (Corresponds ρ spare shift ρ.handle) (s.spawn bundle) (other.spawn bundle) := by
  rw [Scene.spawn, Scene.spawn, renamed.registry]
  cases bundle.repeated? with
  | some id => exact .ok ⟨rfl, renamed⟩
  | none =>
      cases checked : bundle.check s.registry with
      | error error =>
          exact .ok ⟨congrArg Except.error (Bundle.check_renamed ρ.handle _ checked).symm, renamed⟩
      | ok _ =>
          refine both_bind (renamed.place_new room bundle.signature) fun x y placed => ?_
          obtain ⟨outcome, next⟩ := x
          obtain ⟨_, nextOther⟩ := y
          obtain ⟨rfl, scenes⟩ := placed
          cases outcome with
          | error error => exact .ok ⟨rfl, scenes⟩
          | ok spot =>
              obtain ⟨e, id, row⟩ := spot
              have blocks := scenes.store.block id
              simp only [Outcome.renamed_ok, Prod.map, id_eq] at blocks ⊢
              generalize next.store.block? id = x at blocks
              generalize nextOther.store.block? id = y at blocks
              cases blocks with
              | none => exact .ok ⟨rfl, scenes⟩
              | @some b named sized =>
                  refine both_bind (sized.1.write_all row bundle.values) fun x y written => ?_
                  refine .ok ⟨rfl, scenes.registry, ?_, scenes.directory⟩
                  exact scenes.store.put id (sized.2 ▸ sized.1.sized written)

theorem remove_row {b named : Block} {capacity : Nat} (sized : Block.Sized ρ.handle capacity b named) (row : Nat)
    (enabled : Bool) :
    Both ρ.handle (Block.Moved ρ.handle capacity) (removeRow b row enabled) (removeRow named row enabled) := by
  obtain ⟨renamed, rfl⟩ := sized
  cases enabled with
  | true => exact renamed.swap_remove ρ.handle_void row
  | false => exact renamed.remove_disabled ρ.handle_void row

theorem releases_renamed {b named : Block} (renamed : Block.Renamed ρ.handle b named) (e f : Entity) (row : Nat)
    (kept : Signature) (columns : List Column) :
    Both ρ.handle (fun _ _ => True) (releases e b row kept columns) (releases f named row kept columns) := by
  induction columns with
  | nil => exact .ok trivial
  | cons c rest ih =>
      simp only [releases, renamed.read_bytes]
      split
      · exact both_bind_same _ fun _ _ => both_bind ih fun _ _ _ => .ok trivial
      · exact ih

theorem farewell_renamed {b named : Block} (renamed : Block.Renamed ρ.handle b named) (e f : Entity) (row : Nat) :
    Both ρ.handle (fun _ _ => True) (farewell e b row) (farewell f named row) := by
  have columns : named.columns = b.columns := by rw [renamed.frame]
  rw [farewell, farewell, columns]
  exact both_bind (releases_renamed renamed e f row .empty b.columns) fun _ _ _ => .ok trivial

theorem destroy (renamed : Renamed ρ spare shift s other) (e : Entity) :
    Both ρ.handle (Corresponds ρ spare shift id) (s.destroy e) (other.destroy (ρ.handle e)) := by
  rw [Scene.destroy, Scene.destroy]
  cases renamed.find e with
  | nowhere error located there =>
      rw [located, there]
      exact .ok ⟨rfl, renamed⟩
  | gone l located there missing missingOther =>
      simp only [located, there, missing, missingOther]
      exact .ok ⟨rfl, renamed⟩
  | housed l b named located there block blockOther sized =>
      simp only [located, there, block, blockOther]
      refine both_bind (farewell_renamed sized.1 e (ρ.handle e) l.row) fun told toldOther _ => ?_
      obtain ⟨deliveries, announced⟩ := announce_all_eq s told
      obtain ⟨others, announcedOther⟩ := announce_all_eq other toldOther
      simp only [announced, announcedOther]
      refine both_bind (remove_row sized l.row l.enabled) fun x y removed => ?_
      obtain ⟨moved, next⟩ := x
      obtain ⟨_, nextOther⟩ := y
      obtain ⟨rfl, sized⟩ := removed
      refine both_bind (renamed.directory.relocate_moved moved l.block l.row) fun x y noted => ?_
      refine both_bind (noted.release e) fun x y released => ?_
      refine both_bind ((renamed.store.put l.block sized).bump.release_if_empty l.block) fun x y emptied => ?_
      exact .ok ⟨rfl, renamed.registry, emptied.2, released⟩

theorem set_enabled (renamed : Renamed ρ spare shift s other) (e : Entity) (enabled : Bool) :
    Both ρ.handle (Corresponds ρ spare shift id) (s.setEnabled e enabled)
      (other.setEnabled (ρ.handle e) enabled) := by
  rw [Scene.setEnabled, Scene.setEnabled]
  cases renamed.find e with
  | nowhere error located there =>
      rw [located, there]
      exact .ok ⟨rfl, renamed⟩
  | gone l located there missing missingOther =>
      simp only [located, there, missing, missingOther]
      split
      · exact .ok ⟨rfl, renamed⟩
      · exact .ok ⟨rfl, renamed⟩
  | housed l b named located there block blockOther sized =>
      simp only [located, there, block, blockOther]
      by_cases same : l.enabled = enabled
      · rw [if_pos same, if_pos same]
        exact .ok ⟨rfl, renamed⟩
      · rw [if_neg same, if_neg same]
        have crossed : Both ρ.handle (Block.Transferred ρ.handle b.capacity)
            (if enabled then b.enable l.row else b.disable l.row)
            (if enabled then named.enable l.row else named.disable l.row) := by
          cases enabled with
          | true => exact sized.1.enable ρ.handle_void l.row
          | false => exact sized.1.disable ρ.handle_void l.row
        refine both_bind_ite crossed fun x y crossed => ?_
        obtain ⟨row, displaced, crossed⟩ := crossed
        rw [sized.2] at crossed
        have stores := (renamed.store.put l.block crossed).bump
        simp only [row, displaced]
        cases x.1.displaced with
        | none =>
            refine both_bind (.ok renamed.directory) fun _ _ noted => ?_
            exact both_bind (noted.relocate e l.block x.1.newRow) fun _ _ relocated =>
              .ok ⟨rfl, renamed.registry, stores, relocated.set_enabled e enabled⟩
        | some displaced =>
            refine both_bind (renamed.directory.relocate displaced.1 l.block displaced.2) fun _ _ noted => ?_
            exact both_bind (noted.relocate e l.block x.1.newRow) fun _ _ relocated =>
              .ok ⟨rfl, renamed.registry, stores, relocated.set_enabled e enabled⟩

end Lifecycle

section Components

theorem replace (renamed : Renamed ρ spare shift s other) (e : Entity) (value : Component) :
    Both ρ.handle (Corresponds ρ spare shift id) (s.replace e value) (other.replace (ρ.handle e) value) := by
  rw [Scene.replace, Scene.replace]
  cases renamed.find e with
  | nowhere error located there =>
      rw [located, there]
      exact .ok ⟨rfl, renamed⟩
  | gone l located there missing missingOther =>
      simp only [located, there, missing, missingOther]
      exact .ok ⟨rfl, renamed⟩
  | housed l b named located there block blockOther sized =>
      simp only [located, there, block, blockOther, sized.1.read_component]
      refine both_bind_same _ fun held _ => ?_
      cases held with
      | none => exact .ok ⟨rfl, renamed⟩
      | some old =>
          refine both_bind (sized.1.set_component l.row value) fun x y written => ?_
          cases written with
          | none => exact .ok ⟨rfl, renamed⟩
          | some written =>
              exact .ok ⟨rfl, renamed.registry, renamed.store.put l.block (sized.2 ▸ sized.1.sized written),
                renamed.directory⟩

theorem deserialize_component (renamed : Renamed ρ spare shift s other) (e : Entity) (id : ComponentId)
    (document : Document) :
    Both ρ.handle (Corresponds ρ spare shift fun done => done) (s.deserializeComponent e id document)
      (other.deserializeComponent (ρ.handle e) id document) := by
  rw [deserializeComponent, deserializeComponent, renamed.registry]
  cases found : s.registry.find id with
  | error error => exact .ok ⟨congrArg Except.error (Registry.find_renamed ρ.handle found).symm, renamed⟩
  | ok descriptor =>
      cases renamed.find e with
      | nowhere error located there =>
          rw [located, there]
          exact .ok ⟨rfl, renamed⟩
      | gone l located there missing missingOther =>
          simp only [located, there, missing, missingOther]
          exact .ok ⟨rfl, renamed⟩
      | housed l b named located there block blockOther sized =>
          simp only [located, there, block, blockOther, sized.1.read_bytes]
          refine both_bind_same _ fun held _ => ?_
          cases held with
          | none => exact .ok ⟨rfl, renamed⟩
          | some old =>
              have nameless := Descriptor.deserialize_renamed ρ.handle descriptor document
              refine both_bind_same _ fun outcome decoded => ?_
              rw [decoded] at nameless
              cases outcome with
              | error error => exact .ok ⟨congrArg Except.error (Except.error.inj nameless).symm, renamed⟩
              | ok bytes =>
                  refine both_bind (sized.1.set_bytes id l.row bytes) fun x y written => ?_
                  cases written with
                  | none => exact .ok ⟨rfl, renamed⟩
                  | some written =>
                      have put := renamed.store.put l.block (sized.2 ▸ sized.1.sized written)
                      exact .ok ⟨rfl, rfl, put, renamed.directory⟩

theorem resettle (renamed : Renamed ρ spare shift s other) {store storeOther : Store}
    (stores : Store.Renamed ρ.handle shift s.registry store storeOther) (e : Entity) (old : Location) (moved : Option Entity)
    {b named filled filledOther : Block} (left : Block.Sized ρ.handle store.capacity b named)
    (entered : Block.Sized ρ.handle store.capacity filled filledOther) (newId : BlockId) (row : Nat)
    (deliveries others : List Delivery) :
    Both ρ.handle (Corresponds ρ spare shift id)
      (do
        let directory ← s.directory.relocateMoved moved old.block old.row
        let (_, store) ← ((store.put newId filled).put old.block b).bump.releaseIfEmpty old.block
        let directory ← directory.relocate e newId row
        return ((.ok () : Outcome Unit), { s with store, directory, deliveries }))
      (do
        let directory ← other.directory.relocateMoved (moved.map ρ.handle) old.block old.row
        let (_, store) ← ((storeOther.put newId filledOther).put old.block named).bump.releaseIfEmpty old.block
        let directory ← directory.relocate (ρ.handle e) newId row
        return ((.ok () : Outcome Unit), { other with store, directory, deliveries := others })) := by
  have changed := ((stores.put newId entered).put old.block left).bump
  refine both_bind (renamed.directory.relocate_moved moved old.block old.row) fun _ _ noted => ?_
  refine both_bind (changed.release_if_empty old.block) fun _ _ emptied => ?_
  exact both_bind (noted.relocate e newId row) fun _ _ relocated => .ok ⟨rfl, renamed.registry, emptied.2, relocated⟩

theorem migrate (renamed : Renamed ρ spare shift s other) (e : Entity) (target : Signature) :
    Both ρ.handle (Corresponds ρ spare shift id) (s.migrate e target) (other.migrate (ρ.handle e) target) := by
  rw [Scene.migrate, Scene.migrate, renamed.locate, renamed.registry]
  cases s.locate e with
  | error error => exact .ok ⟨rfl, renamed⟩
  | ok old =>
      rw [Outcome.renamed_ok, id_eq]
      refine both_bind (renamed.store.acquire ρ.handle_void target) fun x y acquired => ?_
      obtain ⟨outcome, store⟩ := x
      obtain ⟨_, storeOther⟩ := y
      obtain ⟨rfl, stores⟩ := acquired
      cases outcome with
      | error error => exact .ok ⟨rfl, rfl, stores, renamed.directory⟩
      | ok newId =>
          have stores : Store.Renamed ρ.handle shift s.registry store storeOther := stores
          have pairs := stores.pool.get_pair newId old.block
          simp only [Outcome.renamed_ok, id_eq, Pool.get_pair_eq, ok_bind]
          generalize store.pool.getPair? newId old.block = x at pairs
          generalize storeOther.pool.getPair? newId old.block = y at pairs
          cases pairs with
          | none => exact .ok ⟨rfl, rfl, stores, renamed.directory⟩
          | @some x y pairs =>
              obtain ⟨newBlock, oldBlock⟩ := x
              obtain ⟨newOther, oldOther⟩ := y
              obtain ⟨new, previous⟩ := pairs
              have new : Block.Sized ρ.handle store.capacity newBlock newOther := new
              have previous : Block.Sized ρ.handle store.capacity oldBlock oldOther := previous
              have full : newOther.capacity = newBlock.capacity := by rw [new.1.frame]
              simp only [full]
              refine both_bind (new.1.push e) fun x y pushed => ?_
              cases pushed with
              | none => exact .ok ⟨rfl, rfl, stores, renamed.directory⟩
              | @some x y pushed =>
                  obtain ⟨_, filled⟩ := x
                  obtain ⟨pushedRow, filledOther⟩ := y
                  obtain ⟨rfl, filling⟩ := pushed
                  rw [new.2] at filling
                  refine both_bind (filling.1.copy_shared previous.1 pushedRow old.row) fun x y copied => ?_
                  have copied := filling.2 ▸ filling.1.sized copied
                  have columns : oldOther.columns = oldBlock.columns := by rw [previous.1.frame]
                  rw [columns]
                  refine both_bind (releases_renamed previous.1 e (ρ.handle e) old.row target oldBlock.columns)
                    fun told toldOther _ => ?_
                  obtain ⟨deliveries, announced⟩ := announce_all_eq s told
                  obtain ⟨others, announcedOther⟩ := announce_all_eq other toldOther
                  simp only [announced, announcedOther]
                  refine both_bind (remove_row previous old.row old.enabled) fun z w removed => ?_
                  obtain ⟨moved, emptied⟩ := z
                  obtain ⟨_, emptiedOther⟩ := w
                  obtain ⟨rfl, left⟩ := removed
                  by_cases enabled : old.enabled = true
                  · rw [if_pos enabled, if_pos enabled]
                    exact renamed.resettle stores e old moved left copied newId pushedRow deliveries others
                  · rw [if_neg enabled, if_neg enabled]
                    refine both_bind (copied.1.disable ρ.handle_void pushedRow) fun z w landed => ?_
                    obtain ⟨same, -, entered⟩ := landed
                    rw [copied.2] at entered
                    simp only [same]
                    exact renamed.resettle stores e old moved left entered newId z.1.newRow deliveries others

theorem add_component (renamed : Renamed ρ spare shift s other) (e : Entity) (value : Component) :
    Both ρ.handle (Corresponds ρ spare shift id) (s.addComponent e value)
      (other.addComponent (ρ.handle e) value) := by
  rw [addComponent, addComponent, renamed.signature_of, renamed.registry]
  cases s.signatureOf e with
  | error error => exact .ok ⟨rfl, renamed⟩
  | ok signature =>
      simp only [Outcome.renamed_ok, id_eq]
      by_cases carried : signature.contains value.type.id = true
      · simp only [if_pos carried]
        exact .ok ⟨rfl, renamed⟩
      · simp only [if_neg carried]
        cases checked : s.registry.check value.type with
        | error error => exact .ok ⟨congrArg Except.error (Registry.check_renamed ρ.handle checked).symm, renamed⟩
        | ok _ =>
            refine both_bind (renamed.migrate e (signature.insert value.type.id)) fun x y migrated => ?_
            obtain ⟨outcome, next⟩ := x
            obtain ⟨_, nextOther⟩ := y
            obtain ⟨rfl, scenes⟩ := migrated
            cases outcome with
            | error error => exact .ok ⟨rfl, scenes⟩
            | ok _ =>
                have scenes : Renamed ρ spare shift next nextOther := scenes
                refine both_bind (scenes.replace e value) fun x y replaced => .ok ⟨?_, replaced.2⟩
                rw [replaced.1]
                exact Outcome.renamed_map id id (fun _ => ()) (fun _ => rfl) x.1

theorem remove_component (renamed : Renamed ρ spare shift s other) (e : Entity) (type : ComponentType) :
    Both ρ.handle (Corresponds ρ spare shift id) (s.removeComponent e type)
      (other.removeComponent (ρ.handle e) type) := by
  rw [removeComponent, removeComponent, renamed.signature_of]
  refine both_bind (renamed.get e type) fun value _ got => ?_
  subst got
  cases value with
  | error error => exact .ok ⟨rfl, renamed⟩
  | ok value =>
      simp only [Outcome.renamed_ok, id_eq]
      cases s.signatureOf e with
      | error error => exact .ok ⟨rfl, renamed⟩
      | ok signature =>
          simp only [Outcome.renamed_ok, id_eq]
          refine both_bind (renamed.migrate e (signature.erase type.id)) fun x y migrated => ?_
          obtain ⟨outcome, next⟩ := x
          obtain ⟨_, nextOther⟩ := y
          obtain ⟨rfl, scenes⟩ := migrated
          cases outcome with
          | error error => exact .ok ⟨rfl, scenes⟩
          | ok _ => exact .ok ⟨rfl, scenes⟩

end Components

section Queries

theorem blocks_matching (renamed : Renamed ρ spare shift s other) (signature : Signature) :
    (other.blocksMatching signature).1 = (s.blocksMatching signature).1 ∧
      Renamed ρ spare shift (s.blocksMatching signature).2 (other.blocksMatching signature).2 :=
  ⟨(renamed.store.matching_blocks signature).1, renamed.registry, (renamed.store.matching_blocks signature).2,
    renamed.directory⟩

theorem query (renamed : Renamed ρ spare shift s other) (q : Query) :
    (other.query q).1 = (s.query q).1 ∧ Renamed ρ spare shift (s.query q).2 (other.query q).2 :=
  ⟨congrArg (View.mk q) (renamed.blocks_matching q.signature).1, (renamed.blocks_matching q.signature).2⟩

theorem read_rows (renamed : Renamed ρ spare shift s other) (v : View) :
    Both ρ.handle (fun rows others => others = rows.map (named ρ.handle)) (s.readRows v) (other.readRows v) :=
  renamed.store.read_rows v

theorem query_mut (renamed : Renamed ρ spare shift s other) (q : Query) :
    Corresponds ρ spare shift id (s.queryMut q) (other.queryMut q) := by
  have views := renamed.query q
  rw [queryMut, queryMut]
  cases q.firstRepeat? with
  | some id => exact ⟨rfl, renamed⟩
  | none => exact ⟨congrArg Except.ok views.1, views.2⟩

theorem visit (renamed : Renamed ρ spare shift s other) (v : View) (limit : Option Nat)
    {edit editOther : Store.Edit} (edits : ∀ e, editOther (ρ.handle e) = edit e) :
    Both ρ.handle (fun x y => y.1 = x.1.map (named ρ.handle) ∧ Renamed ρ spare shift x.2 y.2)
      (s.visit v limit edit) (other.visit v limit editOther) := by
  refine both_bind (renamed.store.cell_rows v) fun rows _ shown => ?_
  obtain ⟨rfl, behind⟩ := shown
  cases limit with
  | none =>
      exact both_bind (renamed.store.visit_rows edits rows behind) fun _ _ visited =>
        .ok ⟨visited.1, renamed.registry, visited.2, renamed.directory⟩
  | some limit =>
      simp only [← List.map_take]
      refine both_bind (renamed.store.visit_rows edits (rows.take limit) fun row member => ?_) fun _ _ visited =>
        .ok ⟨visited.1, renamed.registry, visited.2, renamed.directory⟩
      exact behind row (List.mem_of_mem_take member)

theorem candidates_renamed (renamed : Renamed ρ spare shift s other) (ids : List BlockId) :
    Both ρ.handle (fun listed others => others.flatten = listed.flatten.map ρ.handle)
      ((ids.filterMap s.store.block?).mapM Block.readEntities)
      ((ids.filterMap other.store.block?).mapM Block.readEntities) := by
  induction ids with
  | nil => exact .ok rfl
  | cons first rest ih =>
      have here := renamed.store.block first
      rw [List.filterMap_cons, List.filterMap_cons]
      generalize s.store.block? first = x at here
      generalize other.store.block? first = y at here
      cases here with
      | none => exact ih
      | some sized =>
          simp only [List.mapM_cons]
          refine both_bind sized.1.read_entities fun es others first => ?_
          refine both_bind ih fun listed more later => .ok ?_
          rw [List.flatten_cons, List.flatten_cons, List.map_append, first, later]

theorem singleton_entity (renamed : Renamed ρ spare shift s other) (id : ComponentId) :
    Both ρ.handle (Corresponds ρ spare shift ρ.handle) (s.singletonEntity id) (other.singletonEntity id) := by
  obtain ⟨blocks, scenes⟩ := renamed.blocks_matching (Signature.empty.insert id)
  rw [singletonEntity, singletonEntity]
  simp only [blocks]
  refine both_bind (scenes.candidates_renamed _) fun listed others same => ?_
  rw [same]
  cases listed.flatten with
  | nil => exact .ok ⟨rfl, scenes⟩
  | cons e _ => exact .ok ⟨rfl, scenes⟩

end Queries

end Renamed

end Scene

end EntityStore
