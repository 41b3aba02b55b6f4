import EntityStore.Scene.Components
import EntityStore.Scene.Queries

set_option autoImplicit false

namespace EntityStore

inductive Command where
  | create (signature : Signature)
  | spawn (bundle : Bundle)
  | destroy (e : Entity)
  | enable (e : Entity)
  | disable (e : Entity)
  | add (e : Entity) (value : Component)
  | remove (e : Entity) (type : ComponentType)
  | replace (e : Entity) (value : Component)
  | deserialize (e : Entity) (id : ComponentId) (document : Document)
  | matching (signature : Signature)
  | query (q : Query)
  | visit (q : Query) (limit : Option Nat) (edit : Store.Edit)
  | singleton (id : ComponentId)
  | addToHierarchy (e : Entity)
  | queueHierarchyInsert (e : Entity)
  | updateHierarchy
  | endFrame
  | unload
  | listen

inductive Reply where
  | done
  | entity (e : Entity)
  | value (value : Component)
  | blocks (ids : List BlockId)
  | rows (view : View) (rows : List (Entity × List Component))
  | listener (number : Nat)

namespace Scene

def perform (s : Scene) : Command → Checked (Outcome Reply × Scene)
  | .create signature => told .entity (s.createEntity signature)
  | .spawn bundle => told .entity (s.spawn bundle)
  | .destroy e => told noted (s.destroy e)
  | .enable e => told noted (s.enable e)
  | .disable e => told noted (s.disable e)
  | .add e value => told noted (s.addComponent e value)
  | .remove e type => told .value (s.removeComponent e type)
  | .replace e value => told .value (s.replace e value)
  | .deserialize e id document => told noted (s.deserializeComponent e id document)
  | .matching signature =>
    let (ids, s) := s.blocksMatching signature
    .ok (.ok (.blocks ids), s)
  | .query q =>
    let (view, s) := s.query q
    (s.readRows view).map fun rows => (.ok (.rows view rows), s)
  | .visit q limit edit =>
    match s.queryMut q with
    | (.error error, s) => .ok (.error error, s)
    | (.ok view, s) => do
      let (rows, s) ← s.visit view limit edit
      return (.ok (.rows view rows), s)
  | .singleton id => told .entity (s.singletonEntity id)
  | .addToHierarchy e => told noted (s.addToHierarchy e)
  | .queueHierarchyInsert e => .ok (.ok .done, s.queueHierarchyInsert e)
  | .updateHierarchy => s.updateHierarchy.map fun s => (.ok .done, s)
  | .endFrame => s.endFrame.map fun s => (.ok .done, s)
  | .unload => s.unload.map fun s => (.ok .done, s)
  | .listen => .ok (.ok (.listener s.listeners), s.addListener)
where
  noted : Unit → Reply := fun _ => .done
  told {α : Type} (reply : α → Reply) (result : Checked (Outcome α × Scene)) :
      Checked (Outcome Reply × Scene) :=
    result.map fun (outcome, s) => (outcome.map reply, s)

def performAll (s : Scene) : List Command → Checked (List (Outcome Reply) × Scene)
  | [] => .ok ([], s)
  | command :: rest => do
    let (reply, s) ← s.perform command
    let (replies, s) ← s.performAll rest
    return (reply :: replies, s)

end Scene

end EntityStore
