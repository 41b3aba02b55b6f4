import EntityStore.Scene.Basic

set_option autoImplicit false

namespace EntityStore.Scene

def blocksMatching (s : Scene) (signature : Signature) : List BlockId × Scene :=
  let (blocks, store) := s.store.matchingBlocks signature
  (blocks, { s with store })

def query (s : Scene) (q : Query) : View × Scene :=
  let (blocks, s) := s.blocksMatching q.signature
  (⟨q, blocks⟩, s)

def queryMut (s : Scene) (q : Query) : Outcome View × Scene :=
  match q.firstRepeat? with
  | some id => (.error (.aliasedQuery id), s)
  | none =>
    let (view, s) := s.query q
    (.ok view, s)

def readRows (s : Scene) (v : View) : Checked (List (Entity × List Component)) :=
  s.store.readRows v

def visit (s : Scene) (v : View) (limit : Option Nat) (edit : Store.Edit) :
    Checked (List (Entity × List Component) × Scene) := do
  let rows ← s.store.cellRows v
  let visited :=
    match limit with
    | none => rows
    | some limit => rows.take limit
  let (rows, store) ← s.store.visitRows edit visited
  return (rows, { s with store })

def singletonEntity (s : Scene) (id : ComponentId) : Checked (Outcome Entity × Scene) := do
  let (blocks, s) := s.blocksMatching (Signature.empty.insert id)
  let candidates ← (blocks.filterMap s.store.block?).mapM Block.readEntities
  match candidates.flatten with
  | [] => return (.error (.noSingleton id), s)
  | e :: _ => return (.ok e, s)

end EntityStore.Scene
