import EntityStore.Block.Operation
import EntityStore.Store

set_option autoImplicit false

namespace EntityStore.Store

inductive Operation where
  | acquire (signature : Signature)
  | insert (signature : Signature) (entity : Entity)
  | create (signature : Signature)
  | destroy (id : BlockId)
  | releaseIfEmpty (id : BlockId)
  | clear
  | rows (id : BlockId) (operation : Block.Operation)
  | copy (target : BlockId) (row : Nat) (source : BlockId) (sourceRow : Nat)
  | matching (query : Signature)

inductive Answer where
  | done
  | block (id : BlockId)
  | place (id : BlockId) (row : Nat)
  | released (done : Bool)
  | rows (answer : Option Block.Answer)
  | copied (done : Bool)
  | blocks (ids : List BlockId)
deriving DecidableEq, Repr

def operate (s : Store) (registry : Registry) : Operation → Checked (Outcome Answer × Store)
  | .acquire signature => told .block (s.acquire registry signature)
  | .insert signature entity => told (fun (id, row) => .place id row) (s.insert registry signature entity)
  | .create signature => told .block (s.createBlock registry signature)
  | .destroy id => do return (.ok .done, ← s.destroyBlock id)
  | .releaseIfEmpty id => do
    let (done, s) ← s.releaseIfEmpty id
    return (.ok (.released done), s)
  | .clear => do return (.ok .done, ← s.clear)
  | .rows id operation =>
    match s.block? id with
    | none => .ok (.ok (.rows none), s)
    | some block => do
      let (answer, block) ← block.operate operation
      return (.ok (.rows (some answer)), s.put id block)
  | .copy target row source sourceRow => do
    match ← s.pool.getPair target source with
    | none => return (.ok (.copied false), s)
    | some (block, other) =>
      let block ← (block.copySharedFrom row other sourceRow).finished
      return (.ok (.copied true), s.put target block)
  | .matching query =>
    let (ids, s) := s.matchingBlocks query
    .ok (.ok (.blocks ids), s)
where
  told {α : Type} (answer : α → Answer) (result : Checked (Outcome α × Store)) :
      Checked (Outcome Answer × Store) :=
    result.map fun (outcome, s) => (outcome.map answer, s)

def operateAll (s : Store) (registry : Registry) : List Operation → Checked (List (Outcome Answer) × Store)
  | [] => .ok ([], s)
  | operation :: rest => do
    let (answer, s) ← s.operate registry operation
    let (answers, s) ← s.operateAll registry rest
    return (answer :: answers, s)

end EntityStore.Store
