import EntityStore.Block.Rows
import EntityStore.Pool
import EntityStore.Settings
import EntityStore.Slab
import EntityStore.Table

set_option autoImplicit false

namespace EntityStore

abbrev BlockId := Nat

structure CachedMatch where
  generation : UInt64
  blocks : List BlockId
deriving DecidableEq, Repr

structure Store where
  capacity : Nat
  blockBytes : Nat
  policy : MatchPolicy
  cacheQueries : Bool
  pool : Pool Block
  slab : Slab
  /-- Ids of the blocks of each signature, ascending. -/
  index : Table Signature (List BlockId)
  layouts : Table Signature Layout
  generation : UInt64
  cache : Table Signature CachedMatch

namespace Store

def create (settings : Settings) : Checked Store := do
  let pool ← Pool.create settings.maxBlocks
  let slab ← Slab.create settings.blockBytes settings.maxBlocks
  return {
    capacity := settings.blockCapacity
    blockBytes := settings.blockBytes
    policy := settings.blockMatch
    cacheQueries := settings.cacheQueries
    pool
    slab
    index := .empty
    layouts := .empty
    generation := 0
    cache := .empty }

def bump (s : Store) : Store := { s with generation := s.generation + 1 }

def blockCount (s : Store) : Nat := s.pool.allocated

def buffersInUse (s : Store) : Nat := s.slab.outstanding

def cachedQueries (s : Store) : Nat := s.cache.size

def block? (s : Store) (id : BlockId) : Option Block := s.pool.get? id

def put (s : Store) (id : BlockId) (block : Block) : Store :=
  { s with pool := s.pool.set id block }

def blocks (s : Store) : List (BlockId × Block) := s.pool.entries

def blocksWithSignature (s : Store) (signature : Signature) : List BlockId :=
  (s.index.find? signature).getD []

def fullest : List (BlockId × Block) → Checked (Option (BlockId × Nat))
  | [] => .ok none
  | (id, block) :: rest => do
    let best ← fullest rest
    let occupied ← block.readOccupied
    match best with
    | none => return some (id, occupied)
    | some (other, most) => return some (if occupied < most then (other, most) else (id, occupied))

def candidates (s : Store) (signature : Signature) : List (BlockId × Block) :=
  (s.blocksWithSignature signature).filterMap fun id =>
    (s.block? id).bind fun block => if block.hasSpace then some (id, block) else none

def withSpace (s : Store) (signature : Signature) : Checked (Option BlockId) :=
  match s.policy with
  | .firstFit => .ok ((s.candidates signature).head?.map Prod.fst)
  | .mostOccupied => do return (← fullest (s.candidates signature)).map Prod.fst

def insertSorted (id : BlockId) : List BlockId → List BlockId
  | [] => [id]
  | other :: rest => if other < id then other :: insertSorted id rest else id :: other :: rest

def prepare (s : Store) (registry : Registry) (signature : Signature) : Checked (Outcome Store) :=
  if s.layouts.contains signature then .ok (.ok s)
  else do
    match ← Layout.generate signature registry s.capacity s.blockBytes with
    | .error error => return .error error
    | .ok layout => return .ok { s with layouts := s.layouts.insert signature layout }

def createBlock (s : Store) (registry : Registry) (signature : Signature) :
    Checked (Outcome BlockId × Store) := do
  match ← s.prepare registry signature with
  | .error error => return (.error error, s)
  | .ok s =>
    let layout ← Checked.entry (s.layouts.find? signature)
    match s.slab.allocate with
    | none => return (.error (.outOfSlabs s.slab.capacity), s)
    | some (payload, slab) =>
      let block ← Block.create layout payload
      match ← s.pool.allocate block with
      | .error block =>
        let slab ← slab.release block.payload
        return (.error (.outOfBlocks s.pool.capacity), { s with slab })
      | .ok (id, pool) =>
        let ids := insertSorted id (s.blocksWithSignature signature)
        let s := { s with slab, pool, index := s.index.insert signature ids }
        return (.ok id, s.bump)

def acquire (s : Store) (registry : Registry) (signature : Signature) :
    Checked (Outcome BlockId × Store) := do
  match ← s.withSpace signature with
  | some id => return (.ok id, s)
  | none => s.createBlock registry signature

def insert (s : Store) (registry : Registry) (signature : Signature) (entity : Entity) :
    Checked (Outcome (BlockId × Nat) × Store) := do
  match ← s.acquire registry signature with
  | (.error error, s) => return (.error error, s)
  | (.ok id, s) =>
    let full : Outcome (BlockId × Nat) := .error (.outOfBlocks s.pool.capacity)
    match s.block? id with
    | none => return (full, s)
    | some block =>
      match ← block.push entity with
      | none => return (full, s)
      | some (row, block) => return (.ok (id, row), (s.put id block).bump)

def destroyBlock (s : Store) (id : BlockId) : Checked Store := do
  match ← s.pool.release id with
  | none => return s
  | some (block, pool) =>
    let index :=
      match s.index.find? block.signature with
      | none => s.index
      | some ids =>
        let rest := ids.filter (· ≠ id)
        if rest.isEmpty then s.index.erase block.signature
        else s.index.insert block.signature rest
    let slab ← s.slab.release block.payload
    return { s with pool, index, slab }.bump

def releaseIfEmpty (s : Store) (id : BlockId) : Checked (Bool × Store) :=
  match s.block? id with
  | none => .ok (false, s)
  | some block => do
    if ← block.readEmpty then return (true, ← s.destroyBlock id) else return (false, s)

def releaseAll (slab : Slab) : List Block → Checked Slab
  | [] => .ok slab
  | block :: rest => do releaseAll (← slab.release block.payload) rest

/-- Frees all blocks. Layouts stay. -/
def clear (s : Store) : Checked Store := do
  let (blocks, pool) := s.pool.drain
  let slab ← releaseAll s.slab blocks
  return { s with pool, slab, index := .empty, cache := .empty }.bump

def scan (s : Store) (query : Signature) : List BlockId :=
  s.blocks.filterMap fun (id, block) =>
    if block.signature.isSuperset query && 0 < block.entityCount then some id else none

/-- The answer of `scan`, kept for the rest of the generation if queries are cached. -/
def matchingBlocks (s : Store) (query : Signature) : List BlockId × Store :=
  if s.cacheQueries then
    match (s.cache.find? query).filter fun cached => cached.generation = s.generation with
    | some cached => (cached.blocks, s)
    | none =>
      let blocks := s.scan query
      (blocks, { s with cache := s.cache.insert query ⟨s.generation, blocks⟩ })
  else (s.scan query, s)

end Store

end EntityStore
