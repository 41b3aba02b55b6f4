import EntityStore.Block.Split
import EntityStore.Store

set_option autoImplicit false

namespace EntityStore

structure Term where
  access : Access
  type : ComponentType
deriving DecidableEq

inductive Query where
  | one (term : Term)
  | join (left right : Query)
deriving DecidableEq

namespace Query

def terms : Query → List Term
  | one term => [term]
  | join left right => left.terms ++ right.terms

def ids (q : Query) : List ComponentId := q.terms.map fun term => term.type.id

def signature (q : Query) : Signature := .ofList q.ids

def firstRepeat? (q : Query) : Option ComponentId := Signature.firstRepeat .empty q.ids

end Query

structure View where
  query : Query
  blocks : List BlockId
deriving DecidableEq

structure Cell where
  block : BlockId
  term : Term
  piece : ColumnPiece
  row : Nat
deriving DecidableEq

/-- The rest of the block that an iterator is in: the entities, and the items of every term, none if
the block has no column for one of the terms. -/
structure Fetch (α : Type) where
  entities : List Entity
  columns : Option (List (List α))

namespace Fetch

variable {α : Type}

def empty : Fetch α := ⟨[], none⟩

def next? (fetch : Fetch α) : Option ((Entity × List α) × Fetch α) :=
  match fetch.entities, fetch.columns with
  | e :: entities, some columns =>
    (columns.mapM List.head?).map fun items => ((e, items), ⟨entities, some (columns.map List.tail)⟩)
  | _, _ => none

theorem next_shrinks {fetch next : Fetch α} {row : Entity × List α} (more : fetch.next? = some (row, next)) :
    next.entities.length < fetch.entities.length := by
  obtain ⟨entities, columns⟩ := fetch
  cases entities with
  | nil => simp [next?] at more
  | cons e rest =>
      cases columns with
      | none => simp [next?] at more
      | some columns =>
          obtain ⟨items, _, given⟩ := Option.map_eq_some_iff.mp more
          obtain ⟨_, rfl⟩ := Prod.mk.inj given
          exact Nat.lt_succ_self rest.length

end Fetch

/-- An iterator between two rows. `ids` are the blocks still to come, `source` is where they are
looked for. -/
structure Cursor (α σ : Type) where
  fetch : Fetch α
  ids : List BlockId
  source : σ

namespace Cursor

variable {α σ : Type}

/-- How an iterator comes to its next block. It ends if the block cannot be found any more, and passes
over a block that is gone. -/
abbrev Entry (α σ : Type) := σ → BlockId → Checked (Option (Option (Fetch α) × σ))

def nextIn (entry : Entry α σ) (fetch : Fetch α) (ids : List BlockId) (source : σ) :
    Checked (Option ((Entity × List α) × Cursor α σ)) :=
  match fetch.next? with
  | some (row, fetch) => .ok (some (row, ⟨fetch, ids, source⟩))
  | none =>
    match ids with
    | [] => .ok none
    | id :: ids => do
      match ← entry source id with
      | none => return none
      | some (none, source) => nextIn entry fetch ids source
      | some (some fetch, source) => nextIn entry fetch ids source

def next? (entry : Entry α σ) (c : Cursor α σ) : Checked (Option ((Entity × List α) × Cursor α σ)) :=
  nextIn entry c.fetch c.ids c.source

theorem next_in_shrinks (entry : Entry α σ) (fetch : Fetch α) (ids : List BlockId) (source : σ)
    {row : Entity × List α} {c : Cursor α σ} (found : nextIn entry fetch ids source = .ok (some (row, c))) :
    c.ids.length < ids.length ∨
      c.ids.length = ids.length ∧ c.fetch.entities.length < fetch.entities.length := by
  unfold nextIn at found
  cases more : fetch.next? with
  | some given =>
      obtain ⟨_, next⟩ := given
      rw [more] at found
      obtain ⟨_, rfl⟩ := Prod.mk.inj (Option.some.inj (Except.ok.inj found))
      exact Or.inr ⟨rfl, Fetch.next_shrinks more⟩
  | none =>
      rw [more] at found
      cases ids with
      | nil => simp at found
      | cons id rest =>
          left
          -- Every further block shortens the list, wherever its rows come from.
          have later (fetch : Fetch α) (source : σ)
              (found : nextIn entry fetch rest source = .ok (some (row, c))) : c.ids.length < rest.length + 1 := by
            have := next_in_shrinks entry fetch rest source found
            omega
          simp only at found
          cases entered : entry source id with
          | error fault => simp [entered, bind, Except.bind] at found
          | ok place =>
              simp only [entered, bind, Except.bind] at found
              match place, found with
              | some (none, source), found => exact later fetch source found
              | some (some next, source), found => exact later next source found
termination_by ids.length

def rows (entry : Entry α σ) (c : Cursor α σ) : Checked (List (Entity × List α)) :=
  match _found : c.next? entry with
  | .error fault => .error fault
  | .ok none => .ok []
  | .ok (some (row, next)) => (rows entry next).map (row :: ·)
termination_by (c.ids.length, c.fetch.entities.length)
decreasing_by
  exact Prod.lex_def.mpr (next_in_shrinks entry c.fetch c.ids c.source _found)

end Cursor

namespace Store

def countRows (s : Store) (v : View) : Nat :=
  (v.blocks.filterMap fun id => (s.block? id).map Block.entityCount).foldr (· + ·) 0

/-- The values of some terms, none if the type of one is not the one registered under its id. -/
def readTerms (block : Block) : List Term → Checked (Option (List (List Component)))
  | [] => .ok (some [])
  | term :: rest => do
    match ← block.readComponents term.type with
    | none => return none
    | some values => return (← readTerms block rest).map (values :: ·)

def enter (s : Store) (q : Query) : Cursor.Entry Component Unit := fun source id => do
  match s.block? id with
  | none => return some (none, source)
  | some block =>
    let entities ← block.readEntities
    return some (some ⟨entities, ← readTerms block q.terms⟩, source)

def readRows (s : Store) (v : View) : Checked (List (Entity × List Component)) :=
  Cursor.rows (s.enter v.query) ⟨.empty, v.blocks, ()⟩

def takeTerms (id : BlockId) (rows : Nat) (split : SplitBlock) :
    List Term → Checked (Option (List (List Cell)))
  | [] => .ok (some [])
  | term :: rest => do
    match ← split.take term.type with
    | none => return none
    | some (piece, split) =>
      let cells := (List.range rows).map fun row => ⟨id, term, piece, row⟩
      return (← takeTerms id rows split rest).map (cells :: ·)

def fetchCells (q : Query) (id : BlockId) (block : Block) : Checked (Fetch Cell) := do
  let split ← block.split
  return ⟨split.entities, ← takeTerms id block.entityCount split q.terms⟩

def seek (position : Nat) : List (Option Block × Nat) → Option (Option Block × List (Option Block × Nat))
  | [] => none
  | (slot, i) :: rest => if i = position then some (slot, rest) else seek position rest

/-- A writing iterator passes over the slots of the pool once, in their order. -/
def enterMut (q : Query) : Cursor.Entry Cell (List (Option Block × Nat)) := fun slots id =>
  match seek id slots with
  | none => .ok none
  | some (none, slots) => .ok (some (none, slots))
  | some (some block, slots) => do return some (some (← fetchCells q id block), slots)

def cellRows (s : Store) (v : View) : Checked (List (Entity × List Cell)) :=
  Cursor.rows (enterMut v.query) ⟨.empty, v.blocks, s.pool.slots.toList.zipIdx⟩

def readCell? (s : Store) (c : Cell) : Option Component :=
  (s.block? c.block).map fun block => block.valueAt c.term.type (c.piece.place c.row)

abbrev Edit := Entity → Block.Change

def visitCell (s : Store) (edit : Edit) (e : Entity) (c : Cell) :
    Checked (Option Component × Store) :=
  match c.term.access, s.block? c.block with
  | .write, some block => do
    let old := block.valueAt c.term.type (c.piece.place c.row)
    let block ← block.writePiece c.piece c.row (old.withBytes (edit e old)).bytes
    let s := s.put c.block block
    return (s.readCell? c, s)
  | _, _ => .ok (s.readCell? c, s)

def visitRow (s : Store) (edit : Edit) (e : Entity) :
    List Cell → Checked (List Component × Store)
  | [] => .ok ([], s)
  | c :: rest => do
    let (value, s) ← s.visitCell edit e c
    let (values, s) ← s.visitRow edit e rest
    return (value.toList ++ values, s)

def visitRows (s : Store) (edit : Edit) :
    List (Entity × List Cell) → Checked (List (Entity × List Component) × Store)
  | [] => .ok ([], s)
  | (e, cells) :: rest => do
    let (values, s) ← s.visitRow edit e cells
    let (rows, s) ← s.visitRows edit rest
    return ((e, values) :: rows, s)

end Store

end EntityStore
