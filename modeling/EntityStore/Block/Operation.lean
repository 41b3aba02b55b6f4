import EntityStore.Block.Rows

set_option autoImplicit false

namespace EntityStore.Block

inductive Operation where
  | push (entity : Entity)
  | swapRemove (row : Nat)
  | removeDisabled (row : Nat)
  | disable (row : Nat)
  | enable (row : Nat)
  | write (row : Nat) (id : ComponentId) (bytes : List UInt8)
  | assign (row : Nat) (value : Component)
  | change (type : ComponentType) (change : Change)

inductive Answer where
  | pushed (row : Option Nat)
  | removed (moved : Option Entity)
  | moved (transfer : RowTransfer)
  | written (done : Bool)
deriving DecidableEq, Repr

/-- The faults of an operation whose row is not what it must be, or whose bytes are too many or too
few. -/
inductive Operation.Asserts : Operation → Fault → Prop where
  | swapRemove (row : Nat) : Asserts (.swapRemove row) (.rowNotEnabled row)
  | removeDisabled (row : Nat) : Asserts (.removeDisabled row) (.rowNotDisabled row)
  | disable (row : Nat) : Asserts (.disable row) (.rowNotEnabled row)
  | enable (row : Nat) : Asserts (.enable row) (.rowNotDisabled row)
  | write (row : Nat) (id : ComponentId) (bytes : List UInt8) (size : Nat) :
      Asserts (.write row id bytes) (.lengthMismatch bytes.length size)

def operate (b : Block) : Operation → Checked (Answer × Block)
  | .push entity => do
    match ← b.push entity with
    | some (row, b) => return (.pushed (some row), b)
    | none => return (.pushed none, b)
  | .swapRemove row => told .removed (b.swapRemove row)
  | .removeDisabled row => told .removed (b.removeDisabled row)
  | .disable row => told .moved (b.disable row)
  | .enable row => told .moved (b.enable row)
  | .write row id bytes => noted (b.setBytes id row bytes)
  | .assign row value => noted (b.setComponent row value)
  | .change type change => noted (b.changeComponents type change)
where
  told {α : Type} (answer : α → Answer) (result : Checked (α × Block)) : Checked (Answer × Block) :=
    result.map fun (told, b) => (answer told, b)
  noted (result : Checked (Option Block)) : Checked (Answer × Block) :=
    result.map fun next => (.written next.isSome, next.getD b)

def operateAll (b : Block) : List Operation → Checked (List Answer × Block)
  | [] => .ok ([], b)
  | operation :: rest => do
    let (answer, b) ← b.operate operation
    let (answers, b) ← b.operateAll rest
    return (answer :: answers, b)

end EntityStore.Block
