import EntityStore.Pool

set_option autoImplicit false

namespace EntityStore.Pool

variable {α : Type}

inductive Operation (α : Type) where
  | allocate (value : α)
  | release (slot : Nat)
  | get (slot : Nat)
  | set (slot : Nat) (value : α)
  | swap (a b : Nat)
  | visit (f : Nat → α → α)
  | drain

inductive Answer (α : Type) where
  | placed (slot : Nat)
  | full (value : α)
  | held (value : Option α)
  | pair (values : Option (α × α))
  | entries (entries : List (Nat × α))
  | values (values : List α)
deriving DecidableEq, Repr

def operate (p : Pool α) : Operation α → Checked (Answer α × Pool α)
  | .allocate value => do
    match ← p.allocate value with
    | .error value => return (.full value, p)
    | .ok (slot, p) => return (.placed slot, p)
  | .release slot => do
    match ← p.release slot with
    | none => return (.held none, p)
    | some (value, p) => return (.held (some value), p)
  | .get slot => .ok (.held (p.get? slot), p)
  | .set slot value => .ok (.held (p.get? slot), p.set slot value)
  | .swap a b => do
    match ← p.getPair a b with
    | none => return (.pair none, p)
    | some (x, y) => return (.pair (some (x, y)), (p.set a y).set b x)
  | .visit f => .ok (.entries p.entries, p.visit f)
  | .drain =>
    let (values, p) := p.drain
    .ok (.values values, p)

def operateAll (p : Pool α) : List (Operation α) → Checked (List (Answer α) × Pool α)
  | [] => .ok ([], p)
  | operation :: rest => do
    let (answer, p) ← p.operate operation
    let (answers, p) ← p.operateAll rest
    return (answer :: answers, p)

end EntityStore.Pool
