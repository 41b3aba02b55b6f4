import EntityStore.Slab

set_option autoImplicit false

namespace EntityStore.Slab

structure Loans where
  slab : Slab
  /-- The buffers that are held, the one that was lent first in front. -/
  held : List Buffer
deriving DecidableEq, Repr

inductive Operation where
  | allocate
  | write (holder start : Nat) (bytes : List UInt8)
  | release (holder : Nat)
deriving DecidableEq, Repr

inductive Answer where
  | lent (buffer : Option Buffer)
  | written (done : Bool)
  | released (done : Bool)
deriving DecidableEq, Repr

namespace Loans

def operate (l : Loans) : Operation → Checked (Answer × Loans)
  | .allocate =>
    match l.slab.allocate with
    | none => .ok (.lent none, l)
    | some (buffer, slab) => .ok (.lent (some buffer), ⟨slab, l.held ++ [buffer]⟩)
  | .write holder start bytes =>
    match l.held[holder]? with
    | none => .ok (.written false, l)
    | some buffer => do
      let buffer ← buffer.splice start bytes
      return (.written true, { l with held := l.held.set holder buffer })
  | .release holder =>
    match l.held[holder]? with
    | none => .ok (.released false, l)
    | some buffer => do
      let slab ← l.slab.release buffer
      return (.released true, ⟨slab, l.held.eraseIdx holder⟩)

def operateAll (l : Loans) : List Operation → Checked (List Answer × Loans)
  | [] => .ok ([], l)
  | operation :: rest => do
    let (answer, l) ← l.operate operation
    let (answers, l) ← l.operateAll rest
    return (answer :: answers, l)

end Loans

end EntityStore.Slab
