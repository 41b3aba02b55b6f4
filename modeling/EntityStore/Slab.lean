import EntityStore.Buffer

set_option autoImplicit false

namespace EntityStore

structure Slab where
  bufferBytes : Nat
  capacity : Nat
  outstanding : Nat
  /-- Zeroed buffers waiting for reuse, the next one to go out first. -/
  pooled : List Buffer
deriving DecidableEq, Repr

namespace Slab

def line : Nat := 64

def create (bufferBytes capacity : Nat) : Checked Slab :=
  if bufferBytes = 0 ∨ bufferBytes % line ≠ 0 then .error .unevenBuffer
  else .ok ⟨bufferBytes, capacity, 0, []⟩

def pooledCount (s : Slab) : Nat := s.pooled.length

def allocate (s : Slab) : Option (Buffer × Slab) :=
  if s.capacity ≤ s.outstanding then none
  else
    match s.pooled with
    | [] => some (Buffer.zeroed s.bufferBytes, { s with outstanding := s.outstanding + 1 })
    | buffer :: rest => some (buffer, { s with outstanding := s.outstanding + 1, pooled := rest })

def release (s : Slab) (buffer : Buffer) : Checked Slab := do
  Checked.require (buffer.size = s.bufferBytes) .foreignBuffer
  Checked.require (0 < s.outstanding) .freeWithoutAllocation
  return { s with
    outstanding := s.outstanding - 1
    pooled := Buffer.zeroed buffer.size :: s.pooled }

end Slab

end EntityStore
