import EntityStore.Fault

set_option autoImplicit false

namespace EntityStore

structure Pool (α : Type) where
  slots : Array (Option α)
  /-- Free slots, the next one to be given out first. -/
  free : List Nat
  allocated : Nat

namespace Pool

variable {α : Type}

def create (capacity : Nat) : Checked (Pool α) :=
  if capacity = 0 then .error .zeroCapacity
  else .ok ⟨Array.replicate capacity none, List.range capacity, 0⟩

def capacity (p : Pool α) : Nat := p.slots.size

def next? (p : Pool α) : Option Nat := p.free.head?

def get? (p : Pool α) (slot : Nat) : Option α := p.slots[slot]?.join

def allocate (p : Pool α) (value : α) : Checked (Except α (Nat × Pool α)) :=
  match p.free with
  | [] => .ok (.error value)
  | slot :: rest =>
    if slot < p.slots.size then
      .ok (.ok (slot, ⟨p.slots.setIfInBounds slot (some value), rest, p.allocated + 1⟩))
    else .error (.positionBeyondEnd slot p.slots.size)

def release (p : Pool α) (slot : Nat) : Checked (Option (α × Pool α)) :=
  match p.get? slot with
  | none => .ok none
  | some value => do
    let allocated ← Checked.sub p.allocated 1
    return some (value, ⟨p.slots.setIfInBounds slot none, slot :: p.free, allocated⟩)

def set (p : Pool α) (slot : Nat) (value : α) : Pool α :=
  match p.get? slot with
  | none => p
  | some _ => { p with slots := p.slots.setIfInBounds slot (some value) }

/-- The values of two different occupied slots. The slots are parted at the higher one, so that each
value lies in its own part. -/
def getPair (p : Pool α) (a b : Nat) : Checked (Option (α × α)) :=
  if a = b ∨ p.capacity ≤ a ∨ p.capacity ≤ b then .ok none
  else do
    let (low, high, swapped) := if a < b then (a, b, false) else (b, a, true)
    let (head, tail) ← Checked.part p.slots.toList high
    match ← Checked.item head low with
    | none => return none
    | some first =>
      match ← Checked.item tail 0 with
      | none => return none
      | some second => return some (if swapped then (second, first) else (first, second))

def entries (p : Pool α) : List (Nat × α) :=
  p.slots.toList.zipIdx.filterMap fun (slot, i) => slot.map fun value => (i, value)

def visit (p : Pool α) (f : Nat → α → α) : Pool α :=
  { p with slots := p.slots.mapIdx fun slot value => value.map (f slot) }

def map (p : Pool α) (f : α → α) : Pool α := p.visit fun _ => f

def drain (p : Pool α) : List α × Pool α :=
  (p.slots.toList.filterMap id,
    ⟨Array.replicate p.slots.size none, List.range p.slots.size, 0⟩)

end Pool

end EntityStore
