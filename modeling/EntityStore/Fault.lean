import EntityStore.Cast
import EntityStore.Entity

set_option autoImplicit false

namespace EntityStore

/-- A broken precondition of the caller or of the bookkeeping. What a correct caller can meet is a
`StoreError`. -/
inductive Fault where
  | zeroCapacity
  | unevenBuffer
  | foreignBuffer
  | freeWithoutAllocation
  | undersizedPayload
  | rowNotEnabled (row : Nat)
  | rowNotDisabled (row : Nat)
  | indexSpaceExhausted
  | placedHandleAbandoned
  | unreservedHandlePlaced
  | deadHandleRelocated (entity : Entity)
  | missingBundleColumn (component : String)
  | positionBeyondEnd (position length : Nat)
  | spanBeyondEnd (start stop length : Nat)
  | lengthMismatch (source target : Nat)
  | missingKey
  | castRefused (cast : Cast) (flaw : CastFlaw)
  | differenceUnderflow
  | sumOverflow
  | productOverflow
  | zeroAlignment
deriving DecidableEq, Repr

namespace Fault

def message : Fault → String
  | zeroCapacity => "Capacity must be greater than zero"
  | unevenBuffer => "Buffer size must be a non-zero multiple of 64"
  | foreignBuffer => "Foreign slab buffer"
  | freeWithoutAllocation => "Slab free without allocation"
  | undersizedPayload => "Payload smaller than layout"
  | rowNotEnabled row => "Row " ++ toString row ++ " is not enabled"
  | rowNotDisabled row => "Row " ++ toString row ++ " is not disabled"
  | indexSpaceExhausted => "Entity index space exhausted"
  | placedHandleAbandoned => "Abandoning a placed handle"
  | unreservedHandlePlaced => "Placing a handle that was not reserved"
  | deadHandleRelocated entity => "Relocating dead entity " ++ entity.text
  | missingBundleColumn component => "Block lacks bundle component " ++ component
  | positionBeyondEnd position length =>
    "index out of bounds: the len is " ++ toString length ++ " but the index is " ++
      toString position
  | spanBeyondEnd start stop length =>
    (if length < start then "range start index " ++ toString start
      else "range end index " ++ toString stop) ++
      " out of range for slice of length " ++ toString length
  | lengthMismatch source target =>
    "copy_from_slice: source slice length (" ++ toString source ++
      ") does not match destination slice length (" ++ toString target ++ ")"
  | missingKey => "no entry found for key"
  | castRefused cast flaw => cast.text ++ ">" ++ flaw.text
  | differenceUnderflow => "attempt to subtract with overflow"
  | sumOverflow => "attempt to add with overflow"
  | productOverflow => "attempt to multiply with overflow"
  | zeroAlignment => "attempt to calculate the remainder with a divisor of zero"

end Fault

abbrev Checked (α : Type) := Except Fault α

namespace Checked

def require (condition : Bool) (fault : Fault) : Checked Unit :=
  if condition then .ok () else .error fault

def item {α : Type} (entries : List α) (position : Nat) : Checked α :=
  match entries[position]? with
  | some entry => .ok entry
  | none => .error (.positionBeyondEnd position entries.length)

def entry {α : Type} (found : Option α) : Checked α :=
  match found with
  | some a => .ok a
  | none => .error .missingKey

def part {α : Type} (entries : List α) (position : Nat) : Checked (List α × List α) :=
  if position ≤ entries.length then .ok (entries.take position, entries.drop position)
  else .error (.positionBeyondEnd position entries.length)

def put {α : Type} (entries : List α) (position : Nat) (entry : α) : Checked (List α) :=
  if position < entries.length then .ok (entries.set position entry)
  else .error (.positionBeyondEnd position entries.length)

def insertAt {α : Type} (entries : List α) (position : Nat) (entry : α) : Checked (List α) := do
  let (before, after) ← part entries position
  return before ++ entry :: after

def sub (a b : Nat) : Checked Nat := if b ≤ a then .ok (a - b) else .error .differenceUnderflow

def sizeLimit : Nat := 0x10000000000000000

def add (a b : Nat) : Checked Nat :=
  if a + b < sizeLimit then .ok (a + b) else .error .sumOverflow

def next32 (n : UInt32) : Checked UInt32 :=
  if n + 1 = 0 then .error .sumOverflow else .ok (n + 1)

def next64 (n : UInt64) : Checked UInt64 :=
  if n + 1 = 0 then .error .sumOverflow else .ok (n + 1)

def mul (a b : Nat) : Checked Nat :=
  if a * b < sizeLimit then .ok (a * b) else .error .productOverflow

def alignUp (n align : Nat) : Checked Nat :=
  if align = 0 then .error .zeroAlignment
  else if n % align = 0 then .ok n
  else add n (align - n % align)

end Checked

/-- The state that work came to, and the fault that stopped it, if one did. -/
structure Progress (σ : Type) where
  state : σ
  fault : Option Fault

namespace Progress

/-- Takes steps until one faults; a step that faults changes nothing. -/
def run {σ α : Type} (step : σ → α → Checked σ) : σ → List α → Progress σ
  | state, [] => ⟨state, none⟩
  | state, a :: rest =>
    match step state a with
    | .error fault => ⟨state, some fault⟩
    | .ok state => run step state rest

def finished {σ : Type} (p : Progress σ) : Checked σ :=
  match p.fault with
  | none => .ok p.state
  | some fault => .error fault

end Progress

end EntityStore
