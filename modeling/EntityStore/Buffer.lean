import EntityStore.Fault

set_option autoImplicit false

namespace EntityStore

structure Buffer where
  bytes : Array UInt8
deriving DecidableEq, Repr

namespace Buffer

def zeroed (size : Nat) : Buffer := ⟨Array.replicate size 0⟩

def size (b : Buffer) : Nat := b.bytes.size

def get (b : Buffer) (position : Nat) : UInt8 := b.bytes.getD position 0

def writeFrom (bytes : Array UInt8) (start : Nat) : List UInt8 → Array UInt8
  | [] => bytes
  | byte :: rest => writeFrom (bytes.setIfInBounds start byte) (start + 1) rest

def read (b : Buffer) (start : Nat) : Nat → List UInt8
  | 0 => []
  | length + 1 => b.get start :: b.read (start + 1) length

def write (b : Buffer) (start : Nat) (bytes : List UInt8) : Buffer :=
  ⟨writeFrom b.bytes start bytes⟩

def checkSpan (b : Buffer) (start length : Nat) : Checked Unit :=
  Checked.require (start + length ≤ b.size) (.spanBeyondEnd start (start + length) b.size)

def slice (b : Buffer) (start length : Nat) : Checked (List UInt8) := do
  b.checkSpan start length
  return b.read start length

def splice (b : Buffer) (start : Nat) (bytes : List UInt8) : Checked Buffer := do
  b.checkSpan start bytes.length
  return b.write start bytes

def put (b : Buffer) (position : Nat) (byte : UInt8) : Checked Buffer := do
  Checked.require (position < b.size) (.positionBeyondEnd position b.size)
  return b.write position [byte]

def isZero (b : Buffer) : Bool := b.bytes.all (· == 0)

def nonzero (b : Buffer) : List (Nat × UInt8) :=
  b.bytes.toList.zipIdx.filterMap fun (byte, i) => if byte = 0 then none else some (i, byte)

theorem size_writeFrom (bytes : Array UInt8) (start : Nat) (values : List UInt8) :
    (writeFrom bytes start values).size = bytes.size := by
  induction values generalizing bytes start with
  | nil => rfl
  | cons value rest ih => simp [writeFrom, ih]

@[simp] theorem size_zeroed (n : Nat) : (zeroed n).size = n := by simp [zeroed, size]

@[simp] theorem size_write (b : Buffer) (start : Nat) (bytes : List UInt8) :
    (b.write start bytes).size = b.size := size_writeFrom b.bytes start bytes

@[simp] theorem length_read (b : Buffer) (start length : Nat) :
    (b.read start length).length = length := by
  induction length generalizing start with
  | zero => rfl
  | succ length ih => simp [read, ih]

theorem getElem?_writeFrom (bytes : Array UInt8) (start : Nat) (values : List UInt8) (i : Nat) :
    (writeFrom bytes start values)[i]? =
      if start ≤ i ∧ i < start + values.length ∧ i < bytes.size then values[i - start]?
      else bytes[i]? := by
  induction values generalizing bytes start with
  | nil =>
    have never : ¬ (start ≤ i ∧ i < start + ([] : List UInt8).length ∧ i < bytes.size) := by
      simp only [List.length_nil]
      omega
    rw [if_neg never, writeFrom]
  | cons value rest ih =>
    rw [writeFrom, ih, Array.size_setIfInBounds, Array.getElem?_setIfInBounds, List.length_cons]
    by_cases first : start = i
    · subst first
      have before :
          ¬ (start + 1 ≤ start ∧ start < start + 1 + rest.length ∧ start < bytes.size) := by
        omega
      rw [if_neg before, if_pos rfl]
      by_cases inside : start < bytes.size <;> simp [inside]
    · rw [if_neg first]
      by_cases later : start + 1 ≤ i ∧ i < start + 1 + rest.length ∧ i < bytes.size
      · have here : start ≤ i ∧ i < start + (rest.length + 1) ∧ i < bytes.size := by omega
        have offset : i - start = (i - (start + 1)) + 1 := by omega
        rw [if_pos later, if_pos here, offset, List.getElem?_cons_succ]
      · have nowhere : ¬ (start ≤ i ∧ i < start + (rest.length + 1) ∧ i < bytes.size) := by omega
        rw [if_neg later, if_neg nowhere]

end Buffer

end EntityStore
