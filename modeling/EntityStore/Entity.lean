import EntityStore.Bytes

set_option autoImplicit false

namespace EntityStore

structure Entity where
  index : UInt32
  generation : UInt32
deriving DecidableEq, Repr

namespace Entity

def invalid : Entity := ⟨0xffffffff, 0xffffffff⟩

instance : Inhabited Entity := ⟨invalid⟩

def isInvalid (e : Entity) : Bool := e = invalid

def bits (e : Entity) : Nat := e.generation.toNat * 0x100000000 + e.index.toNat

def ofBits (bits : Nat) : Entity := ⟨UInt32.ofNat bits, UInt32.ofNat (bits / 0x100000000)⟩

def compare (a b : Entity) : Ordering := Ord.compare a.bits b.bits

def text (e : Entity) : String :=
  if e.isInvalid then "Entity(INVALID)"
  else "Entity(" ++ toString e.index.toNat ++ "v" ++ toString e.generation.toNat ++ ")"

def width : Nat := 8

def bytes (e : Entity) : List UInt8 := Bytes.ofNat width e.bits

def ofBytes (bytes : List UInt8) : Entity := ofBits (Bytes.toNat bytes)

theorem limit_width : Bytes.limit width = 0x10000000000000000 := by decide

theorem bits_lt (e : Entity) : e.bits < Bytes.limit width := by
  have low := e.index.toNat_lt
  have high := e.generation.toNat_lt
  simp only [bits, limit_width]
  omega

theorem ofBits_bits (e : Entity) : ofBits e.bits = e := by
  obtain ⟨index, generation⟩ := e
  have low := index.toNat_lt
  have high := generation.toNat_lt
  simp only [ofBits, bits, mk.injEq]
  constructor
  · apply UInt32.toNat_inj.mp
    simp only [UInt32.toNat_ofNat']
    omega
  · apply UInt32.toNat_inj.mp
    simp only [UInt32.toNat_ofNat']
    omega

theorem bits_ofBits (n : Nat) : (ofBits n).bits = n % Bytes.limit width := by
  simp only [ofBits, bits, UInt32.toNat_ofNat', limit_width]
  omega

@[simp] theorem length_bytes (e : Entity) : e.bytes.length = width :=
  Bytes.length_ofNat width e.bits

theorem ofBytes_bytes (e : Entity) : ofBytes e.bytes = e := by
  rw [ofBytes, bytes, Bytes.toNat_ofNat]
  rw [Nat.mod_eq_of_lt e.bits_lt, ofBits_bits]

/-- The zero bytes of a free row read as a handle of generation 0. -/
theorem ofBytes_replicate_zero : ofBytes (List.replicate width 0) = ⟨0, 0⟩ := by decide

end Entity

end EntityStore
