set_option autoImplicit false

namespace EntityStore.Bytes

/-- The `width` low bytes of `n`, least significant byte first. -/
def ofNat : Nat → Nat → List UInt8
  | 0, _ => []
  | width + 1, n => UInt8.ofNat n :: ofNat width (n / 256)

def toNat : List UInt8 → Nat
  | [] => 0
  | byte :: rest => byte.toNat + 256 * toNat rest

def limit : Nat → Nat
  | 0 => 1
  | width + 1 => 256 * limit width

@[simp] theorem length_ofNat (width n : Nat) : (ofNat width n).length = width := by
  induction width generalizing n with
  | zero => rfl
  | succ width ih => simp [ofNat, ih]

theorem toNat_ofNat (width n : Nat) : toNat (ofNat width n) = n % limit width := by
  induction width generalizing n with
  | zero => simp [ofNat, toNat, limit, Nat.mod_one]
  | succ width ih =>
    have low : (UInt8.ofNat n).toNat = n % 256 := UInt8.toNat_ofNat'
    rw [ofNat, toNat, ih, low, limit, Nat.mod_mul]

theorem toNat_lt (bytes : List UInt8) : toNat bytes < limit bytes.length := by
  induction bytes with
  | nil => simp [toNat, limit]
  | cons byte rest ih =>
    have low := byte.toNat_lt
    simp only [toNat, List.length_cons, limit]
    omega

theorem ofNat_toNat (bytes : List UInt8) : ofNat bytes.length (toNat bytes) = bytes := by
  induction bytes with
  | nil => rfl
  | cons byte rest ih =>
    have low := byte.toNat_lt
    have head : UInt8.ofNat (byte.toNat + 256 * toNat rest) = byte := by
      apply UInt8.toNat_inj.mp
      simp only [UInt8.toNat_ofNat']
      omega
    have tail : (byte.toNat + 256 * toNat rest) / 256 = toNat rest := by omega
    simp only [List.length_cons, toNat, ofNat, head, tail, ih]

def pieces (size : Nat) : Nat → List UInt8 → List (List UInt8)
  | 0, _ => []
  | count + 1, bytes => bytes.take size :: pieces size count (bytes.drop size)

@[simp] theorem length_pieces (size count : Nat) (bytes : List UInt8) :
    (pieces size count bytes).length = count := by
  induction count generalizing bytes with
  | zero => rfl
  | succ count ih => simp [pieces, ih]

theorem flatten_pieces (size count : Nat) (bytes : List UInt8)
    (length : bytes.length = size * count) : (pieces size count bytes).flatten = bytes := by
  induction count generalizing bytes with
  | zero =>
    have empty : bytes = [] := List.length_eq_zero_iff.mp (by simpa using length)
    simp [pieces, empty]
  | succ count ih =>
    have rest : (bytes.drop size).length = size * count := by
      rw [List.length_drop, length, Nat.mul_succ]
      omega
    simp [pieces, ih (bytes.drop size) rest]

end EntityStore.Bytes
