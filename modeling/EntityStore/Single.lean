import EntityStore.Bytes

set_option autoImplicit false

namespace EntityStore

/-- Single-precision numbers as 32-bit words. Arithmetic rounds once per operation, to nearest, and the word
of a NaN is part of its value: an operand that is a NaN comes through with its quiet bit set, the first one
if both are. -/
structure Single where
  bits : UInt32
deriving DecidableEq, Repr

namespace Single

def zero : Single := ⟨0⟩

def negZero : Single := ⟨0x80000000⟩

def half : Single := ⟨0x3f000000⟩

def one : Single := ⟨0x3f800000⟩

def two : Single := ⟨0x40000000⟩

def epsilon : Single := ⟨0x34000000⟩

/-- What an operation without a meaningful result gives. -/
def invalidResult : Single := ⟨0xffc00000⟩

instance : Inhabited Single := ⟨zero⟩

def isNaN (x : Single) : Bool := decide (0x7f800000 < x.bits &&& 0x7fffffff)

def quiet (x : Single) : Single := ⟨x.bits ||| 0x00400000⟩

def toFloat (x : Single) : Float32 := Float32.ofBits x.bits

def ofFloat (x : Float32) : Single := if x.isNaN then invalidResult else ⟨x.toBits⟩

def lift (op : Float32 → Float32) (x : Single) : Single :=
  if x.isNaN then x.quiet else ofFloat (op x.toFloat)

def lift₂ (op : Float32 → Float32 → Float32) (x y : Single) : Single :=
  if x.isNaN then x.quiet else if y.isNaN then y.quiet else ofFloat (op x.toFloat y.toFloat)

instance : Add Single := ⟨lift₂ (· + ·)⟩

instance : Sub Single := ⟨lift₂ (· - ·)⟩

instance : Mul Single := ⟨lift₂ (· * ·)⟩

instance : Div Single := ⟨lift₂ (· / ·)⟩

def sqrt : Single → Single := lift Float32.sqrt

def sin : Single → Single := lift Float32.sin

def cos : Single → Single := lift Float32.cos

def abs (x : Single) : Single := ⟨x.bits &&& 0x7fffffff⟩

def less (x y : Single) : Bool := decide (x.toFloat < y.toFloat)

def lessEq (x y : Single) : Bool := decide (x.toFloat ≤ y.toFloat)

/-- Numeric equality: zeros of either sign are equal, a NaN equals nothing. -/
def numEq (x y : Single) : Bool := x.toFloat == y.toFloat

def roundShift (m shift : Nat) : Nat :=
  let unit := 1 <<< shift
  let quotient := m / unit
  let twice := 2 * (m % unit)
  if unit < twice ∨ (twice = unit ∧ quotient % 2 = 1) then quotient + 1 else quotient

def scaleTo (m : Nat) (e unit : Int) : Nat :=
  if unit ≤ e then m <<< (e - unit).toNat else roundShift m (unit - e).toNat

def signBit (negative : Bool) : Nat := if negative then 0x80000000 else 0

/-- The single-precision number nearest to `m` times two to the power `e`, infinite if that is too
large. A word counts the representable numbers from zero on, so rounding up may carry into the
exponent. -/
def nearest (negative : Bool) (m : Nat) (e : Int) : Single :=
  if m = 0 then ⟨UInt32.ofNat (signBit negative)⟩
  else
    let unit := max (e + Nat.log2 m - 23) (-149)
    let word := (unit + 149).toNat * 0x800000 + scaleTo m e unit
    ⟨UInt32.ofNat (signBit negative + min word 0x7f800000)⟩

def ofInt (n : Int) : Single := nearest (decide (n < 0)) n.natAbs 0

def isNegative (x : Single) : Bool := decide (0x80000000 ≤ x.bits.toNat)

def exponentField (x : Single) : Nat := x.bits.toNat / 0x800000 % 256

def fraction (x : Single) : Nat := x.bits.toNat % 0x800000

def wideSignBit (negative : Bool) : Nat := if negative then 0x8000000000000000 else 0

def wideUnit : Nat := 0x10000000000000

def widen (x : Single) : UInt64 :=
  let sign := wideSignBit x.isNegative
  if x.exponentField = 255 then
    let payload := if x.fraction = 0 then 0 else x.quiet.fraction <<< 29
    UInt64.ofNat (sign + 2047 * wideUnit + payload)
  else
    let m := if x.exponentField = 0 then x.fraction else 0x800000 + x.fraction
    if m = 0 then UInt64.ofNat sign
    else
      let top := Nat.log2 m
      let biased := max (x.exponentField : Int) 1 - 150 + top + 1023
      UInt64.ofNat (sign + biased.toNat * wideUnit + (m <<< (52 - top) - wideUnit))

def narrow (word : UInt64) : Single :=
  let negative : Bool := decide (0x8000000000000000 ≤ word.toNat)
  let exponent : Nat := word.toNat / wideUnit % 2048
  let fraction := word.toNat % wideUnit
  if exponent = 2047 then
    let payload := if fraction = 0 then 0 else 0x400000 + fraction / 0x20000000 % 0x400000
    ⟨UInt32.ofNat (signBit negative + 255 * 0x800000 + payload)⟩
  else if exponent = 0 then nearest negative fraction (-1074)
  else nearest negative (wideUnit + fraction) ((exponent : Int) - 1075)

def width : Nat := 4

def bytes (x : Single) : List UInt8 := Bytes.ofNat width x.bits.toNat

def ofBytes (bytes : List UInt8) : Single := ⟨UInt32.ofNat (Bytes.toNat bytes)⟩

end Single

end EntityStore
