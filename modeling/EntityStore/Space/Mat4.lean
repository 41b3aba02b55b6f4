import EntityStore.Space.Quat

set_option autoImplicit false

namespace EntityStore

structure Vec4 where
  x : Single
  y : Single
  z : Single
  w : Single
deriving DecidableEq, Repr

namespace Vec4

def toList (v : Vec4) : List Single := [v.x, v.y, v.z, v.w]

def ofList (values : List Single) : Vec4 :=
  ⟨values.getD 0 .zero, values.getD 1 .zero, values.getD 2 .zero, values.getD 3 .zero⟩

end Vec4

structure Mat4 where
  c0 : Vec4
  c1 : Vec4
  c2 : Vec4
  c3 : Vec4
deriving DecidableEq, Repr

namespace Mat4

def identity : Mat4 :=
  ⟨⟨.one, .zero, .zero, .zero⟩, ⟨.zero, .one, .zero, .zero⟩, ⟨.zero, .zero, .one, .zero⟩,
    ⟨.zero, .zero, .zero, .one⟩⟩

instance : Inhabited Mat4 := ⟨identity⟩

def columns (m : Mat4) : List Vec4 := [m.c0, m.c1, m.c2, m.c3]

def toList (m : Mat4) : List Single := m.columns.flatMap Vec4.toList

def ofList (cells : List Single) : Mat4 :=
  ⟨.ofList cells, .ofList (cells.drop 4), .ofList (cells.drop 8), .ofList (cells.drop 12)⟩

def fromDisplacement (t : Vec3) : Mat4 := { identity with c3 := ⟨t.x, t.y, t.z, .one⟩ }

def fromScaleRotationDisplacement (scale : Vec3) (rotation : Quat) (displacement : Vec3) : Mat4 :=
  let x := rotation.x
  let y := rotation.y
  let z := rotation.z
  let w := rotation.w
  let x2 := x + x
  let y2 := y + y
  let z2 := z + z
  let xx := x * x2
  let xy := x * y2
  let xz := x * z2
  let yy := y * y2
  let yz := y * z2
  let zz := z * z2
  let wx := w * x2
  let wy := w * y2
  let wz := w * z2
  ⟨⟨(.one - (yy + zz)) * scale.x, (xy + wz) * scale.x, (xz - wy) * scale.x, .zero⟩,
    ⟨(xy - wz) * scale.y, (.one - (xx + zz)) * scale.y, (yz + wx) * scale.y, .zero⟩,
    ⟨(xz + wy) * scale.z, (yz - wx) * scale.z, (.one - (xx + yy)) * scale.z, .zero⟩,
    ⟨displacement.x, displacement.y, displacement.z, .one⟩⟩

def displacement (m : Mat4) : Vec3 := ⟨m.c3.x, m.c3.y, m.c3.z⟩

def transformPoint (m : Mat4) (p : Vec3) : Vec3 :=
  ⟨m.c0.x * p.x + m.c1.x * p.y + m.c2.x * p.z + m.c3.x,
    m.c0.y * p.x + m.c1.y * p.y + m.c2.y * p.z + m.c3.y,
    m.c0.z * p.x + m.c1.z * p.y + m.c2.z * p.z + m.c3.z⟩

/-- A sum of four products from left to right. It starts from the negative zero, which is neutral
for addition also where the products are zeros. -/
def sumOfProducts (a b c d : Single) (v : Vec4) : Single :=
  Single.negZero + a * v.x + b * v.y + c * v.z + d * v.w

def apply (m : Mat4) (v : Vec4) : Vec4 :=
  ⟨sumOfProducts m.c0.x m.c1.x m.c2.x m.c3.x v, sumOfProducts m.c0.y m.c1.y m.c2.y m.c3.y v,
    sumOfProducts m.c0.z m.c1.z m.c2.z m.c3.z v, sumOfProducts m.c0.w m.c1.w m.c2.w m.c3.w v⟩

instance : Mul Mat4 where
  mul a b := ⟨a.apply b.c0, a.apply b.c1, a.apply b.c2, a.apply b.c3⟩

def near (a b : Mat4) (tolerance : Single) : Bool :=
  (a.toList.zip b.toList).all fun (x, y) => (x - y).abs.lessEq tolerance

def bytes (m : Mat4) : List UInt8 := m.toList.flatMap Single.bytes

def ofBytes (bytes : List UInt8) : Mat4 :=
  ofList ((Bytes.pieces Single.width 16 bytes).map Single.ofBytes)

end Mat4

end EntityStore
