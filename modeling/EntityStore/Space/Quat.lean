import EntityStore.Space.Vec3

set_option autoImplicit false

namespace EntityStore

structure Quat where
  x : Single
  y : Single
  z : Single
  w : Single
deriving DecidableEq, Repr

namespace Quat

def identity : Quat := ⟨.zero, .zero, .zero, .one⟩

instance : Inhabited Quat := ⟨identity⟩

def toList (q : Quat) : List Single := [q.x, q.y, q.z, q.w]

def fromAxisAngle (axis : Vec3) (angle : Single) : Quat :=
  let unit := axis.normalizeOrZero
  let s := (angle * .half).sin
  let c := (angle * .half).cos
  ⟨unit.x * s, unit.y * s, unit.z * s, c⟩

/-- The unit quaternion; the identity if the length is not above `Single.epsilon`. -/
def normalize (q : Quat) : Quat :=
  let length := (q.x * q.x + q.y * q.y + q.z * q.z + q.w * q.w).sqrt
  if Single.epsilon.less length then
    let inverse := .one / length
    ⟨q.x * inverse, q.y * inverse, q.z * inverse, q.w * inverse⟩
  else identity

def rotate (q : Quat) (v : Vec3) : Vec3 :=
  let axis : Vec3 := ⟨q.x, q.y, q.z⟩
  let t := (axis.cross v).scale .two
  v + t.scale q.w + axis.cross t

instance : Mul Quat where
  mul p q :=
    ⟨p.w * q.x + p.x * q.w + p.y * q.z - p.z * q.y,
      p.w * q.y - p.x * q.z + p.y * q.w + p.z * q.x,
      p.w * q.z + p.x * q.y - p.y * q.x + p.z * q.w,
      p.w * q.w - p.x * q.x - p.y * q.y - p.z * q.z⟩

end Quat

end EntityStore
