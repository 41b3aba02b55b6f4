import EntityStore.Space.Mat4

set_option autoImplicit false

namespace EntityStore

structure Pose where
  position : Vec3
  rotation : Quat
  scale : Vec3
deriving DecidableEq, Repr

namespace Pose

def identity : Pose := ⟨.zero, .identity, .one⟩

instance : Inhabited Pose := ⟨identity⟩

def fromPosition (position : Vec3) : Pose := { identity with position }

def toMatrix (p : Pose) : Mat4 := Mat4.fromScaleRotationDisplacement p.scale p.rotation p.position

def toList (p : Pose) : List Single := p.position.toList ++ p.rotation.toList ++ p.scale.toList

def ofList (values : List Single) : Pose :=
  let value (i : Nat) : Single := values.getD i .zero
  ⟨⟨value 0, value 1, value 2⟩, ⟨value 3, value 4, value 5, value 6⟩,
    ⟨value 7, value 8, value 9⟩⟩

def bytes (p : Pose) : List UInt8 := p.toList.flatMap Single.bytes

def ofBytes (bytes : List UInt8) : Pose :=
  ofList ((Bytes.pieces Single.width 10 bytes).map Single.ofBytes)

end Pose

end EntityStore
