import EntityStore.Component.Shape
import EntityStore.Fault
import EntityStore.Signature
import EntityStore.Space.Pose

set_option autoImplicit false

namespace EntityStore

structure ComponentType where
  -- Types are the same only if their tags are, however much they agree otherwise.
  tag : Nat
  id : ComponentId
  name : String
  shape : Shape
  align : Nat
  initial : List UInt8
  ownsResource : Bool
  align_pos : 0 < align
  align_dvd_size : align ∣ shape.size
  initial_length : initial.length = shape.size
deriving DecidableEq

namespace ComponentType

def size (t : ComponentType) : Nat := t.shape.size

def castFlaw? (t : ComponentType) (cast : Cast) (position length : Nat) : Option CastFlaw :=
  match cast with
  | .value _ =>
    if length ≠ t.size then some .otherSize
    else if position % t.align ≠ 0 then some .unaligned
    else none
  | .run _ =>
    if position % t.align ≠ 0 then some .unaligned
    else if length % t.size ≠ 0 then some .remainder
    else none

def checkCast (t : ComponentType) (cast : Cast) (position length : Nat) : Checked Unit :=
  match t.castFlaw? cast position length with
  | none => .ok ()
  | some flaw => .error (.castRefused cast flaw)

def vec3Shape : Shape := .record (.ofList [("x", .real), ("y", .real), ("z", .real)])

def quatShape : Shape :=
  .record (.ofList [("x", .real), ("y", .real), ("z", .real), ("w", .real)])

def handleShape : Shape := .record (.ofList [("handle", .word)])

def transform : ComponentType where
  tag := 0
  id := 0
  name := "Transform"
  shape := .record (.ofList
    [("position", vec3Shape), ("rotation", quatShape), ("scale", vec3Shape)])
  align := 4
  initial := Pose.identity.bytes
  ownsResource := false
  align_pos := by decide
  align_dvd_size := by decide
  initial_length := by decide

def worldTransform : ComponentType where
  tag := 1
  id := 1
  name := "WorldTransform"
  shape := .record (.ofList [("cols", .vector (.vector .real 4) 4)])
  align := 4
  initial := Mat4.identity.bytes
  ownsResource := false
  align_pos := by decide
  align_dvd_size := by decide
  initial_length := by decide

/-- The entity that an entity hangs on; the invalid handle stands for none. -/
def child : ComponentType where
  tag := 2
  id := 2
  name := "Child"
  shape := .record (.ofList [("parent", .handle)])
  align := 8
  initial := Entity.invalid.bytes
  ownsResource := false
  align_pos := by decide
  align_dvd_size := by decide
  initial_length := by decide

def renderItem : ComponentType where
  tag := 3
  id := 3
  name := "RenderItem"
  shape := handleShape
  align := 4
  initial := Bytes.ofNat 4 0
  ownsResource := false
  align_pos := by decide
  align_dvd_size := by decide
  initial_length := by decide

def physicsBody : ComponentType where
  tag := 4
  id := 4
  name := "PhysicsBody"
  shape := handleShape
  align := 4
  initial := Bytes.ofNat 4 0
  ownsResource := true
  align_pos := by decide
  align_dvd_size := by decide
  initial_length := by decide

def camera : ComponentType where
  tag := 5
  id := 5
  name := "Camera"
  shape := .record (.ofList
    [("vertical_fov", .real), ("aspect_ratio", .real), ("near", .real), ("far", .real)])
  align := 4
  initial := [0x3f490fdb, 0x3fe38e39, 0x3dcccccd, 0x447a0000].flatMap (Bytes.ofNat 4)
  ownsResource := false
  align_pos := by decide
  align_dvd_size := by decide
  initial_length := by decide

def light : ComponentType where
  tag := 6
  id := 6
  name := "Light"
  shape := .record (.ofList [("color", vec3Shape), ("intensity", .real), ("range", .real)])
  align := 4
  initial :=
    [0x3f800000, 0x3f800000, 0x3f800000, 0x3f800000, 0x41200000].flatMap (Bytes.ofNat 4)
  ownsResource := false
  align_pos := by decide
  align_dvd_size := by decide
  initial_length := by decide

def builtins : List ComponentType :=
  [transform, worldTransform, child, renderItem, physicsBody, camera, light]

end ComponentType

structure Component where
  type : ComponentType
  bytes : List UInt8
  length_eq : bytes.length = type.size
deriving DecidableEq

namespace Component

@[ext] theorem ext_bytes {c d : Component} (type : c.type = d.type) (bytes : c.bytes = d.bytes) :
    c = d := by
  obtain ⟨_, _, _⟩ := c
  obtain ⟨_, _, _⟩ := d
  simp only at type bytes
  subst type
  subst bytes
  rfl

def ofBytes? (type : ComponentType) (bytes : List UInt8) : Option Component :=
  if h : bytes.length = type.size then some ⟨type, bytes, h⟩ else none

def initial (type : ComponentType) : Component := ⟨type, type.initial, type.initial_length⟩

def withBytes (c : Component) (bytes : List UInt8) : Component :=
  if h : bytes.length = c.type.size then ⟨c.type, bytes, h⟩ else c

@[simp] theorem type_withBytes (c : Component) (bytes : List UInt8) :
    (c.withBytes bytes).type = c.type := by
  by_cases fits : bytes.length = c.type.size <;> simp [withBytes, fits]

end Component

end EntityStore
