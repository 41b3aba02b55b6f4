import EntityStore.Single

set_option autoImplicit false

namespace EntityStore

structure Vec3 where
  x : Single
  y : Single
  z : Single
deriving DecidableEq, Repr

namespace Vec3

def zero : Vec3 := ⟨.zero, .zero, .zero⟩

def one : Vec3 := ⟨.one, .one, .one⟩

def unitX : Vec3 := ⟨.one, .zero, .zero⟩

def unitY : Vec3 := ⟨.zero, .one, .zero⟩

def unitZ : Vec3 := ⟨.zero, .zero, .one⟩

instance : Inhabited Vec3 := ⟨zero⟩

def toList (v : Vec3) : List Single := [v.x, v.y, v.z]

instance : Add Vec3 := ⟨fun v w => ⟨v.x + w.x, v.y + w.y, v.z + w.z⟩⟩

instance : Sub Vec3 := ⟨fun v w => ⟨v.x - w.x, v.y - w.y, v.z - w.z⟩⟩

def scale (v : Vec3) (s : Single) : Vec3 := ⟨v.x * s, v.y * s, v.z * s⟩

def dot (v w : Vec3) : Single := v.x * w.x + v.y * w.y + v.z * w.z

def cross (v w : Vec3) : Vec3 :=
  ⟨v.y * w.z - v.z * w.y, v.z * w.x - v.x * w.z, v.x * w.y - v.y * w.x⟩

def lengthSquared (v : Vec3) : Single := v.dot v

def length (v : Vec3) : Single := v.lengthSquared.sqrt

/-- The unit vector of the same direction; zero if the length is not above `Single.epsilon`. -/
def normalizeOrZero (v : Vec3) : Vec3 :=
  if Single.epsilon.less v.length then v.scale (.one / v.length) else zero

def distance (v w : Vec3) : Single := (v - w).length

def numEq (v w : Vec3) : Bool := v.x.numEq w.x && v.y.numEq w.y && v.z.numEq w.z

def near (v w : Vec3) (tolerance : Single) : Bool :=
  (v.x - w.x).abs.lessEq tolerance && (v.y - w.y).abs.lessEq tolerance &&
    (v.z - w.z).abs.lessEq tolerance

end Vec3

end EntityStore
