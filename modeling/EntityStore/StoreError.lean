import EntityStore.Fault
import EntityStore.Signature

set_option autoImplicit false

namespace EntityStore

inductive SettingsFlaw where
  | zeroBlockCapacity
  | oversizedBlockCapacity
  | zeroMaxBlocks
  | unevenBlockBytes
  | entityArrayTooLarge (required available : Nat)
deriving DecidableEq, Repr

namespace SettingsFlaw

def message : SettingsFlaw → String
  | zeroBlockCapacity => "block_capacity must be > 0"
  | oversizedBlockCapacity => "block_capacity must fit in u32"
  | zeroMaxBlocks => "max_blocks must be > 0"
  | unevenBlockBytes => "block_bytes must be a non-zero multiple of 64"
  | entityArrayTooLarge required available =>
    "entity array alone needs " ++ toString required ++ " bytes, block_bytes is " ++
      toString available

end SettingsFlaw

inductive StoreError where
  | staleEntity (entity : Entity)
  | missingComponent (entity : Entity) (component : ComponentId)
  | componentAlreadyPresent (entity : Entity) (component : ComponentId)
  | duplicateBundleComponent (component : ComponentId)
  | unregisteredComponent (component : ComponentId)
  | registrationOrder (name : String) (declared expected : Nat)
  | unsupportedLayout (name : String) (size align : Nat)
  | registryFull
  | layoutTooLarge (required available : Nat)
  | outOfBlocks (capacity : Nat)
  | outOfSlabs (capacity : Nat)
  | aliasedQuery (component : ComponentId)
  | noSingleton (component : ComponentId)
  | hierarchyCycle (entity : Entity)
  | hierarchyMissingTransform (entity : Entity)
  | hierarchyParentNotAlive (child parent : Entity)
  | notSerializable (component : ComponentId)
  | serialization
  | invalidSettings (flaw : SettingsFlaw)
  | unreadableSettings
deriving DecidableEq, Repr

namespace StoreError

def message : StoreError → String
  | staleEntity entity => "entity " ++ entity.text ++ " is not alive"
  | missingComponent entity component =>
    "entity " ++ entity.text ++ " has no component " ++ component.text
  | componentAlreadyPresent entity component =>
    "entity " ++ entity.text ++ " already has component " ++ component.text
  | duplicateBundleComponent component =>
    "bundle contains component " ++ component.text ++ " more than once"
  | unregisteredComponent component => "component " ++ component.text ++ " is not registered"
  | registrationOrder name declared expected =>
    "component " ++ name ++ " declares id " ++ toString declared ++ " but registration slot is " ++
      toString expected
  | unsupportedLayout name size align =>
    "component " ++ name ++ " has unsupported layout (size " ++ toString size ++ ", align " ++
      toString align ++ ")"
  | registryFull => "component registry is full"
  | layoutTooLarge required available =>
    "block layout needs " ++ toString required ++ " bytes, slab buffers hold " ++
      toString available
  | outOfBlocks capacity => "block pool exhausted: " ++ toString capacity ++ " blocks in use"
  | outOfSlabs capacity => "slab exhausted: " ++ toString capacity ++ " buffers in use"
  | aliasedQuery component => "query borrows component " ++ component.text ++ " more than once"
  | noSingleton component => "no entity carries singleton component " ++ component.text
  | hierarchyCycle entity => "hierarchy cycle through entity " ++ entity.text
  | hierarchyMissingTransform entity =>
    "entity " ++ entity.text ++ " has no transform and cannot join the hierarchy"
  | hierarchyParentNotAlive child parent =>
    "entity " ++ child.text ++ " has a dead parent " ++ parent.text
  | notSerializable component => "component " ++ component.text ++ " is not serializable"
  | serialization => "serialization failed"
  | invalidSettings flaw => "invalid configuration: " ++ flaw.message
  | unreadableSettings => "failed to load configuration"

end StoreError

abbrev Outcome (α : Type) := Except StoreError α

end EntityStore
