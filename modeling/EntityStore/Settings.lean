import EntityStore.StoreError

set_option autoImplicit false

namespace EntityStore

inductive MatchPolicy where
  | firstFit
  | mostOccupied
deriving DecidableEq, Repr, Inhabited

structure Settings where
  blockCapacity : Nat := 128
  blockBytes : Nat := 32768
  maxBlocks : Nat := 4096
  recycleIndices : Bool := true
  blockMatch : MatchPolicy := .firstFit
  cacheQueries : Bool := true
deriving DecidableEq, Repr, Inhabited

namespace Settings

def flaw? (s : Settings) : Option SettingsFlaw :=
  if s.blockCapacity = 0 then some .zeroBlockCapacity
  else if 0x100000000 ≤ s.blockCapacity then some .oversizedBlockCapacity
  else if s.maxBlocks = 0 then some .zeroMaxBlocks
  else if s.blockBytes = 0 ∨ s.blockBytes % 64 ≠ 0 then some .unevenBlockBytes
  else if s.blockBytes < Entity.width * s.blockCapacity then
    some (.entityArrayTooLarge (Entity.width * s.blockCapacity) s.blockBytes)
  else none

def validate (s : Settings) : Outcome Unit :=
  match s.flaw? with
  | some flaw => .error (.invalidSettings flaw)
  | none => .ok ()

end Settings

end EntityStore
