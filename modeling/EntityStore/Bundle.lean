import EntityStore.Block.Basic

set_option autoImplicit false

namespace EntityStore

inductive Bundle where
  | one (value : Component)
  | join (left right : Bundle)
deriving DecidableEq

namespace Bundle

def values : Bundle → List Component
  | one value => [value]
  | join left right => left.values ++ right.values

def ids (b : Bundle) : List ComponentId := b.values.map fun value => value.type.id

def signature (b : Bundle) : Signature := .ofList b.ids

def firstRepeat? (b : Bundle) : Option ComponentId := Signature.firstRepeat .empty b.ids

/-- The first id that the bundle names again, if its ids are fewer than its values. -/
def repeated? (b : Bundle) : Option ComponentId :=
  if b.signature.size = b.ids.length then none else some (b.firstRepeat?.getD ⟨0, by decide⟩)

def checkAll (registry : Registry) : List Component → Outcome Unit
  | [] => .ok ()
  | value :: rest => do
    registry.check value.type
    checkAll registry rest

def check (b : Bundle) (registry : Registry) : Outcome Unit := checkAll registry b.values

def writeAll (row : Nat) (block : Block) : List Component → Checked Block
  | [] => .ok block
  | value :: rest => do
    match ← block.setComponent row value with
    | none => .error (.missingBundleColumn value.type.name)
    | some block => writeAll row block rest

def write (b : Bundle) (block : Block) (row : Nat) : Checked Block := writeAll row block b.values

end Bundle

end EntityStore
