import EntityStore.Settings
import EntityStore.Toml.Reader

set_option autoImplicit false

namespace EntityStore.Settings

open Toml (Item Entries)

def nat? : Item → Option Nat
  | .scalar (.integer value) => if 0 ≤ value then some value.toNat else none
  | _ => none

def flag? : Item → Option Bool
  | .scalar (.flag value) => some value
  | _ => none

def policyNamed? (name : String) : Option MatchPolicy :=
  if name = "first_fit" then some .firstFit
  else if name = "most_occupied" then some .mostOccupied
  else none

def isEmptyItem : Item → Bool
  | .array items => items.isEmpty
  | .inlineTable entries => entries.isEmpty
  | .table _ entries => entries.isEmpty
  | .tables elements => elements.isEmpty
  | _ => false

/-- A policy is given by its name, or as the key of the only entry of a table, an entry without
content. -/
def policy? : Item → Option MatchPolicy
  | .text name => policyNamed? name
  | .inlineTable [(name, item)] => if isEmptyItem item then policyNamed? name else none
  | .table _ [(name, item)] => if isEmptyItem item then policyNamed? name else none
  | _ => none

def set? (s : Settings) (key : String) (item : Item) : Option Settings :=
  match key with
  | "block_capacity" => (nat? item).map fun blockCapacity => { s with blockCapacity }
  | "block_bytes" => (nat? item).map fun blockBytes => { s with blockBytes }
  | "max_blocks" => (nat? item).map fun maxBlocks => { s with maxBlocks }
  | "recycle_entity_indices" => (flag? item).map fun recycleIndices => { s with recycleIndices }
  | "block_match" => (policy? item).map fun blockMatch => { s with blockMatch }
  | "cache_queries" => (flag? item).map fun cacheQueries => { s with cacheQueries }
  | _ => none

def ofEntries? (s : Settings) : Entries → Option Settings
  | [] => some s
  | (key, item) :: rest => do
    let s ← s.set? key item
    ofEntries? s rest

def ofText (text : String) : Outcome Settings :=
  match (Toml.read text).bind (ofEntries? {}) with
  | none => .error .unreadableSettings
  | some s => s.validate.map fun () => s

def ofFile (contents : Option ByteArray) : Outcome Settings :=
  match contents.bind String.fromUTF8? with
  | none => .error .unreadableSettings
  | some text => ofText text

end EntityStore.Settings
