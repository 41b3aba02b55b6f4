import EntityStore.Toml.Scalar

set_option autoImplicit false

namespace EntityStore.Toml

/-- How a table came into being. -/
inductive Origin where
  | header
  | dotted
  | implied
deriving DecidableEq, Repr

inductive Item where
  | scalar (value : Scalar)
  | text (value : String)
  | array (items : List Item)
  | inlineTable (entries : List (String × Item))
  | table (origin : Origin) (entries : List (String × Item))
  | tables (elements : List (List (String × Item)))

abbrev Entries := List (String × Item)

namespace Entries

def find? (key : String) : Entries → Option Item
  | [] => none
  | (k, item) :: rest => if k = key then some item else find? key rest

def insert (key : String) (item : Item) : Entries → Entries
  | [] => [(key, item)]
  | (k, old) :: rest => if k = key then (k, item) :: rest else (k, old) :: insert key item rest

/-- Changes the table at a path, making the tables on the way. A dotted path does not go through
tables that have a header. -/
def modify (dotted : Bool) (f : Origin → Entries → Option Entries) :
    List String → Origin → Entries → Option Entries
  | [], origin, entries => f origin entries
  | key :: path, _, entries =>
    match entries.find? key with
    | none => do
      let made : Origin := if dotted then .dotted else .implied
      let inner ← modify dotted f path made []
      return entries.insert key (.table made inner)
    | some (.table origin inner) => do
      guard ¬(dotted ∧ origin = .header)
      let inner ← modify dotted f path origin inner
      return entries.insert key (.table origin inner)
    | some (.tables elements) => do
      let last ← elements.getLast?
      let inner ← modify dotted f path .header last
      return entries.insert key (.tables (elements.dropLast ++ [inner]))
    | some _ => none

def define (path : List String) (key : String) (item : Item) (entries : Entries) :
    Option Entries :=
  modify true (fun origin entries => do
    guard (origin = .dotted ↔ path ≠ [])
    guard (entries.find? key).isNone
    return entries.insert key item) path .header entries

def openTable (path : List String) (key : String) (entries : Entries) : Option Entries :=
  modify false (fun _ entries =>
    match entries.find? key with
    | none => some (entries.insert key (.table .header []))
    | some (.table .implied inner) => some (entries.insert key (.table .header inner))
    | some _ => none) path .header entries

def appendTable (path : List String) (key : String) (entries : Entries) : Option Entries :=
  modify false (fun _ entries =>
    match entries.find? key with
    | none => some (entries.insert key (.tables [[]]))
    | some (.tables elements) => some (entries.insert key (.tables (elements ++ [[]])))
    | some _ => none) path .header entries

end Entries

def splitKey (parts : List String) : Option (List String × String) := do
  let last ← parts.getLast?
  return (parts.dropLast, last)

end EntityStore.Toml
