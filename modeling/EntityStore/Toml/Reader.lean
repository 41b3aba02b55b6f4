import EntityStore.Toml.Text
import EntityStore.Toml.Tree

set_option autoImplicit false

namespace EntityStore.Toml

mutual

def readItem : (fuel : Nat) → List Char → Option (Item × List Char)
  | 0, _ => none
  | fuel + 1, '[' :: rest => do
    let (items, rest) ← readItems fuel (skipLines false rest)
    return (.array items, rest)
  | fuel + 1, '\x7b' :: rest =>
    match skipBlanks rest with
    | '\x7d' :: rest => some (.inlineTable [], rest)
    | rest => do
      let (entries, rest) ← readPairs fuel [] rest
      return (.inlineTable entries, rest)
  | _ + 1, cs =>
    match cs with
    | '"' :: _ => (quotedText? cs).map fun (text, rest) => (.text (String.ofList text), rest)
    | '\'' :: _ => (quotedText? cs).map fun (text, rest) => (.text (String.ofList text), rest)
    | _ => (Scalar.read cs).map fun (value, rest) => (.scalar value, rest)

def readItems : (fuel : Nat) → List Char → Option (List Item × List Char)
  | 0, _ => none
  | fuel + 1, cs =>
    match cs with
    | ']' :: rest => some ([], rest)
    | _ => do
      let (item, rest) ← readItem fuel cs
      match skipLines false rest with
      | ',' :: rest => do
        let (items, rest) ← readItems fuel (skipLines false rest)
        return (item :: items, rest)
      | ']' :: rest => return ([item], rest)
      | _ => none

def readPairs : (fuel : Nat) → Entries → List Char → Option (Entries × List Char)
  | 0, _, _ => none
  | fuel + 1, entries, cs => do
    let (parts, rest) ← key? cs
    let '=' :: rest := rest | none
    let (item, rest) ← readItem fuel (skipBlanks rest)
    let (path, key) ← splitKey parts
    let entries ← entries.define path key item
    match skipBlanks rest with
    | ',' :: rest => readPairs fuel entries rest
    | '\x7d' :: rest => return (entries, rest)
    | _ => none

end

inductive Statement where
  | define (path : List String) (key : String) (item : Item)
  | openTable (path : List String) (key : String)
  | appendTable (path : List String) (key : String)

def readStatement (fuel : Nat) : List Char → Option (Statement × List Char)
  | '[' :: '[' :: rest => do
    let (parts, rest) ← key? rest
    let ']' :: ']' :: rest := rest | none
    let (path, key) ← splitKey parts
    return (.appendTable path key, rest)
  | '[' :: rest => do
    let (parts, rest) ← key? rest
    let ']' :: rest := rest | none
    let (path, key) ← splitKey parts
    return (.openTable path key, rest)
  | cs => do
    let (parts, rest) ← key? cs
    let '=' :: rest := rest | none
    let (item, rest) ← readItem fuel (skipBlanks rest)
    let (path, key) ← splitKey parts
    return (.define path key item, rest)

def readStatements : (fuel : Nat) → List Char → Option (List Statement)
  | 0, _ => none
  | fuel + 1, cs =>
    match skipLines false cs with
    | [] => some []
    | cs => do
      let (statement, rest) ← readStatement fuel cs
      match skipComment rest with
      | [] => return [statement]
      | rest => do
        let rest ← afterNewline? rest
        let statements ← readStatements fuel rest
        return statement :: statements

/-- Carries out a statement. `header` is the path of the last header. -/
def Statement.apply (header : List String) (entries : Entries) :
    Statement → Option (List String × Entries)
  | .define path key item => do
    let entries ← entries.modify false (fun _ inner => inner.define path key item) header .header
    return (header, entries)
  | .openTable path key => do return (path ++ [key], ← entries.openTable path key)
  | .appendTable path key => do return (path ++ [key], ← entries.appendTable path key)

def applyAll (header : List String) (entries : Entries) : List Statement → Option Entries
  | [] => some entries
  | statement :: rest => do
    let (header, entries) ← statement.apply header entries
    applyAll header entries rest

def read (text : String) : Option Entries := do
  let cs := match text.toList with
    | '\ufeff' :: rest => rest
    | cs => cs
  let statements ← readStatements (2 * cs.length + 2) cs
  applyAll [] [] statements

end EntityStore.Toml
