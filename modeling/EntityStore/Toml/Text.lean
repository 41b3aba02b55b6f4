import EntityStore.Toml.Scalar

set_option autoImplicit false

namespace EntityStore.Toml

def isBlank (c : Char) : Bool := c = ' ' || c = '\t'

def skipBlanks (cs : List Char) : List Char := cs.dropWhile isBlank

def isPrintable (c : Char) : Bool :=
  c = '\t' || (0x20 ≤ c.toNat && c.toNat ≠ 0x7f)

def afterNewline? : List Char → Option (List Char)
  | '\n' :: rest => some rest
  | '\r' :: '\n' :: rest => some rest
  | _ => none

def skipComment (cs : List Char) : List Char :=
  match skipBlanks cs with
  | '#' :: rest => rest.dropWhile isPrintable
  | rest => rest

def skipLines (inComment : Bool) : List Char → List Char
  | [] => []
  | '\n' :: rest => skipLines false rest
  | '\r' :: '\n' :: rest => skipLines false rest
  | c :: rest =>
    if inComment then (if isPrintable c then skipLines true rest else c :: rest)
    else if isBlank c then skipLines false rest
    else if c = '#' then skipLines true rest
    else c :: rest

inductive Escape where
  | none
  | begun
  | code (digitsLeft value : Nat)

def ofCode? (code : Nat) : Option Char :=
  if h : code.isValidChar then some (Char.ofNatAux code h) else none

def simpleEscape? : Char → Option Char
  | 'b' => some '\x08'
  | 't' => some '\t'
  | 'n' => some '\n'
  | 'f' => some '\x0c'
  | 'r' => some '\r'
  | '"' => some '"'
  | '\\' => some '\\'
  | _ => none

/-- One character inside an escape: the new state and the character that is finished, if one is. -/
def Escape.step (c : Char) : Escape → Option (Escape × List Char)
  | .none => some (.none, [c])
  | .begun =>
    if c = 'u' then some (.code 4 0, [])
    else if c = 'U' then some (.code 8 0, [])
    else (simpleEscape? c).map fun c => (.none, [c])
  | .code digitsLeft value => do
    let d ← Scalar.digit? 16 c
    let value := value * 16 + d
    if digitsLeft ≤ 1 then return (.none, [← ofCode? value])
    else return (.code (digitsLeft - 1) value, [])

def basicText : Escape → List Char → Option (List Char × List Char)
  | _, [] => Option.none
  | .none, '"' :: rest => some ([], rest)
  | .none, '\\' :: rest => basicText .begun rest
  | .none, c :: rest => do
    guard (isPrintable c)
    let (text, rest) ← basicText .none rest
    return (c :: text, rest)
  | escape, c :: rest => do
    let (escape, done) ← escape.step c
    let (text, rest) ← basicText escape rest
    return (done ++ text, rest)

def literalText : List Char → Option (List Char × List Char)
  | [] => none
  | '\'' :: rest => some ([], rest)
  | c :: rest => do
    guard (isPrintable c)
    let (text, rest) ← literalText rest
    return (c :: text, rest)

def closing? (quote : Char) : List Char → Option (List Char × List Char)
  | a :: b :: c :: d :: e :: rest =>
    if a = quote ∧ b = quote ∧ c = quote then
      if d = quote ∧ e = quote then some ([quote, quote], rest)
      else if d = quote then some ([quote], e :: rest)
      else some ([], d :: e :: rest)
    else none
  | [a, b, c, d] =>
    if a = quote ∧ b = quote ∧ c = quote then
      if d = quote then some ([quote], []) else some ([], [d])
    else none
  | [a, b, c] => if a = quote ∧ b = quote ∧ c = quote then some ([], []) else none
  | _ => none

def endsLine (cs : List Char) : Bool := (afterNewline? (skipBlanks cs)).isSome

/-- A text of several lines up to three double quotes. A backslash at the end of a line removes the
line end and all blanks and line ends after it; `trimming` is true while they are removed. -/
def basicLines : (trimming : Bool) → Escape → List Char → Option (List Char × List Char)
  | _, _, [] => Option.none
  | trimming, .none, c :: rest =>
    if c = '\n' ∨ (c = '\r' ∧ rest.head? = some '\n') then do
      let (text, rest) ← basicLines trimming .none rest
      return (if trimming ∨ c = '\r' then text else c :: text, rest)
    else if trimming ∧ isBlank c then basicLines true .none rest
    else if c = '\\' then
      if endsLine rest then basicLines true .none rest else basicLines false .begun rest
    else
      match closing? '"' (c :: rest) with
      | some result => some result
      | none => do
        guard (isPrintable c)
        let (text, rest) ← basicLines false .none rest
        return (c :: text, rest)
  | _, escape, c :: rest => do
    let (escape, done) ← escape.step c
    let (text, rest) ← basicLines false escape rest
    return (done ++ text, rest)

def literalLines : List Char → Option (List Char × List Char)
  | [] => none
  | c :: rest =>
    match closing? '\'' (c :: rest) with
    | some result => some result
    | none => do
      let newline := c = '\n' ∨ (c = '\r' ∧ rest.head? = some '\n')
      guard (isPrintable c ∨ newline)
      let (text, rest) ← literalLines rest
      return (if c = '\r' then text else c :: text, rest)

def dropNewline (cs : List Char) : List Char := (afterNewline? cs).getD cs

def quotedText? : List Char → Option (List Char × List Char)
  | '"' :: '"' :: '"' :: rest => basicLines false .none (dropNewline rest)
  | '"' :: rest => basicText .none rest
  | '\'' :: '\'' :: '\'' :: rest => literalLines (dropNewline rest)
  | '\'' :: rest => literalText rest
  | _ => none

def isBareKeyChar (c : Char) : Bool := c.isAlphanum || c = '_' || c = '-'

def keyPart? : List Char → Option (String × List Char)
  | '"' :: rest => (basicText .none rest).map fun (text, rest) => (String.ofList text, rest)
  | '\'' :: rest => (literalText rest).map fun (text, rest) => (String.ofList text, rest)
  | cs =>
    let name := cs.takeWhile isBareKeyChar
    if name.isEmpty then none else some (String.ofList name, cs.dropWhile isBareKeyChar)

def keyParts : (fuel : Nat) → List Char → Option (List String × List Char)
  | 0, _ => none
  | fuel + 1, cs => do
    let (part, rest) ← keyPart? (skipBlanks cs)
    match skipBlanks rest with
    | '.' :: rest => do
      let (parts, rest) ← keyParts fuel rest
      return (part :: parts, rest)
    | rest => return ([part], rest)

def key? (cs : List Char) : Option (List String × List Char) := keyParts cs.length cs

end EntityStore.Toml
