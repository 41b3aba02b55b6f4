set_option autoImplicit false

namespace EntityStore.Toml

inductive Scalar where
  | integer (value : Int)
  | flag (value : Bool)
  | real
  | moment
deriving DecidableEq, Repr

namespace Scalar

def digit? (base : Nat) (c : Char) : Option Nat :=
  let value? : Option Nat :=
    if '0' ≤ c ∧ c ≤ '9' then some (c.toNat - '0'.toNat)
    else if 'a' ≤ c ∧ c ≤ 'f' then some (c.toNat - 'a'.toNat + 10)
    else if 'A' ≤ c ∧ c ≤ 'F' then some (c.toNat - 'A'.toNat + 10)
    else none
  value?.filter fun value => value < base

/-- Digits after the first one; an underscore must stand between two digits. -/
def digitsAfter (base value : Nat) : List Char → Option Nat
  | [] => some value
  | '_' :: c :: rest => do
    let d ← digit? base c
    digitsAfter base (value * base + d) rest
  | c :: rest => do
    let d ← digit? base c
    digitsAfter base (value * base + d) rest

def digits? (base : Nat) : List Char → Option Nat
  | [] => none
  | c :: rest => do
    let d ← digit? base c
    digitsAfter base d rest

def decimal? : List Char → Option Nat
  | ['0'] => some 0
  | '0' :: _ => none
  | cs => digits? 10 cs

def sign : List Char → Bool × List Char
  | '-' :: rest => (true, rest)
  | '+' :: rest => (false, rest)
  | cs => (false, cs)

def integer? (cs : List Char) : Option Int := do
  let value ← match cs with
    | '0' :: 'x' :: rest => (digits? 16 rest).map Int.ofNat
    | '0' :: 'o' :: rest => (digits? 8 rest).map Int.ofNat
    | '0' :: 'b' :: rest => (digits? 2 rest).map Int.ofNat
    | _ =>
      let (negative, rest) := sign cs
      (decimal? rest).map fun n => if negative then -Int.ofNat n else Int.ofNat n
  if -0x8000000000000000 ≤ value ∧ value < 0x8000000000000000 then some value else none

def isDigitOrUnderscore (c : Char) : Bool := c.isDigit || c = '_'

def isExponent : List Char → Bool
  | [] => true
  | c :: rest => (c = 'e' || c = 'E') && (digits? 10 (sign rest).2).isSome

def isReal (cs : List Char) : Bool :=
  let rest := (sign cs).2
  if rest = ['i', 'n', 'f'] ∨ rest = ['n', 'a', 'n'] then true
  else
    let whole := rest.takeWhile isDigitOrUnderscore
    (decimal? whole).isSome &&
      match rest.dropWhile isDigitOrUnderscore with
      | [] => false
      | '.' :: rest =>
        (digits? 10 (rest.takeWhile isDigitOrUnderscore)).isSome &&
          isExponent (rest.dropWhile isDigitOrUnderscore)
      | rest => isExponent rest

def fixed? (width : Nat) (cs : List Char) : Option (Nat × List Char) :=
  let front := cs.take width
  if front.length = width ∧ front.all Char.isDigit then
    (digits? 10 front).map fun n => (n, cs.drop width)
  else none

def isLeap (year : Nat) : Bool := year % 4 = 0 && (year % 100 ≠ 0 || year % 400 = 0)

def daysOf (year month : Nat) : Nat :=
  if month = 2 then (if isLeap year then 29 else 28)
  else if month = 4 ∨ month = 6 ∨ month = 9 ∨ month = 11 then 30
  else 31

def afterDate? (cs : List Char) : Option (List Char) := do
  let (year, cs) ← fixed? 4 cs
  let ('-' :: cs) := cs | none
  let (month, cs) ← fixed? 2 cs
  guard (1 ≤ month ∧ month ≤ 12)
  let ('-' :: cs) := cs | none
  let (day, cs) ← fixed? 2 cs
  guard (1 ≤ day ∧ day ≤ daysOf year month)
  return cs

def afterTime? (cs : List Char) : Option (List Char) := do
  let (hour, cs) ← fixed? 2 cs
  guard (hour ≤ 23)
  let (':' :: cs) := cs | none
  let (minute, cs) ← fixed? 2 cs
  guard (minute ≤ 59)
  let (':' :: cs) := cs | none
  let (second, cs) ← fixed? 2 cs
  guard (second ≤ 60)
  match cs with
  | '.' :: rest =>
    guard (!(rest.takeWhile Char.isDigit).isEmpty)
    return rest.dropWhile Char.isDigit
  | _ => return cs

def isOffset : List Char → Bool
  | [] => true
  | ['Z'] => true
  | ['z'] => true
  | c :: rest => Option.isSome do
    guard (c = '+' ∨ c = '-')
    let (hour, rest) ← fixed? 2 rest
    guard (hour ≤ 23)
    let (':' :: rest) := rest | none
    let (minute, rest) ← fixed? 2 rest
    guard (minute ≤ 59 ∧ rest = [])

def isTime (cs : List Char) : Bool := afterTime? cs = some []

def isDateTime (cs : List Char) : Bool :=
  match afterDate? cs with
  | none => false
  | some [] => true
  | some (c :: rest) => (c = 'T' || c = 't' || c = ' ') && (afterTime? rest).any isOffset

def ofWord? (cs : List Char) : Option Scalar :=
  if cs = ['t', 'r', 'u', 'e'] then some (.flag true)
  else if cs = ['f', 'a', 'l', 's', 'e'] then some (.flag false)
  else
    match integer? cs with
    | some value => some (.integer value)
    | none =>
      if isReal cs then some .real
      else if isDateTime cs || isTime cs then some .moment
      else none

def isWordChar (c : Char) : Bool :=
  c.isAlphanum || c = '_' || c = '+' || c = '-' || c = '.' || c = ':'

def read (cs : List Char) : Option (Scalar × List Char) :=
  let word := cs.takeWhile isWordChar
  let rest := cs.dropWhile isWordChar
  let plain : Option (Scalar × List Char) := (ofWord? word).map fun value => (value, rest)
  match rest with
  | ' ' :: after =>
    let time := after.takeWhile isWordChar
    if afterDate? word = some [] ∧ isDateTime (word ++ ' ' :: time) then
      some (.moment, after.dropWhile isWordChar)
    else plain
  | _ => plain

end Scalar

end EntityStore.Toml
