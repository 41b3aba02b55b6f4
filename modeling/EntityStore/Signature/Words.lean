import EntityStore.Signature

set_option autoImplicit false

namespace EntityStore

namespace ComponentId

def ofNat? (n : Nat) : Option ComponentId := if bound : n < 256 then some ⟨n, bound⟩ else none

end ComponentId

abbrev Word := BitVec 64

structure Words where
  words : Vector Word 4
deriving DecidableEq, Repr

namespace Words

def empty : Words := ⟨.replicate 4 0⟩

def home (id : ComponentId) : Fin 4 := ⟨id.val / 64, by omega⟩

def mask (id : ComponentId) : Word := (1 : Word) <<< (id.val % 64)

def word (w : Words) (id : ComponentId) : Word := w.words[home id]

def put (w : Words) (id : ComponentId) (word : Word) : Words := ⟨w.words.set (home id) word⟩

def contains (w : Words) (id : ComponentId) : Bool := (w.word id >>> (id.val % 64)) &&& 1 == 1

def insert (w : Words) (id : ComponentId) : Words := w.put id (w.word id ||| mask id)

def erase (w : Words) (id : ComponentId) : Words := w.put id (w.word id &&& ~~~mask id)

def ofList (ids : List ComponentId) : Words := ids.foldl insert empty

def inter (w v : Words) : Words := ⟨w.words.zipWith (· &&& ·) v.words⟩

def isSuperset (w v : Words) : Bool :=
  (w.words.zip v.words).all fun (mine, other) => mine &&& other == other

def isEmpty (w : Words) : Bool := w.words.all (· == 0)

def size (w : Words) : Nat := w.words.foldl (fun count word => count + word.cpop.toNat) 0

/-- The words that are still to be looked through, each with its number. -/
abbrev Cursor := List (Word × Nat)

def cursor (w : Words) : Cursor := w.words.toList.zipIdx

/-- The id of the lowest bit of a word, and the word without this bit. -/
def lowest? (word : Word) (number : Nat) : Option (ComponentId × Word) :=
  if word = 0 then none
  else (ComponentId.ofNat? (number * 64 + word.ctz.toNat)).map fun id => (id, word &&& (word - 1))

def next? : Cursor → Option (ComponentId × Cursor)
  | [] => none
  | (word, number) :: rest =>
    match lowest? word number with
    | none => next? rest
    | some (id, word) => some (id, (word, number) :: rest)

end Words

namespace Signature

def pack (s : Signature) : Words := ⟨.ofFn fun i => s.bits.extractLsb' (64 * i.val) 64⟩

end Signature

end EntityStore
