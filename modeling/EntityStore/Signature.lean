set_option autoImplicit false

namespace EntityStore

abbrev ComponentId := Fin 256

namespace ComponentId

def limit : Nat := 256

def text (id : ComponentId) : String := "#" ++ toString id.val

end ComponentId

structure Signature where
  bits : BitVec 256
deriving DecidableEq, Repr

namespace Signature

def empty : Signature := ⟨0#256⟩

instance : Inhabited Signature := ⟨empty⟩

def contains (s : Signature) (id : ComponentId) : Bool := s.bits.getLsbD id.val

def insert (s : Signature) (id : ComponentId) : Signature := ⟨s.bits ||| BitVec.twoPow 256 id.val⟩

def erase (s : Signature) (id : ComponentId) : Signature :=
  ⟨s.bits &&& ~~~BitVec.twoPow 256 id.val⟩

def inter (s t : Signature) : Signature := ⟨s.bits &&& t.bits⟩

def isSuperset (s t : Signature) : Bool := s.bits &&& t.bits == t.bits

def isEmpty (s : Signature) : Bool := s.bits == 0#256

def ofList (ids : List ComponentId) : Signature := ids.foldl insert empty

def ids (s : Signature) : List ComponentId := (List.finRange 256).filter s.contains

def size (s : Signature) : Nat := s.bits.cpop.toNat

def words (s : Signature) : List Nat :=
  [0, 64, 128, 192].map fun start => (s.bits.extractLsb' start 64).toNat

def compare (s t : Signature) : Ordering := Ord.compare s.words t.words

def text (s : Signature) : String :=
  "\x7b" ++ ", ".intercalate (s.ids.map fun id => toString id.val) ++ "\x7d"

/-- The first id of a list that also occurs earlier in it. -/
def firstRepeat (seen : Signature) : List ComponentId → Option ComponentId
  | [] => none
  | id :: rest => if seen.contains id then some id else firstRepeat (seen.insert id) rest

@[simp] theorem contains_empty (id : ComponentId) : empty.contains id = false := by
  simp [empty, contains]

@[simp] theorem contains_insert (s : Signature) (id other : ComponentId) :
    (s.insert id).contains other = (decide (id = other) || s.contains other) := by
  simp [insert, contains, Bool.or_comm, Fin.ext_iff, eq_comm]

@[simp] theorem contains_erase (s : Signature) (id other : ComponentId) :
    (s.erase id).contains other = (s.contains other && !decide (id = other)) := by
  simp [erase, contains, Fin.ext_iff, eq_comm]

@[simp] theorem contains_inter (s t : Signature) (id : ComponentId) :
    (s.inter t).contains id = (s.contains id && t.contains id) := by
  simp [inter, contains]

theorem mem_ids (s : Signature) (id : ComponentId) : id ∈ s.ids ↔ s.contains id = true := by
  simp [ids]

theorem ext_contains (s t : Signature) (same : ∀ id, s.contains id = t.contains id) : s = t := by
  obtain ⟨s⟩ := s
  obtain ⟨t⟩ := t
  have bits : s = t := by
    apply BitVec.eq_of_getLsbD_eq
    intro i bound
    exact same ⟨i, bound⟩
  rw [bits]

end Signature

end EntityStore
