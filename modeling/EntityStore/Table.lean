set_option autoImplicit false

namespace EntityStore

structure Table (κ ν : Type) where
  entries : List (κ × ν) := []
deriving DecidableEq, Repr

namespace Table

variable {κ ν : Type} [DecidableEq κ]

def empty : Table κ ν := {}

def size (t : Table κ ν) : Nat := t.entries.length

def keys (t : Table κ ν) : List κ := t.entries.map Prod.fst

def lookupIn (key : κ) : List (κ × ν) → Option ν
  | [] => none
  | (k, v) :: rest => if k = key then some v else lookupIn key rest

def insertIn (key : κ) (value : ν) : List (κ × ν) → List (κ × ν)
  | [] => [(key, value)]
  | (k, v) :: rest => if k = key then (key, value) :: rest else (k, v) :: insertIn key value rest

def eraseIn (key : κ) : List (κ × ν) → List (κ × ν)
  | [] => []
  | (k, v) :: rest => if k = key then eraseIn key rest else (k, v) :: eraseIn key rest

def find? (t : Table κ ν) (key : κ) : Option ν := lookupIn key t.entries

def contains (t : Table κ ν) (key : κ) : Bool := (t.find? key).isSome

def insert (t : Table κ ν) (key : κ) (value : ν) : Table κ ν := ⟨insertIn key value t.entries⟩

def erase (t : Table κ ν) (key : κ) : Table κ ν := ⟨eraseIn key t.entries⟩

theorem lookup_insert_in (key other : κ) (value : ν) (entries : List (κ × ν)) :
    lookupIn other (insertIn key value entries) =
      if key = other then some value else lookupIn other entries := by
  induction entries with
  | nil => simp [insertIn, lookupIn]
  | cons entry rest ih =>
    obtain ⟨k, v⟩ := entry
    by_cases same : k = key
    · subst same
      by_cases hit : k = other <;> simp [insertIn, lookupIn, hit]
    · simp only [insertIn, if_neg same, lookupIn, ih]
      by_cases hit : k = other
      · have miss : key ≠ other := fun h => same (hit.trans h.symm)
        simp [hit, miss]
      · simp [hit]

theorem lookup_erase_in (key other : κ) (entries : List (κ × ν)) :
    lookupIn other (eraseIn key entries) =
      if key = other then none else lookupIn other entries := by
  induction entries with
  | nil => simp [eraseIn, lookupIn]
  | cons entry rest ih =>
    obtain ⟨k, v⟩ := entry
    by_cases same : k = key
    · subst same
      rw [eraseIn, if_pos rfl, ih]
      by_cases hit : k = other <;> simp [lookupIn, hit]
    · simp only [eraseIn, if_neg same, lookupIn, ih]
      by_cases hit : k = other
      · have miss : key ≠ other := fun h => same (hit.trans h.symm)
        simp [hit, miss]
      · simp [hit]

@[simp] theorem find?_empty (key : κ) : (empty : Table κ ν).find? key = none := rfl

theorem find?_insert (t : Table κ ν) (key other : κ) (value : ν) :
    (t.insert key value).find? other = if key = other then some value else t.find? other :=
  lookup_insert_in key other value t.entries

theorem find?_erase (t : Table κ ν) (key other : κ) :
    (t.erase key).find? other = if key = other then none else t.find? other :=
  lookup_erase_in key other t.entries

theorem insert_fresh (t : Table κ ν) (key : κ) (value : ν) (fresh : key ∉ t.keys) :
    t.insert key value = ⟨t.entries ++ [(key, value)]⟩ := by
  obtain ⟨entries⟩ := t
  refine congrArg Table.mk ?_
  induction entries with
  | nil => rfl
  | cons entry rest ih =>
    obtain ⟨other, old⟩ := entry
    obtain ⟨different, absent⟩ := not_or.mp (mt List.mem_cons.mpr fresh)
    rw [insertIn, if_neg (Ne.symm different), ih absent, List.cons_append]

end Table

end EntityStore
