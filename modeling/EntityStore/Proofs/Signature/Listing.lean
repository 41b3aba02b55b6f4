import EntityStore.Proofs.Signature.Words
import Mathlib.Data.List.Sort
import Mathlib.Data.Nat.Factorization.Basic

set_option autoImplicit false

namespace EntityStore.Word

-- Taking one away clears the lowest bit that is set, and sets only bits below it.
theorem testBit_clear_lowest (n : Nat) (positive : n ≠ 0) : ∃ low, n.testBit low = true ∧
    (∀ i, i < low → n.testBit i = false) ∧
      ∀ i, (n &&& (n - 1)).testBit i = (n.testBit i && decide (i ≠ low)) := by
  obtain ⟨low, odd, ⟨half, rfl⟩, rfl⟩ := Nat.exists_eq_two_pow_mul_odd positive
  have power := Nat.two_pow_pos low
  have here (i : Nat) : (2 ^ low * (2 * half + 1)).testBit i =
      if i < low then false else (2 * half + 1).testBit (i - low) := by
    have bits := Nat.testBit_two_pow_mul_add (2 * half + 1) power i
    rw [Nat.add_zero, Nat.zero_testBit] at bits
    exact bits
  have before (i : Nat) : (2 ^ low * (2 * half + 1) - 1).testBit i =
      if i < low then (2 ^ low - 1).testBit i else (2 * half).testBit (i - low) := by
    have parts : 2 ^ low * (2 * half + 1) - 1 = 2 ^ low * (2 * half) + (2 ^ low - 1) := by
      rw [Nat.mul_add, Nat.mul_one]
      omega
    rw [parts, Nat.testBit_two_pow_mul_add _ (by omega)]
  refine ⟨low, ?_, fun i below => ?_, fun i => ?_⟩
  · rw [here, if_neg (Nat.lt_irrefl low), Nat.sub_self]
    simp
  · rw [here, if_pos below]
  · rw [Nat.testBit_and, here, before]
    rcases Nat.lt_trichotomy i low with below | rfl | above
    · simp [below]
    · simp
    · obtain ⟨k, rfl⟩ : ∃ k, i = low + (k + 1) := ⟨i - low - 1, by omega⟩
      have later : ¬ low + (k + 1) < low := by omega
      have halves : (2 * half + 1) / 2 = half := by omega
      rw [if_neg later, if_neg later, Nat.add_sub_cancel_left, Nat.testBit_succ, Nat.testBit_succ, halves,
        Nat.mul_div_cancel_left half (by decide)]
      simp

section Lowest

variable {word : Word} (nonzero : word ≠ 0)

include nonzero

theorem toNat_ne_zero : word.toNat ≠ 0 := fun zero => nonzero (BitVec.eq_of_toNat_eq zero)

theorem pred_toNat : (word - 1).toNat = word.toNat - 1 := by
  refine BitVec.toNat_sub_of_le ?_
  rw [BitVec.le_def]
  exact Nat.one_le_iff_ne_zero.mpr (toNat_ne_zero nonzero)

theorem clear_lt : (word &&& (word - 1)).toNat < word.toNat := by
  have positive := toNat_ne_zero nonzero
  have below : (word &&& (word - 1)).toNat ≤ word.toNat - 1 := by
    rw [BitVec.toNat_and, pred_toNat nonzero]
    exact Nat.and_le_right
  omega

theorem get_clear (i : Nat) : (word &&& (word - 1)).getLsbD i =
    (word.getLsbD i && decide (i ≠ word.ctz.toNat)) := by
  obtain ⟨low, set, below, cleared⟩ := testBit_clear_lowest word.toNat (toNat_ne_zero nonzero)
  have first := BitVec.getLsbD_true_ctz_of_ne_zero nonzero
  have same : word.ctz.toNat = low := by
    rcases Nat.lt_trichotomy word.ctz.toNat low with before | equal | after
    · rw [← BitVec.testBit_toNat, below _ before] at first
      contradiction
    · exact equal
    · have unset := BitVec.getLsbD_false_of_lt_ctz after
      rw [← BitVec.testBit_toNat, set] at unset
      contradiction
  rw [← BitVec.testBit_toNat, ← BitVec.testBit_toNat, BitVec.toNat_and, pred_toNat nonzero, same]
  exact cleared i

end Lowest

end EntityStore.Word

namespace EntityStore.Words

def Cursor.Holds (c : Cursor) (id : ComponentId) : Prop :=
  ∃ word, (word, id.val / 64) ∈ c ∧ word.getLsbD (id.val % 64) = true

structure Cursor.Ordered (c : Cursor) : Prop where
  ascending : (c.map Prod.snd).Pairwise (· < ·)
  numbers : ∀ entry ∈ c, entry.2 < 4

def Cursor.weight (c : Cursor) : Nat := (c.map fun entry => entry.1.toNat).sum

theorem Cursor.holds_nil (id : ComponentId) : ¬ Cursor.Holds [] id := by
  rintro ⟨word, member, _⟩
  exact List.not_mem_nil member

theorem Cursor.holds_cons (word : Word) (number : Nat) (rest : Cursor) (id : ComponentId) :
    Cursor.Holds ((word, number) :: rest) id ↔
      id.val / 64 = number ∧ word.getLsbD (id.val % 64) = true ∨ rest.Holds id := by
  constructor
  · rintro ⟨own, member, bit⟩
    rcases List.mem_cons.mp member with here | later
    · obtain ⟨rfl, rfl⟩ := Prod.mk.inj here
      exact Or.inl ⟨rfl, bit⟩
    · exact Or.inr ⟨own, later, bit⟩
  · rintro (⟨rfl, bit⟩ | ⟨own, later, bit⟩)
    · exact ⟨word, List.mem_cons_self, bit⟩
    · exact ⟨own, List.mem_cons_of_mem _ later, bit⟩

theorem Cursor.ordered_cons (word : Word) (number : Nat) (rest : Cursor) :
    Cursor.Ordered ((word, number) :: rest) ↔
      number < 4 ∧ (∀ entry ∈ rest, number < entry.2) ∧ rest.Ordered := by
  constructor
  · intro ordered
    obtain ⟨first, ascending⟩ := List.pairwise_cons.mp ordered.ascending
    obtain ⟨small, numbers⟩ := List.forall_mem_cons.mp ordered.numbers
    exact ⟨small, fun entry member => first entry.2 (List.mem_map_of_mem member), ascending, numbers⟩
  · rintro ⟨small, first, ordered⟩
    exact ⟨List.pairwise_cons.mpr ⟨List.forall_mem_map.mpr first, ordered.ascending⟩,
      List.forall_mem_cons.mpr ⟨small, ordered.numbers⟩⟩

theorem lowest_ok {word : Word} (nonzero : word ≠ 0) {number : Nat} (small : number < 4) :
    ∃ id, lowest? word number = some (id, word &&& (word - 1)) ∧ id.val / 64 = number ∧
      id.val % 64 = word.ctz.toNat := by
  have bit : word.ctz.toNat < 64 := by
    have inside : word.ctz < 64 := BitVec.ctz_lt_iff_ne_zero.mpr nonzero
    exact inside
  have bound : number * 64 + word.ctz.toNat < 256 := by omega
  refine ⟨⟨number * 64 + word.ctz.toNat, bound⟩, ?_, ?_, ?_⟩
  · rw [lowest?, if_neg nonzero, ComponentId.ofNat?, dif_pos bound]
    rfl
  · show (number * 64 + word.ctz.toNat) / 64 = number
    omega
  · show (number * 64 + word.ctz.toNat) % 64 = word.ctz.toNat
    omega

structure Gives (c : Cursor) (id : ComponentId) (rest : Cursor) : Prop where
  held : c.Holds id
  first : ∀ other, c.Holds other → id ≤ other
  left : ∀ other, rest.Holds other ↔ c.Holds other ∧ other ≠ id
  ordered : rest.Ordered
  lighter : rest.weight < c.weight

theorem gives_lowest {word : Word} (nonzero : word ≠ 0) {rest : Cursor} {id : ComponentId}
    (ordered : Cursor.Ordered ((word, id.val / 64) :: rest)) (bit : id.val % 64 = word.ctz.toNat) :
    Gives ((word, id.val / 64) :: rest) id ((word &&& (word - 1), id.val / 64) :: rest) := by
  obtain ⟨small, first, tail⟩ := (Cursor.ordered_cons _ _ _).mp ordered
  have later {other : ComponentId} (held : rest.Holds other) : id.val / 64 < other.val / 64 := by
    obtain ⟨own, member, _⟩ := held
    exact first _ member
  refine ⟨?_, fun other held => ?_, fun other => ?_, (Cursor.ordered_cons _ _ _).mpr ⟨small, first, tail⟩, ?_⟩
  · rw [Cursor.holds_cons, bit]
    exact Or.inl ⟨rfl, BitVec.getLsbD_true_ctz_of_ne_zero nonzero⟩
  · rcases (Cursor.holds_cons _ _ _ _).mp held with ⟨same, set⟩ | behind
    · have above : word.ctz.toNat ≤ other.val % 64 := by
        by_contra below
        rw [BitVec.getLsbD_false_of_lt_ctz (Nat.lt_of_not_le below)] at set
        contradiction
      rw [Fin.le_def]
      omega
    · have number := later behind
      rw [Fin.le_def]
      omega
  · rw [Cursor.holds_cons, Cursor.holds_cons, Word.get_clear nonzero, Bool.and_eq_true, decide_eq_true_eq, ← bit]
    constructor
    · rintro (⟨same, set, away⟩ | behind)
      · exact ⟨Or.inl ⟨same, set⟩, fun equal => away (congrArg (fun id : ComponentId => id.val % 64) equal)⟩
      · have number := later behind
        exact ⟨Or.inr behind, fun equal => by rw [equal] at number; omega⟩
    · rintro ⟨⟨same, set⟩ | behind, away⟩
      · refine Or.inl ⟨same, set, fun equal => away (Fin.ext ?_)⟩
        omega
      · exact Or.inr behind
  · have less := Word.clear_lt nonzero
    simp only [Cursor.weight, List.map_cons, List.sum_cons]
    omega

theorem next_ok {c : Cursor} (ordered : c.Ordered) : (next? c = none ∧ ∀ id, ¬ c.Holds id) ∨
    ∃ id rest, next? c = some (id, rest) ∧ Gives c id rest := by
  induction c with
  | nil => exact Or.inl ⟨rfl, Cursor.holds_nil⟩
  | cons entry tail ih =>
      obtain ⟨word, number⟩ := entry
      obtain ⟨small, _, behind⟩ := (Cursor.ordered_cons word number tail).mp ordered
      by_cases zero : word = 0
      · subst zero
        have same (id : ComponentId) : Cursor.Holds ((0, number) :: tail) id ↔ Cursor.Holds tail id := by
          rw [Cursor.holds_cons, BitVec.ofNat_eq_ofNat, BitVec.getLsbD_zero]
          simp
        have skips : next? ((0, number) :: tail) = next? tail := by
          rw [next?, lowest?, if_pos rfl]
        rcases ih behind with ⟨ended, none⟩ | ⟨id, rest, given, gives⟩
        · exact Or.inl ⟨skips.trans ended, fun id held => none id ((same id).mp held)⟩
        · refine Or.inr ⟨id, rest, skips.trans given, (same id).mpr gives.held,
            fun other held => gives.first other ((same other).mp held), fun other => ?_, gives.ordered, ?_⟩
          · rw [same]
            exact gives.left other
          · simpa [Cursor.weight] using gives.lighter
      · obtain ⟨id, lowest, rfl, bit⟩ := lowest_ok zero small
        exact Or.inr ⟨id, _, by rw [next?, lowest], gives_lowest zero ordered bit⟩

inductive Yields : Cursor → List ComponentId → Prop where
  | ended (c : Cursor) (none : next? c = none) : Yields c []
  | given (c rest : Cursor) (id : ComponentId) (ids : List ComponentId) (some : next? c = some (id, rest))
      (others : Yields rest ids) : Yields c (id :: ids)

theorem yields_ok (n : Nat) (c : Cursor) (light : c.weight < n) (ordered : c.Ordered) :
    ∃ ids, Yields c ids ∧ ids.Pairwise (· < ·) ∧ ∀ id, id ∈ ids ↔ c.Holds id := by
  induction n generalizing c with
  | zero => contradiction
  | succ n ih =>
      rcases next_ok ordered with ⟨ended, none⟩ | ⟨id, rest, given, gives⟩
      · exact ⟨[], .ended c ended, .nil, fun id => ⟨fun member => absurd member List.not_mem_nil,
          fun held => absurd held (none id)⟩⟩
      · have less := gives.lighter
        obtain ⟨ids, others, ascending, members⟩ := ih rest (by omega) gives.ordered
        refine ⟨id :: ids, .given c rest id ids given others,
          List.pairwise_cons.mpr ⟨fun other member => ?_, ascending⟩, fun other => ?_⟩
        · obtain ⟨held, away⟩ := (gives.left other).mp ((members other).mp member)
          exact lt_of_le_of_ne (gives.first other held) (Ne.symm away)
        · rw [List.mem_cons, members, gives.left]
          constructor
          · rintro (rfl | ⟨held, _⟩)
            · exact gives.held
            · exact held
          · intro held
            by_cases same : other = id
            · exact Or.inl same
            · exact Or.inr ⟨held, same⟩

theorem cursor_ordered (w : Words) : w.cursor.Ordered where
  ascending := by
    rw [cursor, List.zipIdx_map_snd]
    exact List.pairwise_lt_range'
  numbers := by
    rintro ⟨word, number⟩ member
    obtain ⟨inside, _⟩ := List.getElem?_eq_some_iff.mp (List.mem_zipIdx_iff_getElem?.mp member)
    rw [Vector.length_toList] at inside
    exact inside

theorem holds_cursor (w : Words) (id : ComponentId) : w.cursor.Holds id ↔ w.contains id = true := by
  have here : w.words.toList[id.val / 64]? = some (w.word id) := by
    rw [Vector.getElem?_toList]
    exact Vector.getElem?_eq_getElem (home id).isLt
  rw [contains_eq]
  constructor
  · rintro ⟨word, member, bit⟩
    rw [cursor, List.mem_zipIdx_iff_getElem?, here, Option.some.injEq] at member
    rwa [member]
  · intro bit
    exact ⟨w.word id, List.mem_zipIdx_iff_getElem?.mpr here, bit⟩

theorem yields_unique {c : Cursor} {ids others : List ComponentId} (yields : Yields c ids) (again : Yields c others) :
    ids = others := by
  induction yields generalizing others with
  | ended c none =>
      cases again with
      | ended => rfl
      | given _ rest id ids some _ =>
          rw [none] at some
          contradiction
  | given c rest id ids some _ ih =>
      cases again with
      | ended _ none =>
          rw [none] at some
          contradiction
      | given _ _ _ _ same behind =>
          rw [some] at same
          obtain ⟨rfl, rfl⟩ := Prod.mk.inj (Option.some.inj same)
          rw [ih behind]

end EntityStore.Words

namespace EntityStore.Signature

theorem yields_iff (s : Signature) (ids : List ComponentId) : Words.Yields s.pack.cursor ids ↔ ids = s.ids := by
  obtain ⟨listed, yields, ascending, members⟩ := Words.yields_ok (s.pack.cursor.weight + 1) s.pack.cursor
    (Nat.lt_succ_self _) (Words.cursor_ordered s.pack)
  have same : listed = s.ids := ascending.eq_of_mem_iff s.ids_ascend fun id => by
    rw [members, Words.holds_cursor, contains_pack, mem_ids]
  subst same
  exact ⟨fun others => Words.yields_unique others yields, fun here => here ▸ yields⟩

theorem count_ids (s : Signature) (id : ComponentId) : s.ids.count id = if s.contains id then 1 else 0 := by
  rw [s.nodup_ids.count]
  simp only [mem_ids]

theorem size_zero_iff (s : Signature) : s.isEmpty = true ↔ s.size = 0 := by
  rw [is_empty_iff, size_eq, List.length_eq_zero_iff]
  constructor
  · rintro rfl
    exact List.eq_nil_iff_forall_not_mem.mpr fun id member => by simp [mem_ids] at member
  · intro none
    rw [← of_list_ids s, none]
    rfl

structure Sets (s t : Signature) (listed : List ComponentId) : Prop where
  collected : ∀ id, (ofList listed).contains id = true ↔ id ∈ listed
  unordered : ∀ others, ofList listed = ofList others ↔ ∀ id, id ∈ listed ↔ id ∈ others
  inserts : ∀ id other, (s.insert id).contains other = true ↔ other = id ∨ s.contains other = true
  erases : ∀ id other, (s.erase id).contains other = true ↔ other ≠ id ∧ s.contains other = true
  meets : ∀ id, (s.inter t).contains id = true ↔ s.contains id = true ∧ t.contains id = true
  covers : s.isSuperset t = true ↔ ∀ id, t.contains id = true → s.contains id = true
  extensional : s = t ↔ ∀ id, s.contains id = true ↔ t.contains id = true
  ascending : s.ids.Pairwise (· < ·)
  once : ∀ id, s.ids.count id = if s.contains id then 1 else 0
  size : s.size = s.ids.length
  empty : s.isEmpty = true ↔ s.size = 0
  relisted : ofList s.ids = s

-- The operations on the words are those on the signature.
structure Packs (s t : Signature) (listed : List ComponentId) : Prop where
  collected : Words.ofList listed = (ofList listed).pack
  contains : ∀ id, s.pack.contains id = s.contains id
  inserts : ∀ id, s.pack.insert id = (s.insert id).pack
  erases : ∀ id, s.pack.erase id = (s.erase id).pack
  meets : s.pack.inter t.pack = (s.inter t).pack
  covers : s.pack.isSuperset t.pack = s.isSuperset t
  size : s.pack.size = s.size
  empty : s.pack.isEmpty = s.isEmpty
  words : s.pack.words.toList.map BitVec.toNat = s.words
  yields : ∀ ids, Words.Yields s.pack.cursor ids ↔ ids = s.ids

theorem sets_ok (s t : Signature) (listed : List ComponentId) : Sets s t listed where
  collected := contains_of_list listed
  unordered others := by
    constructor
    · intro same id
      rw [← contains_of_list, same, contains_of_list]
    · intro same
      refine ext_contains _ _ fun id => ?_
      rw [Bool.eq_iff_iff, contains_of_list, contains_of_list]
      exact same id
  inserts id other := by
    rw [contains_insert, Bool.or_eq_true, decide_eq_true_eq, eq_comm]
  erases id other := by
    rw [contains_erase, Bool.and_eq_true, Bool.not_eq_true', decide_eq_false_iff_not, and_comm, eq_comm]
  meets id := by
    rw [contains_inter, Bool.and_eq_true]
  covers := superset_iff s t
  extensional := by
    constructor
    · rintro rfl id
      exact Iff.rfl
    · intro same
      exact ext_contains s t fun id => Bool.eq_iff_iff.mpr (same id)
  ascending := s.ids_ascend
  once := s.count_ids
  size := s.size_eq
  empty := s.size_zero_iff
  relisted := s.of_list_ids

theorem packs_ok (s t : Signature) (listed : List ComponentId) : Packs s t listed where
  collected := pack_of_list listed
  contains := s.contains_pack
  inserts := s.pack_insert
  erases := s.pack_erase
  meets := pack_inter s t
  covers := pack_superset s t
  size := s.pack_size
  empty := s.pack_is_empty
  words := s.pack_words.symm
  yields := s.yields_iff

/-- Signatures are the finite sets of component ids. The ids of a list are in the signature that is made from it,
in any order and however often they come; the operations are those on sets; two signatures with the same ids are
one; and the ids come in ascending order, each of the set once, as many as the size says. Four words of 64 bits
are one signature, each operation on the words is the one on the signature, and clearing the lowest bit of the
first word that is not zero gives the ids in this order and ends. -/
theorem sets_of_ids (s t : Signature) (listed : List ComponentId) :
    Sets s t listed ∧ Packs s t listed ∧ Function.Bijective pack :=
  ⟨sets_ok s t listed, packs_ok s t listed, pack_bijective⟩

end EntityStore.Signature
