import EntityStore.Proofs.Signature
import EntityStore.Signature.Words
import Mathlib.Data.List.Pairwise

set_option autoImplicit false

namespace EntityStore.Words

theorem contains_eq (w : Words) (id : ComponentId) :
    w.contains id = (w.word id).getLsbD (id.val % 64) := by
  unfold contains
  rw [BitVec.ofNat_eq_ofNat, BitVec.and_one_eq_setWidth_ofBool_getLsbD, BitVec.getLsbD_ushiftRight, Nat.add_zero]
  cases (w.word id).getLsbD (id.val % 64) <;> rfl

theorem get_mask (id : ComponentId) (i : Nat) : (mask id).getLsbD i = decide (id.val % 64 = i) := by
  have small : id.val % 64 < 64 := Nat.mod_lt _ (by decide)
  rw [mask, BitVec.ofNat_eq_ofNat, ← BitVec.twoPow_eq, BitVec.getLsbD_twoPow]
  simp [small]

theorem id_eq_iff (id other : ComponentId) :
    id = other ↔ home id = home other ∧ id.val % 64 = other.val % 64 := by
  have number : home id = home other ↔ id.val / 64 = other.val / 64 := Fin.ext_iff
  rw [number, Fin.ext_iff]
  omega

theorem word_congr (w : Words) {id other : ComponentId} (same : home id = home other) : w.word id = w.word other :=
  congrArg (fun i : Fin 4 => w.words[i]) same

theorem word_put (w : Words) (id other : ComponentId) (x : Word) :
    (w.put id x).word other = if home id = home other then x else w.word other := by
  rw [put, word, word, Fin.getElem_fin, Vector.getElem_set]
  simp only [Fin.ext_iff, Fin.getElem_fin]

theorem ext_contains (w v : Words) (same : ∀ id, w.contains id = v.contains id) : w = v := by
  obtain ⟨w⟩ := w
  obtain ⟨v⟩ := v
  refine congrArg mk (Vector.ext fun i inside => BitVec.eq_of_getLsbD_eq fun j bound => ?_)
  have here := same ⟨64 * i + j, by omega⟩
  have number : (64 * i + j) / 64 = i := by omega
  have bit : (64 * i + j) % 64 = j := by omega
  simp only [contains_eq, word, home, Fin.getElem_fin, number, bit] at here
  exact here

theorem contains_empty (id : ComponentId) : empty.contains id = false := by
  rw [contains_eq, empty, word, Fin.getElem_fin, Vector.getElem_replicate]
  exact BitVec.getLsbD_zero

theorem contains_insert (w : Words) (id other : ComponentId) :
    (w.insert id).contains other = (decide (id = other) || w.contains other) := by
  rw [contains_eq, contains_eq, insert, word_put]
  by_cases same : home id = home other
  · rw [if_pos same, word_congr w same, BitVec.getLsbD_or, get_mask, Bool.or_comm]
    simp only [id_eq_iff id other, same, true_and]
  · rw [if_neg same]
    simp [id_eq_iff id other, same]

theorem contains_erase (w : Words) (id other : ComponentId) :
    (w.erase id).contains other = (w.contains other && !decide (id = other)) := by
  have small : other.val % 64 < 64 := Nat.mod_lt _ (by decide)
  rw [contains_eq, contains_eq, erase, word_put]
  by_cases same : home id = home other
  · rw [if_pos same, word_congr w same, BitVec.getLsbD_and, BitVec.getLsbD_not, get_mask]
    simp only [id_eq_iff id other, same, true_and, small, decide_true, Bool.true_and]
  · rw [if_neg same]
    simp [id_eq_iff id other, same]

theorem contains_inter (w v : Words) (id : ComponentId) :
    (w.inter v).contains id = (w.contains id && v.contains id) := by
  have both : (w.inter v).word id = w.word id &&& v.word id := Vector.getElem_zipWith (home id).isLt
  rw [contains_eq, contains_eq, contains_eq, both, BitVec.getLsbD_and]

theorem superset_iff (w v : Words) : w.isSuperset v = true ↔ w.inter v = v := by
  rw [isSuperset, Vector.all_eq_true, inter]
  constructor
  · intro within
    refine congrArg mk (Vector.ext fun i inside => ?_)
    have here := within i inside
    rw [Vector.getElem_zip, beq_iff_eq] at here
    rw [Vector.getElem_zipWith]
    exact here
  · intro same i inside
    have here := congrArg (fun w => w.words[i]) same
    rw [Vector.getElem_zip, beq_iff_eq]
    exact (Vector.getElem_zipWith inside).symm.trans here

theorem is_empty_iff (w : Words) : w.isEmpty = true ↔ w = empty := by
  rw [isEmpty, Vector.all_eq_true]
  constructor
  · intro zero
    refine congrArg mk (Vector.ext fun i inside => ?_)
    rw [Vector.getElem_replicate]
    exact beq_iff_eq.mp (zero i inside)
  · rintro rfl i inside
    exact beq_iff_eq.mpr (Vector.getElem_replicate inside)

end EntityStore.Words

namespace EntityStore.Signature

open Words (home)

theorem contains_pack (s : Signature) (id : ComponentId) : s.pack.contains id = s.contains id := by
  have small : id.val % 64 < 64 := Nat.mod_lt _ (by decide)
  have position : 64 * (home id).val + id.val % 64 = id.val := Nat.div_add_mod id.val 64
  rw [Words.contains_eq, pack, Words.word, Fin.getElem_fin, Vector.getElem_ofFn, BitVec.getLsbD_extractLsb', contains]
  simp only [small, decide_true, Bool.true_and, position]

theorem pack_eq {s : Signature} {w : Words} (same : ∀ id, w.contains id = s.contains id) : w = s.pack :=
  Words.ext_contains w s.pack fun id => (same id).trans (contains_pack s id).symm

theorem pack_empty : Words.empty = empty.pack :=
  pack_eq fun id => (Words.contains_empty id).trans (contains_empty id).symm

theorem pack_insert (s : Signature) (id : ComponentId) : s.pack.insert id = (s.insert id).pack :=
  pack_eq fun other => by rw [Words.contains_insert, contains_insert, contains_pack]

theorem pack_erase (s : Signature) (id : ComponentId) : s.pack.erase id = (s.erase id).pack :=
  pack_eq fun other => by rw [Words.contains_erase, contains_erase, contains_pack]

theorem pack_inter (s t : Signature) : s.pack.inter t.pack = (s.inter t).pack :=
  pack_eq fun id => by rw [Words.contains_inter, contains_inter, contains_pack, contains_pack]

theorem pack_foldl (ids : List ComponentId) (s : Signature) :
    ids.foldl Words.insert s.pack = (ids.foldl insert s).pack := by
  induction ids generalizing s with
  | nil => rfl
  | cons id rest ih => rw [List.foldl_cons, pack_insert, ih, List.foldl_cons]

theorem pack_of_list (ids : List ComponentId) : Words.ofList ids = (ofList ids).pack := by
  rw [Words.ofList, pack_empty, pack_foldl, ofList]

theorem pack_injective : Function.Injective pack := fun s t same =>
  ext_contains s t fun id => by rw [← contains_pack, same, contains_pack]

theorem pack_bijective : Function.Bijective pack := by
  refine ⟨pack_injective, fun w => ⟨ofList ((List.finRange 256).filter w.contains), Eq.symm ?_⟩⟩
  refine pack_eq fun id => ?_
  rw [Bool.eq_iff_iff, contains_of_list, List.mem_filter]
  exact ⟨fun present => ⟨List.mem_finRange id, present⟩, fun listed => listed.2⟩

theorem pack_superset (s t : Signature) : s.pack.isSuperset t.pack = s.isSuperset t := by
  rw [Bool.eq_iff_iff, Words.superset_iff, pack_inter, pack_injective.eq_iff, inter_eq_iff]

theorem pack_is_empty (s : Signature) : s.pack.isEmpty = s.isEmpty := by
  rw [Bool.eq_iff_iff, Words.is_empty_iff, pack_empty, pack_injective.eq_iff, is_empty_iff]

theorem pack_words (s : Signature) : s.words = s.pack.words.toList.map BitVec.toNat := by
  rw [pack, Vector.toList_ofFn]
  rfl

theorem pack_size (s : Signature) : s.pack.size = s.size := by
  have whole : s.bits = s.bits.extractLsb' 192 64 ++ s.bits.extractLsb' 128 64 ++ s.bits.extractLsb' 64 64 ++
      s.bits.extractLsb' 0 64 := by
    apply BitVec.eq_of_getLsbD_eq
    intro i inside
    simp only [BitVec.getLsbD_append, BitVec.getLsbD_extractLsb']
    grind
  have counted : s.pack.size = 0 + (s.bits.extractLsb' 0 64).cpop.toNat + (s.bits.extractLsb' 64 64).cpop.toNat +
      (s.bits.extractLsb' 128 64).cpop.toNat + (s.bits.extractLsb' 192 64).cpop.toNat := rfl
  have total := congrArg (fun bits => bits.cpop.toNat) whole
  simp only [BitVec.toNat_cpop_append] at total
  rw [counted, size]
  omega

end EntityStore.Signature
