import EntityStore.Buffer
import EntityStore.Proofs.Checked

set_option autoImplicit false

namespace EntityStore.Buffer

theorem get_eq (b : Buffer) (i : Nat) : b.get i = (b.bytes[i]?).getD 0 := by
  simp [get]

theorem get_zeroed (size i : Nat) : (zeroed size).get i = 0 := by
  rw [get_eq, zeroed]
  by_cases inside : i < size <;> simp [inside]

theorem get_write (b : Buffer) (start : Nat) (bytes : List UInt8) (i : Nat) :
    (b.write start bytes).get i =
      if start ≤ i ∧ i < start + bytes.length ∧ i < b.size then (bytes[i - start]?).getD 0
      else b.get i := by
  rw [get_eq, get_eq, write, getElem?_writeFrom, apply_ite (fun byte => Option.getD byte 0)]
  rfl

theorem getElem?_read (b : Buffer) (start length k : Nat) :
    (b.read start length)[k]? = if k < length then some (b.get (start + k)) else none := by
  induction length generalizing start k with
  | zero => simp [read]
  | succ length ih =>
      cases k with
      | zero => simp [read]
      | succ k =>
          rw [read, List.getElem?_cons_succ, ih]
          have place : start + 1 + k = start + (k + 1) := by omega
          by_cases inside : k < length
          · rw [if_pos inside, if_pos (by omega), place]
          · rw [if_neg inside, if_neg (by omega)]

theorem read_congr (a b : Buffer) (start other length : Nat)
    (same : ∀ k, k < length → a.get (start + k) = b.get (other + k)) :
    a.read start length = b.read other length := by
  apply List.ext_getElem?
  intro k
  rw [getElem?_read, getElem?_read]
  by_cases inside : k < length
  · rw [if_pos inside, if_pos inside, same k inside]
  · rw [if_neg inside, if_neg inside]

theorem read_write_same (b : Buffer) (start : Nat) (bytes : List UInt8)
    (bound : start + bytes.length ≤ b.size) :
    (b.write start bytes).read start bytes.length = bytes := by
  apply List.ext_getElem?
  intro k
  rw [getElem?_read]
  by_cases inside : k < bytes.length
  · have here : start ≤ start + k ∧ start + k < start + bytes.length ∧ start + k < b.size := by
      omega
    rw [if_pos inside, get_write, if_pos here, Nat.add_sub_cancel_left,
      List.getElem?_eq_getElem inside, Option.getD_some]
  · rw [if_neg inside, List.getElem?_eq_none (by omega)]

theorem read_write_apart (b : Buffer) (start : Nat) (bytes : List UInt8) (other length : Nat)
    (apart : other + length ≤ start ∨ start + bytes.length ≤ other) :
    (b.write start bytes).read other length = b.read other length := by
  apply read_congr
  intro k inside
  rw [get_write, if_neg (by omega)]

theorem get_ext {a b : Buffer} (size : a.size = b.size) (same : ∀ i, a.get i = b.get i) : a = b := by
  obtain ⟨a⟩ := a
  obtain ⟨b⟩ := b
  refine congrArg mk (Array.ext size fun i inA inB => ?_)
  have here := same i
  rwa [get_eq, get_eq, Array.getElem?_eq_getElem inA, Array.getElem?_eq_getElem inB] at here

theorem write_comm (b : Buffer) (p q : Nat) (xs ys : List UInt8)
    (apart : p + xs.length ≤ q ∨ q + ys.length ≤ p) :
    (b.write p xs).write q ys = (b.write q ys).write p xs := by
  refine get_ext (by rw [size_write, size_write, size_write, size_write]) fun i => ?_
  rw [get_write, get_write, get_write, get_write, size_write, size_write]
  by_cases first : p ≤ i ∧ i < p + xs.length ∧ i < b.size
  · rw [if_pos first, if_pos first, if_neg (by omega)]
  · rw [if_neg first, if_neg first]

theorem write_read (b : Buffer) (start length : Nat) : b.write start (b.read start length) = b := by
  refine get_ext (size_write b start _) fun i => ?_
  rw [get_write, length_read]
  by_cases inside : start ≤ i ∧ i < start + length ∧ i < b.size
  · have offset : start + (i - start) = i := by omega
    rw [if_pos inside, getElem?_read, if_pos (by omega), Option.getD_some, offset]
  · rw [if_neg inside]

theorem read_zeroed (size start length : Nat) :
    (zeroed size).read start length = List.replicate length 0 := by
  apply List.ext_getElem?
  intro k
  rw [getElem?_read, List.getElem?_replicate, get_zeroed]

theorem check_span_ok (b : Buffer) (start length : Nat) (bound : start + length ≤ b.size) :
    b.checkSpan start length = .ok () :=
  Checked.require_ok _ _ (by simpa using bound)

theorem slice_ok (b : Buffer) (start length : Nat) (bound : start + length ≤ b.size) :
    b.slice start length = .ok (b.read start length) := by
  rw [slice, check_span_ok b start length bound]
  rfl

theorem splice_ok (b : Buffer) (start : Nat) (bytes : List UInt8)
    (bound : start + bytes.length ≤ b.size) : b.splice start bytes = .ok (b.write start bytes) := by
  rw [splice, check_span_ok b start bytes.length bound]
  rfl

end EntityStore.Buffer
