import EntityStore.Single
import Mathlib.Data.Nat.Log

set_option autoImplicit false

namespace EntityStore.Single

theorem round_shift_exact (m shift : Nat) : roundShift (m <<< shift) shift = m := by
  have positive : 0 < 1 <<< shift := by
    rw [Nat.one_shiftLeft]
    exact Nat.two_pow_pos shift
  have whole : m <<< shift = m * 1 <<< shift := by rw [Nat.shiftLeft_eq, Nat.one_shiftLeft]
  have none : ¬ (1 <<< shift < 2 * (m * 1 <<< shift % 1 <<< shift) ∨
      2 * (m * 1 <<< shift % 1 <<< shift) = 1 <<< shift ∧ m * 1 <<< shift / 1 <<< shift % 2 = 1) := by
    rw [Nat.mul_mod_left]
    omega
  rw [roundShift, whole]
  simp only [if_neg none]
  exact Nat.mul_div_cancel m positive

theorem lead_shifted {m : Nat} (nonzero : m ≠ 0) (bound : m < 0x1000000) :
    Nat.log2 m ≤ 23 ∧ wideUnit ≤ m <<< (52 - Nat.log2 m) ∧ m <<< (52 - Nat.log2 m) < 2 * wideUnit ∧
      Nat.log2 (m <<< (52 - Nat.log2 m)) = 52 := by
  have top : Nat.log2 m < 24 := (Nat.log2_lt nonzero).mpr bound
  have low : 2 ^ Nat.log2 m ≤ m := Nat.log2_self_le nonzero
  have high : m < 2 ^ (Nat.log2 m + 1) := (Nat.log2_lt nonzero).mp (Nat.lt_succ_self _)
  have lead : 2 ^ Nat.log2 m * 2 ^ (52 - Nat.log2 m) = wideUnit := by
    rw [← Nat.pow_add, Nat.add_sub_of_le (by omega)]
    rfl
  have above : wideUnit ≤ m <<< (52 - Nat.log2 m) := by
    rw [Nat.shiftLeft_eq, ← lead]
    exact Nat.mul_le_mul_right _ low
  have below : m <<< (52 - Nat.log2 m) < 2 * wideUnit := by
    rw [Nat.shiftLeft_eq, ← lead, ← Nat.mul_assoc, ← Nat.pow_succ']
    exact Nat.mul_lt_mul_of_pos_right high (Nat.two_pow_pos _)
  have positive : m <<< (52 - Nat.log2 m) ≠ 0 := fun zero => by
    rw [zero] at above
    exact absurd above (by decide)
  exact ⟨Nat.le_of_lt_succ top, above, below, (Nat.log2_eq_iff positive).mpr ⟨above, below⟩⟩

-- A number whose leading one was moved is rounded to its own word; `field` is one more than the number
-- of times its unit exceeds the least one.
theorem nearest_shifted (negative : Bool) {m field : Nat} (nonzero : m ≠ 0) (bound : m < 0x1000000)
    (positive : 1 ≤ field) (finite : field < 255) (normal : field = 1 ∨ 0x800000 ≤ m) :
    nearest negative (m <<< (52 - Nat.log2 m)) ((field : Int) + Nat.log2 m - 202) =
      ⟨UInt32.ofNat (signBit negative + ((field - 1) * 0x800000 + m))⟩ := by
  obtain ⟨top, above, _, lead⟩ := lead_shifted nonzero bound
  have some : m <<< (52 - Nat.log2 m) ≠ 0 := fun zero => by
    rw [zero] at above
    exact absurd above (by decide)
  have full : field ≠ 1 → Nat.log2 m = 23 := fun other => by
    have low : 23 ≤ Nat.log2 m := (Nat.le_log2 nonzero).mpr (normal.resolve_left other)
    omega
  have unit : max ((field : Int) + Nat.log2 m - 202 + (52 : Nat) - 23) (-149) = (field : Int) - 150 := by
    omega
  have shift : ((field : Int) - 150 - ((field : Int) + Nat.log2 m - 202)).toNat = 52 - Nat.log2 m := by
    omega
  have steps : ((field : Int) - 150 + 149).toNat = field - 1 := by omega
  have large : ¬ (field : Int) - 150 ≤ (field : Int) + Nat.log2 m - 202 := by omega
  have below : (field - 1) * 0x800000 + m ≤ 0x7f800000 := by omega
  rw [nearest, if_neg some]
  simp only [lead, unit, steps, scaleTo, if_neg large, shift, round_shift_exact, Nat.min_eq_left below]

theorem bits_eq (x : Single) :
    x.bits.toNat = signBit x.isNegative + (x.exponentField * 0x800000 + x.fraction) := by
  have bound := x.bits.toNat_lt
  unfold signBit isNegative exponentField fraction
  by_cases negative : 0x80000000 ≤ x.bits.toNat
  · simp only [negative, decide_true, if_true]
    omega
  · simp only [negative, decide_false, Bool.false_eq_true, if_false]
    omega

theorem of_bits {x : Single} {n : Nat} (same : x.bits.toNat = n) : (⟨UInt32.ofNat n⟩ : Single) = x := by
  obtain ⟨bits⟩ := x
  rw [← same, UInt32.ofNat_toNat]

theorem fraction_of_infinite {x : Single} (number : x.isNaN = false) (largest : x.exponentField = 255) :
    x.fraction = 0 := by
  have small := of_decide_eq_false number
  rw [UInt32.lt_iff_toNat_lt, UInt32.toNat_and] at small
  have masked : x.bits.toNat &&& (0x7fffffff : UInt32).toNat = x.bits.toNat % 0x80000000 :=
    Nat.and_two_pow_sub_one_eq_mod x.bits.toNat 31
  have limit : (0x7f800000 : UInt32).toNat = 0x7f800000 := rfl
  rw [masked, limit] at small
  unfold exponentField at largest
  unfold fraction
  omega

theorem narrow_word (negative : Bool) (exponent fraction : Nat) (exponents : exponent < 2048)
    (fractions : fraction < wideUnit) :
    narrow (UInt64.ofNat (wideSignBit negative + exponent * wideUnit + fraction)) =
      if exponent = 2047 then
        ⟨UInt32.ofNat (signBit negative + 255 * 0x800000 +
          if fraction = 0 then 0 else 0x400000 + fraction / 0x20000000 % 0x400000)⟩
      else if exponent = 0 then nearest negative fraction (-1074)
      else nearest negative (wideUnit + fraction) ((exponent : Int) - 1075) := by
  have unit : wideUnit = 0x10000000000000 := rfl
  have sign : negative = false ∧ wideSignBit negative = 0 ∨
      negative = true ∧ wideSignBit negative = 0x8000000000000000 := by
    cases negative
    · exact Or.inl ⟨rfl, rfl⟩
    · exact Or.inr ⟨rfl, rfl⟩
  rw [unit] at fractions
  have word : (UInt64.ofNat (wideSignBit negative + exponent * wideUnit + fraction)).toNat =
      wideSignBit negative + exponent * wideUnit + fraction := by
    rw [UInt64.toNat_ofNat', unit]
    exact Nat.mod_eq_of_lt (by omega)
  have negatives : decide (0x8000000000000000 ≤ wideSignBit negative + exponent * wideUnit + fraction) =
      negative := by
    rw [unit]
    rcases sign with ⟨rfl, zero⟩ | ⟨rfl, high⟩
    · exact decide_eq_false (by omega)
    · exact decide_eq_true (by omega)
  have field : (wideSignBit negative + exponent * wideUnit + fraction) / wideUnit % 2048 = exponent := by
    rw [unit]
    omega
  have rest : (wideSignBit negative + exponent * wideUnit + fraction) % wideUnit = fraction := by
    rw [unit]
    omega
  simp only [narrow, word, negatives, field, rest]

theorem significand_split (x : Single) (finite : x.exponentField < 255) {m : Nat}
    (significand : (if x.exponentField = 0 then x.fraction else 0x800000 + x.fraction) = m) :
    m < 0x1000000 ∧ (max x.exponentField 1 = 1 ∨ 0x800000 ≤ m) ∧
      (max x.exponentField 1 - 1) * 0x800000 + m = x.exponentField * 0x800000 + x.fraction := by
  have fractions : x.fraction < 0x800000 := Nat.mod_lt _ (by decide)
  by_cases subnormal : x.exponentField = 0
  · rw [if_pos subnormal] at significand
    omega
  · rw [if_neg subnormal] at significand
    omega

theorem narrow_widen (x : Single) (number : x.isNaN = false) : narrow x.widen = x := by
  have bits := bits_eq x
  have fields : x.exponentField < 256 := Nat.mod_lt _ (by decide)
  unfold widen
  by_cases largest : x.exponentField = 255
  · have infinite := fraction_of_infinite number largest
    have word := narrow_word x.isNegative 2047 0 (by decide) (by decide)
    simp only [if_pos largest, infinite, if_true] at word ⊢
    rw [word]
    exact of_bits (by rw [bits, largest, infinite])
  · simp only [if_neg largest]
    generalize significand : (if x.exponentField = 0 then x.fraction else 0x800000 + x.fraction) = m
    obtain ⟨bound, normal, whole⟩ := significand_split x (by omega) significand
    by_cases zero : m = 0
    · have word := narrow_word x.isNegative 0 0 (by decide) (by decide)
      simp only [Nat.zero_mul, Nat.add_zero] at word
      rw [if_pos zero, word]
      exact of_bits (by rw [bits, ← whole]; omega)
    · obtain ⟨top, above, below, _⟩ := lead_shifted zero bound
      have biased : (max (x.exponentField : Int) 1 - 150 + Nat.log2 m + 1023).toNat =
          max x.exponentField 1 + Nat.log2 m + 873 := by omega
      have word := narrow_word x.isNegative (max x.exponentField 1 + Nat.log2 m + 873)
        (m <<< (52 - Nat.log2 m) - wideUnit) (by omega) (by omega)
      rw [if_neg (by omega), if_neg (by omega), Nat.add_sub_of_le above] at word
      have power : ((max x.exponentField 1 + Nat.log2 m + 873 : Nat) : Int) - 1075 =
          ((max x.exponentField 1 : Nat) : Int) + Nat.log2 m - 202 := by omega
      rw [if_neg zero, biased, word, power,
        nearest_shifted x.isNegative zero bound (Nat.le_max_right ..) (by omega) normal, whole]
      exact of_bits bits

end EntityStore.Single
