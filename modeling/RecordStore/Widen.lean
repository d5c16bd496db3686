import RecordStore.PyFloat

/-!
# A binary32 survives the trip through a Python float

`unpack_record` widens the price word to a Python float (`ofF32`) and `pack_record` rounds it
back (`toF32`). Every binary32 value is a binary64 value, so the widening is exact, and a value
already on the binary32 grid is rounded to itself: the word comes back bit for bit
(`toF32_ofF32_of_le`). A NaN comes back quiet, with the payload bits the widening kept
(`toF32_ofF32_nan`). Either way the word widens to the float it came from (`toF32_ofF32`).

Both roundings go through `Fmt.roundMag` on a dyadic value `s * 2 ^ a / 2 ^ b`. On such a value
`floorLog2` is `log₂ s + a - b` (`floorLog2_dyadic`), and when no bit of `s` falls below the
format's last place the quotient is exact and the remainder zero (`roundMag_dyadic`).
-/

namespace RecordStore

/-! ### Rounding a dyadic value -/

theorem log2Aux_eq : ∀ fuel n, n ≤ fuel → log2Aux fuel n = n.log2
  | 0, n, h => by rw [Nat.le_zero.mp h, Nat.log2_zero]; rfl
  | fuel + 1, n, h => by
    rw [log2Aux, Nat.log2]
    split_ifs with h₁ h₂ h₂
    · omega
    · rfl
    · rw [log2Aux_eq fuel (n / 2) (by omega)]
    · omega

theorem ilog2_eq (n : Nat) : ilog2 n = n.log2 := log2Aux_eq n n le_rfl

theorem log2_mul_pow {s : Nat} (hs : s ≠ 0) (a : Nat) : (s * 2 ^ a).log2 = s.log2 + a := by
  have hsa : s * 2 ^ a ≠ 0 := Nat.mul_ne_zero hs (Nat.ne_of_gt (Nat.two_pow_pos a))
  have lo : s.log2 + a ≤ (s * 2 ^ a).log2 := by
    rw [Nat.le_log2 hsa, Nat.pow_add]
    exact Nat.mul_le_mul_right _ (Nat.log2_self_le hs)
  have hi : (s * 2 ^ a).log2 < s.log2 + a + 1 := by
    rw [Nat.log2_lt hsa, Nat.add_right_comm, Nat.pow_add]
    exact Nat.mul_lt_mul_of_pos_right Nat.lt_log2_self (Nat.two_pow_pos a)
  omega

theorem floorLog2_dyadic {s : Nat} (hs : s ≠ 0) (a b : Nat) :
    floorLog2 (s * 2 ^ a) (2 ^ b) = (s.log2 : Int) + a - b := by
  rw [floorLog2, ilog2_eq, ilog2_eq, log2_mul_pow hs, Nat.log2_two_pow, if_pos]
  · omega
  · have := Nat.mul_le_mul_right (2 ^ a * 2 ^ b) (Nat.log2_self_le hs)
    rw [Nat.pow_add]
    simpa only [Nat.mul_comm, Nat.mul_assoc, Nat.mul_left_comm] using this

/-- `2 ^ a / 2 ^ b` split at an exponent `E ≤ a - b`, with `Int` exponents cut at zero. -/
theorem pow_toNat_split (a b : Nat) (E : Int) (h : E ≤ (a : Int) - b) :
    2 ^ a * 2 ^ (-E).toNat = 2 ^ b * 2 ^ E.toNat * 2 ^ ((a : Int) - b - E).toNat := by
  rw [← Nat.pow_add, ← Nat.pow_add, ← Nat.pow_add]
  congr 1
  omega

/-- Rounding `s * 2 ^ (a - b)` when the value has no bit below the last place of the format: the
magnitude field is the exponent field and the significand shifted into place. -/
theorem roundMag_dyadic (F : Fmt) {s : Nat} (hs : s ≠ 0) (a b : Nat)
    (hE : max ((s.log2 : Int) + a - b) (1 - F.bias) - F.mant ≤ (a : Int) - b) :
    F.roundMag (s * 2 ^ a) (2 ^ b) =
      let e := max ((s.log2 : Int) + a - b) (1 - F.bias)
      let mag := (e + F.bias - 1).toNat * 2 ^ F.mant +
        s * 2 ^ ((a : Int) - b - (e - F.mant)).toNat
      if mag < F.infMag then some mag else none := by
  have hn : s * 2 ^ a ≠ 0 := Nat.mul_ne_zero hs (Nat.ne_of_gt (Nat.two_pow_pos a))
  simp only [Fmt.roundMag, if_neg hn, floorLog2_dyadic hs]
  generalize max ((s.log2 : Int) + a - b) (1 - F.bias) = e at hE ⊢
  have hd : 0 < 2 ^ b * 2 ^ (e - F.mant).toNat := Nat.mul_pos (Nat.two_pow_pos _) (Nat.two_pow_pos _)
  rw [Nat.mul_assoc, pow_toNat_split a b _ hE, Nat.mul_left_comm, Nat.mul_div_cancel_left _ hd,
    Nat.mul_mod_right]
  simp only [Nat.mul_zero, Nat.not_lt_zero, Nat.ne_of_lt hd, false_and, false_or, ite_false]

/-! ### The two formats -/

namespace Fmt

@[simp] theorem binary32_mant : binary32.mant = 23 := rfl
@[simp] theorem binary32_bias : binary32.bias = 127 := rfl
@[simp] theorem binary32_infMag : binary32.infMag = 0x7F800000 := rfl
@[simp] theorem binary64_mant : binary64.mant = 52 := rfl
@[simp] theorem binary64_bias : binary64.bias = 1023 := rfl
@[simp] theorem binary64_infMag : binary64.infMag = 0x7FF0000000000000 := rfl

/-- The significand of a finite magnitude field: its stored bits, with the hidden bit unless the
field is subnormal. -/
theorem magValue_eq (F : Fmt) (mag : Nat) :
    F.magValue mag =
      ((if mag / 2 ^ F.mant = 0 then mag % 2 ^ F.mant else mag % 2 ^ F.mant + 2 ^ F.mant) *
          2 ^ (((max (mag / 2 ^ F.mant) 1 : Nat) : Int) - F.bias - F.mant).toNat,
        2 ^ (-(((max (mag / 2 ^ F.mant) 1 : Nat) : Int) - F.bias - F.mant)).toNat) := rfl

end Fmt

/-! ### Widening and rounding back -/

/-- A nonzero significand of at most 24 bits, times `2 ^ E` with `E` in binary32's range, is a
normal binary64: rounding it is exact, and the magnitude field it gives has the same value, as a
significand and exponent. -/
theorem roundMag64_widen {s : Nat} (h0 : s ≠ 0) (hs : s < 2 ^ 24) (a b : Nat)
    (hlo : -149 ≤ (a : Int) - b) (hhi : (a : Int) - b ≤ 104) :
    ∃ M, Fmt.binary64.roundMag (s * 2 ^ a) (2 ^ b) = some M ∧ M < Fmt.binary64.infMag ∧
      ∃ a' b' : Nat, (a' : Int) - b' = (a : Int) - b ∧ Fmt.binary64.magValue M = (s * 2 ^ a', 2 ^ b') := by
  have hk : s.log2 < 24 := (Nat.log2_lt h0).mpr hs
  have hE : max ((s.log2 : Int) + a - b) (1 - (Fmt.binary64.bias : Int)) - Fmt.binary64.mant ≤
      (a : Int) - b := by simp only [Fmt.binary64_bias, Fmt.binary64_mant]; omega
  rw [roundMag_dyadic _ h0 a b hE]
  simp only [Fmt.binary64_bias, Fmt.binary64_mant, Fmt.binary64_infMag, Nat.cast_ofNat]
  have ht : ((a : Int) - b - (max (s.log2 + (a : Int) - b) (1 - 1023) - 52)).toNat = 52 - s.log2 := by
    omega
  -- the significand scaled up to 53 bits
  have hB : 2 ^ 52 ≤ s * 2 ^ (52 - s.log2) ∧ s * 2 ^ (52 - s.log2) < 2 ^ 53 := by
    constructor
    · calc 2 ^ 52 = 2 ^ s.log2 * 2 ^ (52 - s.log2) := by rw [← Nat.pow_add]; congr 1; omega
        _ ≤ s * 2 ^ (52 - s.log2) := Nat.mul_le_mul_right _ (Nat.log2_self_le h0)
    · calc s * 2 ^ (52 - s.log2) < 2 ^ (s.log2 + 1) * 2 ^ (52 - s.log2) :=
            Nat.mul_lt_mul_of_pos_right Nat.lt_log2_self (Nat.two_pow_pos _)
        _ = 2 ^ 53 := by rw [← Nat.pow_add]; congr 1; omega
  rw [ht]
  obtain ⟨B, hBs⟩ : ∃ B, s * 2 ^ (52 - s.log2) = B := ⟨_, rfl⟩
  rw [hBs] at hB ⊢
  generalize hA : (max (s.log2 + (a : Int) - b) (1 - 1023) + 1023 - 1).toNat = A
  have hA' : A + 1 + (- 1023 - 52 : Int) = s.log2 + ((a : Int) - b) - 52 := by omega
  have hdiv : (A * 2 ^ 52 + B) / 2 ^ 52 = A + 1 := by omega
  have hmod : (A * 2 ^ 52 + B) % 2 ^ 52 + 2 ^ 52 = B := by omega
  refine ⟨_, if_pos (by omega), by omega, 52 - s.log2 + (((A + 1 : Nat) : Int) - 1023 - 52).toNat,
    (-(((A + 1 : Nat) : Int) - 1023 - 52)).toNat, by omega, ?_⟩
  rw [Fmt.magValue_eq]
  simp only [Fmt.binary64_bias, Fmt.binary64_mant, Nat.cast_ofNat]
  rw [hdiv, if_neg (Nat.add_one_ne_zero A), hmod, Nat.max_eq_left (by omega), ← hBs, Nat.mul_assoc,
    ← Nat.pow_add]
/-- Rounding to binary32 a value with the significand and exponent of a finite nonzero binary32
gives back that binary32: the value is on the grid, so nothing is rounded. -/
theorem roundMag32_exact {m : Nat} (h0 : m ≠ 0) (hm : m < Fmt.binary32.infMag) (a b : Nat)
    (hab : (a : Int) - b = ((max (m / 2 ^ 23) 1 : Nat) : Int) - 127 - 23) :
    Fmt.binary32.roundMag
      ((if m / 2 ^ 23 = 0 then m % 2 ^ 23 else m % 2 ^ 23 + 2 ^ 23) * 2 ^ a) (2 ^ b) = some m := by
  simp only [Fmt.binary32_infMag] at hm
  obtain ⟨s, hs⟩ : ∃ s, (if m / 2 ^ 23 = 0 then m % 2 ^ 23 else m % 2 ^ 23 + 2 ^ 23) = s := ⟨_, rfl⟩
  -- the significand: the stored bits, with the hidden bit of a normal number
  have hsm : (m / 2 ^ 23 = 0 ∧ s = m % 2 ^ 23) ∨ (m / 2 ^ 23 ≠ 0 ∧ s = m % 2 ^ 23 + 2 ^ 23) := by
    split at hs <;> omega
  have hs0 : s ≠ 0 := by omega
  -- the exponent the rounding picks is that of `m`
  have he : max ((s.log2 : Int) + a - b) (1 - 127) = ((max (m / 2 ^ 23) 1 : Nat) : Int) - 127 := by
    rcases hsm with ⟨h, hs'⟩ | ⟨h, hs'⟩
    · have : s.log2 < 23 := (Nat.log2_lt hs0).mpr (by omega)
      omega
    · have : 23 ≤ s.log2 := (Nat.le_log2 hs0).mpr (by omega)
      have : s.log2 < 24 := (Nat.log2_lt hs0).mpr (by omega)
      omega
  have hE : max ((s.log2 : Int) + a - b) (1 - (Fmt.binary32.bias : Int)) -
      Fmt.binary32.mant ≤ (a : Int) - b := by
    simp only [Fmt.binary32_bias, Fmt.binary32_mant, Nat.cast_ofNat, he]; omega
  rw [hs, roundMag_dyadic _ hs0 a b hE]
  simp only [Fmt.binary32_bias, Fmt.binary32_mant, Fmt.binary32_infMag, Nat.cast_ofNat, he]
  rw [show ((a : Int) - b - (((max (m / 2 ^ 23) 1 : Nat) : Int) - 127 - 23)).toNat = 0 by omega,
    Nat.pow_zero, Nat.mul_one]
  have hmag : (((max (m / 2 ^ 23) 1 : Nat) : Int) - 127 + 127 - 1).toNat * 2 ^ 23 + s = m := by omega
  rw [hmag, if_pos hm]

namespace PyFloat

theorem bits_ofMag (neg : Bool) {mag : Nat} (h : mag < 2 ^ 63) :
    (ofMag neg mag).bits.toNat = (if neg then 2 ^ 63 else 0) + mag :=
  UInt64.toNat_ofNat_of_lt (by simp only [UInt64.size]; split <;> omega)

theorem neg_ofMag (neg : Bool) {mag : Nat} (h : mag < 2 ^ 63) : (ofMag neg mag).neg = neg := by
  cases neg <;> simp [PyFloat.neg, bits_ofMag _ h]
  omega

theorem mag_ofMag (neg : Bool) {mag : Nat} (h : mag < 2 ^ 63) : (ofMag neg mag).mag = mag := by
  rw [PyFloat.mag, bits_ofMag _ h]
  split <;> omega

/-- `struct.pack("f", ·)` of a finite float: the binary32 rounding of its value, infinity past the
largest one. -/
theorem toF32_ofMag (neg : Bool) {M : Nat} (hM : M < Fmt.binary64.infMag) :
    (ofMag neg M).toF32 = UInt32.ofNat ((if neg then 2 ^ 31 else 0) +
      (Fmt.binary32.roundMag (Fmt.binary64.magValue M).1 (Fmt.binary64.magValue M).2).getD
        Fmt.binary32.infMag) := by
  have h63 : M < 2 ^ 63 := by simp only [Fmt.binary64_infMag] at hM; omega
  simp only [Fmt.binary64_infMag] at hM
  simp only [toF32, isNaN, isInf, neg_ofMag _ h63, mag_ofMag _ h63, Fmt.binary64_infMag,
    decide_eq_true_eq]
  rw [if_neg (by omega), if_neg (by omega)]

/-- The sign and magnitude of a binary32 word. -/
theorem toNat_uint32 (u : UInt32) :
    u.toNat = (if decide (2 ^ 31 ≤ u.toNat) then 2 ^ 31 else 0) + u.toNat % 2 ^ 31 := by
  have := u.toNat_lt_size
  simp only [UInt32.size] at this
  split <;> rename_i h <;> simp only [decide_eq_true_eq] at h <;> omega

theorem uint32_eq {u : UInt32} {n : Nat} (h : u.toNat = n) : UInt32.ofNat n = u := by
  have hn : n < UInt32.size := h ▸ u.toNat_lt_size
  exact UInt32.toNat.inj (by rw [UInt32.toNat_ofNat_of_lt hn, h])

/-- `struct.unpack("f", ·)` of a finite binary32: the binary64 nearest to its value. -/
theorem ofF32_finite {u : UInt32} (h : u.toNat % 2 ^ 31 < Fmt.binary32.infMag) :
    ofF32 u = ofRat (decide (2 ^ 31 ≤ u.toNat)) (Fmt.binary32.magValue (u.toNat % 2 ^ 31)).1
      (Fmt.binary32.magValue (u.toNat % 2 ^ 31)).2 := by
  rw [ofF32, if_neg (by omega), if_neg (by omega)]

/-- Every binary32 that is not a NaN comes back bit for bit from widening to a Python float and
`struct.pack("f", ·)`. -/
theorem toF32_ofF32_of_le {u : UInt32} (h : u.toNat % 2 ^ 31 ≤ Fmt.binary32.infMag) :
    (ofF32 u).toF32 = u := by
  have hu := toNat_uint32 u
  rcases Nat.lt_or_eq_of_le h with hlt | heq
  · rw [ofF32_finite hlt, ofRat]
    generalize hm : u.toNat % 2 ^ 31 = m at hu hlt
    simp only [Fmt.binary32_infMag] at hlt
    rcases Nat.eq_zero_or_pos m with rfl | h0
    · rw [show (Fmt.binary32.magValue 0).1 = 0 by rfl, Fmt.roundMag, if_pos rfl, Option.getD_some,
        toF32_ofMag _ (by decide), show (Fmt.binary64.magValue 0).1 = 0 by rfl, Fmt.roundMag,
        if_pos rfl, Option.getD_some, uint32_eq hu]
    · rw [Fmt.magValue_eq]
      simp only [Fmt.binary32_mant, Fmt.binary32_bias, Nat.cast_ofNat]
      have hE : -149 ≤ ((max (m / 2 ^ 23) 1 : Nat) : Int) - 127 - 23 ∧
          ((max (m / 2 ^ 23) 1 : Nat) : Int) - 127 - 23 ≤ 104 := by omega
      obtain ⟨M, hM, hMinf, a', b', hab, hval⟩ := roundMag64_widen
        (show (if m / 2 ^ 23 = 0 then m % 2 ^ 23 else m % 2 ^ 23 + 2 ^ 23) ≠ 0 by split <;> omega)
        (by split <;> omega) (((max (m / 2 ^ 23) 1 : Nat) : Int) - 127 - 23).toNat
        (-(((max (m / 2 ^ 23) 1 : Nat) : Int) - 127 - 23)).toNat (by omega) (by omega)
      rw [hM, Option.getD_some, toF32_ofMag _ hMinf, hval,
        roundMag32_exact (by omega) (by simpa using hlt) a' b' (by omega), Option.getD_some,
        uint32_eq hu]
  · simp only [Fmt.binary32_infMag] at heq
    have hinf : (0x7FF0000000000000 : Nat) < 2 ^ 63 := by decide
    rw [ofF32, if_neg (by simp only [Fmt.binary32_infMag]; omega), if_pos (by simpa using heq)]
    simp only [toF32, isNaN, isInf, neg_ofMag _ hinf, mag_ofMag _ hinf, Fmt.binary64_infMag,
      decide_eq_true_eq, Nat.lt_irrefl, if_false, if_true, Fmt.binary32_infMag]
    refine uint32_eq ?_
    by_cases hs : 2 ^ 31 ≤ u.toNat <;> simp only [hs, decide_True, decide_False, if_true,
      if_false] at hu ⊢ <;> omega

/-- The quiet NaN word `struct.pack("f", ·)` writes for a NaN of sign `neg` and binary32 payload
`m` widens back to that NaN. -/
theorem ofF32_quietNaN (neg : Bool) (m : Nat) :
    ofF32 (UInt32.ofNat ((if neg then 2 ^ 31 else 0) + 0x7FC00000 +
        (0x7FF8000000000000 + m % 2 ^ 22 * 2 ^ 29) % 2 ^ 51 / 2 ^ 29)) =
      ofMag neg (0x7FF8000000000000 + m % 2 ^ 22 * 2 ^ 29) := by
  have hm : (0x7FF8000000000000 + m % 2 ^ 22 * 2 ^ 29) % 2 ^ 51 / 2 ^ 29 = m % 2 ^ 22 := by omega
  rw [hm]
  cases neg <;>
  · simp only [Bool.false_eq_true, ↓reduceIte]
    rw [ofF32, UInt32.toNat_ofNat_of_lt (by simp only [UInt32.size]; omega),
      if_pos (by simp only [Fmt.binary32_infMag]; omega)]
    refine congrArg₂ ofMag ?_ (by omega)
    simp only [decide_eq_true_eq, decide_eq_false_iff_not]
    omega

/-- A NaN comes back quiet: the payload bits it keeps are those `ofF32` reads, so it widens to the
same Python float. -/
theorem toF32_ofF32_nan {u : UInt32} (h : Fmt.binary32.infMag < u.toNat % 2 ^ 31) :
    ofF32 (ofF32 u).toF32 = ofF32 u := by
  have hP : 0x7FF8000000000000 + u.toNat % 2 ^ 31 % 2 ^ 22 * 2 ^ 29 < 2 ^ 63 := by
    simp only [Fmt.binary32_infMag] at h; omega
  have hu : ofF32 u = ofMag (decide (2 ^ 31 ≤ u.toNat))
      (0x7FF8000000000000 + u.toNat % 2 ^ 31 % 2 ^ 22 * 2 ^ 29) := by
    rw [ofF32, if_pos (by simpa using h)]
  rw [hu]
  simp only [toF32, isNaN, neg_ofMag _ hP, mag_ofMag _ hP, Fmt.binary64_infMag, decide_eq_true_eq]
  rw [if_pos (by omega)]
  have := ofF32_quietNaN (decide (2 ^ 31 ≤ u.toNat)) (u.toNat % 2 ^ 31)
  simpa only [decide_eq_true_eq] using this

/-- Every binary32 word widens to a Python float that `struct.pack("f", ·)` writes as a word
widening to the same float: the word itself unless it is a NaN (`toF32_ofF32_of_le`). -/
theorem toF32_ofF32 (u : UInt32) : ofF32 (ofF32 u).toF32 = ofF32 u := by
  by_cases h : u.toNat % 2 ^ 31 ≤ Fmt.binary32.infMag
  · rw [toF32_ofF32_of_le h]
  · exact toF32_ofF32_nan (Nat.lt_of_not_le h)

end PyFloat
end RecordStore
