import Mathlib.Algebra.Order.Ring.Nat
import PromptCanvas.Number.Binary64

/-!
# The range of the doubles

A whole number is turned into the double nearest to it, and it is beyond every double when that one
is infinite.  `ofInt?_eq_none_iff` says where this begins: half a unit above the greatest double,
where the tie goes to the even neighbour, which is infinite.
-/

namespace PromptCanvas
namespace Number

open Float.Model UnpackedFloat

/-! ## Bits of finite doubles -/

/-- The exponent field of the bits of a double. -/
def exponentField (v : BitVec 64) : Nat := (@unpackExponent .binary64 v).toNat

theorem exponentField_eq (v : BitVec 64) : exponentField v = v.toNat / 2 ^ 52 % 2048 := by
  rw [exponentField, unpackExponent, BitVec.toNat_cast, BitVec.extractLsb_toNat,
    Nat.shiftRight_eq_div_pow]
  rfl

theorem exponentField_packComponents (s : UnpackedFloat.Sign) (e : BitVec 11) (m : BitVec 52) :
    exponentField (packComponents .binary64 s e m) = e.toNat := by
  rw [exponentField, unpackExponent_packComponents]

/-- All bits of the field are set in an infinity and in what is no number; all other bits are those
of a zero, or of a finite double with a smaller exponent. -/
theorem unpack_cases (v : BitVec 64) :
    exponentField v = 2047 ∧ (UnpackedFloat.unpack .binary64 v).isFinite = false ∨
    exponentField v < 2047 ∧ (UnpackedFloat.unpack .binary64 v).isFinite = true ∧
      ∀ s m e h, UnpackedFloat.unpack .binary64 v = .finite s m e h → (e + 1075).toNat < 2047 := by
  have hbias : (Format.binary64.exponentBias : Int) = 1023 := by decide
  have hall : (-1#11).toNat = 2047 := by decide
  have hlt : exponentField v < 2048 := BitVec.isLt _
  unfold UnpackedFloat.unpack
  dsimp only
  rw [hbias]
  by_cases htop : @unpackExponent .binary64 v = -1#11
  · rw [if_pos htop]
    refine Or.inl ⟨by rw [exponentField, htop, hall], ?_⟩
    by_cases hm : @unpackMantissa .binary64 v = 0#52
    · rw [if_pos hm]
      rfl
    · rw [if_neg hm]
      rfl
  · have hne : exponentField v ≠ 2047 := by
      rw [exponentField, ← hall, ne_eq, BitVec.toNat_inj]
      exact htop
    rw [if_neg htop]
    refine Or.inr ⟨by omega, ?_⟩
    by_cases hlow : @unpackExponent .binary64 v = 0#11
    · rw [if_pos hlow]
      by_cases hm : @unpackMantissa .binary64 v = 0#52
      · rw [dif_pos hm]
        exact ⟨rfl, nofun⟩
      · rw [dif_neg hm]
        refine ⟨rfl, ?_⟩
        rintro s m e h ⟨⟩
        rw [hlow]
        decide
    · rw [if_neg hlow]
      refine ⟨rfl, ?_⟩
      rintro s m e h ⟨⟩
      unfold exponentField at hne hlt
      omega

theorem isFinite_unpack (v : BitVec 64) :
    (UnpackedFloat.unpack .binary64 v).isFinite = true ↔ exponentField v ≠ 2047 := by
  rcases unpack_cases v with ⟨htop, hv⟩ | ⟨hlt, hv, -⟩
  · rw [hv]
    exact iff_of_false Bool.false_ne_true (not_not.mpr htop)
  · exact iff_of_true hv (Nat.ne_of_lt hlt)

theorem exponent_of_unpack {v : BitVec 64} {s : UnpackedFloat.Sign} {m : Nat} {e : Int} {h : 0 < m}
    (hv : UnpackedFloat.unpack .binary64 v = .finite s m e h) : (e + 1075).toNat < 2047 := by
  rcases unpack_cases v with ⟨-, hf⟩ | ⟨-, -, hbound⟩
  · rw [hv] at hf
    cases hf
  · exact hbound s m e h hv

/-- Bringing the bits of a double into their usual form keeps it finite. -/
theorem isFinite_pack_unpack (v : BitVec 64) :
    (UnpackedFloat.unpack .binary64
      (UnpackedFloat.pack .binary64 (UnpackedFloat.unpack .binary64 v))).isFinite =
        (UnpackedFloat.unpack .binary64 v).isFinite := by
  cases hv : UnpackedFloat.unpack .binary64 v with
  | notANumber => decide
  | infinity s => cases s <;> decide
  | zero s => cases s <;> decide
  | finite s m e h =>
    have he := exponent_of_unpack hv
    have hbiased : (e + (Format.binary64.exponentBias : Nat) + 52).toNat = (e + 1075).toNat := by
      have hbias : (Format.binary64.exponentBias : Int) = 1023 := by decide
      rw [hbias, Int.add_assoc]
      rfl
    have hpacked : exponentField (UnpackedFloat.pack .binary64 (.finite s m e h)) ≠ 2047 := by
      unfold UnpackedFloat.pack
      dsimp only
      rw [if_neg (by omega)]
      split
      · rw [exponentField_packComponents, BitVec.toNat_ofNat]
        omega
      · rw [exponentField_packComponents]
        decide
    exact (isFinite_unpack _).mpr hpacked

theorem isFinite_ofBits (b : UInt64) :
    (Float.ofBits b).isFinite = true ↔ b.toNat / 2 ^ 52 % 2048 ≠ 2047 := by
  have hmodel : (Float.ofBits b).isFinite = (UnpackedFloat.unpack .binary64
      (UnpackedFloat.pack .binary64 (UnpackedFloat.unpack .binary64 b.toBitVec))).isFinite := rfl
  rw [hmodel, isFinite_pack_unpack, isFinite_unpack, exponentField_eq]
  rfl

/-! ## Rounding -/

theorem quotient_lt {n k : Nat} {q : Int} (h : (n.log2 : Int) < k + q) :
    (scaledDivMod n 1 q).1 < 2 ^ k := by
  have hn : n < 2 ^ (n.log2 + 1) := Nat.lt_log2_self
  unfold scaledDivMod
  split
  · rename_i hq
    show n / (1 * 2 ^ q.toNat) < 2 ^ k
    rw [Nat.one_mul, Nat.div_lt_iff_lt_mul (Nat.two_pow_pos _), ← Nat.pow_add]
    exact Nat.lt_of_lt_of_le hn (Nat.pow_le_pow_right Nat.two_pos (by omega))
  · rename_i hq
    show n * 2 ^ (-q).toNat / 1 < 2 ^ k
    have hk : 2 ^ (n.log2 + 1) * 2 ^ (-q).toNat ≤ 2 ^ k := by
      rw [← Nat.pow_add]
      exact Nat.pow_le_pow_right Nat.two_pos (by omega)
    rw [Nat.div_one]
    exact Nat.lt_of_lt_of_le (Nat.mul_lt_mul_of_pos_right hn (Nat.two_pow_pos _)) hk

theorem le_quotient {n k : Nat} {q : Int} (hn : n ≠ 0) (h : k + q ≤ (n.log2 : Int)) :
    2 ^ k ≤ (scaledDivMod n 1 q).1 := by
  have hn : 2 ^ n.log2 ≤ n := Nat.log2_self_le hn
  unfold scaledDivMod
  split
  · rename_i hq
    show 2 ^ k ≤ n / (1 * 2 ^ q.toNat)
    rw [Nat.one_mul, Nat.le_div_iff_mul_le (Nat.two_pow_pos _), ← Nat.pow_add]
    exact Nat.le_trans (Nat.pow_le_pow_right Nat.two_pos (by omega)) hn
  · rename_i hq
    show 2 ^ k ≤ n * 2 ^ (-q).toNat / 1
    have hk : 2 ^ k ≤ 2 ^ n.log2 * 2 ^ (-q).toNat := by
      rw [← Nat.pow_add]
      exact Nat.pow_le_pow_right Nat.two_pos (by omega)
    rw [Nat.div_one]
    exact Nat.le_trans hk (Nat.mul_le_mul_right _ hn)

/-- The significand of the double nearest to a whole number has 53 bits before it is rounded. -/
theorem nearestBits_one {n : Nat} (hn : n ≠ 0) :
    ∃ m rest unit, scaledDivMod n 1 (n.log2 - 52) = (m, rest, unit) ∧ 2 ^ 52 ≤ m ∧ m < 2 ^ 53 ∧
      nearestBits n 1 = min ((n.log2 + 1022) * 2 ^ 52 + m +
        (unit < 2 * rest || (2 * rest == unit && m % 2 == 1)).toNat) (2047 * 2 ^ 52) := by
  have hlow : 2 ^ 52 ≤ (scaledDivMod n 1 (n.log2 - 52)).1 := le_quotient hn (by omega)
  have hhigh : (scaledDivMod n 1 (n.log2 - 52)).1 < 2 ^ 53 := quotient_lt (by omega)
  have hguess : max ((n.log2 : Int) - (Nat.log2 1 : Nat) - 53) (-1074) = n.log2 - 53 := by
    have hone : Nat.log2 1 = 0 := by decide
    rw [hone]
    omega
  have hwide : Nat.pow 2 53 ≤ (scaledDivMod n 1 (n.log2 - 53)).1 := le_quotient hn (by omega)
  have hq : (n.log2 : Int) - 53 + 1 = n.log2 - 52 := by omega
  have hfield : ((n.log2 : Int) - 52 + 1074).toNat = n.log2 + 1022 := by omega
  refine ⟨_, _, _, rfl, hlow, hhigh, ?_⟩
  unfold nearestBits
  dsimp only
  rw [hguess, if_pos hwide, hq, hfield]
  rfl

theorem nearestBits_le (num den : Nat) : nearestBits num den ≤ 2047 * 2 ^ 52 := Nat.min_le_right _ _

/-- Rounding carries into a further bit exactly from one half below the next power of two on. -/
theorem rounded_lt_iff {n p : Nat} (hp : 0 < p) (h : n / (2 * p) < 2 ^ 53) :
    n / (2 * p) + (2 * p < 2 * (n % (2 * p)) ||
      (2 * (n % (2 * p)) == 2 * p && n / (2 * p) % 2 == 1)).toNat < 2 ^ 53 ↔
        n < (2 ^ 54 - 1) * p := by
  have hn : 2 * p * (n / (2 * p)) + n % (2 * p) = n := Nat.div_add_mod n (2 * p)
  have hrest : n % (2 * p) < 2 * p := Nat.mod_lt n (by omega)
  generalize n / (2 * p) = m at *
  generalize n % (2 * p) = rest at *
  rcases Nat.lt_or_ge m (2 ^ 53 - 1) with hm | hm
  · have hle : 2 * p * m ≤ 2 * p * (2 ^ 53 - 2) := Nat.mul_le_mul_left _ (by omega)
    have hup : (2 * p < 2 * rest || (2 * rest == 2 * p && m % 2 == 1)).toNat ≤ 1 := Bool.toNat_le _
    refine iff_of_true ?_ ?_ <;> omega
  · have htop : m = 2 ^ 53 - 1 := by omega
    subst htop
    by_cases hhalf : rest < p
    · have hup : (2 * p < 2 * rest || (2 * rest == 2 * p && (2 ^ 53 - 1) % 2 == 1)) = false := by
        simp only [Bool.or_eq_false_iff, decide_eq_false_iff_not, Bool.and_eq_false_iff,
          beq_eq_false_iff_ne]
        omega
      rw [hup]
      refine iff_of_true ?_ ?_
      · decide
      · omega
    · have hup : (2 * p < 2 * rest || (2 * rest == 2 * p && (2 ^ 53 - 1) % 2 == 1)) = true := by
        simp only [Bool.or_eq_true, decide_eq_true_iff, Bool.and_eq_true, beq_iff_eq]
        omega
      rw [hup]
      refine iff_of_false ?_ ?_
      · decide
      · omega

-- The exponent is a variable here, so that no step of the proof computes the power.
theorem nearestBits_one_lt_iff {n k : Nat} (hn : n ≠ 0) (hk : k = 970) :
    nearestBits n 1 < 2047 * 2 ^ 52 ↔ n < (2 ^ 54 - 1) * 2 ^ k := by
  obtain ⟨m, rest, unit, hdiv, hlow, hhigh, hbits⟩ := nearestBits_one hn
  have hself := Nat.log2_self_le hn
  have hnext := @Nat.lt_log2_self n
  have hup : (unit < 2 * rest || (2 * rest == unit && m % 2 == 1)).toNat ≤ 1 := Bool.toNat_le _
  have hpos : 0 < 2 ^ k := Nat.two_pow_pos k
  rw [hbits]
  rcases Nat.lt_trichotomy n.log2 (53 + k) with h | h | h
  · have hsmall : n < 2 ^ (53 + k) :=
      Nat.lt_of_lt_of_le hnext (Nat.pow_le_pow_right Nat.two_pos h)
    rw [Nat.pow_add] at hsmall
    refine iff_of_true ?_ ?_ <;> omega
  · have hq : (n.log2 : Int) - 52 = (k + 1 : Nat) := by omega
    have hunit : 1 * 2 ^ (k + 1) = 2 * 2 ^ k := by rw [Nat.one_mul, Nat.pow_succ']
    rw [hq, scaledDivMod, if_pos (Int.natCast_nonneg _)] at hdiv
    replace hdiv : (n / (1 * 2 ^ (k + 1)), n % (1 * 2 ^ (k + 1)), 1 * 2 ^ (k + 1)) =
      (m, rest, unit) := hdiv
    rw [hunit, Prod.mk.injEq, Prod.mk.injEq] at hdiv
    obtain ⟨rfl, rfl, rfl⟩ := hdiv
    rw [← rounded_lt_iff hpos hhigh]
    omega
  · have hlarge : 2 ^ (54 + k) ≤ n :=
      Nat.le_trans (Nat.pow_le_pow_right Nat.two_pos (by omega)) hself
    rw [Nat.pow_add] at hlarge
    refine iff_of_false ?_ ?_ <;> omega

/-! ## Whole numbers -/

/-- The whole number is at least as near to `2 ^ 1024` as to the greatest double below it. -/
def Huge (n : Int) : Prop := (2 ^ 54 - 1) * 2 ^ 970 ≤ n.natAbs

instance (n : Int) : Decidable (Huge n) := inferInstanceAs (Decidable (_ ≤ _))

/-- The sign of a double does not matter to whether it is finite. -/
theorem isFinite_ofBits_signed {negative : Bool} {bits : Nat} (h : bits ≤ 2047 * 2 ^ 52) :
    (Float.ofBits (UInt64.ofNat (if negative then bits + Nat.pow 2 63 else bits))).isFinite = true ↔
      bits < 2047 * 2 ^ 52 := by
  have hsign : Nat.pow 2 63 = 2 ^ 63 := rfl
  rw [isFinite_ofBits, UInt64.toNat_ofNat', hsign]
  cases negative <;> simp only [Bool.false_eq_true, if_true, if_false] <;> omega

theorem isFinite_ofRatio_zero (negative : Bool) : (ofRatio negative 0 1).isFinite = true :=
  (isFinite_ofBits_signed (Nat.zero_le _)).mpr (by decide)

theorem isFinite_ofRatio {negative : Bool} {num : Nat} (hn : num ≠ 0) :
    (ofRatio negative num 1).isFinite = true ↔ num < (2 ^ 54 - 1) * 2 ^ 970 := by
  have hset : ¬ (num == 0 || 1 == 0) = true := by
    rw [beq_eq_false_iff_ne.mpr hn]
    decide
  rw [ofRatio, if_neg hset, isFinite_ofBits_signed (nearestBits_le num 1)]
  exact nearestBits_one_lt_iff hn rfl

/-- A whole number has a nearest double, unless it is huge. -/
theorem ofInt?_eq_none_iff {n : Int} : ofInt? n = none ↔ Huge n := by
  have hfinite : (ofRatio (n < 0) n.natAbs 1).isFinite = true ↔ ¬ Huge n := by
    rw [Huge, Nat.not_le]
    rcases Nat.eq_zero_or_pos n.natAbs with hzero | hpos
    · have hbound : ∀ k, 0 < (2 ^ 54 - 1) * 2 ^ k := fun k =>
        Nat.mul_pos (by decide) (Nat.two_pow_pos k)
      rw [hzero]
      exact iff_of_true (isFinite_ofRatio_zero _) (hbound 970)
    · exact isFinite_ofRatio (Nat.ne_of_gt hpos)
  have hnone : (some (ofRatio (n < 0) n.natAbs 1) = none) ↔ False := iff_of_false nofun id
  rw [ofInt?, ite_eq_right_iff, hfinite, hnone]
  exact not_not

end Number
end PromptCanvas
