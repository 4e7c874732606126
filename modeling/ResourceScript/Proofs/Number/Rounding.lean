import Mathlib.Algebra.Order.Field.Basic
import Mathlib.Algebra.Order.Round
import Mathlib.Data.Rat.Cast.Order
import Mathlib.Tactic.FieldSimp
import Mathlib.Tactic.Linarith
import Mathlib.Tactic.Positivity
import Mathlib.Tactic.NormNum
import Mathlib.Tactic.Ring
import ResourceScript.Number.Double
/-!
# Rounding errors

Every operation on doubles computes an exact ratio and rounds it once. Below the greatest doubles
the result is finite and differs from the ratio by at most `2 ^ (-53)` of the ratio and of one
(`Double.exists_hasSize_ofRatio`), and an integer of at most 53 binary digits is a double itself
(`Double.hasSize_ofRatio_one`). Differences and products have the same bound, and a double within
one half of a natural number rounds to it.
-/

set_option autoImplicit false

namespace ResourceScript.Double

/-- Whether a double is finite with a given sign and exact size. -/
def HasSize (x : Double) (negative : Bool) (size : ℚ) : Prop :=
  ∃ (m : Nat) (e : Int), x = finite negative m e ∧ leastExponent ≤ e ∧ (m : ℚ) * 2 ^ e = size

variable {num den : Nat} {x y : Double} {negative : Bool} {u v : ℚ}

/-! ### Ratios scaled by powers of two -/

theorem scale_spec (num : Nat) (hden : 0 < den) (shift : Int) :
    0 < (scale num den shift).2 ∧
      ((scale num den shift).1 : ℚ) / (scale num den shift).2 = (num : ℚ) / den * 2 ^ shift := by
  have hpow (n : Nat) : ((Nat.pow 2 n : Nat) : ℚ) = 2 ^ n := Nat.cast_pow 2 n
  have hpos : (den : ℚ) ≠ 0 := by exact_mod_cast Nat.ne_of_gt hden
  unfold scale
  by_cases hshift : 0 ≤ shift
  · obtain ⟨n, rfl⟩ := Int.eq_ofNat_of_zero_le hshift
    rw [if_pos hshift]
    refine ⟨hden, ?_⟩
    simp only [Int.toNat_natCast, Nat.cast_mul, hpow, zpow_natCast]
    ring
  · obtain ⟨n, hn⟩ := Int.eq_ofNat_of_zero_le (show 0 ≤ -shift by omega)
    have hshift_eq : shift = -(n : Int) := by omega
    rw [if_neg hshift, hshift_eq]
    refine ⟨Nat.mul_pos hden (Nat.pow_pos (by decide)), ?_⟩
    simp only [neg_neg, Int.toNat_natCast, Nat.cast_mul, hpow, zpow_neg, zpow_natCast]
    field_simp

/-- A ratio is its quotient and a part of one. -/
theorem div_eq_quotient_add (num : Nat) (hden : 0 < den) :
    (num : ℚ) / den = (num / den : Nat) + ((num % den : Nat) : ℚ) / den := by
  have hpos : (den : ℚ) ≠ 0 := by exact_mod_cast Nat.ne_of_gt hden
  have hsum : (num : ℚ) = den * (num / den : Nat) + (num % den : Nat) := by
    exact_mod_cast (Nat.div_add_mod num den).symm
  rw [div_eq_iff hpos, add_mul, div_mul_cancel₀ _ hpos, mul_comm _ (den : ℚ)]
  exact hsum

/-- The nearest natural number is at most one half away. -/
theorem abs_roundDiv_sub_le (num : Nat) (hden : 0 < den) :
    |(roundDiv num den : ℚ) - (num : ℚ) / den| ≤ 1 / 2 := by
  have hpos : (0 : ℚ) < den := by exact_mod_cast hden
  obtain ⟨part, hpart⟩ : ∃ part : ℚ, part = ((num % den : Nat) : ℚ) / den := ⟨_, rfl⟩
  have hnonneg : 0 ≤ part := by
    rw [hpart]
    positivity
  have hlt : part < 1 := by
    rw [hpart, div_lt_one hpos]
    exact_mod_cast Nat.mod_lt num hden
  have hlow (h : 2 * (num % den) ≤ den) : part ≤ 1 / 2 := by
    have hcast : 2 * ((num % den : Nat) : ℚ) ≤ den := by exact_mod_cast h
    rw [hpart, div_le_iff₀ hpos]
    linarith
  have hhigh (h : den ≤ 2 * (num % den)) : 1 / 2 ≤ part := by
    have hcast : (den : ℚ) ≤ 2 * ((num % den : Nat) : ℚ) := by exact_mod_cast h
    rw [hpart, le_div_iff₀ hpos]
    linarith
  rw [div_eq_quotient_add num hden, ← hpart, abs_le]
  unfold roundDiv
  dsimp only
  split_ifs with hbelow habove heven
  · have := hlow (by omega)
    constructor <;> linarith
  · have := hhigh (by omega)
    push_cast
    constructor <;> linarith
  · have := hlow (by omega)
    constructor <;> linarith
  · have := hhigh (by omega)
    push_cast
    constructor <;> linarith

theorem roundDiv_eq_of_abs_lt {k : Nat} (hden : 0 < den) (h : |(num : ℚ) / den - k| < 1 / 2) :
    roundDiv num den = k := by
  have hround := abs_roundDiv_sub_le num hden
  rw [abs_le] at hround
  rw [abs_lt] at h
  have hupper : (roundDiv num den : ℚ) < k + 1 := by linarith
  have hlower : (k : ℚ) < roundDiv num den + 1 := by linarith
  have hle : roundDiv num den < k + 1 := by exact_mod_cast hupper
  have hge : k < roundDiv num den + 1 := by exact_mod_cast hlower
  omega

/-- The binary logarithm of a ratio is not too large. -/
theorem zpow_ratioLog2_le (hnum : 0 < num) (hden : 0 < den) :
    (2 : ℚ) ^ ratioLog2 num den ≤ (num : ℚ) / den := by
  have hpos : (0 : ℚ) < den := by exact_mod_cast hden
  obtain ⟨hscaled, hratio⟩ := scale_spec num hden (-((num.log2 : Int) - den.log2))
  unfold ratioLog2
  dsimp only
  split_ifs with hlt
  · have hlow : (2 : ℚ) ^ num.log2 ≤ num := by exact_mod_cast Nat.log2_self_le (Nat.ne_of_gt hnum)
    have hhigh : (den : ℚ) ≤ 2 ^ (den.log2 + 1) := by
      exact_mod_cast Nat.le_of_lt (Nat.lt_log2_self (n := den))
    have hexponent : (num.log2 : Int) - den.log2 - 1 = (num.log2 : Int) - (den.log2 + 1 : Nat) := by
      omega
    rw [hexponent, zpow_sub₀ two_ne_zero, zpow_natCast, zpow_natCast]
    exact div_le_div₀ (Nat.cast_nonneg num) hlow hpos hhigh
  · have hone : 1 ≤ (num : ℚ) / den * 2 ^ (-((num.log2 : Int) - den.log2)) := by
      rw [← hratio, one_le_div (by exact_mod_cast hscaled)]
      exact_mod_cast Nat.not_lt.1 hlt
    rwa [zpow_neg, ← div_eq_mul_inv, one_le_div (zpow_pos two_pos _)] at hone

/-! ### Rounding a ratio -/

/-- Moderate sizes are below the greatest doubles. -/
theorem lt_two_zpow_of_lt {q : ℚ} (h : q < 2 ^ 53) : q < 2 ^ (1022 : Int) := by
  refine h.trans_le ?_
  rw [← zpow_natCast]
  exact zpow_le_zpow_right₀ one_le_two (by decide)

/-- The exponent at which a ratio is rounded. -/
def roundingExponent (num den : Nat) : Int :=
  max (ratioLog2 num den - 52) leastExponent

/-- The size to which a ratio is rounded is that of the rounded mantissa. -/
theorem hasSize_ofRatio (negative : Bool) (hnum : 0 < num) (hden : 0 < den)
    (hsmall : (num : ℚ) / den < 2 ^ (1022 : Int)) :
    HasSize (ofRatio negative num den) negative
      ((roundDiv (scale num den (-roundingExponent num den)).1
        (scale num den (-roundingExponent num den)).2 : Nat) *
          2 ^ roundingExponent num den) := by
  have hlog : ratioLog2 num den < 1022 :=
    (zpow_lt_zpow_iff_right₀ one_lt_two).1 ((zpow_ratioLog2_le hnum hden).trans_lt hsmall)
  have hleast : leastExponent ≤ roundingExponent num den := le_max_right _ _
  have hgreatest : roundingExponent num den + 1 ≤ greatestExponent := by
    unfold roundingExponent leastExponent greatestExponent
    omega
  unfold ofRatio
  rw [if_neg (Nat.ne_of_gt hnum)]
  dsimp only
  rw [← roundingExponent]
  generalize roundDiv _ _ = mantissa
  by_cases hfull : mantissa = Nat.pow 2 53
  · simp only [if_pos hfull, if_neg (not_lt.2 hgreatest)]
    refine ⟨_, _, rfl, by omega, ?_⟩
    rw [hfull, zpow_add_one₀ two_ne_zero, Nat.pow_eq, Nat.pow_eq]
    push_cast
    ring
  · have hroom : ¬ greatestExponent < roundingExponent num den := by omega
    simp only [if_neg hfull, if_neg hroom]
    exact ⟨mantissa, _, rfl, hleast, rfl⟩

theorem hasSize_ofRatio_zero (negative : Bool) (den : Nat) :
    HasSize (ofRatio negative 0 den) negative 0 :=
  ⟨0, leastExponent, rfl, Int.le_refl _, by rw [Nat.cast_zero, zero_mul]⟩

/-- Half a unit of the last place is little, compared with the ratio and with one. -/
theorem zpow_roundingExponent_le (hnum : 0 < num) (hden : 0 < den) :
    1 / 2 * (2 : ℚ) ^ roundingExponent num den ≤ ((num : ℚ) / den + 1) / 2 ^ 53 := by
  have hnonneg : (0 : ℚ) ≤ (num : ℚ) / den := by positivity
  rcases max_choice (ratioLog2 num den - 52) leastExponent with hmax | hmax
  · have hlow := zpow_ratioLog2_le hnum hden
    rw [roundingExponent, hmax, zpow_sub₀ two_ne_zero]
    norm_num
    linarith
  · have htiny : (2 : ℚ) ^ leastExponent ≤ 2 ^ (-53 : Int) :=
      zpow_le_zpow_right₀ one_le_two (by decide)
    have hpos : (0 : ℚ) < 2 ^ leastExponent := zpow_pos two_pos _
    rw [zpow_neg] at htiny
    rw [roundingExponent, hmax]
    norm_num at htiny ⊢
    linarith

/-- Rounding a ratio changes it by little. -/
theorem exists_hasSize_ofRatio (negative : Bool) (num : Nat) (hden : 0 < den)
    (hsmall : (num : ℚ) / den < 2 ^ (1022 : Int)) :
    ∃ size, HasSize (ofRatio negative num den) negative size ∧
      |size - (num : ℚ) / den| ≤ ((num : ℚ) / den + 1) / 2 ^ 53 := by
  rcases Nat.eq_zero_or_pos num with rfl | hnum
  · refine ⟨0, hasSize_ofRatio_zero negative den, ?_⟩
    norm_num
  refine ⟨_, hasSize_ofRatio negative hnum hden hsmall, ?_⟩
  obtain ⟨hscaled, hratio⟩ := scale_spec num hden (-roundingExponent num den)
  have hpow : (0 : ℚ) < 2 ^ roundingExponent num den := zpow_pos two_pos _
  have hround := abs_roundDiv_sub_le (scale num den (-roundingExponent num den)).1 hscaled
  rw [hratio, zpow_neg] at hround
  calc _ = |((roundDiv (scale num den (-roundingExponent num den)).1
        (scale num den (-roundingExponent num den)).2 : Nat) : ℚ) -
          (num : ℚ) / den * (2 ^ roundingExponent num den)⁻¹| * 2 ^ roundingExponent num den := by
        rw [← abs_of_pos hpow, ← abs_mul, abs_of_pos hpow, sub_mul, mul_assoc,
          inv_mul_cancel₀ (ne_of_gt hpow), mul_one]
    _ ≤ 1 / 2 * 2 ^ roundingExponent num den := mul_le_mul_of_nonneg_right hround hpow.le
    _ ≤ _ := zpow_roundingExponent_le hnum hden

/-- An integer of at most 53 binary digits is a multiple of the unit to which it is rounded. -/
theorem exists_eq_mul_zpow_roundingExponent (hpos : 0 < num) (hnum : num ≤ 2 ^ 53) :
    ∃ k : Nat, (num : ℚ) = k * 2 ^ roundingExponent num 1 := by
  have hlow := zpow_ratioLog2_le hpos one_pos
  rw [Nat.cast_one, div_one] at hlow
  have hcast : (num : ℚ) ≤ 2 ^ (53 : Int) := by exact_mod_cast hnum
  have hlog : ratioLog2 num 1 ≤ 53 := (zpow_le_zpow_iff_right₀ one_lt_two).1 (hlow.trans hcast)
  by_cases hexponent : roundingExponent num 1 ≤ 0
  · obtain ⟨n, hn⟩ := Int.eq_ofNat_of_zero_le (show 0 ≤ -roundingExponent num 1 by omega)
    refine ⟨num * 2 ^ n, ?_⟩
    rw [show roundingExponent num 1 = -(n : Int) by omega, zpow_neg, zpow_natCast]
    push_cast
    field_simp
  · -- The only integer that needs a positive exponent is the power of two itself.
    have hone : roundingExponent num 1 = 1 ∧ ratioLog2 num 1 = 53 := by
      unfold roundingExponent leastExponent at *
      omega
    rw [hone.2] at hlow
    have hpower : num = 2 ^ 53 := Nat.le_antisymm hnum (by exact_mod_cast hlow)
    refine ⟨2 ^ 52, ?_⟩
    rw [hone.1, hpower]
    norm_num

/-- An integer of at most 53 binary digits, and the next power of two, is a double. -/
theorem hasSize_ofRatio_one (negative : Bool) (hnum : num ≤ 2 ^ 53) :
    HasSize (ofRatio negative num 1) negative num := by
  rcases Nat.eq_zero_or_pos num with rfl | hpos
  · simpa using hasSize_ofRatio_zero negative 1
  have hsmall : (num : ℚ) / (1 : Nat) < 2 ^ (1022 : Int) := by
    have hcast : (num : ℚ) ≤ 2 ^ (53 : Int) := by exact_mod_cast hnum
    rw [Nat.cast_one, div_one]
    exact hcast.trans_lt (zpow_lt_zpow_right₀ one_lt_two (by decide))
  have hsize := hasSize_ofRatio negative hpos one_pos hsmall
  obtain ⟨hscaled, hratio⟩ := scale_spec num one_pos (-roundingExponent num 1)
  obtain ⟨k, hk⟩ := exists_eq_mul_zpow_roundingExponent hpos hnum
  have hround : roundDiv (scale num 1 (-roundingExponent num 1)).1
      (scale num 1 (-roundingExponent num 1)).2 = k := by
    refine roundDiv_eq_of_abs_lt hscaled ?_
    rw [hratio, Nat.cast_one, div_one, hk, mul_assoc, ← zpow_add₀ two_ne_zero, add_neg_cancel]
    norm_num
  rwa [hround, ← hk] at hsize

/-! ### Operations -/

theorem hasSize_ofInt {n : Int} (hn : n.natAbs ≤ 2 ^ 53) :
    HasSize (ofInt n) (decide (n < 0)) n.natAbs :=
  hasSize_ofRatio_one _ hn

theorem hasSize_ofInt_natCast {k : Nat} (hk : k ≤ 2 ^ 53) : HasSize (ofInt k) false k := by
  have hsize := hasSize_ofInt (n := k) hk
  rwa [decide_eq_false (not_lt.2 (Int.natCast_nonneg k)), Int.natAbs_natCast] at hsize

/-- A finite double as a multiple of the least positive one. -/
theorem HasSize.units (hx : HasSize x negative u) :
    (x.units : ℚ) = (if negative then -u else u) * 2 ^ (-leastExponent) := by
  obtain ⟨m, e, rfl, he, rfl⟩ := hx
  obtain ⟨n, hn⟩ := Int.eq_ofNat_of_zero_le (show 0 ≤ e - leastExponent by omega)
  have hsize : ((m * Nat.pow 2 n : Nat) : ℚ) = m * 2 ^ e * 2 ^ (-leastExponent) := by
    rw [mul_assoc, ← zpow_add₀ two_ne_zero, ← sub_eq_add_neg, hn, zpow_natCast, Nat.cast_mul,
      Nat.pow_eq, Nat.cast_pow, Nat.cast_two]
  rw [Double.units, hn, Int.toNat_natCast]
  split
  · rw [Int.cast_neg, Int.cast_natCast, hsize, neg_mul]
  · rw [Int.cast_natCast, hsize]

theorem HasSize.neg (hx : HasSize x negative u) : HasSize x.neg (!negative) u := by
  obtain ⟨m, e, rfl, he, hsize⟩ := hx
  exact ⟨m, e, rfl, he, hsize⟩

/-- A sum of multiples of the least positive double is rounded with little error. -/
theorem exists_hasSize_ofUnits {n : Int} {size : ℚ} (hn : 0 ≤ n)
    (hsize : (n : ℚ) = size * 2 ^ (-leastExponent)) (hsmall : size < 2 ^ (1022 : Int)) :
    ∃ rounded, HasSize (ofUnits false n) false rounded ∧
      |rounded - size| ≤ (size + 1) / 2 ^ 53 := by
  have hsign : (if n = 0 then false else decide (n < 0)) = false := by
    split
    · rfl
    · exact decide_eq_false (not_lt.2 hn)
  obtain ⟨bits, hbits, hliteral⟩ : ∃ bits : Nat, -leastExponent = bits ∧ 1074 = bits :=
    ⟨_, rfl, rfl⟩
  have hratio : (n.natAbs : ℚ) / (Nat.pow 2 bits : Nat) = size := by
    have hpow : ((Nat.pow 2 bits : Nat) : ℚ) = 2 ^ (-leastExponent) := by
      rw [hbits, zpow_natCast, Nat.pow_eq, Nat.cast_pow, Nat.cast_two]
    have hunit : (2 : ℚ) ^ (-leastExponent) ≠ 0 := zpow_ne_zero _ two_ne_zero
    rw [Nat.cast_natAbs, abs_of_nonneg hn, hsize, hpow, mul_div_cancel_right₀ _ hunit]
  rw [ofUnits, hsign, hliteral, ← hratio]
  exact exists_hasSize_ofRatio false _ (Nat.pow_pos two_pos) (hratio.trans_lt hsmall)

/-- A smaller double that is not negative is subtracted with little error. -/
theorem exists_hasSize_sub (hx : HasSize x false u) (hy : HasSize y false v) (hle : v ≤ u)
    (hsmall : u - v < 2 ^ (1022 : Int)) :
    ∃ size, HasSize (sub x y) false size ∧ |size - (u - v)| ≤ (u - v + 1) / 2 ^ 53 := by
  have hunits : ((x.units + y.neg.units : Int) : ℚ) = (u - v) * 2 ^ (-leastExponent) := by
    rw [Int.cast_add, hx.units, hy.neg.units, if_neg Bool.false_ne_true, Bool.not_false, if_pos rfl]
    ring
  have hnonneg : 0 ≤ x.units + y.neg.units := by
    have hproduct : (0 : ℚ) ≤ (u - v) * 2 ^ (-leastExponent) :=
      mul_nonneg (sub_nonneg.2 hle) (zpow_pos two_pos _).le
    rw [← hunits] at hproduct
    exact_mod_cast hproduct
  have hsub : sub x y = ofUnits false (x.units + y.neg.units) := by
    obtain ⟨m, e, rfl, -, -⟩ := hx
    obtain ⟨n, f, rfl, -, -⟩ := hy
    rfl
  rw [hsub]
  exact exists_hasSize_ofUnits hnonneg hunits hsmall

/-- Two doubles that are not negative are multiplied with little error. -/
theorem exists_hasSize_mul (hx : HasSize x false u) (hy : HasSize y false v)
    (hsmall : u * v < 2 ^ (1022 : Int)) :
    ∃ size, HasSize (mul x y) false size ∧ |size - u * v| ≤ (u * v + 1) / 2 ^ 53 := by
  obtain ⟨m, e, rfl, -, rfl⟩ := hx
  obtain ⟨n, f, rfl, -, rfl⟩ := hy
  obtain ⟨hscaled, hratio⟩ := scale_spec (m * n) one_pos (e + f)
  have hproduct : (m : ℚ) * 2 ^ e * (n * 2 ^ f) =
      ((scale (m * n) 1 (e + f)).1 : ℚ) / (scale (m * n) 1 (e + f)).2 := by
    rw [hratio, zpow_add₀ two_ne_zero]
    push_cast
    ring
  rw [hproduct] at hsmall ⊢
  exact exists_hasSize_ofRatio false _ hscaled hsmall

/-- The integer part of a double that is not negative. -/
theorem truncate?_of_hasSize {k : Nat} (hx : HasSize x false u) (hlow : (k : ℚ) ≤ u)
    (hhigh : u < k + 1) : x.truncate? = some (k : Int) := by
  obtain ⟨m, e, rfl, -, rfl⟩ := hx
  obtain ⟨hscaled, hratio⟩ := scale_spec m one_pos e
  rw [Nat.cast_one, div_one] at hratio
  rw [← hratio] at hlow hhigh
  have hpos : (0 : ℚ) < (scale m 1 e).2 := by exact_mod_cast hscaled
  rw [le_div_iff₀ hpos] at hlow
  rw [div_lt_iff₀ hpos] at hhigh
  have hquotient : (scale m 1 e).1 / (scale m 1 e).2 = k :=
    Nat.div_eq_of_lt_le (by exact_mod_cast hlow) (by exact_mod_cast hhigh)
  show some (((scale m 1 e).1 / (scale m 1 e).2 : Nat) : Int) = _
  rw [hquotient]

/-- A double within one half of a natural number rounds to it. -/
theorem round?_of_hasSize {k : Nat} (hx : HasSize x false u) (hnear : |u - k| < 1 / 2) :
    x.round? = some (k : Int) := by
  obtain ⟨m, e, rfl, -, rfl⟩ := hx
  obtain ⟨hscaled, hratio⟩ := scale_spec m one_pos e
  rw [Nat.cast_one, div_one] at hratio
  rw [← hratio] at hnear
  show some ((roundDiv (scale m 1 e).1 (scale m 1 e).2 : Nat) : Int) = _
  rw [roundDiv_eq_of_abs_lt hscaled hnear]

end ResourceScript.Double
