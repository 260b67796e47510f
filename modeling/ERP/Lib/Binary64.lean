import Mathlib.Data.Int.Log
import Mathlib.Data.Rat.Floor
import Mathlib.Tactic.FieldSimp
import Mathlib.Tactic.Linarith
import Mathlib.Tactic.Positivity
import Mathlib.Tactic.Ring

/-!
# Rounding to double precision

What the result of an operation on doubles is rounded to: the nearest number with 53
significant bits, and of two the one whose last bit is even.  Exponents are not bounded
here; a result that overflows or is lost near zero is rounded as any other.
-/

namespace ERP
namespace Lib
namespace Binary64

/-- The nearest integer, the even one of two. -/
def roundEven (x : ℚ) : ℤ :=
  if x - ⌊x⌋ < 1 / 2 then ⌊x⌋
  else if 1 / 2 < x - ⌊x⌋ ∨ ⌊x⌋ % 2 = 1 then ⌊x⌋ + 1
  else ⌊x⌋

/-- How far the neighbours of a number are apart. -/
def ulp (x : ℚ) : ℚ := 2 ^ (Int.log 2 |x| - 52)

def round (x : ℚ) : ℚ := roundEven (x / ulp x) * ulp x

/-- The numbers of a list added one after the other. -/
def sum (xs : List ℚ) : ℚ := xs.foldl (fun total x => round (total + x)) 0

/-- A number that needs no rounding. -/
def IsDouble (x : ℚ) : Prop := round x = x

instance (x : ℚ) : Decidable (IsDouble x) := inferInstanceAs (Decidable (round x = x))

example : round (1 / 10) = 3602879701896397 / 36028797018963968 := by decide +kernel

example : round (-(2 ^ 53 + 1)) = -2 ^ 53 ∧ round (2 ^ 53 + 3) = 2 ^ 53 + 4 := by decide +kernel

section Integers

variable {x y : ℚ}

@[simp] theorem roundEven_intCast (n : ℤ) : roundEven n = n := by
  unfold roundEven
  rw [Int.floor_intCast, if_pos (by norm_num)]

theorem abs_roundEven_sub_le (x : ℚ) : |roundEven x - x| ≤ 1 / 2 := by
  have hlow := Int.floor_le x
  have hhigh := Int.lt_floor_add_one x
  unfold roundEven
  rw [abs_le]
  split_ifs with hless hmore
  · constructor <;> linarith
  · push_cast
    constructor <;> linarith
  · rw [not_or, not_lt] at hmore
    constructor <;> linarith [hmore.1]

/-- An even integer is what everything up to half a unit from it is rounded to. -/
theorem roundEven_eq {n : ℤ} (heven : n % 2 = 0) (h : |x - n| ≤ 1 / 2) : roundEven x = n := by
  have hnear := abs_le.mp (abs_roundEven_sub_le x)
  obtain ⟨hlow, hhigh⟩ := abs_le.mp h
  have hle : ⌊x⌋ ≤ n := Int.floor_le_iff.mpr (by linarith)
  have hge : n - 1 ≤ ⌊x⌋ := Int.le_floor.mpr (by push_cast; linarith)
  unfold roundEven
  rcases (show ⌊x⌋ = n ∨ ⌊x⌋ = n - 1 by omega) with hfloor | hfloor
  · rw [hfloor]
    split_ifs with hless hmore
    · rfl
    · rcases hmore with hmore | hodd
      · linarith
      · omega
    · rfl
  · rw [hfloor]
    push_cast
    split_ifs with hless hmore
    · linarith
    · omega
    · omega

theorem roundEven_mono (h : x ≤ y) : roundEven x ≤ roundEven y := by
  by_contra hlt
  rw [not_le] at hlt
  have hstep : (roundEven y : ℚ) + 1 ≤ roundEven x := by exact_mod_cast hlt
  have hx := abs_le.mp (abs_roundEven_sub_le x)
  have hy := abs_le.mp (abs_roundEven_sub_le y)
  -- both are half way between the same two integers, and both go to the even one
  obtain rfl : x = y := by linarith
  exact lt_irrefl _ hlt

theorem roundEven_bounds {m n : ℤ} (hlow : m ≤ x) (hhigh : x ≤ n) :
    m ≤ roundEven x ∧ roundEven x ≤ n := by
  have hdown := roundEven_mono hlow
  have hup := roundEven_mono hhigh
  rw [roundEven_intCast] at hdown hup
  exact ⟨hdown, hup⟩

end Integers

section Neighbours

variable {x y : ℚ}

theorem ulp_pos (x : ℚ) : 0 < ulp x := zpow_pos two_pos _

theorem lastBit_mul (k : ℤ) : (2 : ℚ) ^ (k - 52) * 2 ^ 52 = 2 ^ k := by
  rw [zpow_sub₀ two_ne_zero]
  norm_num

theorem ulp_mul (x : ℚ) : ulp x * 2 ^ 52 = 2 ^ Int.log 2 |x| := lastBit_mul _

/-- The size of a number other than zero. -/
theorem log_bounds (h : x ≠ 0) : 2 ^ Int.log 2 |x| ≤ |x| ∧ |x| < 2 * 2 ^ Int.log 2 |x| := by
  have hlow := Int.zpow_log_le_self (b := 2) Nat.one_lt_two (abs_pos.mpr h)
  have hhigh := Int.lt_zpow_succ_log_self (b := 2) Nat.one_lt_two |x|
  rw [zpow_add_one₀ (by norm_num), mul_comm] at hhigh
  exact_mod_cast And.intro hlow hhigh

theorem exists_size (h : 0 < x) : ∃ k : ℤ, 2 ^ k ≤ x ∧ x < 2 * 2 ^ k := by
  have hbounds := log_bounds (ne_of_gt h)
  rw [abs_of_pos h] at hbounds
  exact ⟨_, hbounds⟩

theorem log_eq {k : ℤ} (hlow : 2 ^ k ≤ |x|) (hhigh : |x| < 2 ^ (k + 1)) : Int.log 2 |x| = k := by
  have hpos : 0 < |x| := lt_of_lt_of_le (zpow_pos two_pos k) hlow
  have hle := (Int.zpow_le_iff_le_log (b := 2) (x := k) Nat.one_lt_two hpos).mp
    (by exact_mod_cast hlow)
  have hlt := (Int.lt_zpow_iff_log_lt (b := 2) (x := k + 1) Nat.one_lt_two hpos).mp
    (by exact_mod_cast hhigh)
  omega

theorem ulp_mono (hx : x ≠ 0) (h : |x| ≤ |y|) : ulp x ≤ ulp y := by
  unfold ulp
  refine zpow_le_zpow_right₀ one_le_two ?_
  have hlog := Int.log_mono_right (b := 2) (abs_pos.mpr hx) h
  omega

theorem abs_round_sub_le (x : ℚ) : |round x - x| ≤ ulp x / 2 := by
  have hpos := ulp_pos x
  have hnear := abs_roundEven_sub_le (x / ulp x)
  have hscale : round x - x = (roundEven (x / ulp x) - x / ulp x) * ulp x := by
    unfold round
    rw [sub_mul, div_mul_cancel₀ _ (ne_of_gt hpos)]
  rw [hscale, abs_mul, abs_of_pos hpos]
  calc |roundEven (x / ulp x) - x / ulp x| * ulp x
      ≤ 1 / 2 * ulp x := mul_le_mul_of_nonneg_right hnear (le_of_lt hpos)
    _ = ulp x / 2 := by ring

theorem isDouble_of_div {n : ℤ} (h : x / ulp x = n) : IsDouble x := by
  unfold IsDouble round
  rw [h, roundEven_intCast, ← h, div_mul_cancel₀ _ (ne_of_gt (ulp_pos x))]

theorem isDouble_zero : IsDouble 0 :=
  isDouble_of_div (n := 0) (by rw [zero_div, Int.cast_zero])

theorem isDouble_of_lt {m : ℤ} (k : ℤ) (h : |m| < 2 ^ 53) : IsDouble (m * 2 ^ k) := by
  by_cases hzero : m = 0
  · rw [hzero, Int.cast_zero, zero_mul]
    exact isDouble_zero
  have hscale := zpow_pos (two_pos (α := ℚ)) k
  have hne : (m : ℚ) * 2 ^ k ≠ 0 := mul_ne_zero (Int.cast_ne_zero.mpr hzero) (ne_of_gt hscale)
  have hsize : |(m : ℚ) * 2 ^ k| < 2 ^ (53 + k) := by
    rw [abs_mul, abs_of_pos hscale, zpow_add₀ two_ne_zero]
    exact mul_lt_mul_of_pos_right (by exact_mod_cast h) hscale
  -- the quotient is an integer, because the exponent is not below that of the last bit
  have hlog : Int.log 2 |(m : ℚ) * 2 ^ k| ≤ 52 + k := by
    have hlt := (Int.lt_zpow_iff_log_lt (b := 2) (x := 53 + k) Nat.one_lt_two
      (abs_pos.mpr hne)).mp (by exact_mod_cast hsize)
    omega
  refine isDouble_of_div (n := m * 2 ^ (52 + k - Int.log 2 |(m : ℚ) * 2 ^ k|).toNat) ?_
  rw [div_eq_iff (ne_of_gt (ulp_pos _))]
  unfold ulp
  push_cast
  rw [mul_assoc, ← zpow_natCast, ← zpow_add₀ two_ne_zero]
  congr 2
  omega

/-- A number with at most 53 significant bits is not changed. -/
theorem isDouble_mul_zpow {m : ℤ} (k : ℤ) (h : |m| ≤ 2 ^ 53) : IsDouble (m * 2 ^ k) := by
  rcases lt_or_eq_of_le h with hlt | heq
  · exact isDouble_of_lt k hlt
  · have hsplit (n : ℤ) : ((n * 2 ^ 53 : ℤ) : ℚ) * 2 ^ k = n * 2 ^ (53 + k) := by
      rw [zpow_add₀ two_ne_zero]
      push_cast
      rw [mul_assoc]
    rcases (abs_eq (by norm_num)).mp heq with hm | hm
    · rw [hm, ← one_mul (2 ^ 53 : ℤ), hsplit]
      exact isDouble_of_lt _ (by norm_num)
    · rw [hm, ← neg_one_mul, hsplit]
      exact isDouble_of_lt _ (by norm_num)

theorem isDouble_intCast {n : ℤ} (h : |n| ≤ 2 ^ 53) : IsDouble n := by
  have hint := isDouble_mul_zpow 0 h
  rw [zpow_zero, mul_one] at hint
  exact hint

/-- The quotient that is rounded has 53 bits before the point. -/
theorem quotient_bounds (h : x ≠ 0) : 2 ^ 52 ≤ |x / ulp x| ∧ |x / ulp x| ≤ 2 ^ 53 := by
  have hpos := ulp_pos x
  obtain ⟨hlow, hhigh⟩ := log_bounds h
  rw [← ulp_mul] at hlow hhigh
  rw [abs_div, abs_of_pos hpos, le_div_iff₀ hpos, div_le_iff₀ hpos]
  constructor <;> linarith

end Neighbours

section Rounding

variable {x y : ℚ}

theorem abs_significand_le (x : ℚ) : |roundEven (x / ulp x)| ≤ 2 ^ 53 := by
  have hquotient : |x / ulp x| ≤ 2 ^ 53 := by
    by_cases h : x = 0
    · rw [h, zero_div, abs_zero]
      norm_num
    · exact (quotient_bounds h).2
  obtain ⟨hlow, hhigh⟩ := abs_le.mp hquotient
  exact abs_le.mpr (roundEven_bounds (by exact_mod_cast hlow) (by exact_mod_cast hhigh))

theorem isDouble_round (x : ℚ) : IsDouble (round x) :=
  isDouble_mul_zpow _ (abs_significand_le x)

/-- A positive number is rounded to one of its size, or to the least that is larger. -/
theorem round_of_pos (h : 0 < x) :
    2 ^ Int.log 2 |x| ≤ round x ∧ round x ≤ 2 * 2 ^ Int.log 2 |x| := by
  have hpos := ulp_pos x
  obtain ⟨hlow, hhigh⟩ := quotient_bounds (ne_of_gt h)
  rw [abs_of_pos (div_pos h hpos)] at hlow hhigh
  obtain ⟨hdown, hup⟩ := roundEven_bounds (x := x / ulp x) (m := 2 ^ 52) (n := 2 ^ 53)
    (by exact_mod_cast hlow) (by exact_mod_cast hhigh)
  have hleast : 2 ^ 52 * ulp x ≤ round x :=
    mul_le_mul_of_nonneg_right (by exact_mod_cast hdown) (le_of_lt hpos)
  have hmost : round x ≤ 2 ^ 53 * ulp x :=
    mul_le_mul_of_nonneg_right (by exact_mod_cast hup) (le_of_lt hpos)
  rw [← ulp_mul]
  constructor <;> linarith

theorem round_of_neg (h : x < 0) :
    -(2 * 2 ^ Int.log 2 |x|) ≤ round x ∧ round x ≤ -2 ^ Int.log 2 |x| := by
  have hpos := ulp_pos x
  obtain ⟨hlow, hhigh⟩ := quotient_bounds (ne_of_lt h)
  rw [abs_of_neg (div_neg_of_neg_of_pos h hpos)] at hlow hhigh
  obtain ⟨hdown, hup⟩ := roundEven_bounds (x := x / ulp x) (m := -2 ^ 53) (n := -2 ^ 52)
    (by push_cast; linarith) (by push_cast; linarith)
  have hleast : -2 ^ 53 * ulp x ≤ round x :=
    mul_le_mul_of_nonneg_right (by exact_mod_cast hdown) (le_of_lt hpos)
  have hmost : round x ≤ -2 ^ 52 * ulp x :=
    mul_le_mul_of_nonneg_right (by exact_mod_cast hup) (le_of_lt hpos)
  rw [← ulp_mul]
  constructor <;> linarith

theorem round_pos (h : 0 < x) : 0 < round x :=
  lt_of_lt_of_le (zpow_pos two_pos _) (round_of_pos h).1

theorem round_lt_zero (h : x < 0) : round x < 0 :=
  lt_of_le_of_lt (round_of_neg h).2 (neg_lt_zero.mpr (zpow_pos two_pos _))

/-- Numbers of one size are rounded by one step. -/
theorem round_mono_of_log (h : x ≤ y) (hlog : Int.log 2 |x| = Int.log 2 |y|) :
    round x ≤ round y := by
  have hulp : ulp x = ulp y := by
    unfold ulp
    rw [hlog]
  unfold round
  rw [hulp]
  refine mul_le_mul_of_nonneg_right ?_ (le_of_lt (ulp_pos y))
  exact_mod_cast roundEven_mono (div_le_div_of_nonneg_right h (le_of_lt (ulp_pos y)))

theorem two_mul_zpow_le {j k : ℤ} (h : j < k) : (2 : ℚ) * 2 ^ j ≤ 2 ^ k := by
  rw [mul_comm, ← zpow_add_one₀ two_ne_zero]
  exact zpow_le_zpow_right₀ one_le_two h

theorem round_mono (h : x ≤ y) : round x ≤ round y := by
  have hzero : round 0 = 0 := isDouble_zero
  rcases lt_trichotomy x 0 with hx | hx | hx
  · rcases lt_trichotomy y 0 with hy | hy | hy
    · have hlog := Int.log_mono_right (b := 2) (neg_pos.mpr hy) (neg_le_neg h)
      rw [← abs_of_neg hx, ← abs_of_neg hy] at hlog
      rcases lt_or_eq_of_le hlog with hless | hsame
      · have hstep := two_mul_zpow_le hless
        have hx' := (round_of_neg hx).2
        have hy' := (round_of_neg hy).1
        linarith
      · exact round_mono_of_log h hsame.symm
    · rw [hy, hzero]
      exact le_of_lt (round_lt_zero hx)
    · exact le_of_lt ((round_lt_zero hx).trans (round_pos hy))
  · rw [hx, hzero]
    rcases lt_or_eq_of_le (hx ▸ h) with hy | hy
    · exact le_of_lt (round_pos hy)
    · rw [← hy, hzero]
  · have hy := lt_of_lt_of_le hx h
    have hlog := Int.log_mono_right (b := 2) hx h
    rw [← abs_of_pos hx, ← abs_of_pos hy] at hlog
    rcases lt_or_eq_of_le hlog with hless | hsame
    · have hstep := two_mul_zpow_le hless
      have hx' := (round_of_pos hx).2
      have hy' := (round_of_pos hy).1
      linarith
    · exact round_mono_of_log h hsame

theorem round_le (hy : IsDouble y) (h : x ≤ y) : round x ≤ y :=
  (round_mono h).trans_eq hy

theorem le_round (hx : IsDouble x) (h : x ≤ y) : x ≤ round y :=
  (Eq.symm hx).trans_le (round_mono h)

end Rounding

section Exact

variable {x y : ℚ}

/-- A double is a multiple of the last bit of every double of at most its size. -/
theorem IsDouble.exists_mul (h : IsDouble x) {k : ℤ} (hk : 2 ^ k ≤ |x|) :
    ∃ m : ℤ, x = m * 2 ^ (k - 52) := by
  have hne : x ≠ 0 := by
    rintro rfl
    rw [abs_zero] at hk
    exact absurd hk (not_le.mpr (zpow_pos two_pos k))
  have hlog := (Int.zpow_le_iff_le_log (b := 2) (x := k) Nat.one_lt_two (abs_pos.mpr hne)).mp
    (by exact_mod_cast hk)
  refine ⟨roundEven (x / ulp x) * 2 ^ (Int.log 2 |x| - k).toNat, ?_⟩
  have hx : x = roundEven (x / ulp x) * ulp x := Eq.symm h
  have hexp : ulp x = 2 ^ (Int.log 2 |x| - k).toNat * 2 ^ (k - 52) := by
    unfold ulp
    rw [← zpow_natCast, ← zpow_add₀ two_ne_zero]
    congr 1
    omega
  push_cast
  rw [mul_assoc, ← hexp]
  exact hx

theorem IsDouble.half (h : IsDouble x) : IsDouble (x / 2) := by
  have hx : x / 2 = roundEven (x / ulp x) * 2 ^ (Int.log 2 |x| - 52 - 1) := by
    rw [zpow_sub_one₀ two_ne_zero, ← mul_assoc, ← div_eq_mul_inv]
    exact congrArg (· / 2) (Eq.symm h)
  rw [hx]
  exact isDouble_mul_zpow _ (abs_significand_le x)

/-- The difference of doubles that are at most a factor of two apart. -/
theorem IsDouble.sub (hx : IsDouble x) (hy : IsDouble y) (hhalf : y / 2 ≤ x) (hle : x ≤ y) :
    IsDouble (y - x) := by
  rcases lt_trichotomy x 0 with hneg | rfl | hpos
  · linarith
  · obtain rfl : y = 0 := by linarith
    rw [sub_zero]
    exact isDouble_zero
  · obtain ⟨k, hlow, hhigh⟩ := exists_size hpos
    obtain ⟨m, hm⟩ := hx.exists_mul (hlow.trans (le_abs_self x))
    obtain ⟨n, hn⟩ := hy.exists_mul (hlow.trans (hle.trans (le_abs_self y)))
    have hscale := zpow_pos (two_pos (α := ℚ)) (k - 52)
    have hdiff : y - x = ((n - m : ℤ) : ℚ) * 2 ^ (k - 52) := by
      rw [Int.cast_sub, sub_mul, ← hm, ← hn]
    have hnonneg : 0 ≤ ((n - m : ℤ) : ℚ) * 2 ^ (k - 52) := by
      rw [← hdiff]
      linarith
    have hsize : ((n - m : ℤ) : ℚ) * 2 ^ (k - 52) ≤ 2 ^ 53 * 2 ^ (k - 52) := by
      have hlast := lastBit_mul k
      rw [← hdiff]
      linarith
    have hsign : (0 : ℤ) ≤ n - m := by exact_mod_cast nonneg_of_mul_nonneg_left hnonneg hscale
    rw [hdiff]
    refine isDouble_mul_zpow _ ?_
    rw [abs_of_nonneg hsign]
    exact_mod_cast le_of_mul_le_mul_right hsize hscale

/-- Large doubles that differ are half a unit apart at least. -/
theorem IsDouble.half_le_sub (hx : IsDouble x) (hy : IsDouble y) (hlarge : 2 ^ 51 ≤ x)
    (hlt : x < y) : 1 / 2 ≤ y - x := by
  have hsize : (2 : ℚ) ^ (51 : ℤ) ≤ x := hlarge
  obtain ⟨m, hm⟩ := hx.exists_mul (hsize.trans (le_abs_self x))
  obtain ⟨n, hn⟩ := hy.exists_mul (hsize.trans ((le_of_lt hlt).trans (le_abs_self y)))
  have hlast : (2 : ℚ) ^ (51 - 52 : ℤ) = 1 / 2 := by norm_num
  rw [hlast] at hm hn
  have hmn : (m : ℚ) < n := by linarith
  have hstep : (m : ℚ) + 1 ≤ n := by exact_mod_cast hmn
  linarith

/-- A number whose last bit is zero is what all numbers up to half a step from it are
rounded to. -/
theorem round_eq {m k : ℤ} (heven : m % 2 = 0) (hlog : Int.log 2 |x| = k + 52)
    (h : |x - m * 2 ^ k| ≤ 2 ^ k / 2) : round x = m * 2 ^ k := by
  have hscale := zpow_pos (two_pos (α := ℚ)) k
  have hulp : ulp x = 2 ^ k := by
    unfold ulp
    rw [hlog, add_sub_cancel_right]
  unfold round
  rw [hulp, roundEven_eq heven]
  have hquotient : x / 2 ^ k - m = (x - m * 2 ^ k) / 2 ^ k := by
    rw [sub_div, mul_div_cancel_right₀ _ (ne_of_gt hscale)]
  rw [hquotient, abs_div, abs_of_pos hscale, div_le_iff₀ hscale]
  linarith

/-- A whole number that is not too large has an even last bit. -/
theorem exists_even {n k : ℤ} (hk : k < 52) : ∃ m : ℤ, m % 2 = 0 ∧ (m : ℚ) * 2 ^ (k - 52) = n := by
  refine ⟨n * 2 ^ (51 - k).toNat * 2, by omega, ?_⟩
  have hexp : (2 : ℚ) ^ (51 - k).toNat * 2 * 2 ^ (k - 52) = 1 := by
    rw [← zpow_natCast, ← zpow_add_one₀ two_ne_zero, ← zpow_add₀ two_ne_zero]
    rw [show ((51 - k).toNat : ℤ) + 1 + (k - 52) = 0 by omega, zpow_zero]
  push_cast
  rw [mul_assoc, mul_assoc, ← mul_assoc _ (2 : ℚ), hexp, mul_one]

/-- Half a step away from a whole number is close enough, also where the step below it is
the smaller one. -/
theorem round_near {n : ℤ} {y e : ℚ} (hn : n < 2 ^ 52) (hy : 0 < y) (hyn : y < n)
    (he : |e| ≤ ulp y / 2) : round (n + e) = n := by
  have hnpos := hy.trans hyn
  have hone : (1 : ℚ) ≤ n := by exact_mod_cast Int.cast_pos.mp hnpos
  have hmost : (n : ℚ) ≤ 2 ^ 52 - 1 := by exact_mod_cast Int.le_sub_one_of_lt hn
  obtain ⟨k, hlow, hhigh⟩ := exists_size hnpos
  have hlast := lastBit_mul k
  have hk : k < 52 := by
    by_contra hlarge
    have hpow : (2 : ℚ) ^ (52 : ℤ) ≤ 2 ^ k := zpow_le_zpow_right₀ one_le_two (by omega)
    rw [show (2 : ℚ) ^ (52 : ℤ) = 2 ^ 52 from rfl] at hpow
    linarith
  have hk' : 0 ≤ k := by
    by_contra hsmall
    have hstep := two_mul_zpow_le (j := k) (k := 0) (by omega)
    rw [zpow_zero] at hstep
    linarith
  have hstep : 2 ^ (k - 52) * 2 ≤ (1 : ℚ) := by
    rw [← zpow_add_one₀ two_ne_zero]
    exact zpow_le_one_of_nonpos₀ one_le_two (by omega)
  have hlogn : Int.log 2 |(n : ℚ)| = k := log_eq (by rwa [abs_of_pos hnpos])
    (by rwa [abs_of_pos hnpos, zpow_add_one₀ two_ne_zero, mul_comm])
  have hulp : ulp y ≤ 2 ^ (k - 52) := by
    have hmono := ulp_mono (ne_of_gt hy) (y := n)
      (by rw [abs_of_pos hy, abs_of_pos hnpos]; exact le_of_lt hyn)
    unfold ulp at hmono ⊢
    rwa [hlogn] at hmono
  obtain ⟨hdown, hup⟩ := abs_le.mp he
  by_cases hsize : 2 ^ k ≤ n + e
  · obtain ⟨m, heven, hm⟩ := exists_even (n := n) hk
    have hnext : (n : ℚ) + 1 ≤ 2 * 2 ^ k := by
      lift k to ℕ using hk'
      rw [zpow_natCast] at hhigh ⊢
      exact_mod_cast hhigh
    have hpos : 0 < n + e := lt_of_lt_of_le (zpow_pos two_pos k) hsize
    have hlog : Int.log 2 |n + e| = k := log_eq (by rwa [abs_of_pos hpos]) (by
      rw [abs_of_pos hpos, zpow_add_one₀ two_ne_zero]
      linarith)
    rw [← hm]
    refine round_eq heven (by rw [hm, hlog]; omega) ?_
    rw [add_sub_cancel_left]
    linarith
  · -- the number is a power of two, below which the steps are half as long
    have hpower : (n : ℚ) = 2 ^ k := by
      lift k to ℕ using hk'
      rw [zpow_natCast] at hlow hsize ⊢
      have hless : (n : ℚ) < 2 ^ k + 1 := by linarith
      have hlow' : 2 ^ k ≤ n := by exact_mod_cast hlow
      have hless' : n < 2 ^ k + 1 := by exact_mod_cast hless
      exact_mod_cast le_antisymm (Int.lt_add_one_iff.mp hless') hlow'
    have hdouble : (2 : ℚ) * 2 ^ (k - 1) = 2 ^ k := by
      rw [mul_comm, ← zpow_add_one₀ two_ne_zero, sub_add_cancel]
    have hlast' := lastBit_mul (k - 1)
    have hulp' : ulp y ≤ 2 ^ (k - 1 - 52) := by
      have hlog := (Int.lt_zpow_iff_log_lt (b := 2) (x := k) Nat.one_lt_two hy).mp
        (by exact_mod_cast hpower ▸ hyn)
      unfold ulp
      rw [abs_of_pos hy]
      exact zpow_le_zpow_right₀ one_le_two (by omega)
    have hpos : 0 < n + e := by linarith
    have hlog : Int.log 2 |n + e| = k - 1 := log_eq (by
      rw [abs_of_pos hpos]
      linarith) (by
      rw [abs_of_pos hpos, sub_add_cancel]
      exact not_le.mp hsize)
    have hm : ((2 ^ 53 : ℤ) : ℚ) * 2 ^ (k - 1 - 52) = n := by
      push_cast
      linarith
    rw [← hm]
    refine round_eq (by norm_num) (by rw [hm, hlog]; omega) ?_
    rw [add_sub_cancel_left]
    linarith

/-- What is missing of a whole number, rounded and then added, completes it. -/
theorem round_add_round_sub {n : ℤ} (hn : n < 2 ^ 52) (hx : 0 ≤ x) (hle : x ≤ n) :
    round (x + round (n - x)) = n := by
  have hwhole : IsDouble n := isDouble_intCast (abs_le.mpr (by
    have hnonneg : 0 ≤ n := by exact_mod_cast hx.trans hle
    omega))
  rcases lt_or_eq_of_le hx with hpos | rfl
  · rcases lt_or_eq_of_le hle with hless | rfl
    · have hsum : x + round (n - x) = n + (round (n - x) - (n - x)) := by ring
      rw [hsum]
      exact round_near hn (sub_pos.mpr hless) (sub_lt_self _ hpos) (abs_round_sub_le _)
    · rw [sub_self, isDouble_zero, add_zero]
      exact hwhole
  · rw [sub_zero, zero_add, hwhole]
    exact hwhole

end Exact

section Sums

variable {ι : Type}

theorem sum_append_singleton (xs : List ℚ) (x : ℚ) : sum (xs ++ [x]) = round (sum xs + x) := by
  unfold sum
  rw [List.foldl_append]
  rfl

theorem min_le_round {n : ℤ} {x : ℚ} (hn : 0 ≤ n) (h : n ≤ x) :
    ((min n (2 ^ 53) : ℤ) : ℚ) ≤ round x := by
  refine le_round (isDouble_intCast ?_) (le_trans ?_ h)
  · rw [abs_of_nonneg (le_min hn (by norm_num))]
    exact min_le_right _ _
  · exact_mod_cast min_le_left n _

/-- Rounding takes a sum below the whole parts of its terms only where these are large. -/
theorem min_le_sum {l : List ι} {n : ι → ℤ} {x : ι → ℚ} (h : ∀ i ∈ l, 0 ≤ n i ∧ n i ≤ x i) :
    ((min (l.map n).sum (2 ^ 53) : ℤ) : ℚ) ≤ sum (l.map x) := by
  induction l using List.reverseRecOn with
  | nil => exact le_refl _
  | append_singleton l i ih =>
      have hl := fun j hj => h j (List.mem_append_left [i] hj)
      obtain ⟨hnonneg, hle⟩ := h i (List.mem_append_right l (List.mem_singleton_self i))
      have hsum : 0 ≤ (l.map n).sum := List.sum_nonneg fun m hm => by
        obtain ⟨j, hj, rfl⟩ := List.mem_map.mp hm
        exact (hl j hj).1
      rw [List.map_append, List.map_append, List.map_singleton, List.map_singleton,
        List.sum_append, List.sum_singleton, sum_append_singleton]
      have hpart : ((min (l.map n).sum (2 ^ 53) + n i : ℤ) : ℚ) ≤ sum (l.map x) + x i := by
        rw [Int.cast_add]
        exact add_le_add (ih hl) hle
      refine le_trans ?_ (min_le_round (add_nonneg (le_min hsum (by norm_num)) hnonneg) hpart)
      exact_mod_cast (by omega)

/-- Whole numbers that come to a double are added up exactly. -/
theorem sum_intCast {l : List ι} {n : ι → ℤ} (h : ∀ i ∈ l, 0 ≤ n i)
    (hsum : (l.map n).sum ≤ 2 ^ 53) : sum (l.map fun i => (n i : ℚ)) = (l.map n).sum := by
  induction l using List.reverseRecOn with
  | nil => rfl
  | append_singleton l i ih =>
      have hl := fun j hj => h j (List.mem_append_left [i] hj)
      have hnonneg := h i (List.mem_append_right l (List.mem_singleton_self i))
      have hpart : 0 ≤ (l.map n).sum := List.sum_nonneg fun m hm => by
        obtain ⟨j, hj, rfl⟩ := List.mem_map.mp hm
        exact hl j hj
      have hparts : ((l ++ [i]).map n).sum = (l.map n).sum + n i := by
        rw [List.map_append, List.sum_append, List.map_singleton, List.sum_singleton]
      rw [hparts] at hsum ⊢
      rw [List.map_append, List.map_singleton, sum_append_singleton, ih hl (by omega),
        ← Int.cast_add]
      exact isDouble_intCast (abs_le.mpr (by omega))

end Sums

end Binary64
end Lib
end ERP
