/-
  Rounding of rational numbers: to an integer, to the floating-point numbers of a format, and to a
  number of decimal places.

  A format has a base, a precision (digits of the significand) and the exponent of its smallest
  number; it has no largest one. `Format.round` goes to the nearest number of the format, of two
  to the one whose significand is even. `abs_round_sub_le` bounds the error, `round_scaled` says
  that the numbers of the format are not changed and `le_round` that rounding does not cross them,
  and `ceil_round_div` that a quotient of small integers has the right ceiling after it is rounded.
  `roundAway` goes to the nearest integer, of two to the one further from zero;
  `roundAway_eq_bdiv`: near a quotient of integers it is the one that `Int.bdiv` gives.
-/
import Mathlib.Data.Int.Log
import Mathlib.Algebra.Order.Floor.Semiring
import Mathlib.Algebra.Order.Round
import Mathlib.Data.Rat.Floor
import Mathlib.Tactic.Linarith
import Mathlib.Tactic.FieldSimp
import Mathlib.Tactic.Positivity
import Mathlib.Tactic.Ring

namespace CloudScale.Lib

/-! ## Integers -/

/-- The nearest integer; of two the even one. -/
def roundHalfEven (x : ℚ) : ℤ :=
  if Int.fract x < 1 / 2 ∨ (Int.fract x = 1 / 2 ∧ Even ⌊x⌋) then ⌊x⌋ else ⌊x⌋ + 1

theorem abs_roundHalfEven_sub_le (x : ℚ) : |(roundHalfEven x : ℚ) - x| ≤ 1 / 2 := by
  have hfloor : (⌊x⌋ : ℚ) = x - Int.fract x := (Int.self_sub_fract x).symm
  have hnonneg := Int.fract_nonneg x
  unfold roundHalfEven
  rw [abs_le]
  split
  · next h =>
    have hle : Int.fract x ≤ 1 / 2 := h.elim le_of_lt fun h => h.1.le
    rw [hfloor]
    constructor <;> linarith
  · next h =>
    have hge : 1 / 2 ≤ Int.fract x := not_lt.mp fun hlt => h (Or.inl hlt)
    have hlt := Int.fract_lt_one x
    push_cast
    rw [hfloor]
    constructor <;> linarith

theorem roundHalfEven_intCast (n : ℤ) : roundHalfEven n = n := by
  unfold roundHalfEven
  rw [Int.fract_intCast, Int.floor_intCast, if_pos (Or.inl (by norm_num))]

theorem le_roundHalfEven {n : ℤ} {x : ℚ} (h : (n : ℚ) ≤ x) : n ≤ roundHalfEven x := by
  have hfloor : n ≤ ⌊x⌋ := Int.le_floor.mpr h
  unfold roundHalfEven
  split <;> omega

/-- The nearest integer; of two the one further from zero. -/
def roundAway (x : ℚ) : ℤ := if 0 ≤ x then ⌊x + 1 / 2⌋ else -⌊-x + 1 / 2⌋

theorem roundAway_eq_iff {x : ℚ} (hx : 0 ≤ x) {n : ℤ} :
    roundAway x = n ↔ (n : ℚ) - 1 / 2 ≤ x ∧ x < n + 1 / 2 := by
  unfold roundAway
  rw [if_pos hx, Int.floor_eq_iff]
  constructor
  · rintro ⟨hle, hlt⟩
    constructor <;> linarith
  · rintro ⟨hle, hlt⟩
    constructor <;> linarith

theorem abs_roundAway_sub_le (x : ℚ) : |(roundAway x : ℚ) - x| ≤ 1 / 2 := by
  have hfloor : ∀ y : ℚ, |(⌊y + 1 / 2⌋ : ℚ) - y| ≤ 1 / 2 := fun y => by
    have hle := Int.floor_le (y + 1 / 2)
    have hlt := Int.lt_floor_add_one (y + 1 / 2)
    rw [abs_le]
    constructor <;> linarith
  unfold roundAway
  split
  · exact hfloor x
  · have h := hfloor (-x)
    rw [sub_neg_eq_add] at h
    rw [Int.cast_neg, ← abs_neg, neg_sub, sub_neg_eq_add, add_comm]
    exact h

/-- An integer nearer than a half is the nearest one. -/
theorem roundAway_eq_of_abs_lt {x : ℚ} {n : ℤ} (h : |x - n| < 1 / 2) : roundAway x = n := by
  have hround := abs_le.mp (abs_roundAway_sub_le x)
  obtain ⟨hlow, hhigh⟩ := abs_lt.mp h
  have hupper : (roundAway x : ℚ) < n + 1 := by linarith [hround.2]
  have hlower : (n : ℚ) < roundAway x + 1 := by linarith [hround.1]
  have hupper' : roundAway x < n + 1 := by exact_mod_cast hupper
  have hlower' : n < roundAway x + 1 := by exact_mod_cast hlower
  omega

/-- Near a quotient that is not halfway between two integers, the nearest integer is the one with
    the remainder of least absolute value, which `Int.bmod` has. -/
theorem roundAway_eq_bdiv {x : ℚ} {k : ℤ} {m : ℕ} (hm : 0 < m) (htie : 2 * k.bmod m ≠ -m)
    (h : |x - k / m| < 1 / (2 * m)) : roundAway x = k.bdiv m := by
  have hmq : (0 : ℚ) < m := Nat.cast_pos.mpr hm
  have hsplit : (k : ℚ) / m - k.bdiv m = k.bmod m / m := by
    have hk : (k : ℚ) = m * k.bdiv m + k.bmod m := by
      exact_mod_cast (Int.bdiv_add_bmod k m).symm
    rw [div_sub' hmq.ne', div_left_inj' hmq.ne']
    linarith
  have hrest : |(k : ℚ) / m - k.bdiv m| ≤ 1 / 2 - 1 / (2 * m) := by
    have hlow := Int.le_bmod (x := k) hm
    have hhigh := Int.bmod_lt (x := k) hm
    have hbound : |2 * k.bmod m| ≤ (m : ℤ) - 1 := abs_le.mpr ⟨by omega, by omega⟩
    have hboundq : |2 * (k.bmod m : ℚ)| ≤ m - 1 := by exact_mod_cast hbound
    rw [abs_mul, abs_two] at hboundq
    have hshare : (1 / 2 - 1 / (2 * m)) * m = ((m : ℚ) - 1) / 2 := by field_simp
    rw [hsplit, abs_div, abs_of_pos hmq, div_le_iff₀ hmq, hshare]
    linarith
  refine roundAway_eq_of_abs_lt ?_
  calc |x - k.bdiv m| ≤ |x - k / m| + |(k : ℚ) / m - k.bdiv m| := abs_sub_le _ _ _
    _ < 1 / (2 * m) + (1 / 2 - 1 / (2 * m)) := add_lt_add_of_lt_of_le h hrest
    _ = 1 / 2 := by ring

/-! ## Formats -/

/-- The numbers `m * base ^ e` with `|m| < base ^ precision` and `etiny ≤ e`. -/
structure Format where
  base : ℕ
  precision : ℕ
  etiny : ℤ
  one_lt_base : 1 < base
  precision_pos : 0 < precision

namespace Format

variable (f : Format) (x : ℚ)

/-- The exponent of the last digit of `x`. -/
def lastDigit : ℤ := max (Int.log f.base |x| + 1 - f.precision) f.etiny

/-- The value of the last digit of `x`. -/
def ulp : ℚ := (f.base : ℚ) ^ f.lastDigit x

def round : ℚ := roundHalfEven (x / f.ulp x) * f.ulp x

theorem base_pos : (0 : ℚ) < f.base := by
  exact_mod_cast Nat.zero_lt_of_lt f.one_lt_base

theorem ulp_pos : 0 < f.ulp x := zpow_pos f.base_pos _

theorem abs_round_sub_le : |f.round x - x| ≤ f.ulp x / 2 := by
  have hulp := f.ulp_pos x
  have hmul : f.round x - x = (roundHalfEven (x / f.ulp x) - x / f.ulp x) * f.ulp x := by
    unfold round
    field_simp
  rw [hmul, abs_mul, abs_of_pos hulp]
  have h := abs_roundHalfEven_sub_le (x / f.ulp x)
  calc _ ≤ 1 / 2 * f.ulp x := mul_le_mul_of_nonneg_right h hulp.le
    _ = f.ulp x / 2 := by ring

/-- The largest error of a rounding to all digits, relative to what is rounded. -/
def epsilon : ℚ := (f.base : ℚ) ^ (1 - f.precision : ℤ) / 2

theorem lastDigit_le {x : ℚ} {e : ℤ} (hpos : 0 < |x|)
    (hx : |x| < (f.base : ℚ) ^ (f.precision + e)) (he : f.etiny ≤ e) : f.lastDigit x ≤ e := by
  have hlog : Int.log f.base |x| < f.precision + e :=
    (Int.lt_zpow_iff_log_lt f.one_lt_base hpos).mp hx
  exact max_le (by omega) he

/-- A multiple of the last digit that is not above stays so. -/
theorem mul_ulp_le_round {x : ℚ} {n : ℤ} (h : n * f.ulp x ≤ x) : n * f.ulp x ≤ f.round x := by
  have hulp := f.ulp_pos x
  have hround : n ≤ roundHalfEven (x / f.ulp x) := le_roundHalfEven ((le_div_iff₀ hulp).mpr h)
  exact mul_le_mul_of_nonneg_right (Int.cast_le.mpr hround) hulp.le

theorem round_nonneg {x : ℚ} (hx : 0 ≤ x) : 0 ≤ f.round x := by
  simpa using f.mul_ulp_le_round (n := 0) (by simpa using hx)

/-- A multiple of its last digit is not changed. -/
theorem round_eq_self {x : ℚ} {n : ℤ} (h : x = n * f.ulp x) : f.round x = x := by
  have hdiv : x / f.ulp x = n := by
    rw [div_eq_iff (f.ulp_pos x).ne']
    exact h
  unfold round
  rw [hdiv, roundHalfEven_intCast]
  exact h.symm

theorem round_zero : f.round 0 = 0 := f.round_eq_self (n := 0) (by simp)

/-- The error is at most half of a digit that all larger ones fit before. -/
theorem abs_round_sub_le_zpow {x : ℚ} {e : ℤ} (hx : |x| < (f.base : ℚ) ^ (f.precision + e))
    (he : f.etiny ≤ e) : |f.round x - x| ≤ (f.base : ℚ) ^ e / 2 := by
  have hpow := zpow_pos f.base_pos e
  rcases eq_or_ne x 0 with rfl | hne
  · rw [round_zero, sub_zero, abs_zero]
    exact (half_pos hpow).le
  · have hulp : f.ulp x ≤ (f.base : ℚ) ^ e := zpow_le_zpow_right₀
      (by exact_mod_cast f.one_lt_base.le) (f.lastDigit_le (abs_pos.mpr hne) hx he)
    have hround := f.abs_round_sub_le x
    linarith

/-- The error relative to a bound, which may be any that has all its digits. -/
theorem abs_round_sub_le_mul {x b : ℚ} (hx : |x| ≤ b)
    (hb : (f.base : ℚ) ^ (f.etiny + f.precision - 1) ≤ b) : |f.round x - x| ≤ f.epsilon * b := by
  have hbase := f.base_pos
  have hdigits := zpow_pos hbase (1 - f.precision : ℤ)
  have hb0 : 0 ≤ b := (abs_nonneg x).trans hx
  rcases eq_or_ne x 0 with rfl | hne
  · rw [round_zero, sub_zero, abs_zero]
    exact mul_nonneg (half_pos hdigits).le hb0
  · have hlog : (f.base : ℚ) ^ Int.log f.base |x| ≤ |x| :=
      Int.zpow_log_le_self f.one_lt_base (abs_pos.mpr hne)
    have hulp : f.ulp x ≤ b * (f.base : ℚ) ^ (1 - f.precision : ℤ) := by
      unfold ulp lastDigit
      rcases max_cases (Int.log f.base |x| + 1 - f.precision) f.etiny with ⟨h, -⟩ | ⟨h, -⟩
      · rw [h, add_sub_assoc, zpow_add₀ hbase.ne']
        exact mul_le_mul_of_nonneg_right (hlog.trans hx) hdigits.le
      · have hsum : f.etiny = (f.etiny + f.precision - 1) + (1 - f.precision) := by ring
        rw [h, hsum, zpow_add₀ hbase.ne']
        exact mul_le_mul_of_nonneg_right hb hdigits.le
    calc |f.round x - x| ≤ f.ulp x / 2 := f.abs_round_sub_le x
      _ ≤ b * (f.base : ℚ) ^ (1 - f.precision : ℤ) / 2 := by linarith
      _ = f.epsilon * b := by unfold epsilon; ring

/-- The numbers of the format are not changed. -/
theorem round_scaled {n e : ℤ} (hn : |n| < f.base ^ f.precision) (he : f.etiny ≤ e) :
    f.round (n * (f.base : ℚ) ^ e) = n * (f.base : ℚ) ^ e := by
  obtain ⟨x, hx⟩ : ∃ x : ℚ, x = n * (f.base : ℚ) ^ e := ⟨_, rfl⟩
  rw [← hx]
  by_cases hzero : n = 0
  · exact f.round_eq_self (n := 0) (by simp [hx, hzero])
  · have hbase := f.base_pos
    have hpos : 0 < |x| := abs_pos.mpr
      (hx ▸ mul_ne_zero (Int.cast_ne_zero.mpr hzero) (zpow_pos hbase e).ne')
    have hlt : |x| < (f.base : ℚ) ^ (f.precision + e) := by
      rw [hx, abs_mul, abs_of_pos (zpow_pos hbase e), zpow_add₀ hbase.ne', zpow_natCast]
      exact mul_lt_mul_of_pos_right (by exact_mod_cast hn) (zpow_pos hbase e)
    have hlast := f.lastDigit_le hpos hlt he
    obtain ⟨k, hk⟩ : ∃ k : ℕ, e = k + f.lastDigit x := ⟨(e - f.lastDigit x).toNat, by omega⟩
    refine f.round_eq_self (n := n * f.base ^ k) ?_
    unfold ulp
    push_cast
    rw [mul_assoc, ← zpow_natCast, ← zpow_add₀ hbase.ne', ← hk]
    exact hx

/-- A small integer is a number of the format. -/
theorem round_intCast {n : ℤ} (hn : |n| < f.base ^ f.precision) (hetiny : f.etiny ≤ 0) :
    f.round n = n := by
  simpa using f.round_scaled hn hetiny

/-- Rounding does not go below a number of the format. -/
theorem le_round {x : ℚ} {n e : ℤ} (hn : |n| < f.base ^ f.precision) (he : f.etiny ≤ e)
    (hx : 0 < x) (h : n * (f.base : ℚ) ^ e ≤ x) : n * (f.base : ℚ) ^ e ≤ f.round x := by
  have hbase := f.base_pos
  by_cases hlast : f.lastDigit x ≤ e
  · -- the number is a multiple of the last digit of `x`
    obtain ⟨k, hk⟩ : ∃ k : ℕ, e = k + f.lastDigit x := ⟨(e - f.lastDigit x).toNat, by omega⟩
    have hmultiple : n * (f.base : ℚ) ^ e = ((n * f.base ^ k : ℤ) : ℚ) * f.ulp x := by
      unfold ulp
      push_cast
      rw [mul_assoc, ← zpow_natCast, ← zpow_add₀ hbase.ne', ← hk]
    rw [hmultiple] at h ⊢
    exact f.mul_ulp_le_round h
  · -- it has fewer digits before the point than `x`
    have hdigit : f.lastDigit x = Int.log f.base |x| + 1 - f.precision := by
      unfold lastDigit at hlast ⊢
      omega
    have hprecision := f.precision_pos
    obtain ⟨k, hk⟩ : ∃ k : ℕ, Int.log f.base |x| = k + f.lastDigit x :=
      ⟨f.precision - 1, by omega⟩
    have hpower : (f.base : ℚ) ^ Int.log f.base |x| = ((f.base ^ k : ℤ) : ℚ) * f.ulp x := by
      unfold ulp
      push_cast
      rw [← zpow_natCast, ← zpow_add₀ hbase.ne', ← hk]
    have hle : (f.base : ℚ) ^ Int.log f.base |x| ≤ x := by
      rw [abs_of_pos hx]
      exact Int.zpow_log_le_self f.one_lt_base hx
    have hbelow : n * (f.base : ℚ) ^ e ≤ (f.base : ℚ) ^ Int.log f.base |x| := by
      have hn' : (n : ℚ) ≤ (f.base : ℚ) ^ (f.precision : ℤ) := by
        rw [zpow_natCast]
        exact_mod_cast (le_abs_self n).trans hn.le
      calc n * (f.base : ℚ) ^ e ≤ (f.base : ℚ) ^ (f.precision : ℤ) * (f.base : ℚ) ^ e :=
            mul_le_mul_of_nonneg_right hn' (zpow_pos hbase e).le
        _ = (f.base : ℚ) ^ (f.precision + e) := (zpow_add₀ hbase.ne' _ _).symm
        _ ≤ _ := zpow_le_zpow_right₀ (by exact_mod_cast f.one_lt_base.le) (by omega)
    rw [hpower] at hle hbelow
    exact hbelow.trans (f.mul_ulp_le_round hle)

section Quotient

variable {a d : ℕ}

/-- The last digit of a quotient of small integers is worth less than two parts of the divisor. -/
theorem ulp_div_lt (ha : 0 < a) (hd : 0 < d) (hsize : f.base * a < 2 * f.base ^ f.precision)
    (hetiny : (d : ℚ) * (f.base : ℚ) ^ f.etiny < 2) : f.ulp (a / d) < 2 / d := by
  have hd' : (0 : ℚ) < d := Nat.cast_pos.mpr hd
  have hq : (0 : ℚ) < a / d := div_pos (Nat.cast_pos.mpr ha) hd'
  have hbase := f.base_pos
  rw [lt_div_iff₀ hd']
  unfold ulp lastDigit
  rw [abs_of_pos hq]
  rcases max_cases (Int.log f.base ((a : ℚ) / d) + 1 - f.precision) f.etiny with ⟨h, -⟩ | ⟨h, -⟩
  · rw [h, zpow_sub₀ hbase.ne', zpow_add_one₀ hbase.ne', zpow_natCast]
    have hlog : (f.base : ℚ) ^ Int.log f.base ((a : ℚ) / d) ≤ a / d :=
      Int.zpow_log_le_self f.one_lt_base hq
    have hpow : (0 : ℚ) < (f.base : ℚ) ^ f.precision := pow_pos hbase _
    have hsize' : (f.base : ℚ) * a < 2 * (f.base : ℚ) ^ f.precision := by exact_mod_cast hsize
    calc _ = (f.base : ℚ) ^ Int.log f.base ((a : ℚ) / d) * d * f.base / f.base ^ f.precision := by
          ring
      _ ≤ a / d * d * f.base / f.base ^ f.precision := by gcongr
      _ = f.base * a / f.base ^ f.precision := by
          rw [div_mul_cancel₀ _ hd'.ne', mul_comm]
      _ < 2 := by rwa [div_lt_iff₀ hpow]
  · rw [h, mul_comm]
    exact hetiny

theorem etiny_nonpos (hd : 0 < d) (hetiny : (d : ℚ) * (f.base : ℚ) ^ f.etiny < 2) :
    f.etiny ≤ 0 := by
  by_contra hpos
  have hbase : (2 : ℚ) ≤ f.base := by exact_mod_cast f.one_lt_base
  have hpow : (f.base : ℚ) ^ (1 : ℤ) ≤ (f.base : ℚ) ^ f.etiny :=
    zpow_le_zpow_right₀ (by linarith) (by omega)
  have hd' : (1 : ℚ) ≤ d := by exact_mod_cast hd
  rw [zpow_one] at hpow
  have hmul : (f.base : ℚ) ^ f.etiny ≤ d * (f.base : ℚ) ^ f.etiny :=
    le_mul_of_one_le_left (by linarith) hd'
  linarith

/-- A quotient that is not an integer is at least one part of the divisor away from its
    neighbours. -/
theorem div_between (hd : 0 < d) (hmod : a % d ≠ 0) :
    ((a / d : ℕ) : ℚ) + 1 / d ≤ a / d ∧ (a / d : ℚ) ≤ (a / d : ℕ) + 1 - 1 / d := by
  have hd' : (0 : ℚ) < d := Nat.cast_pos.mpr hd
  have hsum : (a : ℚ) = d * (a / d : ℕ) + (a % d : ℕ) := by
    exact_mod_cast (Nat.div_add_mod a d).symm
  have hquotient : (a / d : ℚ) = (a / d : ℕ) + (a % d : ℕ) / d := by
    rw [div_eq_iff hd'.ne', add_mul, div_mul_cancel₀ _ hd'.ne', mul_comm]
    exact hsum
  have hpos : (1 : ℚ) ≤ (a % d : ℕ) := by exact_mod_cast Nat.pos_of_ne_zero hmod
  have hlt : ((a % d : ℕ) : ℚ) + 1 ≤ d := by exact_mod_cast Nat.mod_lt a hd
  have hlower : (1 : ℚ) / d ≤ (a % d : ℕ) / d := by gcongr
  have hupper : (((a % d : ℕ) : ℚ) + 1) / d ≤ 1 := (div_le_one hd').mpr hlt
  rw [add_div] at hupper
  rw [hquotient]
  constructor <;> linarith

/-- The ceiling of a quotient of small integers may be taken after it is rounded. -/
theorem ceil_round_div (hd : 0 < d) (hsize : f.base * a < 2 * f.base ^ f.precision)
    (hetiny : (d : ℚ) * (f.base : ℚ) ^ f.etiny < 2) : ⌈f.round (a / d)⌉₊ = ⌈(a / d : ℚ)⌉₊ := by
  have hd' : (0 : ℚ) < d := Nat.cast_pos.mpr hd
  have ha' : a = d * (a / d) + a % d := (Nat.div_add_mod a d).symm
  by_cases hmod : a % d = 0
  · -- the quotient is an integer, and one of the format
    have hquotient : (a / d : ℚ) = ((a / d : ℕ) : ℤ) := by
      rw [div_eq_iff hd'.ne', Int.cast_natCast, mul_comm]
      exact_mod_cast ha'.trans (by rw [hmod, Nat.add_zero])
    have hle : a / d ≤ a := Nat.div_le_self a d
    have hbase : 2 * (a / d) ≤ f.base * a := Nat.mul_le_mul f.one_lt_base hle
    have hsmall : |((a / d : ℕ) : ℤ)| < f.base ^ f.precision := by
      rw [Int.abs_natCast]
      exact_mod_cast (by omega : a / d < f.base ^ f.precision)
    rw [hquotient, f.round_intCast hsmall (f.etiny_nonpos hd hetiny)]
  · have ha : 0 < a := Nat.pos_of_ne_zero fun h => hmod (by rw [h, Nat.zero_mod])
    have hround := abs_le.mp (f.abs_round_sub_le (a / d))
    have hulp := f.ulp_div_lt ha hd hsize hetiny
    obtain ⟨hlower, hupper⟩ := div_between hd hmod
    have hhalf : f.ulp (a / d) / 2 < 1 / d := by
      rw [div_lt_iff₀ two_pos]
      calc _ < _ := hulp
        _ = _ := by ring
    have hceil : ∀ x : ℚ, ((a / d : ℕ) : ℚ) < x → x ≤ ((a / d : ℕ) : ℚ) + 1 →
        ⌈x⌉₊ = a / d + 1 := by
      intro x hx hx'
      rw [Nat.ceil_eq_iff (Nat.succ_ne_zero _)]
      exact ⟨by simpa using hx, by exact_mod_cast hx'⟩
    have hpart : (0 : ℚ) < 1 / d := one_div_pos.mpr hd'
    rw [hceil (f.round _) (by linarith [hround.1]) (by linarith [hround.2]),
      hceil _ (by linarith) (by linarith)]

end Quotient

/-- The doubles of IEEE 754, without the largest exponent. -/
def binary64 : Format where
  base := 2
  precision := 53
  etiny := -1074
  one_lt_base := Nat.one_lt_two
  precision_pos := Nat.succ_pos 52

end Format

end CloudScale.Lib
