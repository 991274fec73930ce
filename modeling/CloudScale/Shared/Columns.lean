/-
  What the columns of the tables hold: `String(n)`, `Integer` and `Numeric(10, 2)`.

  PostgreSQL counts the characters of a text and takes none with a NUL; a lone surrogate, which it
  does not take either, is modelled as a NUL. An integer has 32 bits. A number is rounded to two
  places when it is stored, halves away from zero, and has at most ten digits then.
-/
import Mathlib.Algebra.Order.Group.Unbundled.Abs
import Mathlib.Algebra.Order.Ring.Rat
import Mathlib.Tactic.NormNum

namespace CloudScale.Shared

/-! ## Texts -/

def nul : Char := Char.ofNat 0

def hasNul (text : String) : Bool := decide (nul ∈ text.toList)

/-- A text of a column `String(n)`. -/
def fitsText (n : ℕ) (text : String) : Bool := decide (text.length ≤ n) && !hasNul text

theorem fitsText_iff {n : ℕ} {text : String} :
    fitsText n text = true ↔ text.length ≤ n ∧ hasNul text = false := by
  simp [fitsText]

/-! ## Numbers -/

/-- A value of a column `Integer`. -/
def fitsInteger (n : Int) : Bool := decide (-2 ^ 31 ≤ n) && decide (n < 2 ^ 31)

theorem fitsInteger_iff {n : Int} : fitsInteger n = true ↔ -2 ^ 31 ≤ n ∧ n < 2 ^ 31 := by
  simp [fitsInteger]

/-- A value of a column `Numeric(10, 2)`. -/
def fitsNumeric (x : ℚ) : Bool := decide (|1000 * x| < 99999999995)

/-- From here on a value has nine digits before the point when it is stored. -/
def numericBound : ℚ := 99999999995 / 1000

theorem fitsNumeric_iff {x : ℚ} (hx : 0 ≤ x) : fitsNumeric x = true ↔ x < numericBound := by
  have hscaled : (0 : ℚ) ≤ 1000 * x := mul_nonneg (by norm_num) hx
  unfold fitsNumeric numericBound
  rw [decide_eq_true_iff, abs_of_nonneg hscaled, lt_div_iff₀ (by norm_num), mul_comm]

end CloudScale.Shared
