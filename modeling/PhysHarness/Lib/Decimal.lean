import Mathlib.Algebra.Order.Field.Power
import Mathlib.Data.Rat.Cast.Order
import Mathlib.Tactic.NormNum

/-!
Decimal numbers that are not negative, as a context of 28 digits computes with them.

Comparison is exact. A product is rounded to the digits of the context, half to even, and to the
smallest exponent it can have; a number above the largest exponent is an overflow. Main result: a product
that needs no more digits than the context has is exact.
-/

/-- `coefficient` times ten to the `exponent` -/
structure Decimal where
  coefficient : Nat
  exponent : Int
  deriving DecidableEq

namespace Decimal

def value (d : Decimal) : ℚ := d.coefficient * (10 : ℚ) ^ d.exponent

/-- The coefficient over a smaller exponent. -/
def scaled (d : Decimal) (exponent : Int) : Nat := d.coefficient * 10 ^ (d.exponent - exponent).toNat

def exceeds (first second : Decimal) : Bool :=
  let exponent := min first.exponent second.exponent
  second.scaled exponent < first.scaled exponent

theorem value_scaled {d : Decimal} {exponent : Int} (below : exponent ≤ d.exponent) :
    d.value = d.scaled exponent * (10 : ℚ) ^ exponent := by
  have split : d.exponent = ((d.exponent - exponent).toNat : Int) + exponent := by omega
  have power : (10 : ℚ) ^ d.exponent = 10 ^ (d.exponent - exponent).toNat * (10 : ℚ) ^ exponent := by
    conv_lhs => rw [split]
    rw [zpow_add₀ (by norm_num), zpow_natCast]
  rw [value, scaled, power]
  push_cast
  exact (mul_assoc _ _ _).symm

theorem value_nonneg (d : Decimal) : 0 ≤ d.value :=
  mul_nonneg (Nat.cast_nonneg _) (zpow_nonneg (by norm_num) _)

theorem exceeds_iff {first second : Decimal} : first.exceeds second = true ↔ second.value < first.value := by
  rw [value_scaled (Int.min_le_left first.exponent second.exponent),
    value_scaled (Int.min_le_right first.exponent second.exponent),
    mul_lt_mul_iff_left₀ (zpow_pos (by norm_num) _), Nat.cast_lt]
  simp [exceeds]

theorem exceeds_false {first second : Decimal} :
    first.exceeds second = false ↔ first.value ≤ second.value := by
  rw [← Bool.not_eq_true, exceeds_iff, not_lt]

theorem ext_value {first second : Decimal} (exponent : first.exponent = second.exponent)
    (value : first.value = second.value) : first = second := by
  have scale : (10 : ℚ) ^ second.exponent ≠ 0 := zpow_ne_zero _ (by norm_num)
  rw [Decimal.value, Decimal.value, exponent] at value
  have same := Nat.cast_injective (mul_right_cancel₀ scale value)
  cases first
  cases second
  simp_all

/-! ### Exact sums -/

def zero : Decimal := ⟨0, 0⟩

/-- The exact sum, with the smaller of the two exponents. -/
def plus (first second : Decimal) : Decimal :=
  let exponent := min first.exponent second.exponent
  ⟨first.scaled exponent + second.scaled exponent, exponent⟩

theorem value_plus (first second : Decimal) : (plus first second).value = first.value + second.value := by
  rw [value_scaled (Int.min_le_left first.exponent second.exponent),
    value_scaled (Int.min_le_right first.exponent second.exponent), plus, value, ← add_mul]
  push_cast
  rfl

def sum (costs : List Decimal) : Decimal := costs.foldl plus zero

theorem value_sum (costs : List Decimal) : (sum costs).value = (costs.map value).sum := by
  suffices every : ∀ start : Decimal, (costs.foldl plus start).value = start.value + (costs.map value).sum by
    rw [sum, every, show zero.value = 0 by simp [zero, value], zero_add]
  induction costs with
  | nil => simp
  | cons cost costs ih =>
    intro start
    rw [List.foldl_cons, ih, value_plus, List.map_cons, List.sum_cons, add_assoc]

/-- Decimals can be summed in any order. -/
theorem sum_perm {first second : List Decimal} (perm : first.Perm second) : sum first = sum second := by
  refine List.Perm.foldl_eq' perm (fun one _ other _ start => ?_) zero
  refine ext_value ?_ ?_
  · simp only [plus]
    omega
  · rw [value_plus, value_plus, value_plus, value_plus]
    exact add_right_comm _ _ _

/-! ### The context -/

def precision : Nat := 28
def largest : Int := 999999
def tiny : Int := -1000026

def digits (n : Nat) : Nat := (Nat.toDigits 10 n).length

/-- The nearest multiple of the unit, counted in units; the even one of two. -/
def halfEven (n unit : Nat) : Nat :=
  let quotient := n / unit
  if 2 * (n % unit) < unit ∨ (2 * (n % unit) = unit ∧ quotient % 2 = 0) then quotient else quotient + 1

def fits (d : Decimal) : Option Decimal :=
  if d.coefficient = 0 ∨ d.exponent + digits d.coefficient - 1 ≤ largest then some d else none

/-- The result of an operation; none when it is an overflow. -/
def finish (d : Decimal) : Option Decimal :=
  let drop := max (digits d.coefficient - precision : Int) (tiny - d.exponent)
  if drop ≤ 0 then d.fits
  else fits ⟨halfEven d.coefficient (10 ^ drop.toNat), d.exponent + drop⟩

/-- An integer times a decimal. -/
def times (n : Nat) (d : Decimal) : Option Decimal := finish ⟨n * d.coefficient, d.exponent⟩

theorem value_times (n : Nat) (d : Decimal) :
    (⟨n * d.coefficient, d.exponent⟩ : Decimal).value = n * d.value := by
  rw [value, value]
  push_cast
  exact mul_assoc _ _ _

/-- Few enough digits are kept as they are. -/
theorem times_exact {n : Nat} {d product : Decimal} (few : digits (n * d.coefficient) ≤ precision)
    (large : tiny ≤ d.exponent) (done : times n d = some product) : product.value = n * d.value := by
  have whole : max (digits (n * d.coefficient) - precision : Int) (tiny - d.exponent) ≤ 0 := by omega
  unfold times finish fits at done
  rw [if_pos whole] at done
  split at done
  · obtain rfl := Option.some.inj done
    exact value_times n d
  · cases done

end Decimal
