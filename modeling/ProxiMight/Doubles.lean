import Mathlib.Algebra.Order.Field.Rat
import Mathlib.Data.Int.Log
import Mathlib.Data.Rat.Floor
import Mathlib.Tactic.Positivity
import Mathlib.Tactic.FieldSimp
import Mathlib.Tactic.Linarith

/-!
# Double arithmetic on exact values

A `double` is the rational it stands for.  The result of an operation is the exact one rounded to 53
significant bits, to nearest with ties to even.  Only values that are not negative, and neither overflow nor
underflow, are meant.

* **`roundDouble_mono`** — rounding keeps the order.
* **`sumDouble_eq`** — sums below `2 ^ 53` are exact.
-/

namespace Doubles

/-- The nearest integer; of two the even one. -/
def nearest (x : ℚ) : ℤ :=
  if x - ⌊x⌋ < 1 / 2 then ⌊x⌋ else if 1 / 2 < x - ⌊x⌋ then ⌊x⌋ + 1
  else if ⌊x⌋ % 2 = 0 then ⌊x⌋ else ⌊x⌋ + 1

/-- How far apart the doubles around `x` are. -/
def spacing (x : ℚ) : ℚ := 2 ^ (Int.log 2 x - 52)

/-- The double an exact result is rounded to. -/
def roundDouble (x : ℚ) : ℚ := nearest (x / spacing x) * spacing x

/-- `sum += (double)n` over the numbers. -/
def sumDouble (ns : List ℕ) : ℚ := ns.foldl (fun (s : ℚ) (n : ℕ) => roundDouble (s + n)) 0

theorem nearest_intCast (n : ℤ) : nearest n = n := by
  rw [nearest, Int.floor_intCast, sub_self, if_pos (by norm_num)]

theorem floor_le_nearest (x : ℚ) : ⌊x⌋ ≤ nearest x := by
  rw [nearest]
  split_ifs <;> omega

theorem nearest_le_succ_floor (x : ℚ) : nearest x ≤ ⌊x⌋ + 1 := by
  rw [nearest]
  split_ifs <;> omega

theorem nearest_mono {x y : ℚ} (h : x ≤ y) : nearest x ≤ nearest y := by
  rcases (Int.floor_mono h).lt_or_eq with hlt | heq
  · calc nearest x ≤ ⌊x⌋ + 1 := nearest_le_succ_floor x
      _ ≤ ⌊y⌋ := hlt
      _ ≤ nearest y := floor_le_nearest y
  · rw [nearest, nearest, heq]
    split_ifs <;> first | omega | linarith

theorem spacing_pos (x : ℚ) : 0 < spacing x := by
  rw [spacing]
  exact zpow_pos (by norm_num) _

/-- Multiples of the spacing are kept. -/
theorem roundDouble_of_multiple {x : ℚ} {n : ℤ} (h : x = n * spacing x) : roundDouble x = x := by
  have hdiv : x / spacing x = n := by
    rw [div_eq_iff (spacing_pos x).ne']
    exact h
  rw [roundDouble, hdiv, nearest_intCast]
  exact h.symm

theorem roundDouble_natCast {n : ℕ} (h : n < 2 ^ 53) : roundDouble n = n := by
  obtain rfl | hpos := Nat.eq_zero_or_pos n
  · exact roundDouble_of_multiple (n := 0) (by norm_num)
  · have hlog : Nat.log 2 n ≤ 52 := Nat.lt_succ_iff.1 (Nat.log_lt_of_lt_pow hpos.ne' h)
    apply roundDouble_of_multiple (n := n * 2 ^ (52 - Nat.log 2 n))
    have hexp : (Nat.log 2 n : ℤ) - 52 = -((52 - Nat.log 2 n : ℕ) : ℤ) := by omega
    rw [spacing, Int.log_natCast, hexp, zpow_neg, zpow_natCast]
    push_cast
    field_simp

/-- A power of two at most `x` stays below its double. -/
theorem zpow_log_le_roundDouble {x : ℚ} (hx : 0 < x) : (2 : ℚ) ^ Int.log 2 x ≤ roundDouble x := by
  have hsplit : (2 : ℚ) ^ Int.log 2 x = ((2 ^ 52 : ℤ) : ℚ) * spacing x := by
    rw [spacing, zpow_sub₀ (by norm_num)]
    push_cast
    field_simp
  rw [hsplit, roundDouble]
  apply mul_le_mul_of_nonneg_right _ (spacing_pos x).le
  rw [Int.cast_le, ← nearest_intCast (2 ^ 52)]
  apply nearest_mono
  rw [le_div_iff₀ (spacing_pos x), ← hsplit]
  exact_mod_cast Int.zpow_log_le_self one_lt_two hx

theorem roundDouble_le_zpow_log {x : ℚ} : roundDouble x ≤ (2 : ℚ) ^ (Int.log 2 x + 1) := by
  have hsplit : (2 : ℚ) ^ (Int.log 2 x + 1) = ((2 ^ 53 : ℤ) : ℚ) * spacing x := by
    rw [spacing, zpow_sub₀ (by norm_num), zpow_add₀ (by norm_num)]
    push_cast
    field_simp
    norm_num
  rw [hsplit, roundDouble]
  apply mul_le_mul_of_nonneg_right _ (spacing_pos x).le
  rw [Int.cast_le, ← nearest_intCast (2 ^ 53)]
  apply nearest_mono
  rw [div_le_iff₀ (spacing_pos x), ← hsplit]
  exact_mod_cast (Int.lt_zpow_succ_log_self one_lt_two x).le

theorem roundDouble_zero : roundDouble 0 = 0 := by
  simpa using roundDouble_natCast (n := 0) (by norm_num)

theorem roundDouble_mono {x y : ℚ} (hx : 0 ≤ x) (h : x ≤ y) : roundDouble x ≤ roundDouble y := by
  obtain rfl | hpos := hx.eq_or_lt
  · obtain rfl | hy := h.eq_or_lt
    · exact le_rfl
    · rw [roundDouble_zero]
      exact (zpow_pos (by norm_num) _).le.trans (zpow_log_le_roundDouble hy)
  · rcases (Int.log_mono_right (b := 2) hpos h).lt_or_eq with hlt | heq
    · -- a power of two lies between them
      calc roundDouble x ≤ (2 : ℚ) ^ (Int.log 2 x + 1) := roundDouble_le_zpow_log
        _ ≤ (2 : ℚ) ^ Int.log 2 y := zpow_le_zpow_right₀ one_le_two hlt
        _ ≤ roundDouble y := zpow_log_le_roundDouble (hpos.trans_le h)
    · have hspacing : spacing x = spacing y := by rw [spacing, heq, spacing]
      rw [roundDouble, roundDouble, hspacing]
      apply mul_le_mul_of_nonneg_right _ (spacing_pos y).le
      exact_mod_cast nearest_mono (div_le_div_of_nonneg_right h (spacing_pos y).le)

theorem le_roundDouble {n : ℕ} {x : ℚ} (hn : n < 2 ^ 53) (h : (n : ℚ) ≤ x) : (n : ℚ) ≤ roundDouble x := by
  rw [← roundDouble_natCast hn]
  exact roundDouble_mono (Nat.cast_nonneg n) h

theorem roundDouble_le {n : ℕ} {x : ℚ} (hn : n < 2 ^ 53) (hx : 0 ≤ x) (h : x ≤ n) : roundDouble x ≤ n := by
  rw [← roundDouble_natCast hn]
  exact roundDouble_mono hx h

theorem sumDouble_append (ns : List ℕ) (n : ℕ) :
    sumDouble (ns ++ [n]) = roundDouble (sumDouble ns + n) := by
  rw [sumDouble, List.foldl_append]
  rfl

theorem sumDouble_eq (ns : List ℕ) (h : ns.sum < 2 ^ 53) : sumDouble ns = ns.sum := by
  induction ns using List.reverseRecOn with
  | nil => rfl
  | append_singleton ns n ih =>
    rw [List.sum_append, List.sum_singleton] at h ⊢
    rw [sumDouble_append, ih (by omega), ← Nat.cast_add]
    exact roundDouble_natCast h

end Doubles
