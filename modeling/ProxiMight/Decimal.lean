import ProxiMight.HttpConnect

/-!
# Numbers as `%u` prints them

A number is printed digit by digit, the last one behind those of its tenth.

* **`digitsVal_decimal`** — what is printed has the value it was printed from.
-/

namespace ProxiMight

open CString

/-- The character of a digit. -/
def digitByte (d : ℕ) : UInt8 := UInt8.ofNat (48 + d)

theorem digitByte_toNat {d : ℕ} (h : d < 10) : (digitByte d).toNat = 48 + d := by
  rw [digitByte, UInt8.toNat_ofNat']
  omega

theorem ofNat_digitChar {d : ℕ} (h : d < 10) : UInt8.ofNat d.digitChar.toNat = digitByte d := by
  have hall : ∀ k : Fin 10, UInt8.ofNat k.val.digitChar.toNat = digitByte k.val := by decide
  exact hall ⟨d, h⟩

theorem decimal_eq_map (n : ℕ) : decimal n = (Nat.toDigits 10 n).map fun c => UInt8.ofNat c.toNat := by
  show ((toString n).toList).map _ = _
  rw [show (toString n : String).toList = Nat.toDigits 10 n from Nat.toList_repr]

/-- The recursion of the digits. -/
theorem decimal_eq (n : ℕ) :
    decimal n = (if n < 10 then [] else decimal (n / 10)) ++ [digitByte (n % 10)] := by
  rw [decimal_eq_map n]
  split_ifs with h
  · rw [Nat.toDigits_of_lt_base h, Nat.mod_eq_of_lt h]
    simp [ofNat_digitChar h]
  · rw [Nat.toDigits_of_base_le (by omega) (by omega), decimal_eq_map, List.map_append]
    simp [ofNat_digitChar (Nat.mod_lt n (by omega : 0 < 10))]

/-- The induction rule of the digits. -/
theorem decimal_induct {P : ℕ → Prop} (hone : ∀ n < 10, P n) (hmore : ∀ n, 10 ≤ n → P (n / 10) → P n)
    (n : ℕ) : P n := by
  induction n using Nat.strong_induction_on with
  | _ n ih =>
    by_cases h : n < 10
    · exact hone n h
    · exact hmore n (by omega) (ih (n / 10) (by omega))

theorem decimal_of_lt {n : ℕ} (h : n < 10) : decimal n = [digitByte n] := by
  rw [decimal_eq, if_pos h, Nat.mod_eq_of_lt h]
  rfl

theorem decimal_of_le {n : ℕ} (h : 10 ≤ n) : decimal n = decimal (n / 10) ++ [digitByte (n % 10)] := by
  rw [decimal_eq, if_neg (by omega)]

theorem decimal_ne_nil (n : ℕ) : decimal n ≠ [] := by
  rw [decimal_eq]
  simp

theorem isDigit_digitByte {d : ℕ} (h : d < 10) : isDigit (digitByte d) = true := by
  have hall : ∀ k : Fin 10, isDigit (digitByte k.val) = true := by decide
  exact hall ⟨d, h⟩

theorem isDigit_of_mem_decimal (n : ℕ) : ∀ c ∈ decimal n, isDigit c = true := by
  induction n using decimal_induct with
  | hone n h =>
    intro c hc
    rw [decimal_of_lt h, List.mem_singleton] at hc
    rw [hc]
    exact isDigit_digitByte h
  | hmore n h ih =>
    intro c hc
    rw [decimal_of_le h, List.mem_append, List.mem_singleton] at hc
    rcases hc with hc | rfl
    · exact ih c hc
    · exact isDigit_digitByte (Nat.mod_lt n (by omega))

theorem digitsVal_concat (ds : List UInt8) (c : UInt8) :
    digitsVal (ds ++ [c]) = 10 * digitsVal ds + (c.toNat - 48) := by
  simp [digitsVal, List.foldl_append]

/-- **What is printed has the value it was printed from.** -/
theorem digitsVal_decimal (n : ℕ) : digitsVal (decimal n) = n := by
  induction n using decimal_induct with
  | hone n h =>
    rw [decimal_of_lt h]
    simp [digitsVal, digitByte_toNat h]
  | hmore n h ih =>
    rw [decimal_of_le h, digitsVal_concat, ih, digitByte_toNat (Nat.mod_lt n (by omega))]
    omega

theorem decimal_inj {m n : ℕ} (h : decimal m = decimal n) : m = n := by
  rw [← digitsVal_decimal m, h, digitsVal_decimal]

/-- A number below `10 ^ k` has at most `k` digits. -/
theorem length_decimal_le {n k : ℕ} (hk : 0 < k) (h : n < 10 ^ k) : (decimal n).length ≤ k := by
  rw [decimal_eq_map, List.length_map]
  exact (Nat.length_toDigits_le_iff (by omega) hk).2 h

end ProxiMight
