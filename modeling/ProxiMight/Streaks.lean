import Mathlib.Data.List.DropRight
import Mathlib.Tactic.Common

/-!
# Streaks

The streak of a value at the end of a history: how many of the last entries are that value, without a
gap.  A counter that goes up on the value and back to zero on anything else is the length of its streak.
-/

namespace Streaks

variable {α : Type*} [DecidableEq α]

/-- The length of the run of `a` that `hist` ends in. -/
def streak (a : α) (hist : List α) : ℕ := (hist.rtakeWhile fun x => decide (x = a)).length

/-- The last `n` entries of `hist` are there and are all `a`. -/
def LastAll (n : ℕ) (a : α) (hist : List α) : Prop := List.replicate n a <:+ hist

instance (n : ℕ) (a : α) (hist : List α) : Decidable (LastAll n a hist) :=
  inferInstanceAs (Decidable (_ <:+ _))

@[simp] theorem streak_nil (a : α) : streak a [] = 0 := rfl

@[simp] theorem streak_concat_self (a : α) (hist : List α) :
    streak a (hist ++ [a]) = streak a hist + 1 := by
  rw [streak, List.rtakeWhile_concat_pos _ _ _ (by simp), List.length_append]
  rfl

theorem streak_concat_of_ne {a b : α} (h : b ≠ a) (hist : List α) : streak a (hist ++ [b]) = 0 := by
  rw [streak, List.rtakeWhile_concat_neg _ _ _ (by simpa using h), List.length_nil]

/-- The streak is itself a run of the value. -/
theorem lastAll_streak (a : α) (hist : List α) : LastAll (streak a hist) a hist := by
  have hall : hist.rtakeWhile (fun x => decide (x = a)) = List.replicate (streak a hist) a := by
    rw [List.eq_replicate_iff]
    exact ⟨rfl, fun b hb => by simpa using List.mem_rtakeWhile_imp hb⟩
  rw [LastAll, ← hall]
  exact List.rtakeWhile_suffix _ _

/-- **Counting the streak tells whether the last `n` entries agree.** -/
theorem lastAll_iff_le_streak {n : ℕ} {a : α} {hist : List α} :
    LastAll n a hist ↔ n ≤ streak a hist := by
  constructor
  · rintro ⟨before, rfl⟩
    induction n with
    | zero => exact Nat.zero_le _
    | succ n ih =>
      rw [List.replicate_succ', ← List.append_assoc, streak_concat_self]
      exact Nat.succ_le_succ ih
  · intro h
    have hsuffix : List.replicate n a <:+ List.replicate (streak a hist) a := by
      rw [← Nat.sub_add_cancel h, List.replicate_add]
      exact List.suffix_append _ _
    exact hsuffix.trans (lastAll_streak a hist)

/-- A history that has just ended in something else has no such run. -/
theorem not_lastAll_concat {n : ℕ} {a b : α} (h : b ≠ a) (hn : 0 < n) (hist : List α) :
    ¬LastAll n a (hist ++ [b]) := by
  rw [lastAll_iff_le_streak, streak_concat_of_ne h]
  omega

end Streaks
