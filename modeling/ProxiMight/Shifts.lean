import Mathlib.Data.List.InsertIdx
import Mathlib.Data.List.Perm.Basic
import Mathlib.Tactic.Common

/-!
# Moving elements along an array

An element is taken out of an array, or moved to another place, by copying the elements on its way into
the neighbouring slot, one after the other.  The loops are those of a program that works in place; what
they compute is said by `List.eraseIdx` and `List.insertIdx`.

* **`moveSlot_eq`**, **`removeSlot_eq`** — what the loops compute.
* **`find?_moveSlot`**, **`find?_eraseIdx`**, **`find?_set`** — a search does not see what becomes of an
  element that it passes over.
-/

namespace Shifts

variable {α : Type}

/-- `a[dst] = a[src];` -/
def copySlot (a : List α) (dst src : ℕ) : List α := (a[src]?).elim a (a.set dst)

/-- `a[i] = a[i + 1];` for `n` slots, upwards from `i`. -/
def shiftDown : List α → ℕ → ℕ → List α
  | a, _, 0 => a
  | a, i, n + 1 => shiftDown (copySlot a i (i + 1)) (i + 1) n

/-- `a[i] = a[i - 1];` for `n` slots, downwards from `i`. -/
def shiftUp : List α → ℕ → ℕ → List α
  | a, _, 0 => a
  | a, i, n + 1 => shiftUp (copySlot a i (i - 1)) (i - 1) n

/-- The element `moved`, which is in the slot `src`, is put into the slot `dst`. -/
def moveSlot (a : List α) (src dst : ℕ) (moved : α) : List α :=
  (if src < dst then shiftDown a src (dst - src) else shiftUp a src (src - dst)).set dst moved

/-- The element of a slot is taken out, and the last slot is given up. -/
def removeSlot (a : List α) (i : ℕ) : List α := (shiftDown a i (a.length - 1 - i)).take (a.length - 1)

/-! ### The loops -/

theorem length_copySlot (a : List α) (dst src : ℕ) : (copySlot a dst src).length = a.length := by
  rw [copySlot]
  cases a[src]? with
  | none => rfl
  | some x => exact List.length_set

theorem getElem?_copySlot {a : List α} {dst src : ℕ} (hdst : dst < a.length) (hsrc : src < a.length)
    (k : ℕ) : (copySlot a dst src)[k]? = if k = dst then a[src]? else a[k]? := by
  rw [copySlot, List.getElem?_eq_getElem hsrc, Option.elim_some, List.getElem?_set]
  by_cases hk : dst = k
  · rw [if_pos hk, if_pos hk.symm, if_pos (hk ▸ hdst)]
  · rw [if_neg hk, if_neg (Ne.symm hk)]

theorem length_shiftDown (n : ℕ) : ∀ (a : List α) (i : ℕ), (shiftDown a i n).length = a.length := by
  induction n with
  | zero => intro a i; rfl
  | succ n ih => intro a i; rw [shiftDown, ih, length_copySlot]

theorem length_shiftUp (n : ℕ) : ∀ (a : List α) (i : ℕ), (shiftUp a i n).length = a.length := by
  induction n with
  | zero => intro a i; rfl
  | succ n ih => intro a i; rw [shiftUp, ih, length_copySlot]

theorem getElem?_shiftDown (n : ℕ) : ∀ {a : List α} {i : ℕ}, i + n < a.length → ∀ k,
    (shiftDown a i n)[k]? = if i ≤ k ∧ k < i + n then a[k + 1]? else a[k]? := by
  induction n with
  | zero =>
    intro a i _ k
    rw [shiftDown, if_neg (by omega)]
  | succ n ih =>
    intro a i h k
    rw [shiftDown, ih (by rw [length_copySlot]; omega), getElem?_copySlot (by omega) (by omega),
      getElem?_copySlot (by omega) (by omega)]
    rcases Nat.lt_trichotomy k i with hk | rfl | hk
    · rw [if_neg (by omega), if_neg (by omega), if_neg (by omega)]
    · rw [if_neg (by omega), if_pos rfl, if_pos (by omega)]
    · -- the slot read is above the one that this round has written
      rw [if_neg (show ¬k + 1 = i by omega), if_neg (show ¬k = i by omega)]
      exact if_congr (by omega) rfl rfl

theorem getElem?_shiftUp (n : ℕ) : ∀ {a : List α} {i : ℕ}, i < a.length → n ≤ i → ∀ k,
    (shiftUp a i n)[k]? = if i < k + n ∧ k ≤ i then a[k - 1]? else a[k]? := by
  induction n with
  | zero =>
    intro a i _ _ k
    rw [shiftUp, if_neg (by omega)]
  | succ n ih =>
    intro a i h hn k
    rw [shiftUp, ih (by rw [length_copySlot]; omega) (by omega), getElem?_copySlot (by omega) (by omega),
      getElem?_copySlot (by omega) (by omega)]
    rcases Nat.lt_trichotomy k i with hk | rfl | hk
    · rw [if_neg (show ¬k - 1 = i by omega), if_neg (show ¬k = i by omega)]
      exact if_congr (by omega) rfl rfl
    · rw [if_neg (by omega), if_pos rfl, if_pos (by omega)]
    · rw [if_neg (by omega), if_neg (by omega), if_neg (by omega)]

/-- The slots other than `dst`, seen from the array without the element. -/
theorem getElem?_shifted {a : List α} {src dst : ℕ} (hsrc : src < a.length) (hdst : dst < a.length)
    (k : ℕ) (hk : k ≠ dst) :
    (if src < dst then shiftDown a src (dst - src) else shiftUp a src (src - dst))[k]?
      = if k < dst then (a.eraseIdx src)[k]? else (a.eraseIdx src)[k - 1]? := by
  rw [List.getElem?_eraseIdx, List.getElem?_eraseIdx]
  rcases Nat.lt_or_ge src dst with hlt | hge
  · rw [if_pos hlt, getElem?_shiftDown (dst - src) (by omega) k]
    rcases Nat.lt_or_gt_of_ne hk with hk | hk
    · rw [if_pos hk]
      by_cases hks : k < src
      · rw [if_neg (by omega), if_pos hks]
      · rw [if_pos (by omega), if_neg hks]
    · rw [if_neg (by omega), if_neg (by omega), if_neg (by omega), show k - 1 + 1 = k by omega]
  · rw [if_neg (by omega), getElem?_shiftUp (src - dst) hsrc (by omega) k]
    rcases Nat.lt_or_gt_of_ne hk with hk | hk
    · rw [if_neg (by omega), if_pos hk, if_pos (by omega)]
    · rw [if_neg (show ¬k < dst by omega)]
      by_cases hks : k ≤ src
      · rw [if_pos (by omega), if_pos (by omega)]
      · rw [if_neg (by omega), if_neg (by omega), show k - 1 + 1 = k by omega]

theorem length_moveSlot (a : List α) (src dst : ℕ) (moved : α) :
    (moveSlot a src dst moved).length = a.length := by
  rw [moveSlot, List.length_set]
  split_ifs
  · exact length_shiftDown _ _ _
  · exact length_shiftUp _ _ _

theorem length_removeSlot_le (a : List α) (i : ℕ) : (removeSlot a i).length ≤ a.length := by
  have hle := List.length_take_le' (a.length - 1) (shiftDown a i (a.length - 1 - i))
  rwa [length_shiftDown] at hle

/-- **Moving an element in place.** -/
theorem moveSlot_eq {a : List α} {src dst : ℕ} {moved : α} (hsrc : a[src]? = some moved)
    (hdst : dst < a.length) : moveSlot a src dst moved = (a.eraseIdx src).insertIdx dst moved := by
  have hlt : src < a.length := (List.getElem?_eq_some_iff.1 hsrc).1
  have hlen : (a.eraseIdx src).length = a.length - 1 := List.length_eraseIdx_of_lt hlt
  have hlen' : (if src < dst then shiftDown a src (dst - src) else shiftUp a src (src - dst)).length
      = a.length := by
    split_ifs
    · exact length_shiftDown _ _ _
    · exact length_shiftUp _ _ _
  apply List.ext_getElem?
  intro k
  rw [moveSlot, List.getElem?_insertIdx, List.getElem?_set]
  by_cases hk : k = dst
  · rw [if_pos hk.symm, if_pos (by rw [hlen']; exact hdst), if_neg (by omega), if_pos hk,
      if_pos (by omega)]
  · rw [if_neg (Ne.symm hk), getElem?_shifted hlt hdst k hk, if_neg hk]

/-- **Taking an element out in place.** -/
theorem removeSlot_eq {a : List α} {i : ℕ} (hi : i < a.length) : removeSlot a i = a.eraseIdx i := by
  apply List.ext_getElem?
  intro k
  rw [removeSlot, List.getElem?_take, List.getElem?_eraseIdx,
    getElem?_shiftDown (a.length - 1 - i) (by omega) k]
  by_cases hk : k < a.length - 1
  · rw [if_pos hk]
    by_cases hki : k < i
    · rw [if_neg (by omega), if_pos hki]
    · rw [if_pos (by omega), if_neg hki]
  · rw [if_neg hk, if_neg (by omega), List.getElem?_eq_none (by omega)]

/-! ### What has become of the elements -/

theorem perm_moveSlot {a : List α} {src dst : ℕ} {moved : α} (hsrc : a[src]? = some moved)
    (hdst : dst < a.length) : (moveSlot a src dst moved).Perm a := by
  obtain ⟨hlt, rfl⟩ := List.getElem?_eq_some_iff.1 hsrc
  have hlen : (a.eraseIdx src).length = a.length - 1 := List.length_eraseIdx_of_lt hlt
  rw [moveSlot_eq hsrc hdst]
  exact (List.perm_insertIdx _ _ (by omega)).trans (List.getElem_cons_eraseIdx_perm hlt)

/-- The others stand as they stood. -/
theorem eraseIdx_moveSlot {a : List α} {src dst : ℕ} {moved : α} (hsrc : a[src]? = some moved)
    (hdst : dst < a.length) : (moveSlot a src dst moved).eraseIdx dst = a.eraseIdx src := by
  rw [moveSlot_eq hsrc hdst, List.eraseIdx_insertIdx_self]

theorem getElem?_moveSlot {a : List α} {src dst : ℕ} {moved : α} (hsrc : a[src]? = some moved)
    (hdst : dst < a.length) : (moveSlot a src dst moved)[dst]? = some moved := by
  have hlt : src < a.length := (List.getElem?_eq_some_iff.1 hsrc).1
  have hlen : (a.eraseIdx src).length = a.length - 1 := List.length_eraseIdx_of_lt hlt
  rw [moveSlot_eq hsrc hdst, List.getElem?_insertIdx_self, if_pos (by omega)]

/-! ### Searches that pass the element over -/

section Search

variable {p : α → Bool} {x : α}

theorem find?_eraseIdx (hx : p x = false) : ∀ {a : List α} {i : ℕ}, a[i]? = some x →
    (a.eraseIdx i).find? p = a.find? p := by
  intro a
  induction a with
  | nil => intro i _; rfl
  | cons y a ih =>
    intro i hi
    cases i with
    | zero =>
      obtain rfl : y = x := by simpa using hi
      rw [List.eraseIdx_cons_zero, List.find?_cons_of_neg (by rw [hx]; exact Bool.false_ne_true)]
    | succ i =>
      rw [List.eraseIdx_cons_succ, List.find?_cons, List.find?_cons, ih (by simpa using hi)]

theorem find?_moveSlot (hx : p x = false) {a : List α} {src dst : ℕ} (hsrc : a[src]? = some x)
    (hdst : dst < a.length) : (moveSlot a src dst x).find? p = a.find? p := by
  rw [← find?_eraseIdx hx (getElem?_moveSlot hsrc hdst), eraseIdx_moveSlot hsrc hdst,
    find?_eraseIdx hx hsrc]

/-- An element overwritten by one that is passed over as well. -/
theorem find?_set {y : α} (hx : p x = false) (hy : p y = false) {a : List α} {i : ℕ}
    (hi : a[i]? = some x) : (a.set i y).find? p = a.find? p := by
  have hlt : i < a.length := (List.getElem?_eq_some_iff.1 hi).1
  have hset : (a.set i y)[i]? = some y := by rw [List.getElem?_set_self hlt]
  rw [← find?_eraseIdx hy hset, List.eraseIdx_set_eq, find?_eraseIdx hx hi]

end Search

end Shifts
