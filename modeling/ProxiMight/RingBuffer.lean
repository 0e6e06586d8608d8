import Mathlib.Data.List.DropRight
import Mathlib.Data.Nat.ModEq
import Mathlib.Tactic.Common

/-!
# Rings that keep the latest entries

A ring is `N` slots, the slot `head` of the oldest entry and the number `len` of entries.  An entry is put
behind the others while there is room, and over the oldest one after that.  `Shows` says that a ring holds
the latest `N` entries of a log.

* **`Shows.room`**, **`Shows.full`** — each way of adding an entry adds it to the log.
* **`Shows.recent`** — the latest entries are read from the slots before the next free one.
-/

namespace RingBuffer

variable {α : Type*}

/-- The slot that is `i` behind `head`. -/
def place (N head i : ℕ) : ℕ := (head + i) % N

theorem place_zero {N head : ℕ} (h : head < N) : place N head 0 = head := Nat.mod_eq_of_lt h

theorem place_wrap {N head : ℕ} (h : head < N) : place N head N = head := by
  rw [place, Nat.add_mod_right, Nat.mod_eq_of_lt h]

theorem place_succ (N head i : ℕ) : place N ((head + 1) % N) i = place N head (i + 1) := by
  rw [place, place, Nat.mod_add_mod]
  congr 1
  omega

/-- Different entries stand in different slots. -/
theorem place_inj {N head i j : ℕ} (hi : i < N) (hj : j < N) (h : place N head i = place N head j) :
    i = j := by
  have hmod : i ≡ j [MOD N] := Nat.ModEq.add_left_cancel' head h
  have heq : i % N = j % N := hmod
  rwa [Nat.mod_eq_of_lt hi, Nat.mod_eq_of_lt hj] at heq

/-- The entries of a ring, oldest first. -/
structure Keeps (N : ℕ) (read : ℕ → Option α) (head len : ℕ) (kept : List α) : Prop where
  head_lt : head < N
  len_le : len ≤ N
  length : kept.length = len
  read : ∀ i < len, read (place N head i) = kept[i]?

namespace Keeps

variable {N head len : ℕ} {read read' : ℕ → Option α} {kept : List α} {v : α}

/-- An entry behind the others. -/
theorem room (h : Keeps N read head len kept) (hroom : len < N)
    (hnew : read' (place N head len) = some v)
    (hold : ∀ j, j ≠ place N head len → read' j = read j) :
    Keeps N read' head (len + 1) (kept ++ [v]) := by
  refine ⟨h.head_lt, hroom, by rw [List.length_append, h.length]; rfl, fun i hi => ?_⟩
  by_cases hlast : i = len
  · rw [hlast, hnew, ← h.length, List.getElem?_concat_length]
  · have hlt : i < len := by omega
    rw [hold _ fun heq => hlast (place_inj (by omega) hroom heq), h.read i hlt,
      List.getElem?_append_left (by rw [h.length]; exact hlt)]

/-- An entry over the oldest one. -/
theorem full (h : Keeps N read head len kept) (hfull : len = N) (hnew : read' head = some v)
    (hold : ∀ j, j ≠ head → read' j = read j) :
    Keeps N read' ((head + 1) % N) len (kept.drop 1 ++ [v]) := by
  have hpos : 0 < N := Nat.lt_of_le_of_lt (Nat.zero_le head) h.head_lt
  have hdrop : (kept.drop 1).length = len - 1 := by rw [List.length_drop, h.length]
  refine ⟨Nat.mod_lt _ hpos, h.len_le, ?_, fun i hi => ?_⟩
  · rw [List.length_append, hdrop, List.length_singleton]
    omega
  · rw [place_succ]
    by_cases hlast : i + 1 = len
    · rw [hlast, hfull, place_wrap h.head_lt, hnew, show i = (kept.drop 1).length by omega,
        List.getElem?_concat_length]
    · have hlt : i + 1 < len := by omega
      have hne : place N head (i + 1) ≠ head := by
        intro heq
        have hzero := place_inj (by omega) hpos (heq.trans (place_zero h.head_lt).symm)
        omega
      rw [hold _ hne, h.read (i + 1) hlt, List.getElem?_append_left (by omega), List.getElem?_drop,
        Nat.add_comm]

end Keeps

/-- The ring holds the latest entries of a log. -/
def Shows (N : ℕ) (read : ℕ → Option α) (head len : ℕ) (log : List α) : Prop :=
  Keeps N read head len (log.rtake N)

theorem rtake_concat_room {N : ℕ} {log : List α} (h : log.length < N) (v : α) :
    (log ++ [v]).rtake N = log.rtake N ++ [v] := by
  rw [List.rtake, List.rtake, List.length_append, List.length_singleton, Nat.sub_eq_zero_of_le h,
    Nat.sub_eq_zero_of_le (Nat.le_of_lt h)]
  rfl

theorem rtake_concat_full {N : ℕ} {log : List α} (hpos : 0 < N) (h : N ≤ log.length) (v : α) :
    (log ++ [v]).rtake N = (log.rtake N).drop 1 ++ [v] := by
  rw [List.rtake, List.rtake, List.length_append, List.length_singleton, List.drop_drop,
    List.drop_append_of_le_length (by omega)]
  congr 2
  omega

theorem length_rtake (N : ℕ) (log : List α) : (log.rtake N).length = min N log.length := by
  rw [List.rtake, List.length_drop]
  omega

namespace Shows

variable {N head len : ℕ} {read read' : ℕ → Option α} {log : List α} {v : α}

theorem empty (hpos : 0 < N) (read : ℕ → Option α) : Shows N read 0 0 [] :=
  ⟨hpos, Nat.zero_le N, by rw [List.rtake_nil]; rfl, fun _ hi => absurd hi (Nat.not_lt_zero _)⟩

theorem len_eq (h : Shows N read head len log) : len = min N log.length := by
  rw [← length_rtake]
  exact h.length.symm

theorem room (h : Shows N read head len log) (hroom : len < N) (hnew : read' (place N head len) = some v)
    (hold : ∀ j, j ≠ place N head len → read' j = read j) :
    Shows N read' head (len + 1) (log ++ [v]) := by
  have hlen := h.len_eq
  rw [Shows, rtake_concat_room (by omega)]
  exact Keeps.room h hroom hnew hold

theorem full (h : Shows N read head len log) (hfull : len = N) (hnew : read' head = some v)
    (hold : ∀ j, j ≠ head → read' j = read j) : Shows N read' ((head + 1) % N) len (log ++ [v]) := by
  have hlen := h.len_eq
  have hpos : 0 < N := Nat.lt_of_le_of_lt (Nat.zero_le head) h.head_lt
  rw [Shows, rtake_concat_full hpos (by omega)]
  exact Keeps.full h hfull hnew hold

/-- **The latest `n` entries** stand in the last `n` of the slots in use. -/
theorem recent (h : Shows N read head len log) {n : ℕ} (hn : n ≤ len) :
    ∀ i < n, read (place N head (len - n + i)) = (log.rtake n)[i]? := by
  intro i hi
  have hlen := h.len_eq
  rw [h.read _ (by omega), List.rtake, List.rtake, List.getElem?_drop, List.getElem?_drop]
  congr 1
  omega

end Shows

end RingBuffer
