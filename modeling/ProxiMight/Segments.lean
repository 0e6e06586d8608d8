import Mathlib.Data.List.Induction
import Mathlib.Tactic.Common

/-!
# Streams cut into segments

What arrives on a stream is cut into segments; a receive takes the next one, or as much of it as there
is room for.

* **`receive_flatten`** — a receive moves the front of the stream and loses nothing.
* **`exists_reach`**, **`Reach.unique`** — however a stream is cut, one segment is the first to reach a
  given length.
-/

namespace Segments

variable {α : Type*}

/-- One receive with room for `cap`: what it takes, and the segments left. -/
def receive (cap : ℕ) : List (List α) → List α × List (List α)
  | [] => ([], [])
  | seg :: rest => (seg.take cap, if seg.length ≤ cap then rest else seg.drop cap :: rest)

theorem receive_flatten (cap : ℕ) (segs : List (List α)) :
    (receive cap segs).1 ++ (receive cap segs).2.flatten = segs.flatten := by
  cases segs with
  | nil => rfl
  | cons seg rest =>
    rw [receive]
    by_cases h : seg.length ≤ cap
    · rw [if_pos h, List.take_of_length_le h, List.flatten_cons]
    · rw [if_neg h, List.flatten_cons, List.flatten_cons, ← List.append_assoc, List.take_append_drop]

theorem receive_of_le {cap : ℕ} {seg : List α} (h : seg.length ≤ cap) (rest : List (List α)) :
    receive cap (seg :: rest) = (seg, rest) := by
  rw [receive, if_pos h, List.take_of_length_le h]

/-- What can be received before the stream is closed: an empty segment is its end. -/
def untilClosed : List (List α) → List α
  | [] => []
  | seg :: rest => if seg.isEmpty then [] else seg ++ untilClosed rest

@[simp] theorem untilClosed_nil : untilClosed ([] : List (List α)) = [] := rfl

@[simp] theorem untilClosed_closed (rest : List (List α)) : untilClosed ([] :: rest) = [] := rfl

theorem untilClosed_cons {seg : List α} (h : seg ≠ []) (rest : List (List α)) :
    untilClosed (seg :: rest) = seg ++ untilClosed rest := by
  rw [untilClosed, if_neg (by rwa [List.isEmpty_iff])]

/-- The same up to the end of the stream. -/
theorem receive_untilClosed (cap : ℕ) {seg : List α} (h : seg ≠ []) (rest : List (List α)) :
    (receive cap (seg :: rest)).1 ++ untilClosed (receive cap (seg :: rest)).2
      = untilClosed (seg :: rest) := by
  rw [receive, untilClosed_cons h]
  by_cases hfit : seg.length ≤ cap
  · rw [if_pos hfit, List.take_of_length_le hfit]
  · have hleft : seg.drop cap ≠ [] := by
      rw [ne_eq, List.drop_eq_nil_iff]
      exact hfit
    rw [if_neg hfit, untilClosed_cons hleft, ← List.append_assoc, List.take_append_drop]

/-- The first segment to bring the stream to `need` elements: those before it, itself, those after. -/
structure Reach (need : ℕ) (segs pre : List (List α)) (last : List α) (post : List (List α)) : Prop where
  split : segs = pre ++ last :: post
  before : pre.flatten.length < need
  reached : need ≤ (pre ++ [last]).flatten.length

theorem exists_reach {need : ℕ} (hneed : 0 < need) :
    ∀ segs : List (List α), need ≤ segs.flatten.length → ∃ pre last post, Reach need segs pre last post := by
  intro segs
  induction segs using List.reverseRecOn with
  | nil =>
    intro h
    rw [List.flatten_nil, List.length_nil] at h
    omega
  | append_singleton segs seg ih =>
    intro h
    by_cases hbefore : segs.flatten.length < need
    · exact ⟨segs, seg, [], rfl, hbefore, h⟩
    · obtain ⟨pre, last, post, hsplit, hlt, hle⟩ := ih (by omega)
      refine ⟨pre, last, post ++ [seg], ?_, hlt, hle⟩
      rw [hsplit, List.append_assoc, List.cons_append]

theorem Reach.length_le {need : ℕ} {segs pre pre' post post' : List (List α)} {last last' : List α}
    (h : Reach need segs pre last post) (h' : Reach need segs pre' last' post') :
    pre'.length ≤ pre.length := by
  by_contra hlt
  have hpre : pre ++ [last] <+: segs := ⟨post, by rw [h.split, List.append_assoc]; rfl⟩
  have hpre' : pre' <+: segs := ⟨last' :: post', h'.split.symm⟩
  have hle : (pre ++ [last]).length ≤ pre'.length := by
    rw [List.length_append, List.length_singleton]
    omega
  obtain ⟨rest, hrest⟩ := List.prefix_of_prefix_length_le hpre hpre' hle
  have hflat : (pre ++ [last]).flatten.length ≤ pre'.flatten.length := by
    simp only [← hrest, List.flatten_append, List.length_append]
    omega
  have hreached := h.reached
  have hbefore := h'.before
  omega

/-- There is only one such segment. -/
theorem Reach.unique {need : ℕ} {segs pre pre' post post' : List (List α)} {last last' : List α}
    (h : Reach need segs pre last post) (h' : Reach need segs pre' last' post') :
    pre' = pre ∧ last' = last ∧ post' = post := by
  have hlen : pre'.length = pre.length := Nat.le_antisymm (h.length_le h') (h'.length_le h)
  obtain ⟨hpre, htail⟩ := List.append_inj (h'.split.symm.trans h.split) hlen
  exact ⟨hpre, List.cons.inj htail⟩

end Segments
