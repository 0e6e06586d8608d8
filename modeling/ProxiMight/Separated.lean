import Mathlib.Data.List.DropRight
import Mathlib.Data.List.TakeWhile
import Mathlib.Tactic.Common

/-!
# Lists with a separator

A list is its first piece, which has no separator in it, and possibly a separator and another such list.
`piece_induction` is the induction over the pieces that `List.splitOn` returns; the other lemmas are about
a scan up to the next separator.
-/

namespace Separated

variable {α : Type*} [DecidableEq α] {sep : α} {piece : List α}

theorem bne_of_notMem (h : sep ∉ piece) : ∀ c ∈ piece, (c != sep) = true := by
  intro c hc
  rw [bne_iff_ne]
  rintro rfl
  exact h hc

theorem takeWhile_piece_append (h : sep ∉ piece) (rest : List α) :
    (piece ++ sep :: rest).takeWhile (· != sep) = piece := by
  rw [List.takeWhile_append_of_pos (bne_of_notMem h), List.takeWhile_cons_of_neg, List.append_nil]
  rw [bne_self_eq_false]
  exact Bool.false_ne_true

theorem dropWhile_piece_append (h : sep ∉ piece) (rest : List α) :
    (piece ++ sep :: rest).dropWhile (· != sep) = sep :: rest := by
  rw [List.dropWhile_append_of_pos (bne_of_notMem h), List.dropWhile_cons_of_neg]
  rw [bne_self_eq_false]
  exact Bool.false_ne_true

omit [DecidableEq α] in
/-- A front without a separator lies in the first piece. -/
theorem prefix_piece {run x y : List α} (hrun : sep ∉ run) (h : run <+: x ++ sep :: y) : run <+: x := by
  have hpiece : x ++ [sep] <+: x ++ sep :: y := ⟨y, by rw [List.append_assoc]; rfl⟩
  rcases List.prefix_or_prefix_of_prefix h hpiece with hle | hge
  · rcases List.prefix_concat_iff.1 hle with rfl | hx
    · exact absurd (List.mem_append_right x List.mem_cons_self) hrun
    · exact hx
  · exact absurd (hge.subset (List.mem_append_right x List.mem_cons_self)) hrun

omit [DecidableEq α] in
/-- A stretch without a separator lies on one side of each separator. -/
theorem infix_piece {run x y : List α} (hrun : sep ∉ run) (h : run <:+: x ++ sep :: y) :
    run <:+: x ∨ run <:+: y := by
  induction x with
  | nil =>
    rcases List.infix_cons_iff.1 h with hpre | hinf
    · exact Or.inl (prefix_piece (x := []) hrun hpre).isInfix
    · exact Or.inr hinf
  | cons c x ih =>
    rcases List.infix_cons_iff.1 h with hpre | hinf
    · exact Or.inl (prefix_piece (x := c :: x) hrun hpre).isInfix
    · rcases ih hinf with hx | hy
      · exact Or.inl (hx.trans (List.suffix_cons c x).isInfix)
      · exact Or.inr hy

/-- Induction over the pieces of a list. -/
theorem piece_induction (sep : α) {P : List α → Prop} (last : ∀ piece, sep ∉ piece → P piece)
    (cons : ∀ piece rest, sep ∉ piece → P rest → P (piece ++ sep :: rest)) (s : List α) : P s := by
  suffices h : ∀ s piece, sep ∉ piece → P (piece ++ s) from h s [] List.not_mem_nil
  intro s
  induction s with
  | nil =>
    intro piece hpiece
    rw [List.append_nil]
    exact last piece hpiece
  | cons c s ih =>
    intro piece hpiece
    by_cases hc : c = sep
    · rw [hc]
      exact cons piece s hpiece (ih [] List.not_mem_nil)
    · have hsnoc : sep ∉ piece ++ [c] := by
        rw [List.mem_append, List.mem_singleton, not_or]
        exact ⟨hpiece, Ne.symm hc⟩
      have hP := ih (piece ++ [c]) hsnoc
      rwa [List.append_assoc, List.singleton_append] at hP

/-- A stretch without a separator lies in one of the pieces. -/
theorem infix_mem_splitOn {run : List α} (hrun : sep ∉ run) (s : List α) (h : run <:+: s) :
    ∃ piece ∈ s.splitOn sep, run <:+: piece := by
  induction s using piece_induction sep with
  | last piece hpiece =>
    rw [List.splitOn_eq_singleton hpiece]
    exact ⟨piece, List.mem_singleton_self piece, h⟩
  | cons piece rest hpiece ih =>
    rw [List.splitOn_append_cons_self_of_not_mem hpiece]
    rcases infix_piece hrun h with hfirst | hrest
    · exact ⟨piece, List.mem_cons_self, hfirst⟩
    · obtain ⟨piece', hmem, hinf⟩ := ih hrest
      exact ⟨piece', List.mem_cons_of_mem piece hmem, hinf⟩

omit [DecidableEq α] in
/-- A stretch that stops a scan everywhere is not cut into by it. -/
theorem infix_dropWhile {p : α → Bool} {run : List α} (hrun : ∀ c ∈ run, p c = false) {s : List α}
    (h : run <:+: s) : run <:+: s.dropWhile p := by
  induction s with
  | nil => exact h
  | cons c s ih =>
    by_cases hc : p c = true
    · rw [List.dropWhile_cons_of_pos hc]
      rcases List.infix_cons_iff.1 h with hpre | hinf
      · cases run with
        | nil => exact List.nil_infix
        | cons d run =>
          obtain ⟨rest, hrest⟩ := hpre
          have hstop := hrun d List.mem_cons_self
          rw [(List.cons.inj hrest).1, hc] at hstop
          cases hstop
      · exact ih hinf
    · rw [List.dropWhile_cons_of_neg hc]
      exact h

omit [DecidableEq α] in
theorem infix_rdropWhile {p : α → Bool} {run : List α} (hrun : ∀ c ∈ run, p c = false) {s : List α}
    (h : run <:+: s) : run <:+: s.rdropWhile p := by
  rw [List.rdropWhile, ← List.reverse_infix, List.reverse_reverse]
  exact infix_dropWhile (fun c hc => hrun c (List.mem_reverse.1 hc)) (List.reverse_infix.2 h)

end Separated
