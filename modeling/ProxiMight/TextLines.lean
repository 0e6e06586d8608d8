import Mathlib.Data.List.TakeWhile
import Mathlib.Tactic.Common

/-!
# The lines of a text

A text is cut at every newline; a newline at the end of the text ends its last line.  Every list of
lines is the lines of some text (`lines_unlines`), and a text begins as its first line does.
-/

namespace TextLines

/-- The newline character. -/
def newline : UInt8 := 10

/-- What stands before the first newline. -/
def firstLine (text : List UInt8) : List UInt8 := text.takeWhile (· != newline)

/-- What stands after the first newline. -/
def afterLine (text : List UInt8) : List UInt8 := (text.dropWhile (· != newline)).drop 1

theorem afterLine_length_lt {text : List UInt8} (h : text ≠ []) :
    (afterLine text).length < text.length := by
  have hdrop : (text.dropWhile (· != newline)).length ≤ text.length :=
    (List.dropWhile_suffix _).length_le
  have hpos : 0 < text.length := List.length_pos_iff.2 h
  rw [afterLine, List.length_drop]
  omega

/-- The lines of a text. -/
def lines (text : List UInt8) : List (List UInt8) :=
  if _hne : text = [] then [] else firstLine text :: lines (afterLine text)
termination_by text.length
decreasing_by exact afterLine_length_lt ‹_›

/-- The text with these lines, each ended by a newline. -/
def unlines (ls : List (List UInt8)) : List UInt8 := ls.flatMap (· ++ [newline])

theorem lines_nil : lines [] = [] := by
  rw [lines, dif_pos rfl]

theorem lines_of_ne_nil {text : List UInt8} (h : text ≠ []) :
    lines text = firstLine text :: lines (afterLine text) := by
  rw [lines, dif_neg h]

/-- The induction rule of `lines`. -/
theorem lines_induct {P : List UInt8 → Prop} (hnil : P [])
    (hcons : ∀ text, text ≠ [] → P (afterLine text) → P text) (text : List UInt8) : P text := by
  by_cases h : text = []
  · rw [h]
    exact hnil
  · exact hcons text h (lines_induct hnil hcons (afterLine text))
termination_by text.length
decreasing_by exact afterLine_length_lt h

theorem afterLine_suffix (text : List UInt8) : afterLine text <:+ text :=
  (List.drop_suffix 1 _).trans (List.dropWhile_suffix _)

/-- A line holds no newline, and only what the text holds. -/
theorem mem_lines {text : List UInt8} :
    ∀ l ∈ lines text, newline ∉ l ∧ ∀ c ∈ l, c ∈ text := by
  refine lines_induct (P := fun text => ∀ l ∈ lines text, newline ∉ l ∧ ∀ c ∈ l, c ∈ text) ?_ ?_ text
  · intro l hl
    rw [lines_nil] at hl
    cases hl
  · intro text hne ih l hl
    rw [lines_of_ne_nil hne] at hl
    rcases List.mem_cons.1 hl with rfl | hl
    · refine ⟨fun hmem => ?_, fun c hc => (List.takeWhile_prefix _).subset hc⟩
      have hkept := List.mem_takeWhile_imp hmem
      simp at hkept
    · obtain ⟨hno, hsub⟩ := ih l hl
      exact ⟨hno, fun c hc => (afterLine_suffix text).subset (hsub c hc)⟩

/-- There are no more lines than characters. -/
theorem length_lines_le (text : List UInt8) : (lines text).length ≤ text.length := by
  refine lines_induct (P := fun text => (lines text).length ≤ text.length) ?_ ?_ text
  · rw [lines_nil]
    exact Nat.le_refl 0
  · intro text hne ih
    have hlt := afterLine_length_lt hne
    rw [lines_of_ne_nil hne, List.length_cons]
    omega

theorem firstLine_append {l : List UInt8} (hl : newline ∉ l) (rest : List UInt8) :
    firstLine (l ++ newline :: rest) = l ∧ afterLine (l ++ newline :: rest) = rest := by
  have hkeep : ∀ c ∈ l, (c != newline) = true := by
    intro c hc
    rw [bne_iff_ne]
    rintro rfl
    exact hl hc
  rw [firstLine, afterLine, List.takeWhile_append_of_pos hkeep, List.dropWhile_append_of_pos hkeep]
  simp

/-- **Any lines are the lines of a text.** -/
theorem lines_unlines {ls : List (List UInt8)} (h : ∀ l ∈ ls, newline ∉ l) :
    lines (unlines ls) = ls := by
  induction ls with
  | nil => exact lines_nil
  | cons l ls ih =>
    have heq : unlines (l :: ls) = l ++ newline :: unlines ls := by simp [unlines]
    obtain ⟨hfirst, hafter⟩ := firstLine_append (h l List.mem_cons_self) (unlines ls)
    rw [heq, lines_of_ne_nil (by simp), hfirst, hafter,
      ih fun l' hl' => h l' (List.mem_cons_of_mem _ hl')]

theorem lines_unlines_append {ls : List (List UInt8)} (h : ∀ l ∈ ls, newline ∉ l) (rest : List UInt8) :
    lines (unlines ls ++ rest) = ls ++ lines rest := by
  induction ls with
  | nil => rfl
  | cons l ls ih =>
    have heq : unlines (l :: ls) ++ rest = l ++ newline :: (unlines ls ++ rest) := by simp [unlines]
    obtain ⟨hfirst, hafter⟩ := firstLine_append (h l List.mem_cons_self) (unlines ls ++ rest)
    rw [heq, lines_of_ne_nil (by simp), hfirst, hafter,
      ih fun l' hl' => h l' (List.mem_cons_of_mem _ hl'), List.cons_append]

/-- A text is its first line, if it has only that, or continues behind it. -/
theorem text_cases (text : List UInt8) :
    text = firstLine text ∨ text = firstLine text ++ newline :: afterLine text := by
  cases hrest : text.dropWhile (· != newline) with
  | nil =>
    left
    have h := List.takeWhile_append_dropWhile (p := (· != newline)) (l := text)
    rw [hrest, List.append_nil] at h
    exact h.symm
  | cons c rest =>
    right
    have hc : c = newline := by
      have h := List.head?_dropWhile_not (· != newline) text
      rw [hrest] at h
      simpa using h
    have h := List.takeWhile_append_dropWhile (p := (· != newline)) (l := text)
    rw [hrest, hc] at h
    rw [firstLine, afterLine, hrest]
    exact h.symm

theorem firstLine_prefix {x y : List UInt8} (h : x <+: y) : firstLine x <+: firstLine y := by
  obtain ⟨tail, rfl⟩ := h
  rw [firstLine, firstLine, List.takeWhile_append]
  split_ifs with hall
  · rw [(List.takeWhile_prefix _).eq_of_length hall]
    exact List.prefix_append _ _
  · exact List.prefix_refl _

/-- The lines of the front of a text are lines of the text; the last one may be cut. -/
theorem lines_of_prefix {pre : List (List UInt8)} :
    ∀ {x y l : List UInt8} {post : List (List UInt8)}, x <+: y → lines x = pre ++ l :: post →
      ∃ l' post', lines y = pre ++ l' :: post' ∧ l <+: l' := by
  induction pre with
  | nil =>
    intro x y l post hxy hx
    have hne : x ≠ [] := by
      rintro rfl
      rw [lines_nil] at hx
      cases hx
    have hy : y ≠ [] := fun h => hne (List.prefix_nil.1 (h ▸ hxy))
    rw [lines_of_ne_nil hne] at hx
    obtain ⟨rfl, -⟩ := List.cons.inj hx
    exact ⟨firstLine y, _, lines_of_ne_nil hy, firstLine_prefix hxy⟩
  | cons l₀ pre ih =>
    intro x y l post hxy hx
    have hne : x ≠ [] := by
      rintro rfl
      rw [lines_nil] at hx
      cases hx
    have hy : y ≠ [] := fun h => hne (List.prefix_nil.1 (h ▸ hxy))
    rw [lines_of_ne_nil hne] at hx
    obtain ⟨rfl, hafter⟩ := List.cons.inj hx
    obtain ⟨tail, rfl⟩ := hxy
    have hno : newline ∉ firstLine x := fun hmem => by simpa using List.mem_takeWhile_imp hmem
    rcases text_cases x with heq | heq
    · -- there is nothing behind the first line
      have hend : afterLine x = [] := by
        rw [afterLine, List.dropWhile_eq_nil_iff.2]
        · rfl
        · intro c hc
          rw [heq, firstLine] at hc
          exact List.mem_takeWhile_imp (p := (· != newline)) hc
      rw [hend, lines_nil] at hafter
      simp at hafter
    · have hfront : x ++ tail = firstLine x ++ newline :: (afterLine x ++ tail) := by
        conv_lhs => rw [heq]
        rw [List.append_assoc, List.cons_append]
      obtain ⟨hfirst, hrest⟩ := firstLine_append hno (afterLine x ++ tail)
      obtain ⟨l', post', hlines, hcut⟩ := ih (List.prefix_append (afterLine x) tail) hafter
      refine ⟨l', post', ?_, hcut⟩
      rw [lines_of_ne_nil hy, hfront, hfirst, hrest, hlines, List.cons_append]

/-- Whether a text begins with `p`, which holds no newline, can be told from its first line. -/
theorem isPrefix_iff_firstLine {p : List UInt8} (hp : newline ∉ p) (text : List UInt8) :
    p <+: text ↔ p <+: firstLine text := by
  constructor
  · rintro ⟨rest, rfl⟩
    rw [firstLine, List.takeWhile_append_of_pos]
    · exact List.prefix_append _ _
    · intro c hc
      rw [bne_iff_ne]
      rintro rfl
      exact hp hc
  · exact fun h => h.trans (List.takeWhile_prefix _)

end TextLines
