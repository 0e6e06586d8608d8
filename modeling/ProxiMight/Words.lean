import Mathlib.Data.List.DropRight
import Mathlib.Data.List.TakeWhile
import Mathlib.Tactic.Common

/-!
# The words of a text

The words are the stretches between separators that are not empty.  A scanner that skips separators, takes a
word and goes on behind it finds them one after the other (`words_eq_cons`).
-/

namespace Words

variable {α : Type*} {sep : α → Bool}

/-- The words of a text. -/
def words (sep : α → Bool) (s : List α) : List (List α) :=
  (s.splitOnP sep).filter fun w => !w.isEmpty

theorem words_nil : words sep ([] : List α) = [] := by
  rw [words, List.splitOnP_nil]
  rfl

theorem words_append_cons (s t : List α) {c : α} (hc : sep c = true) :
    words sep (s ++ c :: t) = words sep s ++ words sep t := by
  rw [words, List.splitOnP_append_cons _ _ hc, List.filter_append]
  rfl

theorem words_of_word {w : List α} (hne : w ≠ []) (h : ∀ c ∈ w, sep c = false) :
    words sep w = [w] := by
  rw [words, List.splitOnP_eq_singleton h, List.filter_cons_of_pos, List.filter_nil]
  rw [List.isEmpty_eq_false_iff.2 hne]
  rfl

theorem words_cons_of_sep {c : α} (hc : sep c = true) (t : List α) : words sep (c :: t) = words sep t := by
  have h := words_append_cons [] t hc
  rwa [words_nil, List.nil_append, List.nil_append] at h

/-- Separators in front make no difference. -/
theorem words_seps_append {a : List α} (ha : ∀ c ∈ a, sep c = true) (s : List α) :
    words sep (a ++ s) = words sep s := by
  induction a with
  | nil => rfl
  | cons c a ih =>
    rw [List.cons_append, words_cons_of_sep (ha c List.mem_cons_self)]
    exact ih fun d hd => ha d (List.mem_cons_of_mem _ hd)

theorem words_of_seps {a : List α} (ha : ∀ c ∈ a, sep c = true) : words sep a = [] := by
  have h := words_seps_append ha []
  rwa [List.append_nil, words_nil] at h

/-- Separators at the end make no difference. -/
theorem words_append_seps {a : List α} (ha : ∀ c ∈ a, sep c = true) (s : List α) :
    words sep (s ++ a) = words sep s := by
  cases a with
  | nil => rw [List.append_nil]
  | cons c a =>
    rw [words_append_cons s a (ha c List.mem_cons_self),
      words_of_seps fun d hd => ha d (List.mem_cons_of_mem _ hd), List.append_nil]

theorem words_dropWhile (s : List α) : words sep (s.dropWhile sep) = words sep s := by
  conv_rhs => rw [← List.takeWhile_append_dropWhile (p := sep) (l := s)]
  exact (words_seps_append (fun c hc => List.mem_takeWhile_imp hc) _).symm

theorem words_rdropWhile (s : List α) : words sep (s.rdropWhile sep) = words sep s := by
  conv_rhs => rw [← List.rdropWhile_append_rtakeWhile (p := sep) (l := s)]
  exact (words_append_seps (fun c hc => List.mem_rtakeWhile_imp hc) _).symm

/-- What is left of a text after its first word. -/
def afterWord (sep : α → Bool) (s : List α) : List α :=
  ((s.dropWhile sep).dropWhile fun c => !sep c).drop 1

/-- The first word of a text. -/
def firstWord (sep : α → Bool) (s : List α) : List α := (s.dropWhile sep).takeWhile fun c => !sep c

theorem firstWord_ne_nil {s : List α} (h : s.dropWhile sep ≠ []) : firstWord sep s ≠ [] := by
  obtain ⟨c, t, hs⟩ := List.exists_cons_of_ne_nil h
  have hc := List.head?_dropWhile_not sep s
  rw [hs] at hc
  have hword : (!sep c) = true := by simpa using hc
  have htake : (c :: t).takeWhile (fun d => !sep d) = c :: t.takeWhile fun d => !sep d :=
    List.takeWhile_cons_of_pos hword
  rw [firstWord, hs, htake]
  exact List.cons_ne_nil _ _

theorem mem_firstWord {s : List α} {c : α} (hc : c ∈ firstWord sep s) : sep c = false ∧ c ∈ s := by
  refine ⟨?_, (List.dropWhile_suffix _).subset ((List.takeWhile_prefix _).subset hc)⟩
  have hkept := List.all_takeWhile (p := fun d => !sep d) (l := s.dropWhile sep)
  simpa using List.all_eq_true.1 hkept c hc

theorem afterWord_length_lt {s : List α} (h : s.dropWhile sep ≠ []) :
    (afterWord sep s).length < s.length := by
  have hdrop := (List.dropWhile_suffix (l := s) sep).length_le
  have hrest := (List.dropWhile_suffix (l := s.dropWhile sep) fun c => !sep c).length_le
  have hpos := List.length_pos_iff.2 h
  rw [afterWord, List.length_drop]
  omega

/-- **The scan.**  Where not only separators stand, the first word is followed by those of the rest. -/
theorem words_eq_cons {s : List α} (h : s.dropWhile sep ≠ []) :
    words sep s = firstWord sep s :: words sep (afterWord sep s) := by
  have hword := words_of_word (firstWord_ne_nil h) fun c hc => (mem_firstWord hc).1
  have hsplit : firstWord sep s ++ (s.dropWhile sep).dropWhile (fun c => !sep c) = s.dropWhile sep :=
    List.takeWhile_append_dropWhile
  rw [← words_dropWhile s, afterWord]
  cases hrest : (s.dropWhile sep).dropWhile fun c => !sep c with
  | nil =>
    rw [hrest, List.append_nil] at hsplit
    rw [← hsplit, hword, List.drop_nil, words_nil]
  | cons c t =>
    have hc := List.head?_dropWhile_not (fun c => !sep c) (s.dropWhile sep)
    rw [hrest] at hc hsplit
    have hsep : sep c = true := by simpa using hc
    rw [← hsplit, words_append_cons _ _ hsep, hword]
    rfl

/-- Induction over the words of a text. -/
theorem word_induction (sep : α → Bool) {P : List α → Prop} (last : ∀ s, s.dropWhile sep = [] → P s)
    (cons : ∀ s, s.dropWhile sep ≠ [] → P (afterWord sep s) → P s) (s : List α) : P s := by
  by_cases h : s.dropWhile sep = []
  · exact last s h
  · exact cons s h (word_induction sep last cons (afterWord sep s))
termination_by s.length
decreasing_by exact afterWord_length_lt h

theorem words_of_dropWhile_eq_nil {s : List α} (h : s.dropWhile sep = []) : words sep s = [] := by
  rw [← words_dropWhile, h, words_nil]

/-- A word is not empty, and holds no separator and only what the text holds. -/
theorem mem_words (s : List α) : ∀ w ∈ words sep s, w ≠ [] ∧ ∀ c ∈ w, sep c = false ∧ c ∈ s := by
  induction s using word_induction sep with
  | last s h =>
    intro w hw
    rw [words_of_dropWhile_eq_nil h] at hw
    cases hw
  | cons s h ih =>
    intro w hw
    rw [words_eq_cons h] at hw
    rcases List.mem_cons.1 hw with rfl | hw
    · exact ⟨firstWord_ne_nil h, fun c hc => mem_firstWord hc⟩
    · obtain ⟨hne, hall⟩ := ih w hw
      refine ⟨hne, fun c hc => ⟨(hall c hc).1, ?_⟩⟩
      have hrest := (List.drop_suffix 1 _).subset (hall c hc).2
      exact (List.dropWhile_suffix _).subset ((List.dropWhile_suffix _).subset hrest)

/-- A text that begins with a stretch without separators. -/
theorem words_word_append {w : List α} (hne : w ≠ []) (hw : ∀ c ∈ w, sep c = false) (t : List α) :
    ∃ more, words sep (w ++ t) = (w ++ t.takeWhile fun c => !sep c) :: more := by
  have hfirst : (w ++ t).dropWhile sep = w ++ t := by
    obtain ⟨c, w, rfl⟩ := List.exists_cons_of_ne_nil hne
    rw [List.cons_append, List.dropWhile_cons_of_neg (by rw [hw c List.mem_cons_self]; exact Bool.false_ne_true)]
  have hlong : (w ++ t).dropWhile sep ≠ [] := by
    rw [hfirst]
    exact List.append_ne_nil_of_left_ne_nil hne t
  refine ⟨words sep (afterWord sep (w ++ t)), ?_⟩
  rw [words_eq_cons hlong, firstWord, hfirst,
    List.takeWhile_append_of_pos fun c hc => by rw [hw c hc]; rfl]

/-- **What a cut leaves of the words**: those in front of it, and the beginning of the one it goes through. -/
theorem words_append_cases (s t : List α) :
    (∃ more, words sep (s ++ t) = words sep s ++ more) ∨
      ∃ front w w' more, words sep s = front ++ [w] ∧ words sep (s ++ t) = front ++ w' :: more ∧ w <+: w' := by
  have hsplit := List.rdropWhile_append_rtakeWhile (p := fun c => !sep c) (l := s)
  set a := s.rdropWhile fun c => !sep c with ha
  set w := s.rtakeWhile fun c => !sep c with hw
  have hword : ∀ c ∈ w, sep c = false := fun c hc => by
    simpa using List.mem_rtakeWhile_imp hc
  -- the text up to the last separator, and what follows it
  have hfront : ∀ u, words sep (a ++ u) = words sep a ++ words sep u := by
    intro u
    rcases List.eq_nil_or_concat a with hnil | ⟨b, c, hconcat⟩
    · rw [hnil, words_nil, List.nil_append, List.nil_append]
    · have hc : sep c = true := by
        have hlast := List.rdropWhile_last_not (fun c => !sep c) s (by rw [← ha, hconcat]; simp)
        simpa [← ha, hconcat] using hlast
      rw [hconcat, List.concat_eq_append, List.append_assoc, List.singleton_append, words_append_cons b u hc,
        words_append_cons b [] hc, words_nil, List.append_nil]
  rw [← hsplit, List.append_assoc, hfront, hfront]
  by_cases hne : w = []
  · rw [hne, words_nil, List.append_nil, List.nil_append]
    exact Or.inl ⟨_, rfl⟩
  · obtain ⟨more, hmore⟩ := words_word_append hne hword t
    refine Or.inr ⟨words sep a, w, w ++ t.takeWhile fun c => !sep c, more, ?_, ?_,
      List.prefix_append w _⟩
    · rw [words_of_word hne hword]
    · rw [hmore]

end Words
