import Mathlib.Computability.Language
import Mathlib.Data.List.Dedup
import Mathlib.Tactic.Common

/-!
# Finite grammars

A phrase is built from sets of characters by one after the other and by either of two.  Its texts are read
by any machine that says where it can stand after a character: run on the phrase instead of on one text, the
machine says at once where it can stand after any of the texts.

* **`Phrase.mem_run_iff`** — where a machine can stand after a phrase is where one of its texts takes it.
* **`Phrase.mem_lang_iff`** — the machine that reads a text off decides which texts are of the phrase.
-/

/-- A finite grammar. -/
inductive Phrase (α : Type*)
  | done
  | char (cs : List α)
  | seq (p q : Phrase α)
  | alt (p q : Phrase α)

namespace Phrase

variable {α σ : Type*}

/-- The texts of a phrase. -/
def lang : Phrase α → Language α
  | .done => 1
  | .char cs => { w | ∃ c ∈ cs, w = [c] }
  | .seq p q => p.lang * q.lang
  | .alt p q => p.lang + q.lang

/-- A phrase or nothing. -/
def opt (p : Phrase α) : Phrase α := .alt .done p

/-- The phrases one after the other. -/
def seqs : List (Phrase α) → Phrase α
  | [] => .done
  | p :: ps => .seq p (seqs ps)

/-- Any one of the phrases, or the first. -/
def alts (p : Phrase α) : List (Phrase α) → Phrase α
  | [] => p
  | q :: qs => .alt p (alts q qs)

/-- The phrase `n` times. -/
def rep (p : Phrase α) : ℕ → Phrase α
  | 0 => .done
  | n + 1 => .seq p (rep p n)

/-- The phrase at most `n` times. -/
def upTo (p : Phrase α) : ℕ → Phrase α
  | 0 => .done
  | n + 1 => opt (.seq p (upTo p n))

/-- One text. -/
def word (w : List α) : Phrase α := seqs (w.map fun c => .char [c])

theorem mem_lang_word {w v : List α} : v ∈ (word w).lang ↔ v = w := by
  induction w generalizing v with
  | nil => exact Language.mem_one v
  | cons c w ih =>
    constructor
    · intro hv
      obtain ⟨_, ⟨d, hd, rfl⟩, rest, hrest, rfl⟩ := Language.mem_mul.1 hv
      rw [List.mem_singleton.1 hd, ih.1 hrest]
      rfl
    · intro hv
      rw [hv]
      exact Language.mem_mul.2 ⟨[c], ⟨c, List.mem_singleton_self c, rfl⟩, w, ih.2 rfl, rfl⟩

/-! ### Reading -/

/-- The text takes a machine from one place to another; `after` says where it can stand after a character. -/
def Steps (after : α → σ → List σ) : σ → List α → σ → Prop
  | s, [], t => t = s
  | s, c :: w, t => ∃ m ∈ after c s, Steps after m w t

variable {after : α → σ → List σ}

theorem steps_append {w v : List α} : ∀ {s t : σ},
    Steps after s (w ++ v) t ↔ ∃ m, Steps after s w m ∧ Steps after m v t := by
  induction w with
  | nil =>
    intro s t
    rw [List.nil_append]
    constructor
    · exact fun h => ⟨s, rfl, h⟩
    · rintro ⟨m, rfl, h⟩
      exact h
  | cons c w ih =>
    intro s t
    constructor
    · rintro ⟨n, hn, hrest⟩
      obtain ⟨m, hw, hv⟩ := ih.1 hrest
      exact ⟨m, ⟨n, hn, hw⟩, hv⟩
    · rintro ⟨m, ⟨n, hn, hw⟩, hv⟩
      exact ⟨n, hn, ih.2 ⟨m, hw, hv⟩⟩

variable [DecidableEq σ]

/-- Where the machine can stand after the phrase. -/
def run (after : α → σ → List σ) : Phrase α → σ → List σ
  | .done, s => [s]
  | .char cs, s => (cs.flatMap fun c => after c s).dedup
  | .seq p q, s => ((p.run after s).flatMap fun m => q.run after m).dedup
  | .alt p q, s => (p.run after s ++ q.run after s).dedup

/-- **A machine run on a phrase.** -/
theorem mem_run_iff (p : Phrase α) : ∀ {s t : σ},
    t ∈ p.run after s ↔ ∃ w ∈ p.lang, Steps after s w t := by
  induction p with
  | done =>
    intro s t
    rw [run, List.mem_singleton]
    constructor
    · exact fun h => ⟨[], (Language.mem_one []).2 rfl, h⟩
    · rintro ⟨w, hw, hsteps⟩
      rw [lang, Language.mem_one] at hw
      rw [hw] at hsteps
      exact hsteps
  | char cs =>
    intro s t
    rw [run, List.mem_dedup, List.mem_flatMap]
    constructor
    · rintro ⟨c, hc, ht⟩
      exact ⟨[c], ⟨c, hc, rfl⟩, t, ht, rfl⟩
    · rintro ⟨w, ⟨c, hc, rfl⟩, m, hm, rfl⟩
      exact ⟨c, hc, hm⟩
  | seq p q ihp ihq =>
    intro s t
    rw [run, List.mem_dedup, List.mem_flatMap, lang]
    constructor
    · rintro ⟨m, hm, ht⟩
      obtain ⟨w, hw, hwm⟩ := ihp.1 hm
      obtain ⟨v, hv, hvt⟩ := ihq.1 ht
      exact ⟨w ++ v, Language.append_mem_mul hw hv, steps_append.2 ⟨m, hwm, hvt⟩⟩
    · rintro ⟨x, hx, hsteps⟩
      obtain ⟨w, hw, v, hv, rfl⟩ := Language.mem_mul.1 hx
      obtain ⟨m, hwm, hvt⟩ := steps_append.1 hsteps
      exact ⟨m, ihp.2 ⟨w, hw, hwm⟩, ihq.2 ⟨v, hv, hvt⟩⟩
  | alt p q ihp ihq =>
    intro s t
    rw [run, List.mem_dedup, List.mem_append, ihp, ihq, lang]
    constructor
    · rintro (⟨w, hw, ht⟩ | ⟨w, hw, ht⟩)
      · exact ⟨w, (Language.mem_add _ _ w).2 (Or.inl hw), ht⟩
      · exact ⟨w, (Language.mem_add _ _ w).2 (Or.inr hw), ht⟩
    · rintro ⟨w, hw, ht⟩
      rcases (Language.mem_add _ _ w).1 hw with hw | hw
      · exact Or.inl ⟨w, hw, ht⟩
      · exact Or.inr ⟨w, hw, ht⟩

/-! ### Reading a text off -/

section Text

variable [DecidableEq α]

/-- The machine that stands at what is left of a text. -/
def restAfter (c : α) : List α → List (List α)
  | [] => []
  | d :: rest => if d = c then [rest] else []

theorem steps_restAfter {w : List α} : ∀ {s t : List α}, Steps restAfter s w t ↔ s = w ++ t := by
  induction w with
  | nil => exact fun {s t} => eq_comm
  | cons c w ih =>
    intro s t
    constructor
    · rintro ⟨m, hm, hrest⟩
      cases s with
      | nil => cases hm
      | cons d s =>
        rw [restAfter] at hm
        split_ifs at hm with hd
        · rw [List.mem_singleton] at hm
          rw [hd, ← hm, ih.1 hrest, List.cons_append]
        · cases hm
    · rintro rfl
      refine ⟨w ++ t, ?_, ih.2 rfl⟩
      rw [List.cons_append, restAfter, if_pos rfl]
      exact List.mem_singleton_self _

theorem mem_lang_iff (p : Phrase α) (w : List α) : w ∈ p.lang ↔ [] ∈ p.run restAfter w := by
  rw [mem_run_iff]
  constructor
  · exact fun h => ⟨w, h, steps_restAfter.2 (List.append_nil w).symm⟩
  · rintro ⟨v, hv, hsteps⟩
    rw [steps_restAfter.1 hsteps, List.append_nil]
    exact hv

instance (p : Phrase α) (w : List α) : Decidable (w ∈ p.lang) := decidable_of_iff _ (mem_lang_iff p w).symm

end Text

/-! ### The characters of a phrase -/

/-- The characters of the sets a phrase is built from. -/
def chars : Phrase α → List α
  | .done => []
  | .char cs => cs
  | .seq p q | .alt p q => p.chars ++ q.chars

theorem mem_chars {c : α} (p : Phrase α) : ∀ {w : List α}, w ∈ p.lang → c ∈ w → c ∈ p.chars := by
  induction p with
  | done =>
    intro w hw hc
    rw [lang, Language.mem_one] at hw
    rw [hw] at hc
    cases hc
  | char cs =>
    rintro w ⟨d, hd, rfl⟩ hc
    rw [List.mem_singleton.1 hc]
    exact hd
  | seq p q ihp ihq =>
    intro w hw hc
    obtain ⟨x, hx, y, hy, rfl⟩ := Language.mem_mul.1 hw
    rw [chars, List.mem_append]
    rcases List.mem_append.1 hc with hc | hc
    · exact Or.inl (ihp hx hc)
    · exact Or.inr (ihq hy hc)
  | alt p q ihp ihq =>
    intro w hw hc
    rw [chars, List.mem_append]
    rcases (Language.mem_add _ _ w).1 hw with hw | hw
    · exact Or.inl (ihp hw hc)
    · exact Or.inr (ihq hw hc)

end Phrase
