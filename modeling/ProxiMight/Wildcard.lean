import Mathlib.Data.List.Infix
import Mathlib.Data.List.Forall2
import Mathlib.Tactic.Common

/-!
# Wildcard patterns

A pattern is a list of tokens: a star stands for any run of characters, every other token for one
character out of a set.  `Matches` says what a pattern means.  The lemmas after it are what a matcher
needs that goes back to the last star only: once a star has been followed by a stretch without stars
that fits, the text before the next star is never needed again.

* **`matches_star_append_iff`** — at a second star the first one is forgotten.
* **`matches_star_cons_iff`** — where what follows a star does not match here, the star takes a character.
-/

namespace Wildcard

variable {α : Type*}

/-- A token of a pattern. -/
inductive Token (α : Type*)
  | star
  | one (accepts : α → Prop)

/-- The whole text matches the pattern. -/
inductive Matches : List (Token α) → List α → Prop
  | nil : Matches [] []
  | star (s : List α) {p : List (Token α)} {t : List α} (h : Matches p t) :
      Matches (.star :: p) (s ++ t)
  | one {accepts : α → Prop} {c : α} {p : List (Token α)} {t : List α} (hc : accepts c)
      (h : Matches p t) : Matches (.one accepts :: p) (c :: t)

variable {p q : List (Token α)} {s t u : List α} {c : α} {accepts : α → Prop}

theorem matches_nil_iff : Matches ([] : List (Token α)) t ↔ t = [] := by
  constructor
  · intro h
    cases h
    rfl
  · rintro rfl
    exact .nil

theorem matches_one_cons_iff :
    Matches (.one accepts :: p) (c :: t) ↔ accepts c ∧ Matches p t := by
  constructor
  · intro h
    cases h with
    | one hc h => exact ⟨hc, h⟩
  · rintro ⟨hc, h⟩
    exact .one hc h

theorem matches_star_iff : Matches (.star :: p) t ↔ ∃ u, u <:+ t ∧ Matches p u := by
  constructor
  · intro h
    cases h with
    | star s h => exact ⟨_, List.suffix_append s _, h⟩
  · rintro ⟨u, ⟨s, rfl⟩, h⟩
    exact .star s h

/-- A star takes any more text there is before what it matched. -/
theorem matches_star_of_suffix (h : Matches (.star :: p) u) (hut : u <:+ t) :
    Matches (.star :: p) t := by
  obtain ⟨v, hvu, hv⟩ := matches_star_iff.1 h
  exact matches_star_iff.2 ⟨v, hvu.trans hut, hv⟩

/-- Where what follows the star does not match here, the star takes the character. -/
theorem matches_star_cons_iff (h : ¬ Matches p (c :: t)) :
    Matches (.star :: p) (c :: t) ↔ Matches (.star :: p) t := by
  constructor
  · intro hs
    obtain ⟨u, hu, hpu⟩ := matches_star_iff.1 hs
    rcases List.suffix_cons_iff.1 hu with rfl | hut
    · exact absurd hpu h
    · exact matches_star_iff.2 ⟨u, hut, hpu⟩
  · intro hs
    exact matches_star_of_suffix hs (List.suffix_cons c t)

/-- A star takes the character and stays, or what follows it matches here. -/
theorem matches_star_cons_or :
    Matches (.star :: p) (c :: t) ↔ Matches (.star :: p) t ∨ Matches p (c :: t) := by
  rw [matches_star_iff, matches_star_iff]
  constructor
  · rintro ⟨u, hu, hp⟩
    rcases List.suffix_cons_iff.1 hu with rfl | hut
    · exact Or.inr hp
    · exact Or.inl ⟨u, hut, hp⟩
  · rintro (⟨u, hut, hp⟩ | hp)
    · exact ⟨u, hut.trans (List.suffix_cons c t), hp⟩
    · exact ⟨c :: t, List.suffix_rfl, hp⟩

/-- Every token that takes one character has taken one of the text. -/
theorem exists_accepted (h : Matches p t) (hmem : .one accepts ∈ p) : ∃ c ∈ t, accepts c := by
  induction h with
  | nil => cases hmem
  | star s _ ih =>
    rcases List.mem_cons.1 hmem with heq | hmem
    · cases heq
    · obtain ⟨c, hc, haccepts⟩ := ih hmem
      exact ⟨c, List.mem_append_right s hc, haccepts⟩
  | one hc _ ih =>
    rcases List.mem_cons.1 hmem with heq | hmem
    · obtain rfl := Token.one.inj heq
      exact ⟨_, List.mem_cons_self, hc⟩
    · obtain ⟨d, hd, haccepts⟩ := ih hmem
      exact ⟨d, List.mem_cons_of_mem _ hd, haccepts⟩

/-- Only stars match the empty text. -/
theorem matches_empty_iff : Matches p [] ↔ ∀ tok ∈ p, tok = .star := by
  induction p with
  | nil => simp only [matches_nil_iff, List.not_mem_nil, IsEmpty.forall_iff, implies_true]
  | cons tok p ih =>
    rw [List.forall_mem_cons, ← ih]
    constructor
    · intro h
      generalize ht : ([] : List α) = t at h
      cases h with
      | star s h =>
        obtain ⟨rfl, rfl⟩ := List.append_eq_nil_iff.1 ht.symm
        exact ⟨rfl, h⟩
      | one hc h => cases ht
    · rintro ⟨rfl, h⟩
      exact Matches.star [] h

/-! ## A stretch of the pattern without stars -/

/-- A token that takes one character takes this one. -/
def Accepts : Token α → α → Prop
  | .star, _ => False
  | .one accepts, c => accepts c

/-- The tokens, none of which is a star, take these characters one by one. -/
abbrev Spans (seg : List (Token α)) (m : List α) : Prop := List.Forall₂ Accepts seg m

variable {seg : List (Token α)} {m : List α}

theorem spans_concat (h : Spans seg m) (hc : accepts c) :
    Spans (seg ++ [.one accepts]) (m ++ [c]) :=
  List.rel_append h (.cons hc .nil)

/-- What a stretch without stars has taken can be cut off. -/
theorem matches_append_iff (h : Spans seg m) : Matches (seg ++ p) (m ++ t) ↔ Matches p t := by
  induction h with
  | nil => rfl
  | @cons tok c seg m hc _ ih =>
    cases tok with
    | star => exact absurd hc id
    | one accepts =>
      rw [List.cons_append, List.cons_append, matches_one_cons_iff, ih]
      exact and_iff_right hc

/-- A stretch of the pattern without stars takes as many characters as it has tokens. -/
theorem matches_drop (h : Spans seg m) (hp : Matches (seg ++ p) t) :
    seg.length ≤ t.length ∧ Matches p (t.drop seg.length) := by
  induction h generalizing t with
  | nil => exact ⟨Nat.zero_le _, hp⟩
  | @cons tok c seg m hc _ ih =>
    cases hp with
    | star => exact absurd hc id
    | @one _ d _ t _ hp =>
      obtain ⟨hle, hdrop⟩ := ih hp
      exact ⟨Nat.succ_le_succ hle, hdrop⟩

/-- At a second star the first one is forgotten: any match can be moved to where the stretch between them
first fitted. -/
theorem matches_star_append_iff (h : Spans seg m) :
    Matches (.star :: (seg ++ .star :: p)) (m ++ t) ↔ Matches (.star :: p) t := by
  constructor
  · intro hs
    obtain ⟨u, hu, hp⟩ := matches_star_iff.1 hs
    obtain ⟨hle, hdrop⟩ := matches_drop h hp
    -- what the second star is left with ends the text that stands after the stretch
    have hsuf : u.drop seg.length <:+ t := by
      apply List.suffix_of_suffix_length_le ((List.drop_suffix _ _).trans hu) (List.suffix_append m t)
      have hlen := hu.length_le
      rw [List.length_append, ← h.length_eq] at hlen
      rw [List.length_drop]
      omega
    exact matches_star_of_suffix hdrop hsuf
  · intro hp
    exact Matches.star [] ((matches_append_iff h).2 hp)

/-- Where the text ends with the stretch, what is left of the pattern matches nothing. -/
theorem matches_star_spans_iff (h : Spans seg m) :
    Matches (.star :: (seg ++ p)) m ↔ Matches p [] := by
  constructor
  · intro hs
    obtain ⟨u, hu, hp⟩ := matches_star_iff.1 hs
    obtain ⟨-, hdrop⟩ := matches_drop h hp
    have hnil : u.drop seg.length = [] := by
      rw [List.drop_eq_nil_iff, h.length_eq]
      exact hu.length_le
    rwa [hnil] at hdrop
  · intro hp
    refine Matches.star [] ?_
    have hm : Matches (seg ++ p) (m ++ []) := (matches_append_iff h).2 hp
    rwa [List.append_nil] at hm

end Wildcard
