import ProxiMight.Addresses
import ProxiMight.RuleMeaning

/-!
# Patterns that only names match (`pmx_host_pattern_needs_names`)

A segment of a host pattern with a letter and no colon is taken for one that no numeric address matches.
But a star may stand for the colons of an IPv6 address, and the letters from `a` to `f` are digits there.

* **`meets_iff`** — whether a glob matches some text of a finite grammar, by reading the grammar against it.
* **`nameOnlySound_iff`** — the warning is right of a pattern just when it is not given, or some segment
  meets no address.
-/

namespace ProxiMight

open CString Addresses Separated Wildcard

/-- `isalpha` in the C locale. -/
def isAlpha (c : UInt8) : Bool := (65 ≤ c && c ≤ 90) || (97 ≤ c && c ≤ 122)

/-- A segment that has a letter and no `:`. -/
def nameSegment (seg : List UInt8) : Bool := seg.any isAlpha && !seg.contains 58

/-- The loop, from the start of a segment on. -/
def needsNamesLoop : List UInt8 → Bool
  | [] => false
  | c :: s =>
    if nameSegment ((c :: s).takeWhile (· != 59)) then true
    else needsNamesLoop (((c :: s).dropWhile (· != 59)).drop 1)
termination_by s => s.length
decreasing_by
  have hlen := (List.dropWhile_sublist (l := c :: s) (· != 59)).length_le
  rw [List.length_drop, List.length_cons] at *
  omega

def pmxHostPatternNeedsNames (pattern : Option CStr) : Bool :=
  match pattern with
  | none => false
  | some s => needsNamesLoop s.str

theorem needsNamesLoop_eq (s : List UInt8) :
    needsNamesLoop s = (nameSegment (s.takeWhile (· != 59)) ||
      needsNamesLoop ((s.dropWhile (· != 59)).drop 1)) := by
  cases s with
  | nil =>
    rw [List.takeWhile_nil, List.dropWhile_nil, List.drop_nil, needsNamesLoop]
    rfl
  | cons c s =>
    rw [needsNamesLoop]
    split_ifs with hname
    · rw [hname, Bool.true_or]
    · rw [Bool.not_eq_true] at hname
      rw [hname, Bool.false_or]

/-- The loop goes over the `;`-separated segments. -/
theorem needsNamesLoop_any (s : List UInt8) : needsNamesLoop s = (s.splitOn 59).any nameSegment := by
  induction s using piece_induction (59 : UInt8) with
  | last seg hseg =>
    have hdrop : seg.dropWhile (· != 59) = [] := List.dropWhile_eq_nil_iff.2 (bne_of_notMem hseg)
    rw [needsNamesLoop_eq, hdrop, List.drop_nil, List.takeWhile_eq_self_iff.2 (bne_of_notMem hseg),
      needsNamesLoop, List.splitOn_eq_singleton hseg]
    rfl
  | cons seg rest hseg ih =>
    rw [needsNamesLoop_eq, takeWhile_piece_append hseg, dropWhile_piece_append hseg, List.drop_one,
      List.tail_cons, ih, List.splitOn_append_cons_self_of_not_mem hseg, List.any_cons]

/-! ### A glob against a grammar -/

/-- Where in a pattern the matcher can stand after a character. -/
def globAfter (ci : Bool) (c : UInt8) : List UInt8 → List (List UInt8)
  | [] => []
  | b :: p =>
    if b = 42 then (b :: p) :: globAfter ci c p
    else if b = 63 ∨ ceq b c ci = true then [p]
    else []

theorem matchesGlob_cons_iff (ci : Bool) (c : UInt8) (t : List UInt8) :
    ∀ p, MatchesGlob ci p (c :: t) ↔ ∃ q ∈ globAfter ci c p, MatchesGlob ci q t := by
  intro p
  induction p with
  | nil =>
    refine iff_of_false (fun h => by cases h) ?_
    rintro ⟨q, hq, -⟩
    cases hq
  | cons b p ih =>
    rw [globAfter]
    by_cases hb : b = 42
    · have hstar : ∀ u, MatchesGlob ci (b :: p) u ↔ Matches (.star :: p.map (globToken ci)) u := by
        intro u
        rw [MatchesGlob, List.map_cons, globToken_eq_star_iff.2 hb]
      rw [if_pos hb, hstar, matches_star_cons_or, ← hstar]
      simp only [List.mem_cons, exists_eq_or_imp]
      exact or_congr Iff.rfl ih
    · obtain ⟨accepts, htoken, haccepts⟩ := globToken_of_ne ci hb
      have hfits : accepts c ↔ b = 63 ∨ ceq b c ci = true := by
        rw [haccepts, Bool.or_eq_true, decide_eq_true_iff]
      rw [if_neg hb, MatchesGlob, List.map_cons, htoken, matches_one_cons_iff, hfits]
      split_ifs with hc
      · simp only [List.mem_singleton, exists_eq_left]
        exact and_iff_right hc
      · refine iff_of_false (fun h => hc h.1) ?_
        rintro ⟨q, hq, -⟩
        cases hq

theorem matchesGlob_iff_steps (ci : Bool) (w : List UInt8) : ∀ p,
    MatchesGlob ci p w ↔ ∃ q, Phrase.Steps (globAfter ci) p w q ∧ MatchesGlob ci q [] := by
  induction w with
  | nil =>
    intro p
    constructor
    · exact fun h => ⟨p, rfl, h⟩
    · rintro ⟨q, rfl, h⟩
      exact h
  | cons c w ih =>
    intro p
    rw [matchesGlob_cons_iff]
    constructor
    · rintro ⟨m, hm, hrest⟩
      obtain ⟨q, hsteps, hq⟩ := (ih m).1 hrest
      exact ⟨q, ⟨m, hm, hsteps⟩, hq⟩
    · rintro ⟨q, ⟨m, hm, hsteps⟩, hq⟩
      exact ⟨m, hm, (ih m).2 ⟨q, hsteps, hq⟩⟩

/-- Read against the pattern, the grammar comes to a place with nothing but stars left. -/
def meets (g : Phrase UInt8) (pattern : List UInt8) : Bool :=
  (g.run (globAfter true) pattern).any fun q => q.all (· == 42)

/-- **A glob meets a grammar** if it matches some text of it. -/
theorem meets_iff (g : Phrase UInt8) (pattern : List UInt8) :
    meets g pattern = true ↔ ∃ w ∈ g.lang, MatchesGlob true pattern w := by
  have hend : ∀ q : List UInt8, (q.all (· == 42)) = true ↔ MatchesGlob true q [] := by
    intro q
    rw [MatchesGlob, matches_empty_iff, List.all_eq_true, List.forall_mem_map]
    exact forall₂_congr fun b _ => by rw [beq_iff_eq, globToken_eq_star_iff]
  rw [meets, List.any_eq_true]
  constructor
  · rintro ⟨q, hq, hstars⟩
    obtain ⟨w, hw, hsteps⟩ := (Phrase.mem_run_iff g).1 hq
    exact ⟨w, hw, (matchesGlob_iff_steps true w pattern).2 ⟨q, hsteps, (hend q).1 hstars⟩⟩
  · rintro ⟨w, hw, hmatch⟩
    obtain ⟨q, hsteps, hq⟩ := (matchesGlob_iff_steps true w pattern).1 hmatch
    exact ⟨q, (Phrase.mem_run_iff g).2 ⟨w, hw, hsteps⟩, (hend q).2 hq⟩

example : meets address (bytes "ab??cd") = true ∧ meets address (bytes "abcde*") = false ∧
    meets address (bytes "10.*") = true ∧ meets address (bytes "*.example.com") = false := by decide +kernel

/-- A glob with a character that no text of the grammar has, in either case, meets none of them. -/
theorem meets_eq_false_of_foreign {g : Phrase UInt8} {pattern : List UInt8} {b : UInt8}
    (hb : b ∈ pattern) (hstar : b ≠ 42) (hone : b ≠ 63)
    (hforeign : ∀ c ∈ g.chars, ceq b c true = false) : meets g pattern = false := by
  rw [← Bool.not_eq_true, meets_iff]
  rintro ⟨w, hw, hmatch⟩
  have htoken : Token.one (SameChar true b) ∈ pattern.map (globToken true) := by
    refine List.mem_map.2 ⟨b, hb, ?_⟩
    rw [globToken, if_neg hstar, if_neg hone]
  obtain ⟨c, hc, hsame⟩ := exists_accepted hmatch htoken
  have hnot := hforeign c (Phrase.mem_chars g hw hc)
  rw [(ceq_iff b c true).2 hsame] at hnot
  cases hnot

/-! ### The warning -/

/-- The segments that are matched: trimmed, and not blank. -/
def globSegments (pattern : List UInt8) : List (List UInt8) :=
  ((pattern.splitOn 59).map trim).filter (· ≠ [])

/-- If the warning is given, some segment matches no numeric address. -/
def NameOnlySound (pattern : Option CStr) : Prop :=
  pmxHostPatternNeedsNames pattern = true →
    ∃ seg ∈ globSegments (strOrEmpty pattern), ∀ w ∈ address.lang, pmxGlobMatch seg w true = false

theorem meets_address_eq_false_iff (seg : List UInt8) :
    meets address seg = false ↔ ∀ w ∈ address.lang, pmxGlobMatch seg w true = false := by
  rw [← Bool.not_eq_true, meets_iff]
  constructor
  · intro hnone w hw
    rw [← Bool.not_eq_true, pmxGlobMatch_eq_true_iff]
    exact fun hmatch => hnone ⟨w, hw, hmatch⟩
  · rintro hnone ⟨w, hw, hmatch⟩
    have hno := hnone w hw
    rw [(pmxGlobMatch_eq_true_iff true seg w).2 hmatch] at hno
    cases hno

/-- **When the warning is right**: no segment of the pattern has a letter and no colon, or for some segment
the grammar of numeric addresses, read against it, comes to no end. -/
theorem nameOnlySound_iff (pattern : Option CStr) :
    NameOnlySound pattern ↔
      (∀ seg ∈ (strOrEmpty pattern).splitOn 59, nameSegment seg = false) ∨
        ∃ seg ∈ globSegments (strOrEmpty pattern), meets address seg = false := by
  have hwarns : pmxHostPatternNeedsNames pattern = ((strOrEmpty pattern).splitOn 59).any nameSegment := by
    cases pattern with
    | none => rfl
    | some s => exact needsNamesLoop_any s.str
  simp only [NameOnlySound, hwarns, meets_address_eq_false_iff]
  rw [imp_iff_not_or, Bool.not_eq_true, List.any_eq_false]
  simp only [Bool.not_eq_true]

/-- A segment with a character that no numeric address has, such as a letter after `f`. -/
theorem nameOnlySound_of_foreign {pattern : Option CStr} {seg : List UInt8}
    (hseg : seg ∈ globSegments (strOrEmpty pattern)) {b : UInt8} (hb : b ∈ seg) (hstar : b ≠ 42)
    (hone : b ≠ 63) (hforeign : ∀ c ∈ address.chars, ceq b c true = false) : NameOnlySound pattern :=
  (nameOnlySound_iff pattern).2 (Or.inr ⟨seg, hseg, meets_eq_false_of_foreign hb hstar hone hforeign⟩)

/-- A pattern for the link-local addresses of IPv6. -/
def linkLocalPattern : CStr := ⟨bytes "fe80*", by decide⟩

/-- The warning says that the pattern matches no address, but it matches `fe80::1`. -/
theorem not_nameOnlySound_linkLocal :
    pmxHostPatternNeedsNames (some linkLocalPattern) = true ∧ bytes "fe80::1" ∈ address.lang ∧
      pmxGlobMatch (bytes "fe80*") (bytes "fe80::1") true = true ∧
      ¬NameOnlySound (some linkLocalPattern) := by
  have hwarns : pmxHostPatternNeedsNames (some linkLocalPattern) = true := by
    rw [show pmxHostPatternNeedsNames (some linkLocalPattern) = needsNamesLoop linkLocalPattern.str from rfl,
      needsNamesLoop_any]
    decide +kernel
  have haddress : bytes "fe80::1" ∈ address.lang := by decide +kernel
  have hmatch : pmxGlobMatch (bytes "fe80*") (bytes "fe80::1") true = true := by
    obtain ⟨w, hw, hmatch⟩ :=
      (meets_iff (Phrase.word (bytes "fe80::1")) (bytes "fe80*")).1 (by decide +kernel)
    rw [Phrase.mem_lang_word.1 hw] at hmatch
    exact (pmxGlobMatch_eq_true_iff true _ _).2 hmatch
  refine ⟨hwarns, haddress, hmatch, fun hsound => ?_⟩
  obtain ⟨seg, hseg, hnone⟩ := hsound hwarns
  have honly : ∀ seg ∈ globSegments (strOrEmpty (some linkLocalPattern)), seg = bytes "fe80*" := by
    decide +kernel
  have hno := hnone _ haddress
  rw [honly seg hseg, hmatch] at hno
  cases hno

end ProxiMight
