import ProxiMight.Rule
import ProxiMight.Wildcard

/-!
# What a glob pattern means

`pmx_glob_match` remembers one place to go back to, the last `*`.  `MatchesGlob` is the meaning of a
pattern with no algorithm in it, and the loop decides it on every pattern and every text: while it runs,
the answer is that of the pattern from the last `*` on, given the text from where that star now stands.

* **`globLoop_iff`** — the loop's answer in every state that it can be in.
* **`pmxGlobMatch_eq_true_iff`** — the matcher decides `MatchesGlob`.
-/

namespace ProxiMight

open CString Wildcard

/-- One is a capital letter and the other the same letter in small. -/
def CaseVariant (a b : UInt8) : Prop :=
  (65 ≤ a ∧ a ≤ 90 ∧ b = a + 32) ∨ (65 ≤ b ∧ b ≤ 90 ∧ a = b + 32)

/-- The character itself or, where case does not count, its case variant. -/
def SameChar (ci : Bool) (a b : UInt8) : Prop := a = b ∨ (ci = true ∧ CaseVariant a b)

/-- What a character of a pattern stands for: `*`, `?`, or itself. -/
def globToken (ci : Bool) (b : UInt8) : Token UInt8 :=
  if b = 42 then .star else if b = 63 then .one fun _ => True else .one (SameChar ci b)

/-- The whole text matches the pattern. -/
def MatchesGlob (ci : Bool) (pattern text : List UInt8) : Prop :=
  Matches (pattern.map (globToken ci)) text

theorem toLower_eq_iff (a b : UInt8) : toLower a = toLower b ↔ a = b ∨ CaseVariant a b := by
  simp only [toLower, CaseVariant, UInt8.le_iff_toNat_le, ← UInt8.toNat_inj, UInt8.toNat_add]
  split_ifs <;> simp only [UInt8.toNat_add, UInt8.toNat_ofNat] at * <;> omega

theorem ceq_iff (a b : UInt8) (ci : Bool) : ceq a b ci = true ↔ SameChar ci a b := by
  cases ci with
  | false => simp only [ceq, SameChar, Bool.false_eq_true, if_false, beq_iff_eq, false_and, or_false]
  | true => simp only [ceq, SameChar, if_true, beq_iff_eq, true_and, toLower_eq_iff]

theorem globToken_eq_star_iff {ci : Bool} {b : UInt8} : globToken ci b = .star ↔ b = 42 := by
  rw [globToken]
  split_ifs with hstar hone
  · simp only [hstar]
  · simp only [hstar]
  · simp only [hstar]

/-- A character other than `*` takes one character, the one the loop accepts for it. -/
theorem globToken_of_ne (ci : Bool) {b : UInt8} (hb : b ≠ 42) :
    ∃ accepts, globToken ci b = .one accepts ∧
      ∀ c, accepts c ↔ (decide (b = 63) || ceq b c ci) = true := by
  rw [globToken, if_neg hb]
  split_ifs with hone
  · refine ⟨_, rfl, fun c => ?_⟩
    rw [decide_eq_true hone, Bool.true_or, eq_self_iff_true]
  · refine ⟨_, rfl, fun c => ?_⟩
    rw [decide_eq_false hone, Bool.false_or, ceq_iff]

theorem drop_of_getElem? {l : List UInt8} {i : ℕ} {c : UInt8} (h : l[i]? = some c) :
    l.drop i = c :: l.drop (i + 1) := by
  obtain ⟨hi, rfl⟩ := List.getElem?_eq_some_iff.1 h
  exact List.drop_eq_getElem_cons hi

section Loop

variable {pattern text : List UInt8} {ci : Bool}

/-- The pattern from `p` on. -/
def patternFrom (pattern : List UInt8) (ci : Bool) (p : ℕ) : List (Token UInt8) :=
  (pattern.drop p).map (globToken ci)

/-- The last star stands at `sp`, and what stands between it and `p` has taken the text from `starT` up to
`starT + k`. -/
def SinceStar (pattern text : List UInt8) (ci : Bool) (sp p starT k : ℕ) : Prop :=
  ∃ seg m, patternFrom pattern ci sp = .star :: (seg ++ patternFrom pattern ci p) ∧
    text.drop starT = m ++ text.drop (starT + k) ∧ Spans seg m

/-- What `star_p` says in a state of the loop. -/
def GlobInv (pattern text : List UInt8) (ci : Bool) (starP : Option ℕ) (p starT k : ℕ) : Prop :=
  ∀ sp, starP = some sp → SinceStar pattern text ci sp p starT k

/-- What is left to decide in a state of the loop. -/
def GlobGoal (pattern text : List UInt8) (ci : Bool) (starP : Option ℕ) (p starT k : ℕ) : Prop :=
  match starP with
  | none => Matches (patternFrom pattern ci p) (text.drop (starT + k))
  | some sp => Matches (patternFrom pattern ci sp) (text.drop starT)

theorem patternFrom_of_none {p : ℕ} (hp : pattern[p]? = none) : patternFrom pattern ci p = [] := by
  rw [patternFrom, List.drop_of_length_le (List.getElem?_eq_none_iff.1 hp), List.map_nil]

theorem patternFrom_of_some {p : ℕ} {b : UInt8} (hp : pattern[p]? = some b) :
    patternFrom pattern ci p = globToken ci b :: patternFrom pattern ci (p + 1) := by
  rw [patternFrom, drop_of_getElem? hp, List.map_cons, patternFrom]

theorem patternFrom_star {p : ℕ} (hp : pattern[p]? = some 42) :
    patternFrom pattern ci p = .star :: patternFrom pattern ci (p + 1) := by
  rw [patternFrom_of_some hp, globToken_eq_star_iff.2 rfl]

/-- The pattern after its end is passed over is all stars exactly if it matches the empty text. -/
theorem starsLeft_iff (ci : Bool) (p : ℕ) :
    ((pattern.drop p).dropWhile (· == 42)).isEmpty = true ↔ Matches (patternFrom pattern ci p) [] := by
  simp only [List.isEmpty_iff, List.dropWhile_eq_nil_iff, matches_empty_iff, patternFrom,
    List.forall_mem_map, globToken_eq_star_iff, beq_iff_eq]

/-- Just behind a star nothing has been taken yet. -/
theorem sinceStar_self {sp : ℕ} (starT : ℕ)
    (hsp : patternFrom pattern ci sp = .star :: patternFrom pattern ci (sp + 1)) :
    SinceStar pattern text ci sp (sp + 1) starT 0 :=
  ⟨[], [], hsp, rfl, .nil⟩

/-- The place gone back to is a star. -/
theorem SinceStar.star {sp p starT k : ℕ} (h : SinceStar pattern text ci sp p starT k) :
    patternFrom pattern ci sp = .star :: patternFrom pattern ci (sp + 1) := by
  obtain ⟨seg, m, hseg, -, -⟩ := h
  have htail : patternFrom pattern ci (sp + 1) = (patternFrom pattern ci sp).tail := by
    rw [patternFrom, patternFrom, ← List.map_tail, List.tail_drop]
  rw [htail, hseg, List.tail_cons]

/-- What is left of the pattern does not match the text left, so the last star takes a character more. -/
theorem SinceStar.goBack {sp p starT k : ℕ} (h : SinceStar pattern text ci sp p starT k)
    (hlt : starT + k < text.length)
    (hno : ¬ Matches (patternFrom pattern ci p) (text.drop (starT + k))) :
    GlobGoal pattern text ci (some sp) p starT k ↔
      GlobGoal pattern text ci (some sp) (sp + 1) (starT + 1) 0 := by
  have hstar := h.star
  obtain ⟨seg, m, hseg, hm, hspan⟩ := h
  have hcons : text.drop starT = text[starT] :: text.drop (starT + 1) :=
    List.drop_eq_getElem_cons (by omega)
  have hstuck : ¬ Matches (patternFrom pattern ci (sp + 1)) (text[starT] :: text.drop (starT + 1)) := by
    rw [← hcons, hm, show patternFrom pattern ci (sp + 1) = seg ++ patternFrom pattern ci p from
      List.tail_eq_of_cons_eq (hstar.symm.trans hseg), matches_append_iff hspan]
    exact hno
  show Matches (patternFrom pattern ci sp) (text.drop starT) ↔
    Matches (patternFrom pattern ci sp) (text.drop (starT + 1))
  rw [hstar, hcons]
  exact matches_star_cons_iff hstuck

theorem globLoop_iff (starP : Option ℕ) (p starT k : ℕ)
    (h : GlobInv pattern text ci starP p starT k) :
    globLoop pattern text ci starP p starT k = true ↔ GlobGoal pattern text ci starP p starT k := by
  fun_induction globLoop pattern text ci starP p starT k with
  | case1 starP p starT k ht =>
    -- the text has ended
    have htext : text.drop (starT + k) = [] := List.drop_of_length_le (List.getElem?_eq_none_iff.1 ht)
    rw [starsLeft_iff ci]
    cases starP with
    | none =>
      show _ ↔ Matches (patternFrom pattern ci p) (text.drop (starT + k))
      rw [htext]
    | some sp =>
      obtain ⟨seg, m, hseg, hm, hspan⟩ := h sp rfl
      show _ ↔ Matches (patternFrom pattern ci sp) (text.drop starT)
      rw [hseg, hm, htext, List.append_nil, matches_star_spans_iff hspan]
  | case2 p starT k c ht hp sp ih =>
    -- the pattern has ended before the text
    have hback := h sp rfl
    rw [ih (fun _ hsp => Option.some.inj hsp ▸ sinceStar_self _ hback.star),
      hback.goBack (List.getElem?_eq_some_iff.1 ht).1]
    rw [patternFrom_of_none hp, drop_of_getElem? ht, matches_nil_iff]
    exact List.cons_ne_nil _ _
  | case3 p starT k c ht hp =>
    rw [Bool.false_eq_true, false_iff]
    show ¬ Matches (patternFrom pattern ci p) (text.drop (starT + k))
    rw [patternFrom_of_none hp, drop_of_getElem? ht, matches_nil_iff]
    exact List.cons_ne_nil _ _
  | case4 starP p starT k c ht hp ih =>
    -- a star: whatever an earlier star could still take, this one can
    rw [ih (fun _ hsp => Option.some.inj hsp ▸ sinceStar_self _ (patternFrom_star hp))]
    cases starP with
    | none => exact Iff.rfl
    | some sp =>
      obtain ⟨seg, m, hseg, hm, hspan⟩ := h sp rfl
      show Matches (patternFrom pattern ci p) (text.drop (starT + k)) ↔
        Matches (patternFrom pattern ci sp) (text.drop starT)
      rw [hseg, hm, patternFrom_star hp, matches_star_append_iff hspan]
  | case5 starP p starT k c ht b hp hb hc ih =>
    -- a character that fits
    obtain ⟨accepts, htok, hacc⟩ := globToken_of_ne ci hb
    have hstep : GlobInv pattern text ci starP (p + 1) starT (k + 1) := by
      intro sp hsp
      obtain ⟨seg, m, hseg, hm, hspan⟩ := h sp hsp
      refine ⟨seg ++ [.one accepts], m ++ [c], ?_, ?_, spans_concat hspan ((hacc c).2 hc)⟩
      · rw [hseg, patternFrom_of_some hp, htok, List.append_assoc, List.singleton_append]
      · rw [hm, drop_of_getElem? ht, List.append_assoc, List.singleton_append, Nat.add_assoc]
    rw [ih hstep]
    cases starP with
    | none =>
      show Matches (patternFrom pattern ci (p + 1)) (text.drop (starT + (k + 1))) ↔
        Matches (patternFrom pattern ci p) (text.drop (starT + k))
      rw [patternFrom_of_some hp, htok, drop_of_getElem? ht, matches_one_cons_iff, Nat.add_assoc]
      exact (and_iff_right ((hacc c).2 hc)).symm
    | some sp => exact Iff.rfl
  | case6 p starT k c ht b hp hb hc sp ih =>
    -- a character that does not fit, with a star to go back to
    have hback := h sp rfl
    obtain ⟨accepts, htok, hacc⟩ := globToken_of_ne ci hb
    rw [ih (fun _ hsp => Option.some.inj hsp ▸ sinceStar_self _ hback.star),
      hback.goBack (List.getElem?_eq_some_iff.1 ht).1]
    rw [patternFrom_of_some hp, htok, drop_of_getElem? ht, matches_one_cons_iff, hacc]
    exact fun hm => hc hm.1
  | case7 p starT k c ht b hp hb hc =>
    obtain ⟨accepts, htok, hacc⟩ := globToken_of_ne ci hb
    rw [Bool.false_eq_true, false_iff]
    show ¬ Matches (patternFrom pattern ci p) (text.drop (starT + k))
    rw [patternFrom_of_some hp, htok, drop_of_getElem? ht, matches_one_cons_iff, hacc]
    exact fun hm => hc hm.1

/-- Before the loop nothing is matched and there is no star to go back to. -/
theorem globLoop_start (ci : Bool) (pattern text : List UInt8) :
    globLoop pattern text ci none 0 0 0 = true ↔ MatchesGlob ci pattern text := by
  rw [globLoop_iff none 0 0 0 fun _ hsp => nomatch hsp]
  exact Iff.rfl

end Loop

/-- On every pattern and every text the matcher ends and decides the meaning of the pattern. -/
theorem pmxGlobMatch_eq_true_iff (ci : Bool) (pattern text : List UInt8) :
    pmxGlobMatch pattern text ci = true ↔ MatchesGlob ci pattern text := by
  rw [pmxGlobMatch, globLoop_start]

end ProxiMight
