import ProxiMight.FreshIds
import ProxiMight.Shifts

/-!
# Editing one rule (`pmx_profile_move_rule`, `pmx_profile_remove_rule`)

The rules are an array, and a rule is moved or taken out by copying its neighbours over it, one slot
after the other.  A query that the rule does not match is decided by the same rule as before.  A rule is
removed by its id: the first rule with the id goes, and rules read from a file may share one.

* **`moveRuleInPlace_eq`**, **`removeRuleInPlace_eq`** — what the copying amounts to.
* **`ruleEdit_frame`** — an edit of one rule is not seen by a query that the rule does not match.
-/

namespace ProxiMight

open CString Shifts

/-- `pmx_profile_move_rule`, slot by slot. -/
def moveRuleInPlace (pf : PmxProfile) (src dst : ℕ) : PmxProfile × PmxStatus :=
  if h : src < pf.rules.length ∧ dst < pf.rules.length then
    if src = dst then (pf, .ok)
    else ({ pf with rules := moveSlot pf.rules src dst (pf.rules.get ⟨src, h.1⟩) }, .ok)
  else (pf, .errInvalidArg)

/-- `pmx_profile_remove_rule`, slot by slot. -/
def removeRuleInPlace (pf : PmxProfile) (id : PmxId) : PmxProfile × PmxStatus :=
  match pf.rules.findIdx? (·.id == id) with
  | some i => ({ pf with rules := removeSlot pf.rules i }, .ok)
  | none => (pf, .errNotFound)

/-- The `enabled` flag of a rule is toggled. -/
def toggleRule (r : PmxRule) : PmxRule := { r with enabled := !r.enabled }

/-- The rule in the slot `i` is toggled. -/
def toggleRuleAt (pf : PmxProfile) (i : ℕ) : PmxProfile :=
  { pf with rules := pf.rules.modify i toggleRule }

/-! ### What the copying amounts to -/

theorem moveRuleInPlace_eq (pf : PmxProfile) (src dst : ℕ) :
    moveRuleInPlace pf src dst = pmxProfileMoveRule pf src dst := by
  rw [moveRuleInPlace, pmxProfileMoveRule]
  by_cases hsrc : src < pf.rules.length
  · have hget : pf.rules[src]? = some (pf.rules.get ⟨src, hsrc⟩) := List.getElem?_eq_getElem hsrc
    rw [hget]
    dsimp only
    by_cases hdst : dst < pf.rules.length
    · rw [dif_pos ⟨hsrc, hdst⟩, if_neg (Nat.not_le.2 hdst), moveSlot_eq hget hdst]
    · rw [dif_neg (fun h => hdst h.2), if_pos (Nat.not_lt.1 hdst)]
  · rw [dif_neg (fun h => hsrc h.1), List.getElem?_eq_none (Nat.not_lt.1 hsrc)]

theorem removeRuleInPlace_eq (pf : PmxProfile) (id : PmxId) :
    removeRuleInPlace pf id = pmxProfileRemoveRule pf id := by
  rw [removeRuleInPlace, pmxProfileRemoveRule, List.eraseP_eq_eraseIdx]
  cases hfind : pf.rules.findIdx? (·.id == id) with
  | none =>
    rw [if_neg]
    rw [Bool.not_eq_true, List.any_eq_false]
    exact fun r hr => by simpa using List.findIdx?_eq_none_iff.1 hfind r hr
  | some i =>
    obtain ⟨hi, hid, -⟩ := List.findIdx?_eq_some_iff_getElem.1 hfind
    rw [if_pos (List.any_eq_true.2 ⟨_, List.getElem_mem hi, hid⟩)]
    dsimp only
    rw [removeSlot_eq hi]

/-! ### The deciding rule -/

theorem choosable_of_rejects {q : PmxConnQuery} {r : PmxRule} (h : pmxRuleMatches r q = false) :
    choosable q r = false := by
  rw [choosable, h, Bool.and_false]

/-- A toggled rule matches what it matched. -/
theorem choosable_toggleRule {q : PmxConnQuery} {r : PmxRule} (h : pmxRuleMatches r q = false) :
    choosable q (toggleRule r) = false :=
  choosable_of_rejects (show pmxRuleMatches (toggleRule r) q = false from h)

/-- Only what a search for the deciding rule finds counts. -/
theorem resolve_of_find? {pf : PmxProfile} {q : PmxConnQuery} {rules : List PmxRule}
    (h : rules.find? (choosable q) = pf.rules.find? (choosable q)) :
    pmxResolveWithProfile { pf with rules := rules } q = pmxResolveWithProfile pf q :=
  pmxResolveWithProfile_of_chooseRule (by rw [chooseRule_eq, chooseRule_eq, h]) rfl rfl

theorem resolve_moveRule {pf : PmxProfile} {q : PmxConnQuery} {src : ℕ} {r : PmxRule}
    (hr : pf.rules[src]? = some r) (h : pmxRuleMatches r q = false) (dst : ℕ) :
    pmxResolveWithProfile (moveRuleInPlace pf src dst).1 q = pmxResolveWithProfile pf q := by
  rw [moveRuleInPlace]
  split_ifs with hlt heq
  · rfl
  · obtain ⟨hsrc, hget⟩ := List.getElem?_eq_some_iff.1 hr
    rw [List.get_eq_getElem, hget]
    exact resolve_of_find? (find?_moveSlot (choosable_of_rejects h) hr hlt.2)
  · rfl

theorem resolve_removeRule {pf : PmxProfile} {q : PmxConnQuery} {id : PmxId} {r : PmxRule}
    (hr : pf.rules.find? (·.id == id) = some r) (h : pmxRuleMatches r q = false) :
    pmxResolveWithProfile (removeRuleInPlace pf id).1 q = pmxResolveWithProfile pf q := by
  rw [removeRuleInPlace]
  cases hfind : pf.rules.findIdx? (·.id == id) with
  | none => rfl
  | some i =>
    obtain ⟨hi, -, -⟩ := List.findIdx?_eq_some_iff_getElem.1 hfind
    rw [List.find?_eq_bind_findIdx?_getElem?, hfind, Option.bind_some] at hr
    refine resolve_of_find? ?_
    rw [removeSlot_eq hi]
    exact find?_eraseIdx (choosable_of_rejects h) hr

theorem resolve_toggleRule {pf : PmxProfile} {q : PmxConnQuery} {i : ℕ} {r : PmxRule}
    (hr : pf.rules[i]? = some r) (h : pmxRuleMatches r q = false) :
    pmxResolveWithProfile (toggleRuleAt pf i) q = pmxResolveWithProfile pf q := by
  refine resolve_of_find? ?_
  rw [List.modify_eq_set_getElem?, hr]
  exact find?_set (choosable_of_rejects h) (choosable_toggleRule h) hr

/-! ### One rule edited -/

/-- The rule in the slot `src` has been moved to `dst`: it is there, the others stand as they stood, and
nothing but the order of the rules has changed. -/
structure MovedRule (pf pf' : PmxProfile) (src dst : ℕ) : Prop where
  others : pf' = { pf with rules := pf'.rules }
  perm : pf'.rules.Perm pf.rules
  moved : pf'.rules[dst]? = pf.rules[src]?
  order : pf'.rules.eraseIdx dst = pf.rules.eraseIdx src

theorem moveRuleInPlace_moved {pf : PmxProfile} {src dst : ℕ} (hsrc : src < pf.rules.length)
    (hdst : dst < pf.rules.length) :
    (moveRuleInPlace pf src dst).2 = .ok ∧ MovedRule pf (moveRuleInPlace pf src dst).1 src dst := by
  have hget : pf.rules[src]? = some (pf.rules.get ⟨src, hsrc⟩) := List.getElem?_eq_getElem hsrc
  rw [moveRuleInPlace, dif_pos ⟨hsrc, hdst⟩]
  split_ifs with heq
  · exact ⟨rfl, rfl, List.Perm.refl _, by rw [heq], by rw [heq]⟩
  · exact ⟨rfl, rfl, perm_moveSlot hget hdst, by rw [hget]; exact getElem?_moveSlot hget hdst,
      eraseIdx_moveSlot hget hdst⟩

/-- **Editing one rule affects the traffic it matches, and no other.**  For every profile, every rule in
it and every query that the rule does not match, the query is decided as before when the rule is moved
from any place to any other, when it is removed by its id and is the first with that id, and when its
`enabled` flag is toggled.  Moving takes one rule to its new place and keeps the others in their order,
and a position that is out of range is rejected without a change. -/
theorem ruleEdit_frame (pf : PmxProfile) :
    (∀ q i r, pf.rules[i]? = some r → pmxRuleMatches r q = false →
      (∀ dst, pmxResolveWithProfile (moveRuleInPlace pf i dst).1 q = pmxResolveWithProfile pf q) ∧
      (pf.rules.find? (·.id == r.id) = some r →
        pmxResolveWithProfile (removeRuleInPlace pf r.id).1 q = pmxResolveWithProfile pf q) ∧
      pmxResolveWithProfile (toggleRuleAt pf i) q = pmxResolveWithProfile pf q) ∧
    ∀ src dst,
      (src < pf.rules.length ∧ dst < pf.rules.length → (moveRuleInPlace pf src dst).2 = .ok ∧
        MovedRule pf (moveRuleInPlace pf src dst).1 src dst) ∧
      (¬(src < pf.rules.length ∧ dst < pf.rules.length) →
        moveRuleInPlace pf src dst = (pf, .errInvalidArg)) := by
  refine ⟨fun q i r hr h => ⟨resolve_moveRule hr h, fun hfirst => resolve_removeRule hfirst h,
    resolve_toggleRule hr h⟩, fun src dst => ⟨fun hlt => moveRuleInPlace_moved hlt.1 hlt.2, ?_⟩⟩
  intro hout
  rw [moveRuleInPlace, dif_neg hout]

/-- A rule that blocks port 25, and one for port 80 with the same id. -/
def sharedRuleIdProfile : PmxProfile :=
  { pmxProfileInit with
      rules :=
        [{ pmxRuleInit with id := 7, portSpec := strlcpy pmxMaxPortspec (bytes "25"), action := .block },
          { pmxRuleInit with id := 7, portSpec := strlcpy pmxMaxPortspec (bytes "80") }] }

/-- The rule for port 80 is removed by its id, and port 25 is no longer blocked. -/
theorem not_ruleEdit_frame_sharedRuleId :
    ∃ r, sharedRuleIdProfile.rules[1]? = some r ∧
      pmxRuleMatches r ⟨none, none, none, 25⟩ = false ∧
      (removeRuleInPlace sharedRuleIdProfile r.id).2 = .ok ∧
      (pmxResolveWithProfile sharedRuleIdProfile ⟨none, none, none, 25⟩).verdict = .block ∧
      (pmxResolveWithProfile (removeRuleInPlace sharedRuleIdProfile r.id).1
        ⟨none, none, none, 25⟩).verdict = .direct := by
  refine ⟨_, rfl, ?_, ?_, ?_, ?_⟩
  · decide +kernel
  · decide +kernel
  · decide +kernel
  · decide +kernel

end ProxiMight
