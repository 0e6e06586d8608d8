import ProxiMight.RemoveChain

/-!
# Validated profiles (`pmx_profile_validate`)

The validator looks at the rules of the list and at the hops of every chain.  It asks nothing about the
default rule, whether a chain has hops at all, or what a target of an undeclared kind would be.

* **`pmxProfileValidate_ok_iff`** — what is checked.
* **`blockedTarget_iff`** — a rule of a validated profile blocks its traffic because its target is
  disabled, exactly when the target is one that the validator understands.
-/

namespace ProxiMight

open CString

/-- The checks of one rule; the text of the first that fails. -/
def ruleFault (pf : PmxProfile) (r : PmxRule) : Option String :=
  if pmxPortSpecValidate r.portSpec.str ≠ .ok then some "a rule has an invalid port spec"
  else if r.action = .proxy then
    if r.targetKind = .proxy ∧ pmxProfileFindProxy pf r.targetId = none then
      some "a rule points at a missing proxy"
    else if r.targetKind = .chain ∧ pmxProfileFindChain pf r.targetId = none then
      some "a rule points at a missing chain"
    else if r.targetKind = .none then some "a proxy rule has no target selected"
    else none
  else none

/-- The loop over the hops of one chain. -/
def chainFault (pf : PmxProfile) (c : PmxChain) : Option String :=
  if c.hops.any fun hop => (pmxProfileFindProxy pf hop).isNone then
    some "a chain references a missing proxy"
  else none

/-- The status, and the string left in `msg`. -/
def pmxProfileValidate (msgSize : ℕ) (pf : PmxProfile) : PmxStatus × CBuf msgSize :=
  match pf.rules.findSome? (ruleFault pf) with
  | some text => (.errParse, strlcpy msgSize (bytes text))
  | none =>
    match pf.chains.findSome? (chainFault pf) with
    | some text => (.errParse, strlcpy msgSize (bytes text))
    | none => (.ok, .empty)

/-! ### What is checked -/

/-- The port spec of the rule is valid, and if it proxies it has a target that is not missing. -/
structure RuleValid (pf : PmxProfile) (r : PmxRule) : Prop where
  ports : pmxPortSpecValidate r.portSpec.str = .ok
  proxy : r.action = .proxy → r.targetKind = .proxy → ∃ p, pmxProfileFindProxy pf r.targetId = some p
  chain : r.action = .proxy → r.targetKind = .chain → ∃ c, pmxProfileFindChain pf r.targetId = some c
  target : r.action = .proxy → r.targetKind ≠ .none

/-- Every hop of the chain names a proxy. -/
def HopsPresent (pf : PmxProfile) (c : PmxChain) : Prop :=
  ∀ hop ∈ c.hops, ∃ p, pmxProfileFindProxy pf hop = some p

theorem ruleFault_eq_none (pf : PmxProfile) (r : PmxRule) : ruleFault pf r = none ↔ RuleValid pf r := by
  rw [ruleFault]
  split_ifs with hports haction hproxy hchain hnone
  · exact iff_of_false (by simp) fun h => hports h.ports
  · refine iff_of_false (by simp) fun h => ?_
    obtain ⟨p, hp⟩ := h.proxy haction hproxy.1
    rw [hproxy.2] at hp
    cases hp
  · refine iff_of_false (by simp) fun h => ?_
    obtain ⟨c, hc⟩ := h.chain haction hchain.1
    rw [hchain.2] at hc
    cases hc
  · exact iff_of_false (by simp) fun h => h.target haction hnone
  · refine iff_of_true rfl ⟨not_not.1 hports, fun _ hkind => ?_, fun _ hkind => ?_, fun _ => hnone⟩
    · exact Option.ne_none_iff_exists'.1 fun h => hproxy ⟨hkind, h⟩
    · exact Option.ne_none_iff_exists'.1 fun h => hchain ⟨hkind, h⟩
  · exact iff_of_true rfl ⟨not_not.1 hports, fun h => absurd h haction, fun h => absurd h haction,
      fun h => absurd h haction⟩

theorem chainFault_eq_none (pf : PmxProfile) (c : PmxChain) :
    chainFault pf c = none ↔ HopsPresent pf c := by
  rw [chainFault]
  split_ifs with hmissing
  · refine iff_of_false (by simp) fun h => ?_
    obtain ⟨hop, hhop, hnone⟩ := List.any_eq_true.1 hmissing
    obtain ⟨p, hp⟩ := h hop hhop
    rw [hp] at hnone
    cases hnone
  · refine iff_of_true rfl fun hop hhop => Option.ne_none_iff_exists'.1 fun h => hmissing ?_
    exact List.any_eq_true.2 ⟨hop, hhop, by rw [h]; rfl⟩

/-- **What the validator accepts.** -/
theorem pmxProfileValidate_ok_iff (msgSize : ℕ) (pf : PmxProfile) :
    (pmxProfileValidate msgSize pf).1 = .ok ↔
      (∀ r ∈ pf.rules, RuleValid pf r) ∧ ∀ c ∈ pf.chains, HopsPresent pf c := by
  have hrules : pf.rules.findSome? (ruleFault pf) = none ↔ ∀ r ∈ pf.rules, RuleValid pf r := by
    rw [List.findSome?_eq_none_iff]
    exact forall₂_congr fun r _ => ruleFault_eq_none pf r
  have hchains : pf.chains.findSome? (chainFault pf) = none ↔ ∀ c ∈ pf.chains, HopsPresent pf c := by
    rw [List.findSome?_eq_none_iff]
    exact forall₂_congr fun c _ => chainFault_eq_none pf c
  rw [← hrules, ← hchains, pmxProfileValidate]
  cases pf.rules.findSome? (ruleFault pf) with
  | some text => simp
  | none =>
    cases pf.chains.findSome? (chainFault pf) with
    | some text => simp
    | none => simp

/-! ### The deciding rule and its target -/

/-- The target of the rule (the proxy, the chain, or a hop of the chain) is in the profile and
disabled. -/
def TargetDisabled (pf : PmxProfile) (r : PmxRule) : Prop :=
  (r.targetKind = .proxy ∧ ∃ p, pmxProfileFindProxy pf r.targetId = some p ∧ p.enabled = false) ∨
  (r.targetKind = .chain ∧ ∃ c, pmxProfileFindChain pf r.targetId = some c ∧
    (c.enabled = false ∨
      ∃ hop ∈ c.hops, ∃ p, pmxProfileFindProxy pf hop = some p ∧ p.enabled = false))

/-- The rule that decides `q` has a target of a declared kind; if it is the default rule, which is not
validated, the target is not missing; and if it is an enabled chain, the chain has hops. -/
structure TargetForeseen (pf : PmxProfile) (q : PmxConnQuery) (r : PmxRule) : Prop where
  declared : r.targetKind = .proxy ∨ r.targetKind = .chain
  proxy : ¬DecidedByList pf q → r.targetKind = .proxy → pmxProfileFindProxy pf r.targetId ≠ none
  chain : ¬DecidedByList pf q → r.targetKind = .chain → pmxProfileFindChain pf r.targetId ≠ none
  hops : ∀ c, r.targetKind = .chain → pmxProfileFindChain pf r.targetId = some c →
    c.enabled = true → c.hops ≠ []

theorem chooseRule_mem_of_decidedByList {pf : PmxProfile} {q : PmxConnQuery} (h : DecidedByList pf q) :
    chooseRule pf q ∈ pf.rules := by
  obtain ⟨r, hr⟩ := (decidedByList_iff pf q).1 h
  rw [chooseRule_eq, hr]
  exact List.mem_of_find?_eq_some hr

theorem action_of_verdict_proxy {pf : PmxProfile} {q : PmxConnQuery}
    (h : (pmxResolveWithProfile pf q).verdict = .proxy) : (chooseRule pf q).action = .proxy := by
  cases haction : (chooseRule pf q).action with
  | proxy => rfl
  | other raw =>
    rw [pmxResolveWithProfile, haction] at h
    cases h
  | direct =>
    rw [pmxResolveWithProfile, haction] at h
    cases h
  | block =>
    rw [pmxResolveWithProfile, haction] at h
    cases h

/-- A query decided by a rule that targets one proxy gets a path exactly when the proxy is there and
enabled. -/
theorem viaCount_eq_zero_of_proxy {pf : PmxProfile} {q : PmxConnQuery}
    (haction : (chooseRule pf q).action = .proxy) (hkind : (chooseRule pf q).targetKind = .proxy) :
    (pmxResolveWithProfile pf q).viaCount = 0 ↔ ¬HopAlive pf (chooseRule pf q).targetId := by
  rw [pmxResolveWithProfile]
  simp only [haction, hkind, resolveProxyTarget, HopAlive]
  cases pmxProfileFindProxy pf (chooseRule pf q).targetId with
  | none => simp [decisionInit]
  | some p => cases hen : p.enabled <;> simp [decisionInit, hen]

theorem not_hopAlive_of_find {pf : PmxProfile} {hop : PmxId} {p : PmxProxy}
    (hp : pmxProfileFindProxy pf hop = some p) : ¬HopAlive pf hop ↔ p.enabled = false := by
  rw [← Bool.not_eq_true, not_iff_not, HopAlive, hp]
  constructor
  · rintro ⟨p', hp', hen⟩
    obtain rfl := Option.some.inj hp'
    exact hen
  · intro hen
    exact ⟨p, rfl, hen⟩

/-- A validated chain that is there and gives no path is disabled, has a disabled hop, or has no hops. -/
theorem chain_gives_nothing {pf : PmxProfile} {c : PmxChain} (hhops : HopsPresent pf c)
    (h : ¬(c.enabled = true ∧ c.hops ≠ [] ∧ ∀ hop ∈ c.hops, HopAlive pf hop))
    (hne : c.enabled = true → c.hops ≠ []) :
    c.enabled = false ∨ ∃ hop ∈ c.hops, ∃ p, pmxProfileFindProxy pf hop = some p ∧
      p.enabled = false := by
  cases hen : c.enabled with
  | false => exact Or.inl rfl
  | true =>
    have hdead : ¬∀ hop ∈ c.hops, HopAlive pf hop := fun hall => h ⟨hen, hne hen, hall⟩
    push Not at hdead
    obtain ⟨hop, hhop, hnot⟩ := hdead
    obtain ⟨p, hp⟩ := hhops hop hhop
    exact Or.inr ⟨hop, hhop, p, hp, (not_hopAlive_of_find hp).1 hnot⟩

/-- **When a validated rule blocks for the reason the user can see.**  For every profile that is
validated and every query that is resolved to a proxy verdict without a path: the target of the deciding
rule is in the profile and disabled, exactly when the target is of a declared kind, not the missing
target of the default rule, and not an enabled chain without hops. -/
theorem blockedTarget_iff {msgSize : ℕ} {pf : PmxProfile} {q : PmxConnQuery} {r : PmxRule}
    (hvalid : (pmxProfileValidate msgSize pf).1 = .ok) (hr : Decides pf q r)
    (hverdict : (pmxResolveWithProfile pf q).verdict = .proxy)
    (hcount : (pmxResolveWithProfile pf q).viaCount = 0) :
    TargetDisabled pf r ↔ TargetForeseen pf q r := by
  obtain ⟨hrules, hchains⟩ := (pmxProfileValidate_ok_iff msgSize pf).1 hvalid
  obtain rfl := hr.eq_chooseRule
  have haction := action_of_verdict_proxy hverdict
  constructor
  · rintro (⟨hkind, p, hp, -⟩ | ⟨hkind, c, hc, hoff⟩)
    · refine ⟨Or.inl hkind, fun _ _ => ?_, fun _ h => ?_, fun c h => ?_⟩
      · rw [hp]; exact Option.some_ne_none p
      · rw [hkind] at h; cases h
      · rw [hkind] at h; cases h
    · refine ⟨Or.inr hkind, fun _ h => ?_, fun _ _ => ?_, fun c' _ hc' hen hnil => ?_⟩
      · rw [hkind] at h; cases h
      · rw [hc]; exact Option.some_ne_none c
      · obtain rfl := Option.some.inj (hc.symm.trans hc')
        rcases hoff with hoff | ⟨hop, hhop, -⟩
        · rw [hen] at hoff; cases hoff
        · rw [hnil] at hhop; cases hhop
  · intro h
    rcases h.declared with hkind | hkind
    · have hpresent : ∃ p, pmxProfileFindProxy pf (chooseRule pf q).targetId = some p := by
        by_cases hlist : DecidedByList pf q
        · exact (hrules _ (chooseRule_mem_of_decidedByList hlist)).proxy haction hkind
        · exact Option.ne_none_iff_exists'.1 (h.proxy hlist hkind)
      obtain ⟨p, hp⟩ := hpresent
      have hdead := (viaCount_eq_zero_of_proxy haction hkind).1 hcount
      exact Or.inl ⟨hkind, p, hp, (not_hopAlive_of_find hp).1 hdead⟩
    · have hpresent : ∃ c, pmxProfileFindChain pf (chooseRule pf q).targetId = some c := by
        by_cases hlist : DecidedByList pf q
        · exact (hrules _ (chooseRule_mem_of_decidedByList hlist)).chain haction hkind
        · exact Option.ne_none_iff_exists'.1 (h.chain hlist hkind)
      obtain ⟨c, hc⟩ := hpresent
      have hnone := (viaCount_eq_zero_of_chain haction hkind).1 hcount
      have hdead : ¬(c.enabled = true ∧ c.hops ≠ [] ∧ ∀ hop ∈ c.hops, HopAlive pf hop) :=
        fun hlive => hnone ⟨c, hc, hlive⟩
      exact Or.inr ⟨hkind, c, hc, chain_gives_nothing (hchains c (List.mem_of_find?_eq_some hc)) hdead
        (h.hops c hkind hc)⟩

/-- A disabled proxy, and a rule that targets it. -/
def disabledProxyProfile : PmxProfile :=
  { pmxProfileInit with
      proxies := [{ pmxProxyInit with id := 1, enabled := false }]
      rules := [{ pmxRuleInit with id := 2, action := .proxy, targetKind := .proxy, targetId := 1 }] }

theorem blockedTarget_iff_disabledProxy :
    TargetDisabled disabledProxyProfile (chooseRule disabledProxyProfile ⟨none, none, none, 443⟩) ↔
      TargetForeseen disabledProxyProfile ⟨none, none, none, 443⟩
        (chooseRule disabledProxyProfile ⟨none, none, none, 443⟩) :=
  blockedTarget_iff (show (pmxProfileValidate 64 disabledProxyProfile).1 = .ok by decide +kernel)
    (decides_chooseRule _ _) (by decide +kernel) (by decide +kernel)

/-- An enabled chain without hops, and a rule that targets it. -/
def emptyChainProfile : PmxProfile :=
  { pmxProfileInit with
      chains := [{ pmxChainInit with id := 1 }]
      rules := [{ pmxRuleInit with id := 2, action := .proxy, targetKind := .chain, targetId := 1 }] }

/-- The profile is valid, everything is blocked, and nothing in it is disabled. -/
theorem not_blockedTarget_emptyChain :
    (pmxProfileValidate 64 emptyChainProfile).1 = .ok ∧
      (pmxResolveWithProfile emptyChainProfile ⟨none, none, none, 443⟩).verdict = .proxy ∧
      (pmxResolveWithProfile emptyChainProfile ⟨none, none, none, 443⟩).viaCount = 0 ∧
      ∃ r, Decides emptyChainProfile ⟨none, none, none, 443⟩ r ∧ ¬TargetDisabled emptyChainProfile r := by
  refine ⟨by decide +kernel, by decide +kernel, by decide +kernel, _, decides_chooseRule _ _, ?_⟩
  rintro (⟨hkind, -⟩ | ⟨-, c, hc, hoff⟩)
  · cases hkind
  · obtain rfl : { pmxChainInit with id := 1 } = c := Option.some.inj hc
    rcases hoff with hoff | ⟨hop, hhop, -⟩
    · cases hoff
    · cases hhop

end ProxiMight
