import ProxiMight.Profile

/-!
# From a query to a decision (`pmx_resolve_with_profile`)

The first enabled rule that matches decides, or the default rule.  A proxied connection gets a path:
the entries of `via_chain` up to `via_count`.  The hop loop gives up on the first hop it cannot resolve
and leaves a path of length 0, so a path is never shorter than the target asked for.

* **`resolve_firstMatch`** — first match, and all or nothing.
-/

namespace ProxiMight

open CString

/-- `pmx_verdict`. -/
inductive PmxVerdict
  | direct
  | proxy
  | block
  deriving DecidableEq, Repr

/-- `pmx_decision`; `viaChain` holds the entries of the array that were written, the path is the first
`viaCount` of them. -/
structure PmxDecision where
  verdict : PmxVerdict
  targetKind : PmxTargetKind
  targetId : PmxId
  viaLabel : CBuf pmxMaxLabel
  ruleName : CBuf pmxMaxName
  viaChain : List PmxProxy
  viaCount : ℕ
  viaHopCount : ℕ
  deriving DecidableEq

/-- The path a decision hands to the relay. -/
def PmxDecision.via (d : PmxDecision) : List PmxProxy := d.viaChain.take d.viaCount

/-- What `pmx_resolve_with_profile` and `pmx_engine_decide` start from. -/
def decisionInit : PmxDecision where
  verdict := .direct
  targetKind := .none
  targetId := pmxIdNone
  viaLabel := strlcpy pmxMaxLabel emDash
  ruleName := strlcpy pmxMaxName (bytes "Default")
  viaChain := []
  viaCount := 0
  viaHopCount := 0

/-- The rule that decides. -/
def chooseRule (pf : PmxProfile) (q : PmxConnQuery) : PmxRule :=
  match pf.rules.find? fun r => r.enabled && pmxRuleMatches r q with
  | some r => r
  | none => pf.defaultRule

/-- The hop loop: the entries written so far, and `n`. -/
def viaLoop (pf : PmxProfile) : List PmxId → List PmxProxy → List PmxProxy × ℕ
  | [], written => (written, written.length)
  | hop :: hops, written =>
    match pmxProfileFindProxy pf hop with
    | some hp => if hp.enabled then viaLoop pf hops (written ++ [hp]) else (written, 0)
    | none => (written, 0)

/-- The endpoints of a `PMX_TARGET_PROXY`. -/
def resolveProxyTarget (pf : PmxProfile) (id : PmxId) (d : PmxDecision) : PmxDecision :=
  let d := { d with viaHopCount := 1 }
  match pmxProfileFindProxy pf id with
  | some p => if p.enabled then { d with viaChain := [p], viaCount := 1 } else d
  | none => d

/-- The endpoints of a `PMX_TARGET_CHAIN`. -/
def resolveChainTarget (pf : PmxProfile) (id : PmxId) (d : PmxDecision) : PmxDecision :=
  match pmxProfileFindChain pf id with
  | some c =>
    if c.enabled && decide (c.hops.length > 0) then
      let r := viaLoop pf (c.hops.take pmxMaxChainHops) []
      -- a redundancy chain is a set of alternatives: only its first hop is traversed
      if c.mode = .redundancy ∧ r.2 > 1 then
        { d with viaChain := r.1, viaCount := 1, viaHopCount := 1 }
      else { d with viaChain := r.1, viaCount := r.2, viaHopCount := c.hops.length }
    else d
  | none => d

def pmxResolveWithProfile (pf : PmxProfile) (q : PmxConnQuery) : PmxDecision :=
  let chosen := chooseRule pf q
  let d := { decisionInit with ruleName := strlcpy pmxMaxName chosen.name.str }
  match chosen.action with
  | .direct => { d with verdict := .direct }
  | .block => { d with verdict := .block }
  | .proxy =>
    let d :=
      { d with
          verdict := .proxy
          targetKind := chosen.targetKind
          targetId := chosen.targetId
          viaLabel := pmxProfileTargetLabel pf chosen.targetKind chosen.targetId }
    match chosen.targetKind with
    | .proxy => resolveProxyTarget pf chosen.targetId d
    | .chain => resolveChainTarget pf chosen.targetId d
    | _ => d
  | .other _ => d

/-! ### The deciding rule -/

/-- `r` is the first enabled rule that matches, or the default rule if there is none. -/
def Decides (pf : PmxProfile) (q : PmxConnQuery) (r : PmxRule) : Prop :=
  (∃ pre post, pf.rules = pre ++ r :: post ∧ r.enabled = true ∧ pmxRuleMatches r q = true ∧
    ∀ r' ∈ pre, r'.enabled = true → pmxRuleMatches r' q = false) ∨
  ((∀ r' ∈ pf.rules, r'.enabled = true → pmxRuleMatches r' q = false) ∧ r = pf.defaultRule)

theorem decides_chooseRule (pf : PmxProfile) (q : PmxConnQuery) : Decides pf q (chooseRule pf q) := by
  have hreject : ∀ r : PmxRule, ¬(r.enabled && pmxRuleMatches r q) = true →
      r.enabled = true → pmxRuleMatches r q = false := by
    intro r hr hen
    rw [hen, Bool.true_and, Bool.not_eq_true] at hr
    exact hr
  cases hf : pf.rules.find? fun r => r.enabled && pmxRuleMatches r q with
  | some r =>
    rw [show chooseRule pf q = r from by rw [chooseRule, hf]]
    obtain ⟨hr, pre, post, hsplit, hpre⟩ := List.find?_eq_some_iff_append.1 hf
    rw [Bool.and_eq_true] at hr
    refine Or.inl ⟨pre, post, hsplit, hr.1, hr.2, ?_⟩
    intro r' hr'
    have hr'' := hpre r' hr'
    rw [Bool.not_eq_true'] at hr''
    exact hreject r' (by rw [hr'']; exact Bool.false_ne_true)
  | none =>
    rw [show chooseRule pf q = pf.defaultRule from by rw [chooseRule, hf]]
    refine Or.inr ⟨?_, rfl⟩
    intro r' hr'
    exact hreject r' (List.find?_eq_none.1 hf r' hr')

/-- There is one rule that decides. -/
theorem Decides.eq_chooseRule {pf : PmxProfile} {q : PmxConnQuery} {r : PmxRule} (h : Decides pf q r) :
    r = chooseRule pf q := by
  rw [chooseRule]
  rcases h with ⟨pre, post, hsplit, hen, hmatch, hpre⟩ | ⟨hnone, hdef⟩
  · have hfind : (pf.rules.find? fun r => r.enabled && pmxRuleMatches r q) = some r := by
      rw [List.find?_eq_some_iff_append]
      refine ⟨by rw [hen, hmatch]; rfl, pre, post, hsplit, fun r' hr' => ?_⟩
      cases hen' : r'.enabled with
      | false => rfl
      | true => rw [hpre r' hr' hen']; rfl
    rw [hfind]
  · have hfind : (pf.rules.find? fun r => r.enabled && pmxRuleMatches r q) = none := by
      rw [List.find?_eq_none]
      intro r' hr' hmatch
      rw [Bool.and_eq_true] at hmatch
      rw [hnone r' hr' hmatch.1] at hmatch
      exact Bool.false_ne_true hmatch.2
    rw [hfind, hdef]

theorem chooseRule_mem (pf : PmxProfile) (q : PmxConnQuery) :
    chooseRule pf q ∈ pf.defaultRule :: pf.rules := by
  rcases decides_chooseRule pf q with ⟨pre, post, hsplit, -⟩ | ⟨-, hdef⟩
  · rw [hsplit]
    simp
  · rw [hdef]
    exact List.mem_cons_self

/-! ### The path -/

/-- The path is written in full, and nothing is written but enabled proxies of the profile. -/
def GoodPath (pf : PmxProfile) (d : PmxDecision) : Prop :=
  d.viaCount ≤ d.viaChain.length ∧ ∀ p ∈ d.viaChain, p ∈ pf.proxies ∧ p.enabled = true

/-- The hop loop writes enabled proxies only, and counts either every hop or none. -/
theorem viaLoop_spec (pf : PmxProfile) :
    ∀ (hops : List PmxId) (written : List PmxProxy),
      (∀ p ∈ written, p ∈ pf.proxies ∧ p.enabled = true) →
      (∀ p ∈ (viaLoop pf hops written).1, p ∈ pf.proxies ∧ p.enabled = true) ∧
      ((viaLoop pf hops written).2 = 0 ∨
        ((viaLoop pf hops written).2 = written.length + hops.length ∧
          (viaLoop pf hops written).1.map some
            = written.map some ++ hops.map (pmxProfileFindProxy pf))) := by
  intro hops
  induction hops with
  | nil =>
    intro written hw
    refine ⟨hw, Or.inr ⟨rfl, ?_⟩⟩
    rw [viaLoop, List.map_nil, List.append_nil]
  | cons hop hops ih =>
    intro written hw
    rw [viaLoop]
    cases hf : pmxProfileFindProxy pf hop with
    | none => exact ⟨hw, Or.inl rfl⟩
    | some hp =>
      dsimp only
      split_ifs with hen
      · have hw' : ∀ p ∈ written ++ [hp], p ∈ pf.proxies ∧ p.enabled = true := by
          intro p hp'
          rcases List.mem_append.1 hp' with h | h
          · exact hw p h
          · rw [List.mem_singleton.1 h]
            exact ⟨(pmxProfileFindProxy_some hf).1, hen⟩
        obtain ⟨hgood, hcount⟩ := ih (written ++ [hp]) hw'
        refine ⟨hgood, hcount.imp id fun ⟨hn, hmap⟩ => ⟨?_, ?_⟩⟩
        · rw [hn, List.length_append, List.length_singleton, List.length_cons]
          omega
        · rw [hmap, List.map_append, List.map_singleton, List.map_cons, hf, List.append_assoc]
          rfl
      · exact ⟨hw, Or.inl rfl⟩

/-- Paths over hops that resolve alike are alike. -/
theorem viaLoop_congr {pf pf' : PmxProfile} (f : PmxId → PmxId) :
    ∀ (hops : List PmxId) (written : List PmxProxy),
      (∀ hop ∈ hops, pmxProfileFindProxy pf' (f hop) = pmxProfileFindProxy pf hop) →
      viaLoop pf' (hops.map f) written = viaLoop pf hops written := by
  intro hops
  induction hops with
  | nil => intro written _; rfl
  | cons hop hops ih =>
    intro written h
    rw [List.map_cons, viaLoop, viaLoop, h hop List.mem_cons_self]
    cases pmxProfileFindProxy pf hop with
    | none => rfl
    | some hp =>
      dsimp only
      rw [ih _ fun hop' hmem => h hop' (List.mem_cons_of_mem _ hmem)]

/-- The hops a rule asks for: those of a single proxy or of a chain that is a path. -/
def askedHops (pf : PmxProfile) (r : PmxRule) : Option (List PmxId) :=
  match r.targetKind with
  | .proxy => some [r.targetId]
  | .chain =>
    match pmxProfileFindChain pf r.targetId with
    | some c => if c.mode = .redundancy then none else some c.hops
    | none => none
  | _ => none

/-- What the endpoints of a target promise: a good path, complete or empty, and complete for the hops
the rule asks for. -/
structure AllOrNothing (pf : PmxProfile) (r : PmxRule) (d : PmxDecision) : Prop where
  good : GoodPath pf d
  count : d.viaCount = 0 ∨ d.viaCount = d.viaHopCount
  full : ∀ hops, askedHops pf r = some hops → d.viaCount ≠ 0 →
    d.via.map some = hops.map (pmxProfileFindProxy pf)

theorem AllOrNothing.of_count_zero {pf : PmxProfile} {r : PmxRule} {d : PmxDecision}
    (h : d.viaCount = 0) (hgood : ∀ p ∈ d.viaChain, p ∈ pf.proxies ∧ p.enabled = true) :
    AllOrNothing pf r d where
  good := ⟨h.trans_le (Nat.zero_le _), hgood⟩
  count := Or.inl h
  full := fun _ _ hne => absurd h hne

theorem resolveProxyTarget_allOrNothing {pf : PmxProfile} {r : PmxRule} {d : PmxDecision}
    (hkind : r.targetKind = .proxy) (hd : d.viaCount = 0) (hw : d.viaChain = []) :
    AllOrNothing pf r (resolveProxyTarget pf r.targetId d) := by
  have hempty : ∀ p ∈ d.viaChain, p ∈ pf.proxies ∧ p.enabled = true := by
    rw [hw]
    intro p hp
    cases hp
  rw [resolveProxyTarget]
  cases hf : pmxProfileFindProxy pf r.targetId with
  | none => exact AllOrNothing.of_count_zero hd hempty
  | some p =>
    dsimp only
    split_ifs with hen
    · refine ⟨⟨Nat.le_refl 1, ?_⟩, Or.inr rfl, ?_⟩
      · intro p' hp'
        rw [List.mem_singleton.1 hp']
        exact ⟨(pmxProfileFindProxy_some hf).1, hen⟩
      · intro hops hasked _
        rw [askedHops, hkind] at hasked
        obtain rfl := Option.some.inj hasked
        rw [List.map_singleton, hf]
        rfl
    · exact AllOrNothing.of_count_zero hd hempty

theorem resolveChainTarget_allOrNothing {pf : PmxProfile} {r : PmxRule} {d : PmxDecision}
    (hkind : r.targetKind = .chain) (hd : d.viaCount = 0) (hw : d.viaChain = []) :
    AllOrNothing pf r (resolveChainTarget pf r.targetId d) := by
  have hempty : ∀ p ∈ d.viaChain, p ∈ pf.proxies ∧ p.enabled = true := by
    rw [hw]
    intro p hp
    cases hp
  rw [resolveChainTarget]
  cases hf : pmxProfileFindChain pf r.targetId with
  | none => exact AllOrNothing.of_count_zero hd hempty
  | some c =>
    have hfit : c.hops.take pmxMaxChainHops = c.hops := List.take_of_length_le c.hops_fit
    obtain ⟨hgood, hcount⟩ := viaLoop_spec pf c.hops [] (fun p hp => by cases hp)
    dsimp only
    rw [hfit]
    split_ifs with hlive hred
    · -- redundancy: the first of the hops that were written
      have hne : (viaLoop pf c.hops []).2 ≠ 0 := by omega
      obtain ⟨hn, hmap⟩ := hcount.resolve_left hne
      have hlen : (viaLoop pf c.hops []).1.length = c.hops.length := by
        simpa using congrArg List.length hmap
      refine ⟨⟨?_, hgood⟩, Or.inr rfl, ?_⟩
      · show 1 ≤ (viaLoop pf c.hops []).1.length
        rw [List.length_nil] at hn
        omega
      · intro hops hasked
        rw [askedHops, hkind] at hasked
        simp only [hf, if_pos hred.1] at hasked
        cases hasked
    · rcases hcount with hn | ⟨hn, hmap⟩
      · exact AllOrNothing.of_count_zero hn hgood
      · rw [List.length_nil, Nat.zero_add] at hn
        have hlen : (viaLoop pf c.hops []).1.length = c.hops.length := by
          simpa using congrArg List.length hmap
        have hvia : (viaLoop pf c.hops []).1.take (viaLoop pf c.hops []).2
            = (viaLoop pf c.hops []).1 := List.take_of_length_le (by omega)
        refine ⟨⟨?_, hgood⟩, Or.inr hn, ?_⟩
        · show (viaLoop pf c.hops []).2 ≤ (viaLoop pf c.hops []).1.length
          omega
        · intro hops hasked _
          rw [askedHops, hkind] at hasked
          simp only [hf] at hasked
          split_ifs at hasked
          obtain rfl := Option.some.inj hasked
          show ((viaLoop pf c.hops []).1.take (viaLoop pf c.hops []).2).map some = _
          rw [hvia, hmap]
          rfl
    · exact AllOrNothing.of_count_zero hd hempty

/-- A decision is made from the deciding rule, the proxies and the chains alone. -/
theorem pmxResolveWithProfile_of_chooseRule {pf pf' : PmxProfile} {q : PmxConnQuery}
    (hchoose : chooseRule pf' q = chooseRule pf q) (hproxies : pf'.proxies = pf.proxies)
    (hchains : pf'.chains = pf.chains) :
    pmxResolveWithProfile pf' q = pmxResolveWithProfile pf q := by
  have hfind : ∀ id, pmxProfileFindProxy pf' id = pmxProfileFindProxy pf id := by
    intro id
    rw [pmxProfileFindProxy, pmxProfileFindProxy, hproxies]
  have hchain : ∀ id, pmxProfileFindChain pf' id = pmxProfileFindChain pf id := by
    intro id
    rw [pmxProfileFindChain, pmxProfileFindChain, hchains]
  have hpath : ∀ hops written, viaLoop pf' hops written = viaLoop pf hops written := by
    intro hops written
    simpa using viaLoop_congr id hops written fun hop _ => hfind hop
  simp only [pmxResolveWithProfile, pmxProfileTargetLabel, resolveProxyTarget, resolveChainTarget,
    hchoose, hfind, hchain, hpath]

theorem pmxResolveWithProfile_congr {pf pf' : PmxProfile} (hrules : pf'.rules = pf.rules)
    (hdefault : pf'.defaultRule = pf.defaultRule) (hproxies : pf'.proxies = pf.proxies)
    (hchains : pf'.chains = pf.chains) (q : PmxConnQuery) :
    pmxResolveWithProfile pf' q = pmxResolveWithProfile pf q :=
  pmxResolveWithProfile_of_chooseRule (by rw [chooseRule, chooseRule, hrules, hdefault]) hproxies hchains

/-! ### The decision -/

/-- The endpoints of a target fill in the path and nothing else. -/
theorem resolveProxyTarget_frame (pf : PmxProfile) (id : PmxId) (d : PmxDecision) :
    ∃ viaChain viaCount viaHopCount, resolveProxyTarget pf id d =
      { d with viaChain := viaChain, viaCount := viaCount, viaHopCount := viaHopCount } := by
  rw [resolveProxyTarget]
  split
  · split_ifs
    · exact ⟨_, _, _, rfl⟩
    · exact ⟨_, _, _, rfl⟩
  · exact ⟨_, _, _, rfl⟩

theorem resolveChainTarget_frame (pf : PmxProfile) (id : PmxId) (d : PmxDecision) :
    ∃ viaChain viaCount viaHopCount, resolveChainTarget pf id d =
      { d with viaChain := viaChain, viaCount := viaCount, viaHopCount := viaHopCount } := by
  rw [resolveChainTarget]
  split
  · dsimp only
    split_ifs
    · exact ⟨_, _, _, rfl⟩
    · exact ⟨_, _, _, rfl⟩
    · exact ⟨_, _, _, rfl⟩
  · exact ⟨_, _, _, rfl⟩

/-- The verdict of a declared action. -/
def actionVerdict : PmxAction → Option PmxVerdict
  | .direct => some .direct
  | .proxy => some .proxy
  | .block => some .block
  | .other _ => none

theorem pmxResolveWithProfile_ruleName (pf : PmxProfile) (q : PmxConnQuery) :
    (pmxResolveWithProfile pf q).ruleName = (chooseRule pf q).name := by
  rw [pmxResolveWithProfile]
  dsimp only
  rw [strlcpy_self]
  split
  · rfl
  · rfl
  · split
    · obtain ⟨_, _, _, heq⟩ := resolveProxyTarget_frame pf (chooseRule pf q).targetId _
      rw [heq]
    · obtain ⟨_, _, _, heq⟩ := resolveChainTarget_frame pf (chooseRule pf q).targetId _
      rw [heq]
    · rfl
  · rfl

theorem pmxResolveWithProfile_verdict {pf : PmxProfile} {q : PmxConnQuery}
    (h : ∀ raw, (chooseRule pf q).action ≠ .other raw) :
    actionVerdict (chooseRule pf q).action = some (pmxResolveWithProfile pf q).verdict := by
  rw [pmxResolveWithProfile]
  dsimp only
  split
  · next ha => rw [ha]; rfl
  · next ha => rw [ha]; rfl
  · next ha =>
    rw [ha]
    split
    · obtain ⟨_, _, _, heq⟩ := resolveProxyTarget_frame pf (chooseRule pf q).targetId _
      rw [heq]
      rfl
    · obtain ⟨_, _, _, heq⟩ := resolveChainTarget_frame pf (chooseRule pf q).targetId _
      rw [heq]
      rfl
    · rfl
  · next raw ha => exact absurd ha (h raw)

/-- A PROXY verdict takes over the target of the deciding rule, and its path is all or nothing. -/
theorem pmxResolveWithProfile_proxy {pf : PmxProfile} {q : PmxConnQuery}
    (h : (pmxResolveWithProfile pf q).verdict = .proxy) :
    (pmxResolveWithProfile pf q).targetKind = (chooseRule pf q).targetKind ∧
    (pmxResolveWithProfile pf q).targetId = (chooseRule pf q).targetId ∧
    AllOrNothing pf (chooseRule pf q) (pmxResolveWithProfile pf q) := by
  rw [pmxResolveWithProfile] at h ⊢
  dsimp only at h ⊢
  split at h
  · cases h
  · cases h
  · split
    · next hkind =>
      refine and_assoc.1 ⟨?_, resolveProxyTarget_allOrNothing hkind rfl rfl⟩
      obtain ⟨_, _, _, heq⟩ := resolveProxyTarget_frame pf (chooseRule pf q).targetId _
      rw [heq]
      exact ⟨rfl, rfl⟩
    · next hkind =>
      refine and_assoc.1 ⟨?_, resolveChainTarget_allOrNothing hkind rfl rfl⟩
      obtain ⟨_, _, _, heq⟩ := resolveChainTarget_frame pf (chooseRule pf q).targetId _
      rw [heq]
      exact ⟨rfl, rfl⟩
    · exact ⟨rfl, rfl, AllOrNothing.of_count_zero rfl fun p hp => by cases hp⟩
  · cases h

/-- **Rule resolution is first-match and all-or-nothing.** -/
theorem resolve_firstMatch (pf : PmxProfile) (q : PmxConnQuery)
    (hdecl : ∀ r ∈ pf.defaultRule :: pf.rules, ∀ raw, r.action ≠ .other raw) :
    ∃ r, Decides pf q r ∧
      (pmxResolveWithProfile pf q).ruleName = r.name ∧
      actionVerdict r.action = some (pmxResolveWithProfile pf q).verdict ∧
      ((pmxResolveWithProfile pf q).verdict = .proxy →
        (pmxResolveWithProfile pf q).targetKind = r.targetKind ∧
        (pmxResolveWithProfile pf q).targetId = r.targetId ∧
        ((pmxResolveWithProfile pf q).viaCount = 0 ∨
          (pmxResolveWithProfile pf q).viaCount = (pmxResolveWithProfile pf q).viaHopCount) ∧
        (pmxResolveWithProfile pf q).via.length = (pmxResolveWithProfile pf q).viaCount ∧
        (∀ p ∈ (pmxResolveWithProfile pf q).viaChain, p ∈ pf.proxies ∧ p.enabled = true) ∧
        (∀ hops, askedHops pf r = some hops → (pmxResolveWithProfile pf q).viaCount ≠ 0 →
          (pmxResolveWithProfile pf q).via.map some = hops.map (pmxProfileFindProxy pf))) := by
  refine ⟨chooseRule pf q, decides_chooseRule pf q, pmxResolveWithProfile_ruleName pf q,
    pmxResolveWithProfile_verdict (hdecl _ (chooseRule_mem pf q)), ?_⟩
  intro hproxy
  obtain ⟨hkind, hid, hpath⟩ := pmxResolveWithProfile_proxy hproxy
  refine ⟨hkind, hid, hpath.count, ?_, hpath.good.2, hpath.full⟩
  rw [PmxDecision.via, List.length_take]
  exact Nat.min_eq_left hpath.good.1

/-- A profile with a rule for one proxy, and a query for it. -/
def oneProxyProfile : PmxProfile :=
  { pmxProfileInit with
      proxies := [{ pmxProxyInit with id := 1 }]
      rules := [{ pmxRuleInit with id := 2, action := .proxy, targetKind := .proxy, targetId := 1 }] }

theorem resolve_firstMatch_oneProxy :
    ∃ r, Decides oneProxyProfile ⟨none, none, none, 443⟩ r ∧
      (pmxResolveWithProfile oneProxyProfile ⟨none, none, none, 443⟩).ruleName = r.name ∧
      actionVerdict r.action
        = some (pmxResolveWithProfile oneProxyProfile ⟨none, none, none, 443⟩).verdict := by
  obtain ⟨r, hr, hname, hverdict, -⟩ := resolve_firstMatch oneProxyProfile ⟨none, none, none, 443⟩
    (by
      intro r hr raw
      rcases List.mem_cons.1 hr with rfl | hr
      · exact fun h => PmxAction.noConfusion h
      · rw [List.mem_singleton.1 hr]
        exact fun h => PmxAction.noConfusion h)
  exact ⟨r, hr, hname, hverdict⟩

/-- The path of that query is the one proxy. -/
example : (pmxResolveWithProfile oneProxyProfile ⟨none, none, none, 443⟩).via
    = [{ pmxProxyInit with id := 1 }] := by decide

end ProxiMight
