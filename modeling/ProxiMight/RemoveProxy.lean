import ProxiMight.Resolve
import ProxiMight.SlotTable

/-!
# Deleting a proxy (`pmx_profile_remove_proxy`)

What a hop list means decides what becomes of a reference to the deleted proxy.  A sequential chain is a
path and keeps its length: the hop is left dangling, and a path with a dangling hop resolves to nothing.
A redundancy chain is a set of alternatives, and the hop is dropped.  A rule that targets the proxy loses
its target; the default rule keeps the id, which no proxy goes by any more.

* **`removeProxy_routing`** — no rule decides that did not decide before, and no path gets shorter
  without becoming empty.
-/

namespace ProxiMight

open CString

/-- The hops of a redundancy chain without the proxy. -/
def dropHops (id : PmxId) (ch : PmxChain) : PmxChain :=
  { ch with
      hops := ch.hops.filter (· ≠ id)
      hops_fit := Nat.le_trans (List.length_filter_le _ _) ch.hops_fit }

/-- A hop of a sequential chain, dangling if it was the proxy. -/
def dangleHop (id hop : PmxId) : PmxId := if hop = id then pmxIdNone else hop

/-- The hops of a sequential chain, with those to the proxy left dangling. -/
def dangleHops (id : PmxId) (ch : PmxChain) : PmxChain :=
  { ch with
      hops := ch.hops.map (dangleHop id)
      hops_fit := (List.length_map _).trans_le ch.hops_fit }

/-- The loop over the chains, on one chain. -/
def unhookChain (id : PmxId) (ch : PmxChain) : PmxChain :=
  if ch.mode = .redundancy then dropHops id ch else dangleHops id ch

/-- The loop over the rules, on one rule. -/
def unhookRule (id : PmxId) (r : PmxRule) : PmxRule :=
  if r.targetKind = .proxy ∧ r.targetId = id then { r with targetId := pmxIdNone } else r

def pmxProfileRemoveProxy (pf : PmxProfile) (id : PmxId) : PmxProfile × PmxStatus :=
  if pf.proxies.any (·.id == id) then
    ({ pf with
        proxies := pf.proxies.eraseP (·.id == id)
        chains := pf.chains.map (unhookChain id)
        rules := pf.rules.map (unhookRule id) }, .ok)
  else (pf, .errNotFound)

/-! ### What the rewriting keeps -/

@[simp] theorem unhookChain_id (id : PmxId) (ch : PmxChain) : (unhookChain id ch).id = ch.id := by
  rw [unhookChain]; split_ifs <;> rfl

@[simp] theorem unhookChain_mode (id : PmxId) (ch : PmxChain) :
    (unhookChain id ch).mode = ch.mode := by
  rw [unhookChain]; split_ifs <;> rfl

theorem unhookRule_eq (id : PmxId) (r : PmxRule) :
    unhookRule id r = { r with targetId := (unhookRule id r).targetId } := by
  rw [unhookRule]; split_ifs <;> rfl

@[simp] theorem unhookRule_id (id : PmxId) (r : PmxRule) : (unhookRule id r).id = r.id := by
  rw [unhookRule_eq]

/-- A rule that is rewritten matches what it matched. -/
theorem pmxRuleMatches_unhookRule (id : PmxId) (r : PmxRule) (q : PmxConnQuery) :
    pmxRuleMatches (unhookRule id r) q = pmxRuleMatches r q := by
  rw [unhookRule_eq]; rfl

/-- The test by which a rule is chosen. -/
def choosable (q : PmxConnQuery) (r : PmxRule) : Bool := r.enabled && pmxRuleMatches r q

theorem chooseRule_eq (pf : PmxProfile) (q : PmxConnQuery) :
    chooseRule pf q = (pf.rules.find? (choosable q)).getD pf.defaultRule := by
  show _ = (pf.rules.find? fun r => r.enabled && pmxRuleMatches r q).getD pf.defaultRule
  rw [chooseRule]
  cases pf.rules.find? fun r => r.enabled && pmxRuleMatches r q with
  | none => rfl
  | some r => rfl

theorem choosable_unhookRule (id : PmxId) (q : PmxConnQuery) :
    choosable q ∘ unhookRule id = choosable q := by
  funext r
  show ((unhookRule id r).enabled && pmxRuleMatches (unhookRule id r) q) = _
  rw [pmxRuleMatches_unhookRule, unhookRule_eq]
  rfl

/-- The rule that decides after the deletion is the one that decided before, with its target gone if it
was the proxy. -/
def Retargeted (id : PmxId) (r r' : PmxRule) : Prop :=
  r' = r ∨ (r.targetKind = .proxy ∧ r.targetId = id ∧ r' = { r with targetId := pmxIdNone })

theorem Retargeted.name_eq {id : PmxId} {r r' : PmxRule} (h : Retargeted id r r') :
    r'.name = r.name := by
  rcases h with rfl | ⟨-, -, rfl⟩ <;> rfl

theorem Retargeted.action_eq {id : PmxId} {r r' : PmxRule} (h : Retargeted id r r') :
    r'.action = r.action := by
  rcases h with rfl | ⟨-, -, rfl⟩ <;> rfl

theorem Retargeted.kind_eq {id : PmxId} {r r' : PmxRule} (h : Retargeted id r r') :
    r'.targetKind = r.targetKind := by
  rcases h with rfl | ⟨-, -, rfl⟩ <;> rfl

theorem retargeted_unhookRule (id : PmxId) (r : PmxRule) : Retargeted id r (unhookRule id r) := by
  rw [unhookRule]
  split_ifs with h
  · exact Or.inr ⟨h.1, h.2, rfl⟩
  · exact Or.inl rfl

/-! ### The profile without the proxy -/

section Removed

variable {pf : PmxProfile} {x : PmxId}

theorem pmxProfileRemoveProxy_of_mem (hx : x ∈ pf.proxies.map (·.id)) : pmxProfileRemoveProxy pf x =
    ({ pf with
        proxies := pf.proxies.eraseP (·.id == x)
        chains := pf.chains.map (unhookChain x)
        rules := pf.rules.map (unhookRule x) }, .ok) := by
  rw [pmxProfileRemoveProxy, if_pos]
  obtain ⟨p, hp, hid⟩ := List.mem_map.1 hx
  exact List.any_eq_true.2 ⟨p, hp, beq_iff_eq.2 hid⟩

theorem findChain_removeProxy (hx : x ∈ pf.proxies.map (·.id)) (id : PmxId) :
    pmxProfileFindChain (pmxProfileRemoveProxy pf x).1 id
      = (pmxProfileFindChain pf id).map (unhookChain x) := by
  rw [pmxProfileRemoveProxy_of_mem hx, pmxProfileFindChain, pmxProfileFindChain, List.find?_map]
  congr 2
  funext ch
  show ((unhookChain x ch).id == id) = (ch.id == id)
  rw [unhookChain_id]

theorem chooseRule_removeProxy (hx : x ∈ pf.proxies.map (·.id)) (q : PmxConnQuery) :
    Retargeted x (chooseRule pf q) (chooseRule (pmxProfileRemoveProxy pf x).1 q) := by
  have hfind : (pf.rules.map (unhookRule x)).find? (choosable q)
      = (pf.rules.find? (choosable q)).map (unhookRule x) := by
    rw [List.find?_map, choosable_unhookRule]
  rw [pmxProfileRemoveProxy_of_mem hx, chooseRule_eq, chooseRule_eq]
  dsimp only
  rw [hfind]
  cases pf.rules.find? (choosable q) with
  | none => exact Or.inl rfl
  | some r => exact retargeted_unhookRule x r

/-- The deciding rule stands where it stood. -/
theorem findIdx?_removeProxy (hx : x ∈ pf.proxies.map (·.id)) (q : PmxConnQuery) :
    (pmxProfileRemoveProxy pf x).1.rules.findIdx? (choosable q)
      = pf.rules.findIdx? (choosable q) := by
  rw [pmxProfileRemoveProxy_of_mem hx]
  show (pf.rules.map (unhookRule x)).findIdx? (choosable q) = _
  rw [List.findIdx?_map, choosable_unhookRule]

/-- The proxy is gone, and every other one is found as before. -/
theorem findProxy_removeProxy (hx : x ∈ pf.proxies.map (·.id))
    (hids : (pf.proxies.map (·.id)).Nodup) (id : PmxId) :
    pmxProfileFindProxy (pmxProfileRemoveProxy pf x).1 id
      = if id = x then none else pmxProfileFindProxy pf id := by
  rw [pmxProfileRemoveProxy_of_mem hx, pmxProfileFindProxy, pmxProfileFindProxy]
  dsimp only
  split_ifs with hnone hself hself
  · rfl
  · rfl
  · rw [hself]
    exact SlotTable.find?_eraseP_of_nodup (fun p : PmxProxy => p.id) x pf.proxies hids
  · refine SlotTable.find?_eraseP_of_disjoint (fun p hp => ?_) pf.proxies
    rw [beq_iff_eq] at hp
    rw [hp]
    simpa using Ne.symm hself

/-- A hop left dangling resolves to nothing, every other one to what it resolved to. -/
theorem findProxy_dangleHop (hx : x ∈ pf.proxies.map (·.id)) (hids : (pf.proxies.map (·.id)).Nodup)
    (hop : PmxId) :
    pmxProfileFindProxy (pmxProfileRemoveProxy pf x).1 (dangleHop x hop)
      = if hop = x then none else pmxProfileFindProxy pf hop := by
  rw [findProxy_removeProxy hx hids, dangleHop]
  split_ifs
  · rfl
  · exact if_pos rfl
  · rfl

end Removed

/-! ### Paths -/

/-- What is written of a single proxy, and how much of it counts. -/
def proxyPath (pf : PmxProfile) (id : PmxId) : List PmxProxy × ℕ :=
  match pmxProfileFindProxy pf id with
  | some p => if p.enabled then ([p], 1) else ([], 0)
  | none => ([], 0)

/-- What is written of a chain, and how much of it counts. -/
def chainPath (pf : PmxProfile) (c : PmxChain) : List PmxProxy × ℕ :=
  if c.enabled && decide (c.hops.length > 0) then
    let r := viaLoop pf c.hops []
    if c.mode = .redundancy ∧ r.2 > 1 then (r.1, 1) else r
  else ([], 0)

/-- What is written of the target of a rule, and how much of it counts. -/
def targetPath (pf : PmxProfile) (r : PmxRule) : List PmxProxy × ℕ :=
  match r.targetKind with
  | .proxy => proxyPath pf r.targetId
  | .chain =>
    match pmxProfileFindChain pf r.targetId with
    | some c => chainPath pf c
    | none => ([], 0)
  | _ => ([], 0)

/-- The path of a chain that is a path. -/
theorem chainPath_sequential (pf : PmxProfile) {c : PmxChain} (hmode : c.mode ≠ .redundancy) :
    chainPath pf c
      = if c.enabled && decide (c.hops.length > 0) then viaLoop pf c.hops [] else ([], 0) := by
  rw [chainPath]
  dsimp only
  rw [if_neg fun h : _ ∧ _ => hmode h.1]

theorem resolveProxyTarget_path (pf : PmxProfile) (id : PmxId) {d : PmxDecision}
    (hw : d.viaChain = []) (hc : d.viaCount = 0) :
    ((resolveProxyTarget pf id d).viaChain, (resolveProxyTarget pf id d).viaCount)
      = proxyPath pf id := by
  rw [resolveProxyTarget, proxyPath]
  cases pmxProfileFindProxy pf id with
  | none => exact Prod.ext hw hc
  | some p =>
    dsimp only
    split_ifs
    · rfl
    · exact Prod.ext hw hc

theorem resolveChainTarget_path (pf : PmxProfile) (id : PmxId) {d : PmxDecision}
    (hw : d.viaChain = []) (hc : d.viaCount = 0) :
    ((resolveChainTarget pf id d).viaChain, (resolveChainTarget pf id d).viaCount)
      = match pmxProfileFindChain pf id with
        | some c => chainPath pf c
        | none => ([], 0) := by
  rw [resolveChainTarget]
  cases pmxProfileFindChain pf id with
  | none => exact Prod.ext hw hc
  | some c =>
    dsimp only
    rw [List.take_of_length_le c.hops_fit, chainPath]
    dsimp only
    split_ifs
    · rfl
    · rfl
    · exact Prod.ext hw hc

theorem pmxResolveWithProfile_path {pf : PmxProfile} {q : PmxConnQuery}
    (h : (pmxResolveWithProfile pf q).verdict = .proxy) :
    ((pmxResolveWithProfile pf q).viaChain, (pmxResolveWithProfile pf q).viaCount)
      = targetPath pf (chooseRule pf q) := by
  rw [pmxResolveWithProfile] at h ⊢
  dsimp only at h ⊢
  split at h
  · cases h
  · cases h
  · rw [targetPath]
    cases (chooseRule pf q).targetKind with
    | proxy => exact resolveProxyTarget_path pf _ rfl rfl
    | chain => exact resolveChainTarget_path pf _ rfl rfl
    | _ => rfl
  · cases h

/-- The verdict is that of the action, and `DIRECT` for an undeclared one. -/
theorem pmxResolveWithProfile_verdict_getD (pf : PmxProfile) (q : PmxConnQuery) :
    (pmxResolveWithProfile pf q).verdict
      = (actionVerdict (chooseRule pf q).action).getD .direct := by
  cases ha : (chooseRule pf q).action with
  | other raw =>
    rw [pmxResolveWithProfile]
    dsimp only
    rw [ha]
    rfl
  | _ =>
    have hverdict : actionVerdict (chooseRule pf q).action
        = some (pmxResolveWithProfile pf q).verdict :=
      pmxResolveWithProfile_verdict (by rw [ha]; exact fun raw h => PmxAction.noConfusion h)
    rw [← ha, hverdict, Option.getD_some]

/-- One hop that resolves to nothing leaves no path. -/
theorem viaLoop_of_missing {pf : PmxProfile} {hops : List PmxId} {hop : PmxId} (hmem : hop ∈ hops)
    (h : pmxProfileFindProxy pf hop = none) : (viaLoop pf hops []).2 = 0 := by
  obtain ⟨-, hzero | ⟨-, hmap⟩⟩ := viaLoop_spec pf hops [] (fun p hp => by cases hp)
  · exact hzero
  · rw [List.map_nil, List.nil_append] at hmap
    have hnone : (none : Option PmxProxy) ∈ hops.map (pmxProfileFindProxy pf) :=
      List.mem_map.2 ⟨hop, hmem, h⟩
    rw [← hmap] at hnone
    obtain ⟨p, -, hp⟩ := List.mem_map.1 hnone
    cases hp

/-- The path of a redundancy chain: none, or one enabled proxy that one of its hops names. -/
theorem chainPath_redundancy (pf : PmxProfile) (c : PmxChain) (hmode : c.mode = .redundancy) :
    (chainPath pf c).2 = 0 ∨ ∃ p ∈ pf.proxies, p.enabled = true ∧ p.id ∈ c.hops ∧
      (chainPath pf c).1.take (chainPath pf c).2 = [p] := by
  obtain ⟨hgood, hcount⟩ := viaLoop_spec pf c.hops [] (fun p hp => by cases hp)
  have hfirst : (viaLoop pf c.hops []).2 ≠ 0 → ∃ p ∈ pf.proxies, p.enabled = true ∧
      p.id ∈ c.hops ∧ (viaLoop pf c.hops []).1.take 1 = [p] := by
    intro hne
    obtain ⟨hn, hmap⟩ := hcount.resolve_left hne
    rw [List.map_nil, List.nil_append] at hmap
    cases hw : (viaLoop pf c.hops []).1 with
    | nil =>
      rw [hw, List.map_nil, eq_comm, List.map_eq_nil_iff] at hmap
      have hzero : (viaLoop pf c.hops []).2 = 0 := by rw [hn, hmap]; rfl
      exact absurd hzero hne
    | cons p rest =>
      rw [hw] at hgood hmap
      obtain ⟨hp, hen⟩ := hgood p List.mem_cons_self
      have hsome : some p ∈ c.hops.map (pmxProfileFindProxy pf) := by
        rw [← hmap]
        exact List.mem_map_of_mem List.mem_cons_self
      obtain ⟨hop, hhop, hfind⟩ := List.mem_map.1 hsome
      refine ⟨p, hp, hen, ?_, rfl⟩
      rw [(pmxProfileFindProxy_some hfind).2.1]
      exact hhop
  rw [chainPath]
  dsimp only
  split_ifs with hlive hmany
  · exact Or.inr (hfirst (by omega))
  · rw [not_and] at hmany
    have hle := hmany hmode
    rcases Nat.eq_zero_or_pos (viaLoop pf c.hops []).2 with hzero | hpos
    · exact Or.inl hzero
    · rw [show (viaLoop pf c.hops []).2 = 1 from by omega]
      exact Or.inr (hfirst (by omega))
  · exact Or.inl rfl

/-! ### Paths after the deletion -/

section Paths

variable {pf : PmxProfile} {x : PmxId}

/-- A single proxy keeps its path, or is the one that is gone. -/
theorem proxyPath_removeProxy (hx : x ∈ pf.proxies.map (·.id))
    (hids : (pf.proxies.map (·.id)).Nodup) (id : PmxId) :
    proxyPath (pmxProfileRemoveProxy pf x).1 id = if id = x then ([], 0) else proxyPath pf id := by
  rw [proxyPath, findProxy_removeProxy hx hids]
  split_ifs
  · rfl
  · rfl

/-- A sequential chain keeps its path, or has none if the proxy was one of its hops. -/
theorem chainPath_removeProxy_sequential (hx : x ∈ pf.proxies.map (·.id))
    (hids : (pf.proxies.map (·.id)).Nodup) (c : PmxChain) (hmode : c.mode ≠ .redundancy) :
    (x ∉ c.hops →
      chainPath (pmxProfileRemoveProxy pf x).1 (unhookChain x c) = chainPath pf c) ∧
    (x ∈ c.hops → (chainPath (pmxProfileRemoveProxy pf x).1 (unhookChain x c)).2 = 0) := by
  have hunhook : unhookChain x c = dangleHops x c := if_neg hmode
  have hpath : chainPath (pmxProfileRemoveProxy pf x).1 (unhookChain x c)
      = if c.enabled && decide (c.hops.length > 0) then
          viaLoop (pmxProfileRemoveProxy pf x).1 (c.hops.map (dangleHop x)) []
        else ([], 0) := by
    rw [hunhook, chainPath_sequential _ (show (dangleHops x c).mode ≠ .redundancy from hmode)]
    show (if c.enabled && decide ((c.hops.map (dangleHop x)).length > 0) then _ else _) = _
    rw [List.length_map]
    rfl
  have hfind := findProxy_dangleHop hx hids
  constructor
  · intro hmem
    rw [hpath, chainPath_sequential pf hmode, viaLoop_congr (dangleHop x)]
    intro hop hhop
    rw [hfind, if_neg fun h : hop = x => hmem (h ▸ hhop)]
  · intro hmem
    rw [hpath]
    split_ifs
    · exact viaLoop_of_missing (List.mem_map_of_mem hmem) (by rw [hfind, if_pos rfl])
    · rfl

/-- A redundancy chain has no path left, or one enabled proxy of its hops other than the deleted one. -/
theorem chainPath_removeProxy_redundancy (hx : x ∈ pf.proxies.map (·.id)) (c : PmxChain)
    (hmode : c.mode = .redundancy) :
    (chainPath (pmxProfileRemoveProxy pf x).1 (unhookChain x c)).2 = 0 ∨
    ∃ p ∈ pf.proxies, p.enabled = true ∧ p.id ≠ x ∧ p.id ∈ c.hops ∧
      (chainPath (pmxProfileRemoveProxy pf x).1 (unhookChain x c)).1.take
        (chainPath (pmxProfileRemoveProxy pf x).1 (unhookChain x c)).2 = [p] := by
  have hhops : (unhookChain x c).hops = c.hops.filter (· ≠ x) := by
    rw [show unhookChain x c = dropHops x c from if_pos hmode]
    rfl
  rcases chainPath_redundancy (pmxProfileRemoveProxy pf x).1 (unhookChain x c)
    (by rw [unhookChain_mode, hmode]) with hzero | ⟨p, hp, hen, hmem, hpath⟩
  · exact Or.inl hzero
  · rw [hhops, List.mem_filter] at hmem
    rw [pmxProfileRemoveProxy_of_mem hx] at hp
    exact Or.inr ⟨p, List.mem_of_mem_eraseP hp, hen, by simpa using hmem.2, hmem.1, hpath⟩

theorem targetPath_chain_removeProxy (hx : x ∈ pf.proxies.map (·.id)) {r r' : PmxRule}
    (hrule : Retargeted x r r') (hkind : r.targetKind = .chain) {c : PmxChain}
    (hfind : pmxProfileFindChain pf r.targetId = some c) :
    targetPath pf r = chainPath pf c ∧ targetPath (pmxProfileRemoveProxy pf x).1 r'
      = chainPath (pmxProfileRemoveProxy pf x).1 (unhookChain x c) := by
  obtain rfl | ⟨hproxy, -⟩ := hrule
  · have hfind' := findChain_removeProxy hx r'.targetId
    rw [hfind, Option.map_some] at hfind'
    simp only [targetPath, hkind, hfind, hfind', and_self]
  · rw [hkind] at hproxy
    cases hproxy

/-- The path of a target that is a path: as it was, or gone if the proxy was on it. -/
theorem targetPath_removeProxy (hx : x ∈ pf.proxies.map (·.id))
    (hids : (pf.proxies.map (·.id)).Nodup) {r r' : PmxRule} (hrule : Retargeted x r r')
    {hops : List PmxId} (hasked : askedHops pf r = some hops) :
    (x ∉ hops → targetPath (pmxProfileRemoveProxy pf x).1 r' = targetPath pf r) ∧
    (x ∈ hops → (targetPath (pmxProfileRemoveProxy pf x).1 r').2 = 0) := by
  rw [askedHops] at hasked
  cases hkind : r.targetKind with
  | proxy =>
    rw [hkind] at hasked
    obtain rfl := Option.some.inj hasked
    have hpath : targetPath pf r = proxyPath pf r.targetId := by rw [targetPath, hkind]
    have hpath' : targetPath (pmxProfileRemoveProxy pf x).1 r'
        = if r'.targetId = x then ([], 0) else proxyPath pf r'.targetId := by
      rw [targetPath, hrule.kind_eq, hkind]
      exact proxyPath_removeProxy hx hids r'.targetId
    rw [List.mem_singleton, hpath, hpath']
    rcases hrule with rfl | ⟨-, hid, rfl⟩
    · refine ⟨fun hne => if_neg (Ne.symm hne), fun heq => ?_⟩
      rw [if_pos heq.symm]
    · -- the target is `PMX_ID_NONE` now, which names no proxy
      refine ⟨fun hne => absurd hid.symm hne, fun _ => ?_⟩
      split_ifs
      · rfl
      · rfl
  | chain =>
    rw [hkind] at hasked
    cases hfind : pmxProfileFindChain pf r.targetId with
    | none =>
      rw [hfind] at hasked
      cases hasked
    | some c =>
      rw [hfind] at hasked
      dsimp only at hasked
      split_ifs at hasked with hmode
      obtain rfl := Option.some.inj hasked
      obtain ⟨hpath, hpath'⟩ := targetPath_chain_removeProxy hx hrule hkind hfind
      rw [hpath, hpath']
      exact chainPath_removeProxy_sequential hx hids c hmode
  | _ =>
    rw [hkind] at hasked
    cases hasked

end Paths

/-- **Deleting a proxy never weakens routing.**  The deciding rule and the verdict are those of before.
The path of a single proxy or of a sequential chain is the one of before or empty, and empty if the
proxy was on it; that of a redundancy chain is empty or one enabled proxy of the chain that is left. -/
theorem removeProxy_routing (pf : PmxProfile) (x : PmxId) (q : PmxConnQuery)
    (hids : (pf.proxies.map (·.id)).Nodup) (hx : x ∈ pf.proxies.map (·.id)) :
    let pf' := (pmxProfileRemoveProxy pf x).1
    let d := pmxResolveWithProfile pf q
    let d' := pmxResolveWithProfile pf' q
    pf'.rules.findIdx? (choosable q) = pf.rules.findIdx? (choosable q) ∧
    Retargeted x (chooseRule pf q) (chooseRule pf' q) ∧
    d'.ruleName = d.ruleName ∧
    d'.verdict = d.verdict ∧
    (d.verdict = .proxy →
      (∀ hops, askedHops pf (chooseRule pf q) = some hops →
        (d'.viaChain = d.viaChain ∧ d'.viaCount = d.viaCount ∨ d'.viaCount = 0) ∧
        (x ∈ hops → d'.viaCount = 0)) ∧
      (∀ c, (chooseRule pf q).targetKind = .chain →
        pmxProfileFindChain pf (chooseRule pf q).targetId = some c → c.mode = .redundancy →
        d'.viaCount = 0 ∨
          ∃ p ∈ pf.proxies, p.enabled = true ∧ p.id ≠ x ∧ p.id ∈ c.hops ∧ d'.via = [p])) := by
  intro pf' d d'
  have hrule : Retargeted x (chooseRule pf q) (chooseRule pf' q) := chooseRule_removeProxy hx q
  have hverdict : d'.verdict = d.verdict := by
    rw [pmxResolveWithProfile_verdict_getD, pmxResolveWithProfile_verdict_getD,
      hrule.action_eq]
  refine ⟨findIdx?_removeProxy hx q, hrule, ?_, hverdict, ?_⟩
  · rw [pmxResolveWithProfile_ruleName, pmxResolveWithProfile_ruleName, hrule.name_eq]
  intro hproxy
  have hpath := pmxResolveWithProfile_path hproxy
  have hpath' := pmxResolveWithProfile_path (hverdict.trans hproxy)
  constructor
  · intro hops hasked
    obtain ⟨hsame, hgone⟩ := targetPath_removeProxy hx hids hrule hasked
    have hcount : x ∈ hops → d'.viaCount = 0 := fun hmem => by
      rw [show d'.viaCount = (targetPath pf' (chooseRule pf' q)).2 from congrArg Prod.snd hpath']
      exact hgone hmem
    refine ⟨?_, hcount⟩
    by_cases hmem : x ∈ hops
    · exact Or.inr (hcount hmem)
    · exact Or.inl (Prod.mk.inj (hpath'.trans ((hsame hmem).trans hpath.symm)))
  · intro c hkind hfind hmode
    rw [(targetPath_chain_removeProxy hx hrule hkind hfind).2] at hpath'
    obtain ⟨hchain, hcount⟩ := Prod.mk.inj hpath'
    rw [PmxDecision.via, hchain, hcount]
    exact chainPath_removeProxy_redundancy hx c hmode

/-- A profile with a chain over two proxies, and a rule for it. -/
def oneChainProfile (mode : PmxChainMode) : PmxProfile :=
  { pmxProfileInit with
      proxies := [{ pmxProxyInit with id := 1 }, { pmxProxyInit with id := 2 }]
      chains := [{ pmxChainInit with id := 3, mode := mode, hops := [1, 2], hops_fit := by decide }]
      rules := [{ pmxRuleInit with id := 4, action := .proxy, targetKind := .chain, targetId := 3 }] }

theorem removeProxy_routing_oneChain :
    let d := pmxResolveWithProfile (oneChainProfile .sequential) ⟨none, none, none, 443⟩
    let d' := pmxResolveWithProfile (pmxProfileRemoveProxy (oneChainProfile .sequential) 1).1
      ⟨none, none, none, 443⟩
    d.viaCount = 2 ∧ d'.verdict = .proxy ∧ d'.viaCount = 0 := by
  obtain ⟨-, -, -, hverdict, hpath⟩ := removeProxy_routing (oneChainProfile .sequential) 1
    ⟨none, none, none, 443⟩ (by decide) (by decide)
  have hproxy : (pmxResolveWithProfile (oneChainProfile .sequential)
      ⟨none, none, none, 443⟩).verdict = .proxy := by decide
  exact ⟨by decide, hverdict.trans hproxy,
    ((hpath hproxy).1 [1, 2] (by decide)).2 List.mem_cons_self⟩

/-- A redundancy chain falls back to the proxy that is left. -/
example : (pmxResolveWithProfile (pmxProfileRemoveProxy (oneChainProfile .redundancy) 1).1
    ⟨none, none, none, 443⟩).via = [{ pmxProxyInit with id := 2 }] := by decide

end ProxiMight
