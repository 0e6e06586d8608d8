import ProxiMight.RemoveProxy
import ProxiMight.LoadedChains

/-!
# A redundancy chain and its other hops

A redundancy chain is a set of alternatives, and resolution takes the first of them.  But the hop loop,
written for chains that are a path, has gone over every hop before the mode is looked at, and one hop that
is missing or disabled has emptied the path by then.

* **`redundancy_takesFirst_iff`** — the first hop is taken exactly if all the others are alive.
-/

namespace ProxiMight

/-- The path is this one proxy. -/
def TakesOnly (d : PmxDecision) (p : PmxProxy) : Prop := d.viaCount = 1 ∧ d.via = [p]

/-- The path of an enabled redundancy chain whose first hop is alive. -/
theorem chainPath_takesFirst_iff {pf : PmxProfile} {c : PmxChain} {hop : PmxId} {hops : List PmxId}
    {p : PmxProxy} (hmode : c.mode = .redundancy) (hen : c.enabled = true) (hhops : c.hops = hop :: hops)
    (hp : pmxProfileFindProxy pf hop = some p) (hpen : p.enabled = true) :
    ((chainPath pf c).2 = 1 ∧ (chainPath pf c).1.take (chainPath pf c).2 = [p]) ↔
      ∀ hop' ∈ hops, HopAlive pf hop' := by
  have hlive : (c.enabled && decide (c.hops.length > 0)) = true := by
    rw [hen, hhops]
    rfl
  have halive : (viaLoop pf c.hops []).2 ≠ 0 ↔ ∀ hop' ∈ hops, HopAlive pf hop' := by
    rw [viaLoop_ne_zero, hhops, List.forall_mem_cons]
    exact ⟨fun h => h.2.2, fun h => ⟨Nat.succ_pos _, ⟨p, hp, hpen⟩, h⟩⟩
  rw [chainPath, if_pos hlive]
  dsimp only
  constructor
  · rintro ⟨hone, -⟩
    refine halive.1 fun hzero => ?_
    rw [if_neg fun h : _ ∧ _ => absurd h.2 (by omega), hzero] at hone
    exact absurd hone Nat.zero_ne_one
  · intro hall
    obtain ⟨-, hcount⟩ := viaLoop_spec pf c.hops [] fun _ hnil => by cases hnil
    obtain ⟨hn, hmap⟩ := hcount.resolve_left (halive.2 hall)
    rw [hhops, List.map_nil, List.nil_append, List.map_cons, hp] at hmap
    obtain ⟨rest, hrest⟩ : ∃ rest, (viaLoop pf (hop :: hops) []).1 = p :: rest := by
      cases hw : (viaLoop pf (hop :: hops) []).1 with
      | nil =>
        rw [hw] at hmap
        cases hmap
      | cons p' rest =>
        rw [hw, List.map_cons, List.cons.injEq] at hmap
        exact ⟨rest, by rw [Option.some.inj hmap.1]⟩
    rw [hhops, List.length_nil, List.length_cons, Nat.zero_add] at hn
    rw [hhops]
    split_ifs with hmany
    · exact ⟨rfl, by rw [hrest]; rfl⟩
    · have hone : (viaLoop pf (hop :: hops) []).2 = 1 := by
        rw [not_and] at hmany
        have hle := hmany hmode
        omega
      rw [hone, hrest]
      exact ⟨rfl, rfl⟩

/-- **When a redundancy chain is a set of alternatives.**  For a query decided by a rule that proxies to
an enabled redundancy chain whose first hop is alive, the path is that hop exactly if every other hop
of the chain is alive too. -/
theorem redundancy_takesFirst_iff {pf : PmxProfile} {q : PmxConnQuery} {r : PmxRule} {c : PmxChain}
    {hop : PmxId} {hops : List PmxId} {p : PmxProxy} (hr : Decides pf q r) (haction : r.action = .proxy)
    (hkind : r.targetKind = .chain) (hfind : pmxProfileFindChain pf r.targetId = some c)
    (hmode : c.mode = .redundancy) (hen : c.enabled = true) (hhops : c.hops = hop :: hops)
    (hp : pmxProfileFindProxy pf hop = some p) (hpen : p.enabled = true) :
    TakesOnly (pmxResolveWithProfile pf q) p ↔ ∀ hop' ∈ hops, HopAlive pf hop' := by
  obtain rfl := hr.eq_chooseRule
  have hverdict : (pmxResolveWithProfile pf q).verdict = .proxy := by
    rw [pmxResolveWithProfile_verdict_getD, haction]
    rfl
  have hpath := pmxResolveWithProfile_path hverdict
  simp only [targetPath, hkind, hfind] at hpath
  obtain ⟨hchain, hcount⟩ := Prod.mk.inj hpath
  rw [TakesOnly, PmxDecision.via, hchain, hcount]
  exact chainPath_takesFirst_iff hmode hen hhops hp hpen

/-- Both hops are there: the first is taken. -/
theorem redundancy_takesFirst_iff_bothHops :
    TakesOnly (pmxResolveWithProfile (oneChainProfile .redundancy) ⟨none, none, none, 443⟩)
      { pmxProxyInit with id := 1 } := by
  have hiff : TakesOnly (pmxResolveWithProfile (oneChainProfile .redundancy) ⟨none, none, none, 443⟩)
      { pmxProxyInit with id := 1 } ↔ ∀ hop ∈ [(2 : PmxId)], HopAlive (oneChainProfile .redundancy) hop :=
    redundancy_takesFirst_iff
      (r := { pmxRuleInit with id := 4, action := .proxy, targetKind := .chain, targetId := 3 })
      (.inl ⟨[], [], rfl, rfl, by decide, fun _ h => nomatch h⟩) rfl rfl rfl rfl rfl rfl rfl rfl
  refine hiff.2 fun hop hmem => ?_
  rw [List.mem_singleton.1 hmem]
  exact ⟨{ pmxProxyInit with id := 2 }, rfl, rfl⟩

/-- The same profile with the second proxy disabled. -/
def secondHopDown : PmxProfile :=
  { oneChainProfile .redundancy with
      proxies := [{ pmxProxyInit with id := 1 }, { pmxProxyInit with id := 2, enabled := false }] }

/-- The first hop is there and enabled, and the query gets no path. -/
theorem not_redundancy_takesFirst_secondHopDown :
    Decides secondHopDown ⟨none, none, none, 443⟩
        { pmxRuleInit with id := 4, action := .proxy, targetKind := .chain, targetId := 3 } ∧
      (pmxProfileFindChain secondHopDown 3).map (fun c => (c.mode, c.enabled, c.hops))
        = some (.redundancy, true, [1, 2]) ∧
      pmxProfileFindProxy secondHopDown 1 = some { pmxProxyInit with id := 1 } ∧
      (pmxResolveWithProfile secondHopDown ⟨none, none, none, 443⟩).viaCount = 0 :=
  ⟨.inl ⟨[], [], rfl, rfl, by decide, fun _ h => nomatch h⟩, by decide, by decide, by decide⟩

end ProxiMight
