import ProxiMight.FreshIds
import ProxiMight.LoadedChains

/-!
# Deleting a chain (`pmx_profile_remove_chain`)

A rule that targets the chain is left with the target `PMX_ID_NONE`, and the default rule keeps the id.
Neither is the id of a missing chain for certain: a chain read from a file has the id 0 if the file gives
it none, and two chains of a file may share an id.  `pmx_profile_find_chain` returns the first chain with
the id it is asked for, `PMX_ID_NONE` included.

* **`removedChain_blocks_iff`** — a query that the deleted chain carried is blocked exactly when no other
  chain stands in for it.
-/

namespace ProxiMight

open CString

/-- The query is decided by a rule of the list. -/
def DecidedByList (pf : PmxProfile) (q : PmxConnQuery) : Prop := ∃ r ∈ pf.rules, choosable q r = true

instance (pf : PmxProfile) (q : PmxConnQuery) : Decidable (DecidedByList pf q) :=
  inferInstanceAs (Decidable (∃ r ∈ pf.rules, choosable q r = true))

/-- The target of the rule that decides the query, once the chain it targeted is deleted. -/
def targetLeft (pf : PmxProfile) (q : PmxConnQuery) (x : PmxId) : PmxId :=
  if DecidedByList pf q then pmxIdNone else x

/-- Of the chains that remain, the first with the id `target` can carry a connection. -/
def StandIn (pf : PmxProfile) (x target : PmxId) : Prop :=
  ∃ c, (pf.chains.eraseP (·.id == x)).find? (·.id == target) = some c ∧
    c.enabled = true ∧ c.hops ≠ [] ∧ ∀ hop ∈ c.hops, HopAlive pf hop

/-! ### The deciding rule -/

theorem choosable_untargetChain (x : PmxId) (q : PmxConnQuery) :
    choosable q ∘ untargetChain x = choosable q := by
  funext r
  show choosable q (untargetChain x r) = choosable q r
  rw [untargetChain]
  split_ifs <;> rfl

theorem untargetChain_action (x : PmxId) (r : PmxRule) : (untargetChain x r).action = r.action := by
  rw [untargetChain]; split_ifs <;> rfl

theorem untargetChain_targetKind (x : PmxId) (r : PmxRule) :
    (untargetChain x r).targetKind = r.targetKind := by
  rw [untargetChain]; split_ifs <;> rfl

theorem untargetChain_targetId {x : PmxId} {r : PmxRule} (hkind : r.targetKind = .chain)
    (hid : r.targetId = x) : (untargetChain x r).targetId = pmxIdNone := by
  rw [untargetChain, if_pos ⟨hkind, hid⟩]

theorem pmxProfileRemoveChain_of_mem {pf : PmxProfile} {x : PmxId} (hx : x ∈ pf.chains.map (·.id)) :
    pmxProfileRemoveChain pf x =
      ({ pf with
          chains := pf.chains.eraseP (·.id == x)
          rules := pf.rules.map (untargetChain x) }, .ok) := by
  rw [pmxProfileRemoveChain, if_pos]
  obtain ⟨c, hc, hid⟩ := List.mem_map.1 hx
  exact List.any_eq_true.2 ⟨c, hc, beq_iff_eq.2 hid⟩

theorem decidedByList_iff (pf : PmxProfile) (q : PmxConnQuery) :
    DecidedByList pf q ↔ ∃ r, pf.rules.find? (choosable q) = some r := by
  rw [← Option.isSome_iff_exists, List.find?_isSome]
  rfl

/-- The rule that decides is the one that decided; if it is in the list, its target is gone. -/
theorem chooseRule_removeChain {pf : PmxProfile} {x : PmxId} (hx : x ∈ pf.chains.map (·.id))
    (q : PmxConnQuery) :
    chooseRule (pmxProfileRemoveChain pf x).1 q =
      if DecidedByList pf q then untargetChain x (chooseRule pf q) else chooseRule pf q := by
  rw [pmxProfileRemoveChain_of_mem hx, chooseRule_eq, chooseRule_eq]
  dsimp only
  rw [List.find?_map, choosable_untargetChain]
  cases hfind : pf.rules.find? (choosable q) with
  | some r => rw [if_pos ((decidedByList_iff pf q).2 ⟨r, hfind⟩)]; rfl
  | none =>
    rw [if_neg]
    · rfl
    · rw [decidedByList_iff, hfind]
      rintro ⟨r, hr⟩
      cases hr

/-! ### The path -/

theorem resolve_chain_verdict {pf : PmxProfile} {q : PmxConnQuery}
    (haction : (chooseRule pf q).action = .proxy) : (pmxResolveWithProfile pf q).verdict = .proxy := by
  have hdecl : ∀ raw, (chooseRule pf q).action ≠ .other raw := by
    intro raw h
    rw [haction] at h
    cases h
  have hverdict := pmxResolveWithProfile_verdict hdecl
  rw [haction] at hverdict
  exact (Option.some.inj hverdict).symm

/-- A query decided by a rule that targets a chain gets a path exactly when the first chain with the id
is enabled, has hops, and all of them are alive. -/
theorem viaCount_eq_zero_of_chain {pf : PmxProfile} {q : PmxConnQuery}
    (haction : (chooseRule pf q).action = .proxy) (hkind : (chooseRule pf q).targetKind = .chain) :
    (pmxResolveWithProfile pf q).viaCount = 0 ↔
      ¬∃ c, pmxProfileFindChain pf (chooseRule pf q).targetId = some c ∧
        c.enabled = true ∧ c.hops ≠ [] ∧ ∀ hop ∈ c.hops, HopAlive pf hop := by
  obtain ⟨d, hd, heq⟩ := pmxResolveWithProfile_chain haction hkind
  rw [heq]
  cases hfind : pmxProfileFindChain pf (chooseRule pf q).targetId with
  | none =>
    rw [resolveChainTarget, hfind]
    refine iff_of_true hd ?_
    rintro ⟨c, hc, -⟩
    cases hc
  | some c =>
    rw [← not_iff_not, not_not, ← Ne, resolveChainTarget_ne_zero hfind hd]
    constructor
    · intro h
      exact ⟨c, rfl, h⟩
    · rintro ⟨c', hc', h⟩
      obtain rfl := Option.some.inj hc'
      exact h

/-- **When a deleted chain is not replaced.**  For every profile, every chain id that a chain goes by and
every query decided by a proxy rule that targeted the chain: after the deletion the query is resolved to
a proxy verdict without a path, exactly when no chain that remains stands in.  The rules of the list now
target the first chain with the id 0, the default rule the first remaining chain with the old id. -/
theorem removedChain_blocks_iff {pf : PmxProfile} {x : PmxId} {q : PmxConnQuery} {r : PmxRule}
    (hx : x ∈ pf.chains.map (·.id)) (hr : Decides pf q r) (haction : r.action = .proxy)
    (hkind : r.targetKind = .chain) (hid : r.targetId = x) :
    ((pmxResolveWithProfile (pmxProfileRemoveChain pf x).1 q).verdict = .proxy ∧
        (pmxResolveWithProfile (pmxProfileRemoveChain pf x).1 q).viaCount = 0) ↔
      ¬StandIn pf x (targetLeft pf q x) := by
  obtain rfl := hr.eq_chooseRule
  have hchosen := chooseRule_removeChain hx q
  have haction' : (chooseRule (pmxProfileRemoveChain pf x).1 q).action = .proxy := by
    rw [hchosen]
    split_ifs
    · rw [untargetChain_action, haction]
    · exact haction
  have hkind' : (chooseRule (pmxProfileRemoveChain pf x).1 q).targetKind = .chain := by
    rw [hchosen]
    split_ifs
    · rw [untargetChain_targetKind, hkind]
    · exact hkind
  have hid' : (chooseRule (pmxProfileRemoveChain pf x).1 q).targetId = targetLeft pf q x := by
    rw [hchosen, targetLeft]
    split_ifs
    · exact untargetChain_targetId hkind hid
    · exact hid
  rw [viaCount_eq_zero_of_chain haction' hkind', hid', pmxProfileRemoveChain_of_mem hx]
  refine and_iff_right ?_
  rw [← pmxProfileRemoveChain_of_mem hx]
  exact resolve_chain_verdict haction'

/-- Three chains over proxy 1: two with the id 3, and one without an id.  The rule for port 443 and the
default rule target chain 3. -/
def sharedIdText : CStr :=
  ⟨cstr ([
    "\x7b\"format\":\"pmxprofile\",\"proxies\":[\x7b\"id\":1\x7d],",
    "\"chains\":[\x7b\"id\":3,\"hops\":[1]\x7d,\x7b\"id\":3,\"hops\":[1]\x7d,\x7b\"hops\":[1]\x7d],",
    "\"rules\":[\x7b\"ports\":\"443\",\"action\":1,\"target_kind\":2,\"target_id\":3\x7d],",
    "\"default_rule\":\x7b\"action\":1,\"target_kind\":2,\"target_id\":3\x7d\x7d"].flatMap bytes),
    nul_notMem_cstr _⟩

/-- The tree of that text. -/
def sharedIdTree : Json :=
  .obj [("format", jsonText pmxProfileFormat),
    ("proxies", .arr [.obj [("id", jsonInt 1)]]),
    ("chains",
      .arr [.obj [("id", jsonInt 3), ("hops", .arr [jsonInt 1])],
        .obj [("id", jsonInt 3), ("hops", .arr [jsonInt 1])], .obj [("hops", .arr [jsonInt 1])]]),
    ("rules",
      .arr [.obj [("ports", jsonText "443"), ("action", jsonInt 1), ("target_kind", jsonInt 2),
        ("target_id", jsonInt 3)]]),
    ("default_rule",
      .obj [("action", jsonInt 1), ("target_kind", jsonInt 2), ("target_id", jsonInt 3)])]

theorem removedChain_blocks_iff_sharedId :
    ((pmxResolveWithProfile (pmxProfileRemoveChain (profileFromTree .unlimited sharedIdTree) 3).1
          ⟨none, none, none, 443⟩).verdict = .proxy ∧
        (pmxResolveWithProfile (pmxProfileRemoveChain (profileFromTree .unlimited sharedIdTree) 3).1
          ⟨none, none, none, 443⟩).viaCount = 0) ↔
      ¬StandIn (profileFromTree .unlimited sharedIdTree) 3
        (targetLeft (profileFromTree .unlimited sharedIdTree) ⟨none, none, none, 443⟩ 3) :=
  removedChain_blocks_iff (by decide +kernel) (decides_chooseRule _ _) (by decide +kernel)
    (by decide +kernel) (by decide +kernel)

/-- Chain 3 is deleted, and both queries it carried are sent through another chain. -/
theorem not_removedChain_blocks_sharedId :
    ∃ pf, pmxProfileFromJson (oneTextCJson sharedIdText sharedIdTree) .unlimited pmxProfileInit
        sharedIdText = (pf, .ok) ∧
      (pmxProfileRemoveChain pf 3).2 = .ok ∧
      (∃ r ∈ pf.rules, Decides pf ⟨none, none, none, 443⟩ r ∧ r.action = .proxy ∧
        r.targetKind = .chain ∧ r.targetId = 3) ∧
      (pmxResolveWithProfile (pmxProfileRemoveChain pf 3).1 ⟨none, none, none, 443⟩).viaCount = 1 ∧
      Decides pf ⟨none, none, none, 80⟩ pf.defaultRule ∧ pf.defaultRule.action = .proxy ∧
      pf.defaultRule.targetKind = .chain ∧ pf.defaultRule.targetId = 3 ∧
      (pmxResolveWithProfile (pmxProfileRemoveChain pf 3).1 ⟨none, none, none, 80⟩).viaCount = 1 := by
  refine ⟨_, pmxProfileFromJson_oneText rfl _ _ _, by decide +kernel, ?_, by decide +kernel, ?_,
    by decide +kernel, by decide +kernel, by decide +kernel, by decide +kernel⟩
  · refine ⟨_, ?_, decides_chooseRule _ _, ?_, ?_, ?_⟩
    · decide +kernel
    · decide +kernel
    · decide +kernel
    · decide +kernel
  · exact Or.inr ⟨by decide +kernel, rfl⟩

end ProxiMight
