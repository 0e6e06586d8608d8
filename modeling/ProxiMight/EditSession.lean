import ProxiMight.RemoveChain
import ProxiMight.Shifts

/-!
# Sessions of edits (`pmx_chain.c`, `pmx_profile_seed_defaults`)

From the profile that an engine starts with, things are added, removed and moved by calls, and their
fields are written in place, all but their ids.  Ids are never issued twice while the counter does not
wrap, so a reference to something deleted stays one to nothing.

* **`deletedTarget_noPath`** — a rule whose target was deleted gives no path until it is edited itself.
* **`deletedHop_noPath`** — nor does a sequential chain, one of whose hops was deleted.
-/

namespace ProxiMight

open CString Runs Shifts

/-! ### The hops of a chain -/

def pmxChainRemoveHop (c : PmxChain) (index : ℕ) : PmxChain × PmxStatus :=
  if index ≥ c.hops.length then (c, .errInvalidArg)
  else
    ({ c with
        hops := removeSlot c.hops index
        hops_fit := (length_removeSlot_le c.hops index).trans c.hops_fit }, .ok)

def pmxChainMoveHop (c : PmxChain) (src dst : ℕ) : PmxChain × PmxStatus :=
  if h : src < c.hops.length ∧ dst < c.hops.length then
    if src = dst then (c, .ok)
    else
      ({ c with
          hops := moveSlot c.hops src dst (c.hops.get ⟨src, h.1⟩)
          hops_fit := (length_moveSlot c.hops src dst _).trans_le c.hops_fit }, .ok)
  else (c, .errInvalidArg)

/-! ### Sessions -/

/-- A step of a session: a call that edits the profile or the hops of a chain, or fields of a proxy, a
rule or a chain that are written in place. -/
inductive EditOp
  | edit (e : ProfileEdit)
  | setProxy (i : ℕ) (p : PmxProxy)
  | setRule (i : ℕ) (r : PmxRule)
  | setChain (i : ℕ) (label : CBuf pmxMaxLabel) (mode : PmxChainMode) (enabled : Bool)
  | addHop (i : ℕ) (proxyId : PmxId)
  | removeHop (i index : ℕ)
  | moveHop (i src dst : ℕ)

/-- What the step writes into one chain. -/
def EditOp.onChain : EditOp → PmxChain → PmxChain
  | .setChain _ label mode enabled, c => { c with label := label, mode := mode, enabled := enabled }
  | .addHop _ proxyId, c => (pmxChainAddHop c proxyId).1
  | .removeHop _ index, c => (pmxChainRemoveHop c index).1
  | .moveHop _ src dst, c => (pmxChainMoveHop c src dst).1
  | _, c => c

def editStep (pf : PmxProfile) : EditOp → PmxProfile
  | .edit e => editProfile pf e
  | .setProxy i p => { pf with proxies := pf.proxies.modify i fun old => { p with id := old.id } }
  | .setRule i r => { pf with rules := pf.rules.modify i fun old => { r with id := old.id } }
  | .setChain i label mode enabled =>
    { pf with chains := pf.chains.modify i (EditOp.setChain i label mode enabled).onChain }
  | .addHop i proxyId => { pf with chains := pf.chains.modify i (EditOp.addHop i proxyId).onChain }
  | .removeHop i index => { pf with chains := pf.chains.modify i (EditOp.removeHop i index).onChain }
  | .moveHop i src dst => { pf with chains := pf.chains.modify i (EditOp.moveHop i src dst).onChain }

/-- The step is a call that may issue an id. -/
def EditOp.adds : EditOp → Bool
  | .edit e => e.adds
  | _ => false

/-- The slot of the chain whose fields or hops the step writes. -/
def EditOp.chainSlot : EditOp → Option ℕ
  | .setChain i _ _ _ => some i
  | .addHop i _ => some i
  | .removeHop i _ => some i
  | .moveHop i _ _ => some i
  | _ => none

/-- The slot of the rule whose fields the step writes. -/
def EditOp.ruleSlot : EditOp → Option ℕ
  | .setRule i _ => some i
  | _ => none

/-- A proxy is added, if there is memory for it, and its fields are written. -/
def seedProxy (pf : PmxProfile) (granted : Bool) (write : PmxProxy → PmxProxy) :
    PmxProfile × Option PmxId :=
  match pmxProfileAddProxy pf granted with
  | (added, some p) => ({ added with proxies := pf.proxies ++ [write p] }, some p.id)
  | (added, none) => (added, none)

def seedRule (pf : PmxProfile) (granted : Bool) (write : PmxRule → PmxRule) : PmxProfile :=
  match pmxProfileAddRule pf granted with
  | (added, some r) => { added with rules := pf.rules ++ [write r] }
  | (added, none) => added

def seedTor (p : PmxProxy) : PmxProxy :=
  { p with
      label := strlcpy pmxMaxLabel (bytes "Local Tor (SOCKS5)")
      type := .socks5
      host := strlcpy pmxMaxHost (bytes "127.0.0.1")
      port := 9050
      enabled := true }

def seedHttp (p : PmxProxy) : PmxProxy :=
  { p with
      label := strlcpy pmxMaxLabel (bytes "Example HTTP proxy")
      type := .http
      host := strlcpy pmxMaxHost (bytes "127.0.0.1")
      port := 8080
      enabled := false }

def seedLocal (r : PmxRule) : PmxRule :=
  { r with
      name := strlcpy pmxMaxName (bytes "Local & LAN direct")
      hostPattern := strlcpy pmxMaxPattern (bytes "127.*;10.*;192.168.*;172.16.*;169.254.*")
      action := .direct
      targetKind := .none }

def seedBrowsers (tor : Option PmxId) (r : PmxRule) : PmxRule :=
  { r with
      name := strlcpy pmxMaxName (bytes "Browsers via Tor")
      appPattern := strlcpy pmxMaxPattern (bytes "chrome.exe;firefox.exe;msedge.exe;Google Chrome;firefox")
      action := .proxy
      targetKind := .proxy
      targetId := tor.getD pmxIdNone }

/-- `pmx_profile_seed_defaults`; the arguments say whether there is memory for each thing. -/
def pmxProfileSeedDefaults (torOk httpOk localOk browsersOk : Bool) : PmxProfile :=
  let pf := { pmxProfileInit with label := strlcpy pmxMaxLabel (bytes "Default profile") }
  let tor := seedProxy pf torOk seedTor
  let http := seedProxy tor.1 httpOk seedHttp
  let pf := seedRule (seedRule http.1 localOk seedLocal) browsersOk (seedBrowsers tor.2)
  { pf with
      defaultRule :=
        { pf.defaultRule with
            name := strlcpy pmxMaxName (bytes "Default"), action := .direct, targetKind := .none } }

/-! ### Ids -/

/-- Things of a kind are told apart by their ids, and every id has been issued before. -/
structure IdsInOrder (pf : PmxProfile) : Prop where
  proxies : (pf.proxies.map (·.id)).Nodup
  rules : (pf.rules.map (·.id)).Nodup
  chains : (pf.chains.map (·.id)).Nodup
  issued : ∀ id ∈ pf.ids, id ≠ pmxIdNone ∧ id.toNat < (dueId pf.nextId).toNat

/-- The step leaves the counter short of its end. -/
def NoWrap (pf : PmxProfile) (op : EditOp) : Prop :=
  op.adds = true → (dueId pf.nextId).toNat < 2 ^ 64 - 1

/-- What a step makes of the ids of one array: some may go or move, or the one that is due is added. -/
def IdsStep (pf : PmxProfile) (ids ids' : List PmxId) : Prop :=
  List.Subperm ids' ids ∨ ids' = ids ++ [dueId pf.nextId]

theorem IdsStep.of_eq {pf : PmxProfile} {ids ids' : List PmxId} (h : ids' = ids) : IdsStep pf ids ids' :=
  Or.inl (h ▸ List.Subperm.refl _)

theorem IdsStep.nodup {pf : PmxProfile} {ids ids' : List PmxId} (h : IdsStep pf ids ids')
    (hnodup : ids.Nodup) (hdue : dueId pf.nextId ∉ ids) : ids'.Nodup := by
  rcases h with h | rfl
  · obtain ⟨l, hperm, hsub⟩ := h
    exact hperm.nodup_iff.1 (hnodup.sublist hsub)
  · rw [← List.concat_eq_append]
    exact hnodup.concat hdue

theorem IdsStep.notMem {pf : PmxProfile} {ids ids' : List PmxId} (h : IdsStep pf ids ids') {x : PmxId}
    (hx : x ∉ ids) (hdue : x ≠ dueId pf.nextId) : x ∉ ids' := by
  rcases h with h | rfl
  · exact fun hmem => hx (h.subset hmem)
  · intro hmem
    rcases List.mem_append.1 hmem with hmem | hmem
    · exact hx hmem
    · exact hdue (List.mem_singleton.1 hmem)

theorem map_id_modify {α : Type} {key : α → PmxId} {f : α → α} (hf : ∀ a, key (f a) = key a) (l : List α)
    (i : ℕ) : (l.modify i f).map key = l.map key := by
  apply List.ext_getElem?
  intro j
  rw [List.getElem?_map, List.getElem?_map, List.getElem?_modify]
  cases l[j]? with
  | none => rfl
  | some a =>
    show some (key (if i = j then f a else a)) = some (key a)
    split_ifs
    · rw [hf]
    · rfl

theorem mem_modify {α : Type} {f : α → α} {l : List α} {i : ℕ} {a : α} (ha : a ∈ l.modify i f) :
    a ∈ l ∨ ∃ old, l[i]? = some old ∧ a = f old := by
  obtain ⟨j, hj⟩ := List.mem_iff_getElem?.1 ha
  rw [List.getElem?_modify] at hj
  cases hold : l[j]? with
  | none =>
    rw [hold] at hj
    cases hj
  | some old =>
    rw [hold] at hj
    obtain rfl := Option.some.inj hj
    dsimp only
    split_ifs with hij
    · exact Or.inr ⟨old, hij ▸ hold, rfl⟩
    · exact Or.inl (List.mem_of_getElem? hold)

theorem onChain_id (op : EditOp) (c : PmxChain) : (op.onChain c).id = c.id := by
  cases op with
  | edit e => rfl
  | setProxy i p => rfl
  | setRule i r => rfl
  | setChain i label mode enabled => rfl
  | addHop i proxyId =>
    rw [EditOp.onChain, pmxChainAddHop]
    split_ifs <;> rfl
  | removeHop i index =>
    rw [EditOp.onChain, pmxChainRemoveHop]
    split_ifs <;> rfl
  | moveHop i src dst =>
    rw [EditOp.onChain, pmxChainMoveHop]
    split_ifs <;> rfl

theorem map_id_rewritten_eq {α : Type} {key : α → PmxId} {f : α → α} (hf : ∀ a, key (f a) = key a)
    (l : List α) : (l.map f).map key = l.map key := by
  rw [List.map_map]
  exact List.map_congr_left fun a _ => hf a

/-- What a step makes of the ids of the three arrays that a reference goes to or comes from. -/
structure KeepsOrder (pf pf' : PmxProfile) : Prop where
  proxies : IdsStep pf (pf.proxies.map (·.id)) (pf'.proxies.map (·.id))
  rules : IdsStep pf (pf.rules.map (·.id)) (pf'.rules.map (·.id))
  chains : IdsStep pf (pf.chains.map (·.id)) (pf'.chains.map (·.id))

theorem KeepsOrder.refl (pf : PmxProfile) : KeepsOrder pf pf := ⟨.of_eq rfl, .of_eq rfl, .of_eq rfl⟩

theorem keepsOrder_moveRule (pf : PmxProfile) (src dst : ℕ) :
    KeepsOrder pf (pmxProfileMoveRule pf src dst).1 := by
  rw [pmxProfileMoveRule]
  cases hmoved : pf.rules[src]? with
  | none => exact KeepsOrder.refl pf
  | some moved =>
    dsimp only
    split_ifs with hdst hsame
    · exact KeepsOrder.refl pf
    · exact KeepsOrder.refl pf
    · rw [← moveSlot_eq hmoved (Nat.not_le.1 hdst)]
      have hperm := (perm_moveSlot hmoved (Nat.not_le.1 hdst)).map (·.id)
      exact ⟨.of_eq rfl, Or.inl hperm.subperm, .of_eq rfl⟩

/-- **One call.** -/
theorem editProfile_keepsOrder (pf : PmxProfile) (e : ProfileEdit) : KeepsOrder pf (editProfile pf e) := by
  cases e with
  | addProxy granted =>
    cases granted with
    | false => exact KeepsOrder.refl pf
    | true => exact ⟨Or.inr List.map_append, .of_eq rfl, .of_eq rfl⟩
  | addRule granted =>
    cases granted with
    | false => exact KeepsOrder.refl pf
    | true => exact ⟨.of_eq rfl, Or.inr List.map_append, .of_eq rfl⟩
  | addChain granted =>
    cases granted with
    | false => exact KeepsOrder.refl pf
    | true => exact ⟨.of_eq rfl, .of_eq rfl, Or.inr List.map_append⟩
  | addVpn granted => cases granted <;> exact ⟨.of_eq rfl, .of_eq rfl, .of_eq rfl⟩
  | importVpn parsed granted =>
    cases parsed with
    | error st => exact KeepsOrder.refl pf
    | ok v => cases granted <;> exact ⟨.of_eq rfl, .of_eq rfl, .of_eq rfl⟩
  | removeProxy id =>
    rw [editProfile, pmxProfileRemoveProxy]
    split_ifs
    · exact ⟨Or.inl (List.eraseP_sublist.map _).subperm, .of_eq (map_id_rewritten_eq (unhookRule_id id) _),
        .of_eq (map_id_rewritten_eq (unhookChain_id id) _)⟩
    · exact KeepsOrder.refl pf
  | removeRule id =>
    rw [editProfile, pmxProfileRemoveRule]
    split_ifs
    · exact ⟨.of_eq rfl, Or.inl (List.eraseP_sublist.map _).subperm, .of_eq rfl⟩
    · exact KeepsOrder.refl pf
  | removeChain id =>
    rw [editProfile, pmxProfileRemoveChain]
    split_ifs
    · exact ⟨.of_eq rfl, .of_eq (map_id_rewritten_eq (untargetChain_id id) _),
        Or.inl (List.eraseP_sublist.map _).subperm⟩
    · exact KeepsOrder.refl pf
  | removeVpn id =>
    rw [editProfile, pmxProfileRemoveVpn]
    split_ifs
    · exact ⟨.of_eq rfl, .of_eq rfl, .of_eq rfl⟩
    · exact KeepsOrder.refl pf
  | moveRule src dst => exact keepsOrder_moveRule pf src dst

/-- The step that is no call leaves the ids and the counter alone. -/
theorem editStep_ids (pf : PmxProfile) (op : EditOp) :
    (∃ e, op = .edit e) ∨
      ((editStep pf op).proxies.map (·.id) = pf.proxies.map (·.id) ∧
        (editStep pf op).rules.map (·.id) = pf.rules.map (·.id) ∧
        (editStep pf op).chains.map (·.id) = pf.chains.map (·.id) ∧
        (editStep pf op).ids = pf.ids ∧ (editStep pf op).nextId = pf.nextId) := by
  have hrules : ∀ (i : ℕ) (r : PmxRule),
      (pf.rules.modify i fun old => { r with id := old.id }).map (·.id) = pf.rules.map (·.id) :=
    fun i r => map_id_modify (f := fun old => { r with id := old.id }) (fun _ => rfl) pf.rules i
  have hproxies : ∀ (i : ℕ) (p : PmxProxy),
      (pf.proxies.modify i fun old => { p with id := old.id }).map (·.id) = pf.proxies.map (·.id) :=
    fun i p => map_id_modify (f := fun old => { p with id := old.id }) (fun _ => rfl) pf.proxies i
  have hchains : ∀ (i : ℕ) (op : EditOp), (pf.chains.modify i op.onChain).map (·.id) = pf.chains.map (·.id) :=
    fun i op => map_id_modify (onChain_id op) pf.chains i
  cases op with
  | edit e => exact Or.inl ⟨e, rfl⟩
  | setProxy i p =>
    exact Or.inr ⟨hproxies i p, rfl, rfl, by simp only [PmxProfile.ids, editStep, hproxies], rfl⟩
  | setRule i r =>
    exact Or.inr ⟨rfl, hrules i r, rfl, by simp only [PmxProfile.ids, editStep, hrules], rfl⟩
  | setChain i label mode enabled =>
    exact Or.inr ⟨rfl, rfl, hchains i _, by simp only [PmxProfile.ids, editStep, hchains], rfl⟩
  | addHop i proxyId =>
    exact Or.inr ⟨rfl, rfl, hchains i _, by simp only [PmxProfile.ids, editStep, hchains], rfl⟩
  | removeHop i index =>
    exact Or.inr ⟨rfl, rfl, hchains i _, by simp only [PmxProfile.ids, editStep, hchains], rfl⟩
  | moveHop i src dst =>
    exact Or.inr ⟨rfl, rfl, hchains i _, by simp only [PmxProfile.ids, editStep, hchains], rfl⟩

theorem editStep_keepsOrder (pf : PmxProfile) (op : EditOp) : KeepsOrder pf (editStep pf op) := by
  rcases editStep_ids pf op with ⟨e, rfl⟩ | ⟨hproxies, hrules, hchains, -, -⟩
  · exact editProfile_keepsOrder pf e
  · exact ⟨.of_eq hproxies, .of_eq hrules, .of_eq hchains⟩

/-- The counter only goes up, by one at most, and what was issued stays behind it. -/
theorem editStep_due {pf : PmxProfile} {op : EditOp} (hwrap : NoWrap pf op) :
    (dueId pf.nextId).toNat ≤ (dueId (editStep pf op).nextId).toNat ∧
      (dueId (editStep pf op).nextId).toNat ≤ (dueId pf.nextId).toNat + op.adds.toNat ∧
      ∀ id ∈ (editStep pf op).ids, id ∈ pf.ids ∨
        (id = dueId pf.nextId ∧ (dueId pf.nextId).toNat < (dueId (editStep pf op).nextId).toNat) := by
  rcases editStep_ids pf op with ⟨e, rfl⟩ | ⟨-, -, -, hids, hnext⟩
  · rcases editProfile_cases pf e with ⟨-, hkeeps⟩ | ⟨hadd, -, hadds⟩
    · rw [editStep, hkeeps.1]
      exact ⟨Nat.le_refl _, Nat.le_add_right _ _, fun id hid => Or.inl (hkeeps.2 hid)⟩
    · have hlt := hwrap hadd
      have hdue : (dueId (editStep pf (.edit e)).nextId).toNat = (dueId pf.nextId).toNat + 1 := by
        rw [editStep, hadds.nextId, dueId_toNat_succ, if_neg (by omega)]
      rw [hdue, EditOp.adds, hadd]
      refine ⟨Nat.le_succ _, Nat.le_refl _, fun id hid => ?_⟩
      rcases (hadds.ids id).1 hid with hold | rfl
      · exact Or.inl hold
      · exact Or.inr ⟨rfl, Nat.lt_succ_self _⟩
  · rw [hids, hnext]
    exact ⟨Nat.le_refl _, Nat.le_add_right _ _, fun id hid => Or.inl hid⟩

theorem IdsInOrder.due_notMem {pf : PmxProfile} (h : IdsInOrder pf) : dueId pf.nextId ∉ pf.ids :=
  fun hmem => Nat.lt_irrefl _ (h.issued _ hmem).2

theorem IdsInOrder.step {pf : PmxProfile} {op : EditOp} (h : IdsInOrder pf) (hwrap : NoWrap pf op) :
    IdsInOrder (editStep pf op) := by
  obtain ⟨hproxies, hrules, hchains⟩ := editStep_keepsOrder pf op
  obtain ⟨hle, -, hids⟩ := editStep_due hwrap
  have hdue := h.due_notMem
  rw [mem_ids, not_or, not_or, not_or] at hdue
  refine ⟨hproxies.nodup h.proxies hdue.1, hrules.nodup h.rules hdue.2.1, hchains.nodup h.chains hdue.2.2.1,
    fun id hid => ?_⟩
  rcases hids id hid with hold | ⟨rfl, hlt⟩
  · exact ⟨(h.issued id hold).1, (h.issued id hold).2.trans_le hle⟩
  · exact ⟨dueId_ne_none _, hlt⟩

/-- A session with room on the counter never wraps it. -/
theorem eachStep_noWrap : ∀ (ops : List EditOp) (pf : PmxProfile),
    (dueId pf.nextId).toNat + ops.countP (·.adds) ≤ 2 ^ 64 - 1 → EachStep editStep NoWrap pf ops := by
  intro ops
  induction ops with
  | nil => exact fun _ _ => trivial
  | cons op ops ih =>
    intro pf hroom
    rw [List.countP_cons] at hroom
    have hwrap : NoWrap pf op := by
      intro hadd
      rw [if_pos hadd] at hroom
      omega
    obtain ⟨-, hle, -⟩ := editStep_due hwrap
    refine ⟨hwrap, ih _ ?_⟩
    cases hadd : op.adds with
    | false =>
      rw [hadd] at hle hroom
      simp only [Bool.toNat_false, Bool.false_eq_true, if_false] at hle hroom
      omega
    | true =>
      rw [hadd] at hle hroom
      simp only [Bool.toNat_true, if_true] at hle hroom
      omega

/-! ### What becomes of a rule and of a chain -/

/-- The rule as another edit leaves it: its target may be taken away. -/
structure RuleCarried (r r' : PmxRule) : Prop where
  id : r'.id = r.id
  action : r'.action = r.action
  targetKind : r'.targetKind = r.targetKind
  targetId : r'.targetId = r.targetId ∨ r'.targetId = pmxIdNone

theorem RuleCarried.refl (r : PmxRule) : RuleCarried r r := ⟨rfl, rfl, rfl, Or.inl rfl⟩

theorem ruleCarried_unhookRule (x : PmxId) (r : PmxRule) : RuleCarried r (unhookRule x r) := by
  rw [unhookRule]
  split_ifs
  · exact ⟨rfl, rfl, rfl, Or.inr rfl⟩
  · exact RuleCarried.refl r

theorem ruleCarried_untargetChain (x : PmxId) (r : PmxRule) : RuleCarried r (untargetChain x r) := by
  rw [untargetChain]
  split_ifs
  · exact ⟨rfl, rfl, rfl, Or.inr rfl⟩
  · exact RuleCarried.refl r

/-- A call carries every rule on, or adds one under the id that is due. -/
theorem editProfile_rules {pf : PmxProfile} {e : ProfileEdit} {r' : PmxRule}
    (hr' : r' ∈ (editProfile pf e).rules) :
    (∃ r ∈ pf.rules, RuleCarried r r') ∨ r'.id = dueId pf.nextId := by
  have hsame : r' ∈ pf.rules → (∃ r ∈ pf.rules, RuleCarried r r') ∨ r'.id = dueId pf.nextId :=
    fun h => Or.inl ⟨r', h, RuleCarried.refl r'⟩
  cases e with
  | addProxy granted => cases granted <;> exact hsame hr'
  | addRule granted =>
    cases granted with
    | false => exact hsame hr'
    | true =>
      rcases List.mem_append.1 hr' with hr' | hr'
      · exact hsame hr'
      · rw [List.mem_singleton.1 hr']
        exact Or.inr rfl
  | addChain granted => cases granted <;> exact hsame hr'
  | addVpn granted => cases granted <;> exact hsame hr'
  | importVpn parsed granted =>
    cases parsed with
    | error st => exact hsame hr'
    | ok v => cases granted <;> exact hsame hr'
  | removeProxy id =>
    rw [editProfile, pmxProfileRemoveProxy] at hr'
    split_ifs at hr'
    · obtain ⟨r, hr, rfl⟩ := List.mem_map.1 hr'
      exact Or.inl ⟨r, hr, ruleCarried_unhookRule id r⟩
    · exact hsame hr'
  | removeRule id =>
    rw [editProfile, pmxProfileRemoveRule] at hr'
    split_ifs at hr'
    · exact hsame (List.eraseP_subset hr')
    · exact hsame hr'
  | removeChain id =>
    rw [editProfile, pmxProfileRemoveChain] at hr'
    split_ifs at hr'
    · obtain ⟨r, hr, rfl⟩ := List.mem_map.1 hr'
      exact Or.inl ⟨r, hr, ruleCarried_untargetChain id r⟩
    · exact hsame hr'
  | removeVpn id =>
    rw [editProfile, pmxProfileRemoveVpn] at hr'
    split_ifs at hr' <;> exact hsame hr'
  | moveRule src dst =>
    rw [editProfile, pmxProfileMoveRule] at hr'
    cases hmoved : pf.rules[src]? with
    | none =>
      rw [hmoved] at hr'
      exact hsame hr'
    | some moved =>
      rw [hmoved] at hr'
      dsimp only at hr'
      split_ifs at hr'
      · exact hsame hr'
      · exact hsame hr'
      · rcases List.eq_or_mem_of_mem_insertIdx hr' with rfl | hr'
        · exact hsame (List.mem_of_getElem? hmoved)
        · exact hsame (List.mem_of_mem_eraseIdx hr')

/-- The step writes the fields of a rule with that id. -/
def WritesRule (id : PmxId) (pf : PmxProfile) (op : EditOp) : Prop :=
  ∃ i old, op.ruleSlot = some i ∧ pf.rules[i]? = some old ∧ old.id = id

theorem editStep_rules {pf : PmxProfile} {op : EditOp} {r' : PmxRule}
    (hr' : r' ∈ (editStep pf op).rules) :
    (∃ r ∈ pf.rules, RuleCarried r r') ∨ r'.id = dueId pf.nextId ∨ WritesRule r'.id pf op := by
  have hsame : r' ∈ pf.rules →
      (∃ r ∈ pf.rules, RuleCarried r r') ∨ r'.id = dueId pf.nextId ∨ WritesRule r'.id pf op :=
    fun h => Or.inl ⟨r', h, RuleCarried.refl r'⟩
  cases op with
  | edit e => exact (editProfile_rules hr').imp_right Or.inl
  | setRule i r =>
    rcases mem_modify hr' with hr' | ⟨old, hold, rfl⟩
    · exact hsame hr'
    · exact Or.inr (Or.inr ⟨i, old, rfl, hold, rfl⟩)
  | setProxy i p => exact hsame hr'
  | setChain i label mode enabled => exact hsame hr'
  | addHop i proxyId => exact hsame hr'
  | removeHop i index => exact hsame hr'
  | moveHop i src dst => exact hsame hr'

/-- A call carries every chain on, with hops taken away at most, or adds one under the id that is due. -/
theorem editProfile_chains {pf : PmxProfile} {e : ProfileEdit} {c' : PmxChain}
    (hc' : c' ∈ (editProfile pf e).chains) :
    (∃ c ∈ pf.chains, c' = c ∨ ∃ x, c' = unhookChain x c) ∨ c'.id = dueId pf.nextId := by
  have hsame : c' ∈ pf.chains →
      (∃ c ∈ pf.chains, c' = c ∨ ∃ x, c' = unhookChain x c) ∨ c'.id = dueId pf.nextId :=
    fun h => Or.inl ⟨c', h, Or.inl rfl⟩
  cases e with
  | addProxy granted => cases granted <;> exact hsame hc'
  | addRule granted => cases granted <;> exact hsame hc'
  | addChain granted =>
    cases granted with
    | false => exact hsame hc'
    | true =>
      rcases List.mem_append.1 hc' with hc' | hc'
      · exact hsame hc'
      · rw [List.mem_singleton.1 hc']
        exact Or.inr rfl
  | addVpn granted => cases granted <;> exact hsame hc'
  | importVpn parsed granted =>
    cases parsed with
    | error st => exact hsame hc'
    | ok v => cases granted <;> exact hsame hc'
  | removeProxy id =>
    rw [editProfile, pmxProfileRemoveProxy] at hc'
    split_ifs at hc'
    · obtain ⟨c, hc, rfl⟩ := List.mem_map.1 hc'
      exact Or.inl ⟨c, hc, Or.inr ⟨id, rfl⟩⟩
    · exact hsame hc'
  | removeRule id =>
    rw [editProfile, pmxProfileRemoveRule] at hc'
    split_ifs at hc' <;> exact hsame hc'
  | removeChain id =>
    rw [editProfile, pmxProfileRemoveChain] at hc'
    split_ifs at hc'
    · exact hsame (List.eraseP_subset hc')
    · exact hsame hc'
  | removeVpn id =>
    rw [editProfile, pmxProfileRemoveVpn] at hc'
    split_ifs at hc' <;> exact hsame hc'
  | moveRule src dst =>
    rw [editProfile, pmxProfileMoveRule] at hc'
    cases hmoved : pf.rules[src]? with
    | none =>
      rw [hmoved] at hc'
      exact hsame hc'
    | some moved =>
      rw [hmoved] at hc'
      dsimp only at hc'
      split_ifs at hc' <;> exact hsame hc'

/-- The step writes fields or hops of a chain with that id. -/
def WritesChain (id : PmxId) (pf : PmxProfile) (op : EditOp) : Prop :=
  ∃ i old, op.chainSlot = some i ∧ pf.chains[i]? = some old ∧ old.id = id

theorem editStep_chains {pf : PmxProfile} {op : EditOp} {c' : PmxChain}
    (hc' : c' ∈ (editStep pf op).chains) :
    (∃ c ∈ pf.chains, c' = c ∨ ∃ x, c' = unhookChain x c) ∨ c'.id = dueId pf.nextId ∨
      WritesChain c'.id pf op := by
  have hsame : c' ∈ pf.chains → (∃ c ∈ pf.chains, c' = c ∨ ∃ x, c' = unhookChain x c) ∨
      c'.id = dueId pf.nextId ∨ WritesChain c'.id pf op :=
    fun h => Or.inl ⟨c', h, Or.inl rfl⟩
  have hwritten : ∀ i, op.chainSlot = some i → c' ∈ pf.chains.modify i op.onChain →
      (∃ c ∈ pf.chains, c' = c ∨ ∃ x, c' = unhookChain x c) ∨
        c'.id = dueId pf.nextId ∨ WritesChain c'.id pf op := by
    intro i hslot hmem
    rcases mem_modify hmem with hmem | ⟨old, hold, heq⟩
    · exact hsame hmem
    · exact Or.inr (Or.inr ⟨i, old, hslot, hold, by rw [heq, onChain_id]⟩)
  cases op with
  | edit e => exact (editProfile_chains hc').imp_right Or.inl
  | setProxy i p => exact hsame hc'
  | setRule i r => exact hsame hc'
  | setChain i label mode enabled => exact hwritten i rfl hc'
  | addHop i proxyId => exact hwritten i rfl hc'
  | removeHop i index => exact hwritten i rfl hc'
  | moveHop i src dst => exact hwritten i rfl hc'

theorem editStep_defaultRule (pf : PmxProfile) (op : EditOp) :
    (editStep pf op).defaultRule = pf.defaultRule := by
  cases op with
  | edit e =>
    cases e with
    | addProxy granted => cases granted <;> rfl
    | addRule granted => cases granted <;> rfl
    | addChain granted => cases granted <;> rfl
    | addVpn granted => cases granted <;> rfl
    | importVpn parsed granted =>
      cases parsed with
      | error st => rfl
      | ok v => cases granted <;> rfl
    | removeProxy id =>
      rw [editStep, editProfile, pmxProfileRemoveProxy]
      split_ifs <;> rfl
    | removeRule id =>
      rw [editStep, editProfile, pmxProfileRemoveRule]
      split_ifs <;> rfl
    | removeChain id =>
      rw [editStep, editProfile, pmxProfileRemoveChain]
      split_ifs <;> rfl
    | removeVpn id =>
      rw [editStep, editProfile, pmxProfileRemoveVpn]
      split_ifs <;> rfl
    | moveRule src dst =>
      rw [editStep, editProfile, pmxProfileMoveRule]
      cases pf.rules[src]? with
      | none => rfl
      | some moved =>
        dsimp only
        split_ifs <;> rfl
  | setProxy i p => rfl
  | setRule i r => rfl
  | setChain i label mode enabled => rfl
  | addHop i proxyId => rfl
  | removeHop i index => rfl
  | moveHop i src dst => rfl

/-! ### The profile of a session -/

/-- Ids are in order, and the default rule goes by none. -/
structure Edited (pf : PmxProfile) : Prop where
  order : IdsInOrder pf
  default : pf.defaultRule.id = pmxIdNone

theorem Edited.step {pf : PmxProfile} {op : EditOp} (h : Edited pf) (hwrap : NoWrap pf op) :
    Edited (editStep pf op) :=
  ⟨h.order.step hwrap, by rw [editStep_defaultRule, h.default]⟩

/-- Whatever is written into something new but its id. -/
theorem Edited.of_same {pf pf' : PmxProfile} (h : Edited pf)
    (hproxies : pf'.proxies.map (·.id) = pf.proxies.map (·.id))
    (hrules : pf'.rules.map (·.id) = pf.rules.map (·.id)) (hchains : pf'.chains = pf.chains)
    (hvpns : pf'.vpns = pf.vpns) (hnext : pf'.nextId = pf.nextId)
    (hdefault : pf'.defaultRule.id = pf.defaultRule.id) : Edited pf' := by
  have hids : pf'.ids = pf.ids := by rw [PmxProfile.ids, hproxies, hrules, hchains, hvpns, PmxProfile.ids]
  refine ⟨⟨?_, ?_, ?_, ?_⟩, hdefault.trans h.default⟩
  · rw [hproxies]
    exact h.order.proxies
  · rw [hrules]
    exact h.order.rules
  · rw [hchains]
    exact h.order.chains
  · rw [hids, hnext]
    exact h.order.issued

theorem seedProxy_edited {pf : PmxProfile} {n : ℕ} (h : Edited pf ∧ (dueId pf.nextId).toNat ≤ n)
    (hn : n < 2 ^ 64 - 1) (granted : Bool) (write : PmxProxy → PmxProxy) (hid : ∀ p, (write p).id = p.id) :
    Edited (seedProxy pf granted write).1 ∧ (dueId (seedProxy pf granted write).1.nextId).toNat ≤ n + 1 := by
  cases granted with
  | false => exact ⟨h.1, h.2.trans (Nat.le_succ n)⟩
  | true =>
    have hwrap : NoWrap pf (.edit (.addProxy true)) := fun _ => h.2.trans_lt hn
    refine ⟨(h.1.step hwrap).of_same ?_ rfl rfl rfl rfl rfl, ?_⟩
    · show (pf.proxies ++ [write _]).map (fun p : PmxProxy => p.id) =
        (pf.proxies ++ [_]).map fun p : PmxProxy => p.id
      rw [List.map_append, List.map_append, List.map_singleton, List.map_singleton, hid]
    · exact (editStep_due hwrap).2.1.trans (Nat.succ_le_succ h.2)

theorem seedRule_edited {pf : PmxProfile} {n : ℕ} (h : Edited pf ∧ (dueId pf.nextId).toNat ≤ n)
    (hn : n < 2 ^ 64 - 1) (granted : Bool) (write : PmxRule → PmxRule) (hid : ∀ r, (write r).id = r.id) :
    Edited (seedRule pf granted write) ∧ (dueId (seedRule pf granted write).nextId).toNat ≤ n + 1 := by
  cases granted with
  | false => exact ⟨h.1, h.2.trans (Nat.le_succ n)⟩
  | true =>
    have hwrap : NoWrap pf (.edit (.addRule true)) := fun _ => h.2.trans_lt hn
    refine ⟨(h.1.step hwrap).of_same rfl ?_ rfl rfl rfl rfl, ?_⟩
    · show (pf.rules ++ [write _]).map (fun r : PmxRule => r.id) =
        (pf.rules ++ [_]).map fun r : PmxRule => r.id
      rw [List.map_append, List.map_append, List.map_singleton, List.map_singleton, hid]
    · exact (editStep_due hwrap).2.1.trans (Nat.succ_le_succ h.2)

theorem pmxProfileInit_edited : Edited pmxProfileInit ∧ (dueId pmxProfileInit.nextId).toNat ≤ 1 :=
  ⟨⟨⟨List.nodup_nil, List.nodup_nil, List.nodup_nil, nofun⟩, rfl⟩, by decide⟩

/-- Whatever there is memory for, the seeded profile is in order, and has issued four ids at most. -/
theorem pmxProfileSeedDefaults_edited (torOk httpOk localOk browsersOk : Bool) :
    Edited (pmxProfileSeedDefaults torOk httpOk localOk browsersOk) ∧
      (dueId (pmxProfileSeedDefaults torOk httpOk localOk browsersOk).nextId).toNat ≤ 5 := by
  obtain ⟨hinit, hdue⟩ := pmxProfileInit_edited
  have hlabel : ∀ label, Edited { pmxProfileInit with label := label } ∧
      (dueId ({ pmxProfileInit with label := label } : PmxProfile).nextId).toNat ≤ 1 :=
    fun label => ⟨hinit.of_same rfl rfl rfl rfl rfl rfl, hdue⟩
  have htor := seedProxy_edited (hlabel (strlcpy pmxMaxLabel (bytes "Default profile"))) (by decide) torOk
    seedTor fun _ => rfl
  have hhttp := seedProxy_edited htor (by decide) httpOk seedHttp fun _ => rfl
  have hlocal := seedRule_edited hhttp (by decide) localOk seedLocal fun _ => rfl
  have hbrowsers := fun tor => seedRule_edited hlocal (by decide) browsersOk (seedBrowsers tor) fun _ => rfl
  exact ⟨(hbrowsers _).1.of_same rfl rfl rfl rfl rfl rfl, (hbrowsers _).2⟩

/-- The profile after a session, and whether the counter wraps in another one behind it. -/
theorem edited_session (torOk httpOk localOk browsersOk : Bool) {before after : List EditOp}
    {e : ProfileEdit} (hadds : e.adds = false)
    (hroom : (before ++ after).countP (·.adds) < 2 ^ 64 - 5) :
    Edited (runFrom editStep (pmxProfileSeedDefaults torOk httpOk localOk browsersOk) before) ∧
      EachStep editStep NoWrap
        (editProfile (runFrom editStep (pmxProfileSeedDefaults torOk httpOk localOk browsersOk) before) e)
        after := by
  obtain ⟨hseed, hdue⟩ := pmxProfileSeedDefaults_edited torOk httpOk localOk browsersOk
  have hall := eachStep_noWrap (before ++ EditOp.edit e :: after)
    (pmxProfileSeedDefaults torOk httpOk localOk browsersOk)
  have hcount : (before ++ EditOp.edit e :: after).countP (·.adds) =
      (before ++ after).countP (·.adds) := by
    rw [List.countP_append, List.countP_append, List.countP_cons_of_neg]
    rw [EditOp.adds, hadds]
    exact Bool.false_ne_true
  rw [hcount] at hall
  obtain ⟨hbefore, -, hafter⟩ := (eachStep_append before _ _).1 (hall (by omega))
  exact ⟨runFrom_of_guarded Edited (fun _ _ h hwrap => h.step hwrap) before _ hseed hbefore, hafter⟩

/-! ### A rule without its target -/

/-- The ids that a target of that kind may have. -/
def targetIds (pf : PmxProfile) : PmxTargetKind → List PmxId
  | .proxy => pf.proxies.map (·.id)
  | .chain => pf.chains.map (·.id)
  | _ => []

/-- The call that deletes a target. -/
def deletion : PmxTargetKind → PmxId → Option ProfileEdit
  | .proxy, id => some (.removeProxy id)
  | .chain, id => some (.removeChain id)
  | _, _ => none

/-- The rules of that id target something of a kind that is gone, or nothing. -/
structure OrphanRule (id : PmxId) (kind : PmxTargetKind) (x : PmxId) (pf : PmxProfile) : Prop where
  edited : Edited pf
  id_issued : id.toNat < (dueId pf.nextId).toNat
  target_issued : x.toNat < (dueId pf.nextId).toNat
  gone : x ∉ targetIds pf kind
  rules : ∀ r ∈ pf.rules, r.id = id →
    r.action = .proxy ∧ r.targetKind = kind ∧ (r.targetId = x ∨ r.targetId = pmxIdNone)

theorem ne_due {pf : PmxProfile} {id : PmxId} (h : id.toNat < (dueId pf.nextId).toNat) :
    id ≠ dueId pf.nextId := by
  rintro rfl
  exact Nat.lt_irrefl _ h

theorem targetIds_step {pf : PmxProfile} {op : EditOp} {kind : PmxTargetKind} {x : PmxId}
    (hx : x ∉ targetIds pf kind) (hdue : x ≠ dueId pf.nextId) : x ∉ targetIds (editStep pf op) kind := by
  obtain ⟨hproxies, -, hchains⟩ := editStep_keepsOrder pf op
  cases kind with
  | proxy => exact hproxies.notMem hx hdue
  | chain => exact hchains.notMem hx hdue
  | none => exact List.not_mem_nil
  | other raw => exact List.not_mem_nil

theorem OrphanRule.step {id : PmxId} {kind : PmxTargetKind} {x : PmxId} {pf : PmxProfile} {op : EditOp}
    (h : OrphanRule id kind x pf) (hwrap : NoWrap pf op) (hwrite : ¬WritesRule id pf op) :
    OrphanRule id kind x (editStep pf op) := by
  obtain ⟨hle, -, -⟩ := editStep_due hwrap
  refine ⟨h.edited.step hwrap, h.id_issued.trans_le hle, h.target_issued.trans_le hle,
    targetIds_step h.gone (ne_due h.target_issued), fun r' hr' hid => ?_⟩
  rcases editStep_rules hr' with ⟨r, hr, hcarried⟩ | hdue | hwritten
  · obtain ⟨haction, hkind, htarget⟩ := h.rules r hr (hcarried.id.symm.trans hid)
    refine ⟨hcarried.action.trans haction, hcarried.targetKind.trans hkind, ?_⟩
    rcases hcarried.targetId with hsame | hnone
    · rw [hsame]
      exact htarget
    · exact Or.inr hnone
  · exact absurd (hid.symm.trans hdue) (ne_due h.id_issued)
  · rw [hid] at hwritten
    exact absurd hwritten hwrite

/-- A look-up by an id that is gone finds nothing. -/
theorem findProxy_of_notMem {pf : PmxProfile} {id : PmxId} (h : id ∉ pf.proxies.map (·.id)) :
    pmxProfileFindProxy pf id = none := by
  cases hfind : pmxProfileFindProxy pf id with
  | none => rfl
  | some p =>
    obtain ⟨hp, hid, -⟩ := pmxProfileFindProxy_some hfind
    exact absurd (List.mem_map.2 ⟨p, hp, hid⟩) h

theorem findChain_of_notMem {pf : PmxProfile} {id : PmxId} (h : id ∉ pf.chains.map (·.id)) :
    pmxProfileFindChain pf id = none := by
  rw [pmxProfileFindChain, List.find?_eq_none]
  intro c hc heq
  exact h (List.mem_map.2 ⟨c, hc, by simpa using heq⟩)

theorem targetPath_gone {pf : PmxProfile} (hpf : IdsInOrder pf) {r : PmxRule} {x : PmxId}
    (hx : x ∉ targetIds pf r.targetKind) (hid : r.targetId = x ∨ r.targetId = pmxIdNone) :
    (targetPath pf r).2 = 0 := by
  rw [targetPath]
  cases hkind : r.targetKind with
  | proxy =>
    rw [hkind] at hx
    have hfind : pmxProfileFindProxy pf r.targetId = none := by
      rcases hid with hid | hid
      · exact findProxy_of_notMem (hid ▸ hx)
      · rw [hid, pmxProfileFindProxy, if_pos rfl]
    simp only [proxyPath, hfind]
  | chain =>
    rw [hkind] at hx
    have hfind : pmxProfileFindChain pf r.targetId = none := by
      apply findChain_of_notMem
      rcases hid with hid | hid
      · exact hid ▸ hx
      · rw [hid]
        exact fun hmem => (hpf.issued _ (mem_ids.2 (Or.inr (Or.inr (Or.inl hmem))))).1 rfl
    simp only [hfind]
  | none => rfl
  | other raw => rfl

/-- The rule that decides has an id only if it is in the list. -/
theorem chooseRule_mem_of_id {pf : PmxProfile} (h : Edited pf) {q : PmxConnQuery}
    (hid : (chooseRule pf q).id ≠ pmxIdNone) : chooseRule pf q ∈ pf.rules := by
  rcases List.mem_cons.1 (chooseRule_mem pf q) with hdefault | hmem
  · rw [hdefault, h.default] at hid
    exact absurd rfl hid
  · exact hmem

theorem noPath_of_targetPath {pf : PmxProfile} {q : PmxConnQuery}
    (haction : (chooseRule pf q).action = .proxy) (hpath : (targetPath pf (chooseRule pf q)).2 = 0) :
    (pmxResolveWithProfile pf q).verdict = .proxy ∧ (pmxResolveWithProfile pf q).viaCount = 0 := by
  have hverdict := resolve_chain_verdict haction
  have hcount := pmxResolveWithProfile_path hverdict
  rw [Prod.ext_iff] at hcount
  exact ⟨hverdict, hcount.2.trans hpath⟩

theorem notMem_map_eraseP {α : Type} (key : α → PmxId) (x : PmxId) {l : List α} (h : (l.map key).Nodup) :
    x ∉ (l.eraseP fun a => key a == x).map key := by
  intro hmem
  obtain ⟨a, ha, hkey⟩ := List.mem_map.1 hmem
  have hnone := List.find?_eq_none.1 (SlotTable.find?_eraseP_of_nodup key x l h) a ha
  exact hnone (beq_iff_eq.2 hkey)

/-- A proxy that is deleted is gone, if it was there or not. -/
theorem removeProxy_gone {pf : PmxProfile} (h : IdsInOrder pf) (x : PmxId) :
    x ∉ (pmxProfileRemoveProxy pf x).1.proxies.map (·.id) := by
  rw [pmxProfileRemoveProxy]
  split_ifs with hany
  · exact notMem_map_eraseP (fun p : PmxProxy => p.id) x h.proxies
  · intro hmem
    obtain ⟨p, hp, hid⟩ := List.mem_map.1 hmem
    exact hany (List.any_eq_true.2 ⟨p, hp, beq_iff_eq.2 hid⟩)

theorem removeChain_gone {pf : PmxProfile} (h : IdsInOrder pf) (x : PmxId) :
    x ∉ (pmxProfileRemoveChain pf x).1.chains.map (·.id) := by
  rw [pmxProfileRemoveChain]
  split_ifs with hany
  · exact notMem_map_eraseP (fun c : PmxChain => c.id) x h.chains
  · intro hmem
    obtain ⟨c, hc, hid⟩ := List.mem_map.1 hmem
    exact hany (List.any_eq_true.2 ⟨c, hc, beq_iff_eq.2 hid⟩)

theorem deletion_adds {kind : PmxTargetKind} {x : PmxId} {del : ProfileEdit}
    (hdel : deletion kind x = some del) : del.adds = false := by
  cases kind with
  | proxy => cases hdel; rfl
  | chain => cases hdel; rfl
  | none => cases hdel
  | other raw => cases hdel

theorem targetIds_deletion {pf : PmxProfile} (h : IdsInOrder pf) {kind : PmxTargetKind} {x : PmxId}
    {del : ProfileEdit} (hdel : deletion kind x = some del) : x ∉ targetIds (editProfile pf del) kind := by
  cases kind with
  | proxy => cases hdel; exact removeProxy_gone h x
  | chain => cases hdel; exact removeChain_gone h x
  | none => cases hdel
  | other raw => cases hdel

theorem targetIds_subset_ids (pf : PmxProfile) (kind : PmxTargetKind) : targetIds pf kind ⊆ pf.ids := by
  intro id hid
  rw [mem_ids]
  cases kind with
  | proxy => exact Or.inl hid
  | chain => exact Or.inr (Or.inr (Or.inl hid))
  | none => cases hid
  | other raw => cases hid

/-- A rule whose target is deleted becomes an orphan. -/
theorem orphanRule_deletion {pf : PmxProfile} (h : Edited pf) {r : PmxRule} (hr : r ∈ pf.rules)
    (haction : r.action = .proxy) (hx : r.targetId ∈ targetIds pf r.targetKind) {del : ProfileEdit}
    (hdel : deletion r.targetKind r.targetId = some del) :
    OrphanRule r.id r.targetKind r.targetId (editProfile pf del) := by
  have hadds := deletion_adds hdel
  have hwrap : NoWrap pf (.edit del) := by
    intro hadd
    rw [EditOp.adds, hadds] at hadd
    cases hadd
  have hid := h.order.issued r.id (mem_ids.2 (Or.inr (Or.inl (List.mem_map.2 ⟨r, hr, rfl⟩))))
  have htarget := h.order.issued r.targetId (targetIds_subset_ids pf r.targetKind hx)
  obtain ⟨hle, -, -⟩ := editStep_due hwrap
  refine ⟨h.step hwrap, hid.2.trans_le hle, htarget.2.trans_le hle, targetIds_deletion h.order hdel,
    fun r' hr' hid' => ?_⟩
  rcases editProfile_rules hr' with ⟨r₀, hr₀, hcarried⟩ | hdue
  · -- ids tell rules apart, so it is the rule itself that was carried
    obtain rfl : r₀ = r :=
      List.inj_on_of_nodup_map h.order.rules hr₀ hr (hcarried.id.symm.trans hid')
    exact ⟨hcarried.action.trans haction, hcarried.targetKind, hcarried.targetId⟩
  · exact absurd (hid'.symm.trans hdue) (ne_due hid.2)

/-- **A deleted target is not replaced.**  Whatever session led to a rule with a target, and whatever session
follows the deletion of that target, with any proxies and chains added and whatever else deleted, moved or
rewritten: until the rule itself is edited, the traffic it decides is to be proxied and gets no path. -/
theorem deletedTarget_noPath (torOk httpOk localOk browsersOk : Bool) (before after : List EditOp)
    (r : PmxRule) (del : ProfileEdit) (q : PmxConnQuery)
    (hroom : (before ++ after).countP (·.adds) < 2 ^ 64 - 5) :
    let pf := runFrom editStep (pmxProfileSeedDefaults torOk httpOk localOk browsersOk) before
    let pf' := runFrom editStep (editProfile pf del) after
    r ∈ pf.rules → r.action = .proxy → r.targetId ∈ targetIds pf r.targetKind →
      deletion r.targetKind r.targetId = some del →
      EachStep editStep (fun pf op => ¬WritesRule r.id pf op) (editProfile pf del) after →
      (chooseRule pf' q).id = r.id →
      (pmxResolveWithProfile pf' q).verdict = .proxy ∧ (pmxResolveWithProfile pf' q).viaCount = 0 := by
  intro pf pf' hr haction hx hdel hafter hid
  obtain ⟨hpf, hwrap⟩ := edited_session torOk httpOk localOk browsersOk (deletion_adds hdel) hroom
  have horphan : OrphanRule r.id r.targetKind r.targetId pf' :=
    runFrom_of_guarded (OrphanRule r.id r.targetKind r.targetId) (fun _ _ h hstep => h.step hstep.1 hstep.2)
      after _ (orphanRule_deletion hpf hr haction hx hdel) (hwrap.and hafter)
  have hissued := hpf.order.issued r.id (mem_ids.2 (Or.inr (Or.inl (List.mem_map.2 ⟨r, hr, rfl⟩))))
  have hmem := chooseRule_mem_of_id horphan.edited (by rw [hid]; exact hissued.1)
  obtain ⟨haction', hkind', htarget'⟩ := horphan.rules _ hmem hid
  exact noPath_of_targetPath haction' (targetPath_gone horphan.edited.order (hkind' ▸ horphan.gone) htarget')

/-- The seeded rule for browsers, which targets the first proxy. -/
def browsersRule : PmxRule := (pmxProfileSeedDefaults true true true true).rules.getD 1 pmxRuleInit

def chromeQuery : PmxConnQuery := ⟨some (strlcpy pmxMaxName (bytes "chrome.exe")).toCStr, none, none, 443⟩

/-- The browsers' proxy is deleted, and another one is added. -/
theorem deletedTarget_noPath_browsers :
    let pf := runFrom editStep (editProfile (pmxProfileSeedDefaults true true true true) (.removeProxy 1))
      [.edit (.addProxy true)]
    (pmxResolveWithProfile pf chromeQuery).verdict = .proxy ∧
      (pmxResolveWithProfile pf chromeQuery).viaCount = 0 := by
  intro pf
  have hafter : EachStep editStep (fun pf op => ¬WritesRule browsersRule.id pf op)
      (editProfile (pmxProfileSeedDefaults true true true true) (.removeProxy 1))
      [.edit (.addProxy true)] := by
    refine ⟨?_, trivial⟩
    rintro ⟨i, old, hslot, -⟩
    cases hslot
  have hkind : browsersRule.targetKind = .proxy := by decide +kernel
  have hid : browsersRule.targetId = 1 := by decide +kernel
  exact deletedTarget_noPath true true true true [] [.edit (.addProxy true)] browsersRule (.removeProxy 1)
    chromeQuery (by decide) (by decide +kernel) (by decide +kernel) (by decide +kernel)
    (by rw [hkind, hid]; rfl) hafter (by decide +kernel)

/-! ### A chain without one of its hops -/

/-- The chains of that id are paths over a proxy that is gone, or over a hop that was left dangling. -/
structure OrphanChain (id x : PmxId) (pf : PmxProfile) : Prop where
  edited : Edited pf
  id_issued : id.toNat < (dueId pf.nextId).toNat
  hop_issued : x.toNat < (dueId pf.nextId).toNat
  gone : x ∉ pf.proxies.map (·.id)
  chains : ∀ c ∈ pf.chains, c.id = id → c.mode ≠ .redundancy ∧ ∃ hop ∈ c.hops, hop = x ∨ hop = pmxIdNone

/-- A hop that is dangling stays so when another proxy is deleted. -/
theorem dangling_unhookChain {c : PmxChain} (hmode : c.mode ≠ .redundancy) {x : PmxId}
    (h : ∃ hop ∈ c.hops, hop = x ∨ hop = pmxIdNone) (y : PmxId) :
    ∃ hop ∈ (unhookChain y c).hops, hop = x ∨ hop = pmxIdNone := by
  obtain ⟨hop, hmem, hdangling⟩ := h
  rw [unhookChain, if_neg hmode]
  refine ⟨dangleHop y hop, List.mem_map.2 ⟨hop, hmem, rfl⟩, ?_⟩
  rw [dangleHop]
  split_ifs
  · exact Or.inr rfl
  · exact hdangling

theorem OrphanChain.step {id x : PmxId} {pf : PmxProfile} {op : EditOp} (h : OrphanChain id x pf)
    (hwrap : NoWrap pf op) (hwrite : ¬WritesChain id pf op) : OrphanChain id x (editStep pf op) := by
  obtain ⟨hle, -, -⟩ := editStep_due hwrap
  refine ⟨h.edited.step hwrap, h.id_issued.trans_le hle, h.hop_issued.trans_le hle,
    (editStep_keepsOrder pf op).proxies.notMem h.gone (ne_due h.hop_issued), fun c' hc' hid => ?_⟩
  rcases editStep_chains hc' with ⟨c, hc, rfl | ⟨y, rfl⟩⟩ | hdue | hwritten
  · exact h.chains c' hc hid
  · obtain ⟨hmode, hdangling⟩ := h.chains c hc ((unhookChain_id y c).symm.trans hid)
    exact ⟨by rwa [unhookChain_mode], dangling_unhookChain hmode hdangling y⟩
  · exact absurd (hid.symm.trans hdue) (ne_due h.id_issued)
  · rw [hid] at hwritten
    exact absurd hwritten hwrite

theorem OrphanChain.targetPath {id x : PmxId} {pf : PmxProfile} (h : OrphanChain id x pf) {r : PmxRule}
    (hkind : r.targetKind = .chain) (hid : r.targetId = id) : (targetPath pf r).2 = 0 := by
  rw [ProxiMight.targetPath, hkind]
  dsimp only
  cases hfind : pmxProfileFindChain pf r.targetId with
  | none => rfl
  | some c =>
    have hc := List.mem_of_find?_eq_some hfind
    have hcid : c.id = r.targetId := by simpa using List.find?_some hfind
    obtain ⟨hmode, hop, hmem, hdangling⟩ := h.chains c hc (hcid.trans hid)
    have hmissing : pmxProfileFindProxy pf hop = none := by
      rcases hdangling with rfl | rfl
      · exact findProxy_of_notMem h.gone
      · rw [pmxProfileFindProxy, if_pos rfl]
    dsimp only
    rw [chainPath_sequential pf hmode]
    split_ifs
    · exact viaLoop_of_missing hmem hmissing
    · rfl

theorem orphanChain_removeProxy {pf : PmxProfile} (h : Edited pf) {c : PmxChain} (hc : c ∈ pf.chains)
    (hmode : c.mode ≠ .redundancy) {x : PmxId} (hhop : x ∈ c.hops) (hx : x ∈ pf.proxies.map (·.id)) :
    OrphanChain c.id x (editProfile pf (.removeProxy x)) := by
  have hwrap : NoWrap pf (.edit (.removeProxy x)) := nofun
  have hid := h.order.issued c.id (mem_ids.2 (Or.inr (Or.inr (Or.inl (List.mem_map.2 ⟨c, hc, rfl⟩)))))
  have hxid := h.order.issued x (mem_ids.2 (Or.inl hx))
  obtain ⟨hle, -, -⟩ := editStep_due hwrap
  refine ⟨h.step hwrap, hid.2.trans_le hle, hxid.2.trans_le hle, removeProxy_gone h.order x,
    fun c' hc' hid' => ?_⟩
  rcases editProfile_chains hc' with ⟨c₀, hc₀, hcarried⟩ | hdue
  · have hsame : c₀.id = c'.id := by
      rcases hcarried with rfl | ⟨y, rfl⟩
      · rfl
      · exact (unhookChain_id y c₀).symm
    obtain rfl : c₀ = c := List.inj_on_of_nodup_map h.order.chains hc₀ hc (hsame.trans hid')
    rcases hcarried with rfl | ⟨y, rfl⟩
    · exact ⟨hmode, x, hhop, Or.inl rfl⟩
    · exact ⟨by rwa [unhookChain_mode], dangling_unhookChain hmode ⟨x, hhop, Or.inl rfl⟩ y⟩
  · exact absurd (hid'.symm.trans hdue) (ne_due hid.2)

/-- **A path that lost a hop is not used.**  Whatever session led to a sequential chain with a hop, and
whatever session follows the deletion of that hop's proxy: until the chain itself is edited, traffic that a
rule sends through it is to be proxied and gets no path, so it never takes a shorter one. -/
theorem deletedHop_noPath (torOk httpOk localOk browsersOk : Bool) (before after : List EditOp)
    (c : PmxChain) (x : PmxId) (q : PmxConnQuery)
    (hroom : (before ++ after).countP (·.adds) < 2 ^ 64 - 5) :
    let pf := runFrom editStep (pmxProfileSeedDefaults torOk httpOk localOk browsersOk) before
    let pf' := runFrom editStep (editProfile pf (.removeProxy x)) after
    c ∈ pf.chains → c.mode ≠ .redundancy → x ∈ c.hops → x ∈ pf.proxies.map (·.id) →
      EachStep editStep (fun pf op => ¬WritesChain c.id pf op) (editProfile pf (.removeProxy x)) after →
      (chooseRule pf' q).action = .proxy → (chooseRule pf' q).targetKind = .chain →
      (chooseRule pf' q).targetId = c.id →
      (pmxResolveWithProfile pf' q).verdict = .proxy ∧ (pmxResolveWithProfile pf' q).viaCount = 0 := by
  intro pf pf' hc hmode hhop hx hafter haction hkind hid
  obtain ⟨hpf, hwrap⟩ := edited_session torOk httpOk localOk browsersOk (e := .removeProxy x) rfl hroom
  have horphan : OrphanChain c.id x pf' :=
    runFrom_of_guarded (OrphanChain c.id x) (fun _ _ h hstep => h.step hstep.1 hstep.2) after _
      (orphanChain_removeProxy hpf hc hmode hhop hx) (hwrap.and hafter)
  exact noPath_of_targetPath haction (horphan.targetPath hkind hid)

/-- A chain through the first proxy, and the browsers sent through it. -/
def chainedSession : List EditOp :=
  [.edit (.addChain true), .addHop 0 1, .setRule 1 { browsersRule with targetKind := .chain, targetId := 5 }]

def browsersChain : PmxChain :=
  { pmxChainInit with id := 5, hops := [1], hops_fit := Nat.le_of_ble_eq_true rfl }

theorem deletedHop_noPath_browsers :
    let pf := runFrom editStep (pmxProfileSeedDefaults true true true true) chainedSession
    let pf' := runFrom editStep (editProfile pf (.removeProxy 1)) [.edit (.addProxy true)]
    (pmxResolveWithProfile pf' chromeQuery).verdict = .proxy ∧
      (pmxResolveWithProfile pf' chromeQuery).viaCount = 0 := by
  intro pf pf'
  have hafter : EachStep editStep (fun pf op => ¬WritesChain browsersChain.id pf op)
      (editProfile pf (.removeProxy 1)) [.edit (.addProxy true)] := by
    refine ⟨?_, trivial⟩
    rintro ⟨i, old, hslot, -⟩
    cases hslot
  exact deletedHop_noPath true true true true chainedSession [.edit (.addProxy true)] browsersChain 1
    chromeQuery (by decide) (by decide +kernel) (by decide) (by decide) (by decide +kernel) hafter
    (by decide +kernel) (by decide +kernel) (by decide +kernel)

end ProxiMight
