import ProxiMight.LoadedChains

/-!
# Saving and reloading a profile

Each reader inverts its writer, field by field, on values that an `int` can carry and that lie in the
range the reader clamps to.  An id is written as a double and read as an `int`, a hop is read as the
double it was written as.

* **`profileFromTree_profileTree`** — a profile is read back from its tree with its ids reread, but for
  the path it was loaded from and the note that some VPN endpoints were left out.
* **`fromJson_toJson`** — so every query is decided as before, where the ids fit.
-/

namespace ProxiMight

open CString

/-! ### Values that fit -/

theorem PmxAction.ofInt_toInt (a : PmxAction) : PmxAction.ofInt a.toInt = a := by
  cases a with
  | other u => exact enumOfInt_raw u
  | _ => rfl

theorem PmxTargetKind.ofInt_toInt (k : PmxTargetKind) : PmxTargetKind.ofInt k.toInt = k := by
  cases k with
  | other u => exact enumOfInt_raw u
  | _ => rfl

theorem PmxChainMode.ofInt_toInt (m : PmxChainMode) : PmxChainMode.ofInt m.toInt = m := by
  cases m with
  | other u => exact enumOfInt_raw u
  | _ => rfl

theorem PmxLockdownMode.ofInt_toInt (m : PmxLockdownMode) : PmxLockdownMode.ofInt m.toInt = m := by
  cases m with
  | other u => exact enumOfInt_raw u
  | _ => rfl

theorem PmxVpnKind.ofInt_toInt (k : PmxVpnKind) : PmxVpnKind.ofInt k.toInt = k := by
  cases k with
  | other u => exact enumOfInt_raw u
  | _ => rfl

theorem clampInt_of_mem {v lo hi : ℤ} (hlo : lo ≤ v) (hhi : v ≤ hi) : clampInt v lo hi = v := by
  rw [clampInt, if_neg (by omega), if_neg (by omega)]

/-- A declared proxy type is found under its short name. -/
theorem pmxProxyTypeFromStr_short {t : PmxProxyType} (h : ∀ u, t ≠ .other u) :
    pmxProxyTypeFromStr (cstr (bytes (pmxProxyTypeShort t))) = some t := by
  cases t with
  | other u => exact absurd rfl (h u)
  | _ => decide

structure RuleFits (r : PmxRule) : Prop where
  id : IdFits r.id
  action : FitsInt r.action.toInt
  targetKind : FitsInt r.targetKind.toInt
  targetId : IdFits r.targetId

structure ProxyFits (p : PmxProxy) : Prop where
  id : IdFits p.id
  type : ∀ u, p.type ≠ .other u

structure ChainFits (c : PmxChain) : Prop where
  id : IdFits c.id
  mode : FitsInt c.mode.toInt
  hops : ∀ hop ∈ c.hops, IdFits hop

structure VpnFits (v : PmxVpn) : Prop where
  id : IdFits v.id
  kind : FitsInt v.kind.toInt
  mtu : FitsInt v.mtu
  keepalive : FitsInt v.persistentKeepalive

structure SettingsFit (st : PmxProfileSettings) : Prop where
  demoInterval : FitsInt st.demoIntervalMs
  timeout_ge : 500 ≤ st.check.timeoutMs
  timeout_le : st.check.timeoutMs ≤ 30000

structure LockdownFits (ld : PmxLockdownPolicy) : Prop where
  mode : FitsInt ld.mode.toInt
  interval_ge : 500 ≤ ld.healthIntervalMs
  interval_le : ld.healthIntervalMs ≤ 600000
  failures_ge : 1 ≤ ld.failuresBeforeTrip
  failures_le : ld.failuresBeforeTrip ≤ 100
  successes_ge : 1 ≤ ld.successesBeforeRestore
  successes_le : ld.successesBeforeRestore ≤ 100

/-- Ids and numbers fit in an `int`, what is clamped lies in its range, the proxy types are declared,
and `next_id` is above every id. -/
structure ProfileFits (pf : PmxProfile) : Prop where
  nextId : IdFits pf.nextId
  settings : SettingsFit pf.settings
  lockdown : LockdownFits pf.lockdown
  proxies : ∀ p ∈ pf.proxies, ProxyFits p ∧ p.id < pf.nextId
  chains : ∀ c ∈ pf.chains, ChainFits c ∧ c.id < pf.nextId
  vpns : ∀ v ∈ pf.vpns, VpnFits v ∧ v.id < pf.nextId
  rules : ∀ r ∈ pf.rules, RuleFits r ∧ r.id < pf.nextId
  defaultRule : RuleFits pf.defaultRule

/-- The enumerations of a rule fit in an `int`. -/
structure RuleEnumsFit (r : PmxRule) : Prop where
  action : FitsInt r.action.toInt
  targetKind : FitsInt r.targetKind.toInt

/-- The numbers of a VPN but its id fit in an `int`. -/
structure VpnNumbersFit (v : PmxVpn) : Prop where
  kind : FitsInt v.kind.toInt
  mtu : FitsInt v.mtu
  keepalive : FitsInt v.persistentKeepalive

/-- Everything but the ids fits. -/
structure ProfileReadable (pf : PmxProfile) : Prop where
  settings : SettingsFit pf.settings
  lockdown : LockdownFits pf.lockdown
  proxies : ∀ p ∈ pf.proxies, ∀ u, p.type ≠ .other u
  chains : ∀ c ∈ pf.chains, FitsInt c.mode.toInt
  vpns : ∀ v ∈ pf.vpns, VpnNumbersFit v
  rules : ∀ r ∈ pf.rules, RuleEnumsFit r
  defaultRule : RuleEnumsFit pf.defaultRule

theorem ProfileFits.readable {pf : PmxProfile} (h : ProfileFits pf) : ProfileReadable pf where
  settings := h.settings
  lockdown := h.lockdown
  proxies := fun p hp => (h.proxies p hp).1.type
  chains := fun c hc => (h.chains c hc).1.mode
  vpns := fun v hv => ⟨(h.vpns v hv).1.kind, (h.vpns v hv).1.mtu, (h.vpns v hv).1.keepalive⟩
  rules := fun r hr => ⟨(h.rules r hr).1.action, (h.rules r hr).1.targetKind⟩
  defaultRule := ⟨h.defaultRule.action, h.defaultRule.targetKind⟩

/-- What the source keeps in an `int` fits in one. -/
structure ProfileInts (pf : PmxProfile) : Prop where
  demoInterval : FitsInt pf.settings.demoIntervalMs
  timeout : FitsInt pf.settings.check.timeoutMs
  lockdownMode : FitsInt pf.lockdown.mode.toInt
  healthInterval : FitsInt pf.lockdown.healthIntervalMs
  failures : FitsInt pf.lockdown.failuresBeforeTrip
  successes : FitsInt pf.lockdown.successesBeforeRestore
  chains : ∀ c ∈ pf.chains, FitsInt c.mode.toInt
  vpns : ∀ v ∈ pf.vpns, VpnNumbersFit v
  rules : ∀ r ∈ pf.rules, RuleEnumsFit r
  defaultRule : RuleEnumsFit pf.defaultRule

theorem fitsInt_of_mem {v lo hi : ℤ} (hlo : lo ≤ v) (hhi : v ≤ hi) (h0 : intMin ≤ lo)
    (h1 : hi ≤ intMax) : FitsInt v :=
  ⟨by omega, by omega⟩

theorem ProfileReadable.ints {pf : PmxProfile} (h : ProfileReadable pf) : ProfileInts pf where
  demoInterval := h.settings.demoInterval
  timeout := fitsInt_of_mem h.settings.timeout_ge h.settings.timeout_le (by decide) (by decide)
  lockdownMode := h.lockdown.mode
  healthInterval :=
    fitsInt_of_mem h.lockdown.interval_ge h.lockdown.interval_le (by decide) (by decide)
  failures := fitsInt_of_mem h.lockdown.failures_ge h.lockdown.failures_le (by decide) (by decide)
  successes := fitsInt_of_mem h.lockdown.successes_ge h.lockdown.successes_le (by decide) (by decide)
  chains := h.chains
  vpns := h.vpns
  rules := h.rules
  defaultRule := h.defaultRule

/-- What holds of every id that is written. -/
structure ProfileIds (Q : PmxId → Prop) (pf : PmxProfile) : Prop where
  nextId : Q pf.nextId
  proxies : ∀ p ∈ pf.proxies, Q p.id
  chains : ∀ c ∈ pf.chains, Q c.id ∧ ∀ hop ∈ c.hops, Q hop
  vpns : ∀ v ∈ pf.vpns, Q v.id
  rules : ∀ r ∈ pf.rules, Q r.id ∧ Q r.targetId
  defaultRule : Q pf.defaultRule.id ∧ Q pf.defaultRule.targetId

theorem ProfileFits.ids {pf : PmxProfile} (h : ProfileFits pf) : ProfileIds IdFits pf where
  nextId := h.nextId
  proxies := fun p hp => (h.proxies p hp).1.id
  chains := fun c hc => ⟨(h.chains c hc).1.id, (h.chains c hc).1.hops⟩
  vpns := fun v hv => (h.vpns v hv).1.id
  rules := fun r hr => ⟨(h.rules r hr).1.id, (h.rules r hr).1.targetId⟩
  defaultRule := ⟨h.defaultRule.id, h.defaultRule.targetId⟩

/-! ### Ids -/

/-- An id that was written, read through `valueint`. -/
def rereadId (id : PmxId) : PmxId := idOfInt (valueInt ((toDouble id.toNat : ℤ) : ℚ))

/-- A hop that was written, read through `valuedouble`. -/
def rereadHop (hop : PmxId) : PmxId := hopOf ((toDouble hop.toNat : ℤ) : ℚ)

theorem rereadId_of_fits {id : PmxId} (h : IdFits id) : rereadId id = id := by
  rw [rereadId, toDouble_id h, valueInt_intCast (fitsInt_natCast h), idOfInt_natCast]

theorem rereadHop_of_fits {hop : PmxId} (h : IdFits hop) : rereadHop hop = hop := by
  rw [rereadHop, toDouble_id h, hopOf, truncate_intCast, idOfInt_natCast]

theorem rereadId_of_lookup {fields : List (String × Json)} {key : String} {id : PmxId} {dflt : ℤ}
    (h : fields.lookup key = some (jsonId id)) :
    idOfInt (pmxJsonInt (.obj fields) key dflt) = rereadId id := by
  rw [pmxJsonInt, Json.getItem, h]
  rfl

def rereadRule (r : PmxRule) : PmxRule :=
  { r with id := rereadId r.id, targetId := rereadId r.targetId }

def rereadProxy (p : PmxProxy) : PmxProxy := { p with id := rereadId p.id }

def rereadChain (c : PmxChain) : PmxChain :=
  { c with
      id := rereadId c.id
      hops := c.hops.map rereadHop
      hops_fit := by rw [List.length_map]; exact c.hops_fit }

/-- Whether endpoints were left out is forgotten. -/
def rereadVpn (v : PmxVpn) : PmxVpn := { v with id := rereadId v.id, endpointsTruncated := false }

theorem rereadRule_of_fits {r : PmxRule} (hid : IdFits r.id) (htarget : IdFits r.targetId) :
    rereadRule r = r := by
  rw [rereadRule, rereadId_of_fits hid, rereadId_of_fits htarget]

theorem rereadProxy_of_fits {p : PmxProxy} (h : IdFits p.id) : rereadProxy p = p := by
  rw [rereadProxy, rereadId_of_fits h]

theorem rereadChain_of_fits {c : PmxChain} (hid : IdFits c.id) (hhops : ∀ hop ∈ c.hops, IdFits hop) :
    rereadChain c = c := by
  have hmap : c.hops.map rereadHop = c.hops :=
    (List.map_congr_left fun hop hmem => rereadHop_of_fits (hhops hop hmem)).trans (List.map_id _)
  cases c
  simp only [rereadChain, rereadId_of_fits hid, hmap]

theorem rereadVpn_of_fits {v : PmxVpn} (h : IdFits v.id) :
    rereadVpn v = { v with endpointsTruncated := false } := by
  rw [rereadVpn, rereadId_of_fits h]

/-! ### Reading what was written -/

/-- A clamped integer is read back if it lies in its range. -/
theorem clampInt_of_lookup {fields : List (String × Json)} {key : String} {v dflt lo hi : ℤ}
    (hlo : lo ≤ v) (hhi : v ≤ hi) (h0 : intMin ≤ lo) (h1 : hi ≤ intMax)
    (h : fields.lookup key = some (jsonInt v)) :
    clampInt (pmxJsonInt (.obj fields) key dflt) lo hi = v := by
  rw [pmxJsonInt_of_lookup (fitsInt_of_mem hlo hhi h0 h1) h, clampInt_of_mem hlo hhi]

theorem ruleFromJson_ruleToJson {r : PmxRule} (h : RuleEnumsFit r) :
    ruleFromJson (ruleToJson r) = rereadRule r := by
  cases r with
  | mk id name enabled app host ports action kind targetId =>
    rw [ruleFromJson, ruleToJson, rereadRule]
    simp only [PmxRule.mk.injEq]
    refine ⟨rereadId_of_lookup (by simp), pmxJsonStrInto_of_lookup (by simp),
      pmxJsonBool_of_lookup (by simp), pmxJsonStrInto_of_addStrIf (by simp),
      pmxJsonStrInto_of_addStrIf (by simp), pmxJsonStrInto_of_addStrIf (by simp), ?_, ?_,
      rereadId_of_lookup (by simp)⟩
    · rw [pmxJsonInt_of_lookup h.action (by simp), PmxAction.ofInt_toInt]
    · rw [pmxJsonInt_of_lookup h.targetKind (by simp), PmxTargetKind.ofInt_toInt]

theorem checkFromJson_checkToJson {ck : PmxCheckOpts} (hlo : 500 ≤ ck.timeoutMs)
    (hhi : ck.timeoutMs ≤ 30000) : checkFromJson (checkToJson ck) = ck := by
  cases ck with
  | mk host port timeout egress service path ping =>
    rw [checkFromJson, checkToJson]
    simp only [PmxCheckOpts.mk.injEq]
    exact ⟨pmxJsonStrInto_of_lookup (by simp), portOfInt_of_lookup (by simp),
      clampInt_of_lookup hlo hhi (by decide) (by decide) (by simp), pmxJsonBool_of_lookup (by simp),
      pmxJsonStrInto_of_lookup (by simp), pmxJsonStrInto_of_lookup (by simp),
      pmxJsonBool_of_lookup (by simp)⟩

theorem settingsFromJson_settingsToJson {st : PmxProfileSettings} (h : SettingsFit st) :
    settingsFromJson (settingsToJson st) = st := by
  cases st with
  | mk dns demo interval check wireguard openvpn =>
    have hcheck := checkFromJson_checkToJson h.timeout_ge h.timeout_le
    rw [settingsFromJson, settingsToJson]
    simp only [PmxProfileSettings.mk.injEq]
    refine ⟨pmxJsonBool_of_lookup (by simp), pmxJsonBool_of_lookup (by simp),
      pmxJsonInt_of_lookup h.demoInterval (by simp), ?_, pmxJsonStrInto_of_addStrIf (by simp),
      pmxJsonStrInto_of_addStrIf (by simp)⟩
    simpa [Json.getItem] using hcheck

theorem lockdownFromJson_lockdownToJson {ld : PmxLockdownPolicy} (h : LockdownFits ld) :
    lockdownFromJson (lockdownToJson ld) = ld := by
  cases ld with
  | mk mode verified dns ipv6 interval failures successes =>
    rw [lockdownFromJson, lockdownToJson]
    simp only [PmxLockdownPolicy.mk.injEq]
    refine ⟨?_, pmxJsonBool_of_lookup (by simp), pmxJsonBool_of_lookup (by simp),
      pmxJsonBool_of_lookup (by simp),
      clampInt_of_lookup h.interval_ge h.interval_le (by decide) (by decide) (by simp),
      clampInt_of_lookup h.failures_ge h.failures_le (by decide) (by decide) (by simp),
      clampInt_of_lookup h.successes_ge h.successes_le (by decide) (by decide) (by simp)⟩
    rw [pmxJsonInt_of_lookup h.mode (by simp), PmxLockdownMode.ofInt_toInt]

theorem proxyFromJson_proxyToJson {p : PmxProxy} (h : ∀ u, p.type ≠ .other u) :
    proxyFromJson (proxyToJson p) = rereadProxy p := by
  cases p with
  | mk id label type host port useAuth username password enabled =>
    rw [proxyFromJson, proxyToJson, rereadProxy]
    simp only [PmxProxy.mk.injEq]
    refine ⟨rereadId_of_lookup (by simp), pmxJsonStrInto_of_lookup (by simp), ?_,
      pmxJsonStrInto_of_lookup (by simp), portOfInt_of_lookup (by simp),
      pmxJsonBool_of_lookup (by simp), pmxJsonStrInto_of_addStrIf (by simp),
      pmxJsonStrInto_of_addStrIf (by simp), pmxJsonBool_of_lookup (by simp)⟩
    have hread : ∀ fields : List (String × Json),
        fields.lookup "type" = some (jsonText (pmxProxyTypeShort type)) →
          (pmxProxyTypeFromStr (pmxJsonStr (.obj fields) "type" (bytes "socks5"))).getD .socks5
            = type := by
      intro fields hlookup
      rw [pmxJsonStr_of_lookup hlookup, pmxProxyTypeFromStr_short h, Option.getD_some]
    exact hread _ (by simp)

theorem PmxChain.eq_of_fields {c c' : PmxChain} (hid : c.id = c'.id) (hlabel : c.label = c'.label)
    (hmode : c.mode = c'.mode) (hhops : c.hops = c'.hops) (hen : c.enabled = c'.enabled) : c = c' := by
  cases c
  cases c'
  simp only [PmxChain.mk.injEq]
  exact ⟨hid, hlabel, hmode, hhops, hen⟩

theorem chainFromJson_chainToJson {c : PmxChain} (h : FitsInt c.mode.toInt) :
    chainFromJson (chainToJson c) = rereadChain c := by
  cases c with
  | mk id label mode hops enabled fit =>
    have hitems : hopItems (chainToJson ⟨id, label, mode, hops, enabled, fit⟩) = hops.map jsonId := by
      simp [hopItems, chainToJson, Json.getItem, arrayItems]
    have hnumbers : (hops.map jsonId).filterMap Json.number
        = hops.map fun hop => ((toDouble hop.toNat : ℤ) : ℚ) := by
      rw [List.filterMap_map, ← List.filterMap_eq_map]
      rfl
    have hhops : (chainFromJson (chainToJson ⟨id, label, mode, hops, enabled, fit⟩)).hops
        = hops.map rereadHop := by
      rw [chainFromJson_hops, hopNumbers, hitems, hnumbers,
        List.take_of_length_le (by rw [List.length_map]; exact fit), List.map_map]
      rfl
    obtain ⟨hid, hlabel, hmode, hen⟩ :=
      chainFromJson_frame (chainToJson ⟨id, label, mode, hops, enabled, fit⟩)
    refine PmxChain.eq_of_fields ?_ ?_ ?_ hhops ?_
    · rw [hid]
      refine rereadId_of_lookup ?_
      simp
    · rw [hlabel]
      exact pmxJsonStrInto_of_lookup (b := label) (by simp)
    · rw [hmode, chainToJson, pmxJsonInt_of_lookup h (by simp)]
      exact PmxChainMode.ofInt_toInt mode
    · rw [hen]
      exact pmxJsonBool_of_lookup (b := enabled) (by simp)

theorem endpointFromJson_endpointToJson (ep : PmxVpnEndpoint) :
    endpointFromJson (endpointToJson ep) = ep := by
  cases ep with
  | mk host port udp =>
    rw [endpointFromJson, endpointToJson]
    simp only [PmxVpnEndpoint.mk.injEq]
    exact ⟨pmxJsonStrInto_of_lookup (by simp), portOfInt_of_lookup (by simp),
      pmxJsonBool_of_lookup (by simp)⟩

theorem foldl_readEndpoint {eps : List PmxVpnEndpoint} :
    ∀ (v : PmxVpn) (h : (v.endpoints ++ eps).length ≤ pmxMaxVpnEndpoints),
      (eps.map endpointToJson).foldl readEndpoint v =
        { v with endpoints := v.endpoints ++ eps, endpoints_fit := h } := by
  induction eps with
  | nil =>
    intro v h
    simp
  | cons ep eps ih =>
    intro v h
    have hroom : v.endpoints.length < pmxMaxVpnEndpoints := by
      simp only [List.length_append, List.length_cons] at h
      omega
    have hrest : (v.endpoints ++ [ep] ++ eps).length ≤ pmxMaxVpnEndpoints := by
      rw [List.append_assoc]
      exact h
    have hread : readEndpoint v (endpointToJson ep) =
        { v with
            endpoints := v.endpoints ++ [ep]
            endpoints_fit := SlotTable.length_concat_le hroom ep } := by
      simp only [readEndpoint, dif_pos hroom, endpointFromJson_endpointToJson]
    rw [List.map_cons, List.foldl_cons, hread, ih _ hrest]
    simp only [List.append_assoc, List.singleton_append]

theorem vpnFromJson_vpnToJson {v : PmxVpn} (h : VpnNumbersFit v) :
    vpnFromJson (vpnToJson v) = rereadVpn v := by
  cases v with
  | mk id label kind enabled config eps truncated dns mtu address allowed key keepalive cipher auth dev
      priv psk inline userPass full fit =>
    have hitems : arrayItems ((vpnToJson ⟨id, label, kind, enabled, config, eps, truncated, dns, mtu,
        address, allowed, key, keepalive, cipher, auth, dev, priv, psk, inline, userPass, full,
        fit⟩).getItem "endpoints") = eps.map endpointToJson := by
      simp [vpnToJson, Json.getItem, arrayItems]
    rw [vpnFromJson, hitems, foldl_readEndpoint _ (by simpa [pmxVpnInit] using fit)]
    simp only [vpnToJson, rereadVpn, PmxVpn.mk.injEq, pmxVpnInit, List.nil_append]
    refine ⟨rereadId_of_lookup (by simp), pmxJsonStrInto_of_lookup (by simp), ?_,
      pmxJsonBool_of_lookup (by simp), pmxJsonStrInto_of_addStrIf (by simp), trivial, trivial,
      pmxJsonStrInto_of_addStrIf (by simp), pmxJsonInt_of_lookup h.mtu (by simp),
      pmxJsonStrInto_of_addStrIf (by simp), pmxJsonStrInto_of_addStrIf (by simp),
      pmxJsonStrInto_of_addStrIf (by simp), pmxJsonInt_of_lookup h.keepalive (by simp),
      pmxJsonStrInto_of_addStrIf (by simp), pmxJsonStrInto_of_addStrIf (by simp),
      pmxJsonStrInto_of_addStrIf (by simp), pmxJsonBool_of_lookup (by simp),
      pmxJsonBool_of_lookup (by simp), pmxJsonBool_of_lookup (by simp),
      pmxJsonBool_of_lookup (by simp), pmxJsonBool_of_lookup (by simp)⟩
    rw [pmxJsonInt_of_lookup h.kind (by simp), PmxVpnKind.ofInt_toInt]

/-! ### The whole profile -/

/-- With all the memory it asks for, the loop stores every item. -/
theorem storeItems_of_alloc {α : Type} {read : Json → α} {alloc : ℕ → Bool} (halloc : ∀ n, alloc n = true) :
    ∀ (items : List Json) (cap : ℕ) (stored : List α),
      storeItems read alloc cap stored items = stored ++ items.map read := by
  intro items
  induction items with
  | nil =>
    intro cap stored
    rw [storeItems, List.map_nil, List.append_nil]
  | cons o rest ih =>
    intro cap stored
    have hmove : stored ++ (o :: rest).map read = stored ++ [read o] ++ rest.map read := by
      rw [List.map_cons, List.append_assoc, List.singleton_append]
    rw [storeItems, hmove]
    by_cases hfull : stored.length ≥ cap
    · rw [if_pos hfull, if_pos (halloc stored.length)]
      exact ih _ _
    · rw [if_neg hfull]
      exact ih _ _

/-- Ids below `next_id` leave it alone. -/
theorem raiseNextId_of_lt {α : Type} {key : α → PmxId} {nextId : PmxId} {xs : List α}
    (h : ∀ x ∈ xs, key x < nextId) : raiseNextId nextId (xs.map key) = nextId := by
  induction xs with
  | nil => rfl
  | cons x xs ih =>
    have hx : ¬ key x ≥ nextId := UInt64.not_le.2 (h x List.mem_cons_self)
    rw [List.map_cons, raiseNextId, List.foldl_cons, if_neg hx]
    exact ih fun y hy => h y (List.mem_cons_of_mem x hy)

/-- An array whose items are each read back is read back. -/
theorem storeItems_of_readBack {α β : Type} {write : α → Json} {read : Json → β} {f : α → β}
    {alloc : ℕ → Bool} {xs : List α} {field : Option Json} (halloc : ∀ n, alloc n = true)
    (hfield : field = some (.arr (xs.map write))) (h : ∀ x ∈ xs, read (write x) = f x) :
    storeItems read alloc 0 [] (arrayItems field) = xs.map f := by
  rw [storeItems_of_alloc halloc, hfield, List.nil_append]
  show (xs.map write).map read = xs.map f
  rw [List.map_map]
  exact List.map_congr_left h

/-- Every reservation made while a file is read gets its memory. -/
def JsonAlloc.Ample (alloc : JsonAlloc) : Prop :=
  ∀ n, alloc.proxies n = true ∧ alloc.chains n = true ∧ alloc.vpns n = true ∧ alloc.rules n = true

/-- `next_id` as it is read back, raised above the ids that are. -/
def rereadNextId (pf : PmxProfile) : PmxId :=
  raiseNextId (raiseNextId (raiseNextId (rereadId pf.nextId)
    ((pf.proxies.map rereadProxy).map (·.id))) ((pf.rules.map rereadRule).map (·.id)))
    ((pf.chains.map rereadChain).map (·.id))

/-- The profile a saved file is read back as. -/
def rereadProfile (pf : PmxProfile) : PmxProfile :=
  { pf with
      path := .empty
      proxies := pf.proxies.map rereadProxy
      rules := pf.rules.map rereadRule
      chains := pf.chains.map rereadChain
      vpns := pf.vpns.map rereadVpn
      defaultRule := rereadRule pf.defaultRule
      nextId := rereadNextId pf }

theorem profileFromTree_profileTree {pf : PmxProfile} (h : ProfileReadable pf) {alloc : JsonAlloc}
    (halloc : alloc.Ample) : profileFromTree alloc (profileTree pf) = rereadProfile pf := by
  have hproxies := storeItems_of_readBack (fun n => (halloc n).1)
    (show (profileTree pf).getItem "proxies" = some (.arr (pf.proxies.map proxyToJson)) from by
      simp [profileTree, Json.getItem])
    fun p hp => proxyFromJson_proxyToJson (h.proxies p hp)
  have hchains := storeItems_of_readBack (fun n => (halloc n).2.1)
    (show (profileTree pf).getItem "chains" = some (.arr (pf.chains.map chainToJson)) from by
      simp [profileTree, Json.getItem])
    fun c hc => chainFromJson_chainToJson (h.chains c hc)
  have hvpns := storeItems_of_readBack (fun n => (halloc n).2.2.1)
    (show (profileTree pf).getItem "vpns" = some (.arr (pf.vpns.map vpnToJson)) from by
      simp [profileTree, Json.getItem])
    fun v hv => vpnFromJson_vpnToJson (h.vpns v hv)
  have hrules := storeItems_of_readBack (fun n => (halloc n).2.2.2)
    (show (profileTree pf).getItem "rules" = some (.arr (pf.rules.map ruleToJson)) from by
      simp [profileTree, Json.getItem])
    fun r hr => ruleFromJson_ruleToJson (h.rules r hr)
  have hnext : idOfInt (pmxJsonInt (profileTree pf) "next_id" 1) = rereadId pf.nextId :=
    rereadId_of_lookup (by simp)
  rw [profileFromTree, hproxies, hchains, hvpns, hrules, hnext, rereadProfile, rereadNextId]
  simp only [PmxProfile.mk.injEq, profileTree]
  refine ⟨pmxJsonStrInto_of_lookup (by simp), rfl, trivial, trivial, trivial, trivial, ?_, ?_, ?_, trivial⟩
  · simp [Json.getItem, ruleFromJson_ruleToJson h.defaultRule]
  · simp [Json.getItem, lockdownFromJson_lockdownToJson h.lockdown]
  · simp [Json.getItem, settingsFromJson_settingsToJson h.settings]

/-- What a profile that fits is read back as. -/
def reloaded (pf : PmxProfile) : PmxProfile :=
  { pf with
      path := .empty
      vpns := pf.vpns.map fun v => { v with endpointsTruncated := false } }

theorem rereadProfile_of_fits {pf : PmxProfile} (h : ProfileFits pf) :
    rereadProfile pf = reloaded pf := by
  have hproxies : pf.proxies.map rereadProxy = pf.proxies :=
    (List.map_congr_left fun p hp => rereadProxy_of_fits (h.ids.proxies p hp)).trans (List.map_id _)
  have hrules : pf.rules.map rereadRule = pf.rules :=
    (List.map_congr_left fun r hr =>
      rereadRule_of_fits (h.ids.rules r hr).1 (h.ids.rules r hr).2).trans (List.map_id _)
  have hchains : pf.chains.map rereadChain = pf.chains :=
    (List.map_congr_left fun c hc =>
      rereadChain_of_fits (h.ids.chains c hc).1 (h.ids.chains c hc).2).trans (List.map_id _)
  have hvpns : pf.vpns.map rereadVpn = pf.vpns.map fun v => { v with endpointsTruncated := false } :=
    List.map_congr_left fun v hv => rereadVpn_of_fits (h.ids.vpns v hv)
  have hnext : rereadNextId pf = pf.nextId := by
    rw [rereadNextId, hproxies, hrules, hchains, rereadId_of_fits h.nextId,
      raiseNextId_of_lt fun p hp => (h.proxies p hp).2,
      raiseNextId_of_lt fun r hr => (h.rules r hr).2, raiseNextId_of_lt fun c hc => (h.chains c hc).2]
  rw [rereadProfile, reloaded, hproxies, hrules, hchains, hvpns, hnext,
    rereadRule_of_fits h.defaultRule.id h.defaultRule.targetId]

/-! ### What is printed -/

section Nested

variable {P : ℤ → Prop} {Q : PmxId → Prop} {depth : ℕ}

theorem nested_addStrIf {n : ℕ} {key : String} (val : CBuf n) :
    ∀ field ∈ pmxJsonAddStrIf key val, Json.Nested P depth field.2 := by
  intro field hfield
  rw [pmxJsonAddStrIf] at hfield
  split_ifs at hfield with hempty
  · cases hfield
  · rw [List.mem_singleton.1 hfield]
    exact .str _

theorem nested_array {α : Type} {write : α → Json} {xs : List α}
    (h : ∀ x ∈ xs, Json.Nested P depth (write x)) : Json.Nested P (depth + 1) (.arr (xs.map write)) := by
  refine .arr fun j hj => ?_
  obtain ⟨x, hx, rfl⟩ := List.mem_map.1 hj
  exact h x hx

variable (hint : ∀ v, FitsInt v → P v)

include hint

theorem nested_jsonPort (port : PmxPort) : Json.Nested P depth (jsonPort port) := by
  have h16 := port.toNat_lt
  exact .num (hint _ (fitsInt_natCast (by rw [intMax]; omega)))

theorem nested_settings {st : PmxProfileSettings} (hdemo : FitsInt st.demoIntervalMs)
    (htimeout : FitsInt st.check.timeoutMs) : Json.Nested P (depth + 2) (settingsToJson st) := by
  have hcheck : Json.Nested P (depth + 1) (checkToJson st.check) := by
    refine .obj ?_
    simp only [List.forall_mem_cons, List.not_mem_nil, false_implies, implies_true, and_true]
    exact ⟨.str _, nested_jsonPort hint _, .num (hint _ htimeout), .bool _, .bool _, .str _, .str _⟩
  refine .obj ?_
  simp only [List.forall_mem_append, List.forall_mem_cons, List.not_mem_nil, false_implies,
    implies_true, and_true]
  exact ⟨⟨⟨.bool _, .bool _, .num (hint _ hdemo), hcheck⟩, nested_addStrIf _⟩,
    nested_addStrIf _⟩

theorem nested_lockdown {pf : PmxProfile} (h : ProfileInts pf) :
    Json.Nested P (depth + 1) (lockdownToJson pf.lockdown) := by
  refine .obj ?_
  simp only [List.forall_mem_cons, List.not_mem_nil, false_implies, implies_true, and_true]
  exact ⟨.num (hint _ h.lockdownMode), .bool _, .bool _, .bool _, .num (hint _ h.healthInterval),
    .num (hint _ h.failures), .num (hint _ h.successes)⟩

theorem nested_endpoint (ep : PmxVpnEndpoint) :
    Json.Nested P (depth + 1) (endpointToJson ep) := by
  refine .obj ?_
  simp only [List.forall_mem_cons, List.not_mem_nil, false_implies, implies_true, and_true]
  exact ⟨.str _, nested_jsonPort hint _, .bool _⟩

variable (hid : ∀ id, Q id → P (toDouble id.toNat))

include hid

theorem nested_rule {r : PmxRule} (h : RuleEnumsFit r) (hids : Q r.id ∧ Q r.targetId) :
    Json.Nested P (depth + 1) (ruleToJson r) := by
  refine .obj ?_
  simp only [List.forall_mem_append, List.forall_mem_cons, List.not_mem_nil, false_implies,
    implies_true, and_true]
  exact ⟨⟨⟨⟨⟨.num (hid _ hids.1), .str _, .bool _⟩, nested_addStrIf _⟩, nested_addStrIf _⟩,
    nested_addStrIf _⟩, .num (hint _ h.action), .num (hint _ h.targetKind),
    .num (hid _ hids.2)⟩

theorem nested_proxy {p : PmxProxy} (h : Q p.id) : Json.Nested P (depth + 1) (proxyToJson p) := by
  refine .obj ?_
  simp only [List.forall_mem_append, List.forall_mem_cons, List.not_mem_nil, false_implies,
    implies_true, and_true]
  exact ⟨⟨⟨⟨.num (hid _ h), .str _, .str _, .str _, nested_jsonPort hint _, .bool _⟩,
    nested_addStrIf _⟩, nested_addStrIf _⟩, .bool _⟩

theorem nested_chain {c : PmxChain} (h : FitsInt c.mode.toInt) (hids : Q c.id ∧ ∀ hop ∈ c.hops, Q hop) :
    Json.Nested P (depth + 2) (chainToJson c) := by
  refine .obj ?_
  simp only [List.forall_mem_cons, List.not_mem_nil, false_implies, implies_true, and_true]
  exact ⟨.num (hid _ hids.1), .str _, .num (hint _ h), .bool _,
    nested_array fun hop hmem => .num (hid _ (hids.2 hop hmem))⟩

theorem nested_vpn {v : PmxVpn} (h : VpnNumbersFit v) (hids : Q v.id) :
    Json.Nested P (depth + 3) (vpnToJson v) := by
  refine .obj ?_
  simp only [List.forall_mem_append, List.forall_mem_cons, List.not_mem_nil, false_implies,
    implies_true, and_true]
  exact ⟨⟨⟨⟨⟨⟨⟨⟨⟨⟨⟨⟨.num (hid _ hids), .str _, .num (hint _ h.kind), .bool _⟩,
    nested_addStrIf _⟩, nested_addStrIf _⟩, .num (hint _ h.mtu)⟩, nested_addStrIf _⟩,
    nested_addStrIf _⟩, nested_addStrIf _⟩, .num (hint _ h.keepalive)⟩, nested_addStrIf _⟩,
    nested_addStrIf _⟩, nested_addStrIf _⟩, .bool _, .bool _, .bool _, .bool _, .bool _,
    nested_array fun ep _ => nested_endpoint hint ep⟩

/-- A profile is nested five deep. -/
theorem nested_profileTree {pf : PmxProfile} (h : ProfileInts pf) (hids : ProfileIds Q pf) :
    Json.Nested P (depth + 5) (profileTree pf) := by
  refine .obj ?_
  simp only [List.forall_mem_cons, List.not_mem_nil, false_implies, implies_true, and_true]
  exact ⟨.str _, .num (hint _ (by decide)), .str _, .num (hid _ hids.nextId),
    nested_settings hint h.demoInterval h.timeout, nested_lockdown hint h,
    nested_array fun p hp => nested_proxy hint hid (hids.proxies p hp),
    nested_array fun c hc => nested_chain hint hid (h.chains c hc) (hids.chains c hc),
    nested_array fun v hv => nested_vpn hint hid (h.vpns v hv) (hids.vpns v hv),
    nested_array fun r hr => nested_rule hint hid (h.rules r hr) (hids.rules r hr),
    nested_rule hint hid h.defaultRule hids.defaultRule⟩

end Nested

/-- A profile that fits is printed as a tree of small integers. -/
theorem plain_profileTree {pf : PmxProfile} (h : ProfileFits pf) {depth : ℕ} :
    Json.Plain (depth + 5) (profileTree pf) := by
  refine (nested_profileTree (fun _ hv => hv) (fun id hid => ?_) h.readable.ints h.ids).plain
  rw [toDouble_id hid]
  exact fitsInt_natCast hid

theorem pmxProfileToJson_ok {C : CJson} {pf : PmxProfile} {text : CStr}
    (h : pmxProfileToJson C pf = .ok text) : C.print (profileTree pf) = some text := by
  rw [pmxProfileToJson] at h
  cases hprint : C.print (profileTree pf) with
  | none => rw [hprint] at h; cases h
  | some printed => rw [hprint] at h; cases h; rfl

/-- A text that is parsed as the tree of a profile is loaded from that tree. -/
theorem pmxProfileFromJson_of_parse {C : CJson} {pf : PmxProfile} {text : CStr}
    (hparse : C.parse text = some (profileTree pf)) (alloc : JsonAlloc) (pf₀ : PmxProfile) :
    pmxProfileFromJson C alloc pf₀ text = (profileFromTree alloc (profileTree pf), .ok) := by
  have hformat : pmxJsonStr (profileTree pf) "format" [] = bytes pmxProfileFormat := by
    rw [profileTree, pmxJsonStr_of_lookup (s := pmxProfileFormat) (by simp)]
    rfl
  rw [pmxProfileFromJson, hparse]
  simp only [hformat, ne_eq, not_true_eq_false, if_false]

/-- It is read as the profile with its ids reread. -/
theorem pmxProfileFromJson_profileTree {C : CJson} {pf : PmxProfile} (h : ProfileReadable pf)
    {text : CStr} (hparse : C.parse text = some (profileTree pf)) {alloc : JsonAlloc}
    (halloc : alloc.Ample) (pf₀ : PmxProfile) :
    pmxProfileFromJson C alloc pf₀ text = (rereadProfile pf, .ok) := by
  rw [pmxProfileFromJson_of_parse hparse, profileFromTree_profileTree h halloc]

/-- **Saving and reloading preserves enforcement.** -/
theorem fromJson_toJson {C : CJson} (hC : PrintsFaithfully C) {pf : PmxProfile} (h : ProfileFits pf)
    {alloc : JsonAlloc} (halloc : alloc.Ample) {text : CStr}
    (htext : pmxProfileToJson C pf = .ok text) (pf₀ : PmxProfile) :
    ∃ pf', pmxProfileFromJson C alloc pf₀ text = (pf', .ok) ∧
      pf'.label = pf.label ∧ pf'.nextId = pf.nextId ∧ pf'.settings = pf.settings ∧
      pf'.lockdown = pf.lockdown ∧ pf'.proxies = pf.proxies ∧ pf'.chains = pf.chains ∧
      pf'.rules = pf.rules ∧ pf'.defaultRule = pf.defaultRule ∧
      ∀ q, pmxResolveWithProfile pf' q = pmxResolveWithProfile pf q := by
  have hparse : C.parse text = some (profileTree pf) :=
    hC _ _ (show Json.Plain (995 + 5) _ from plain_profileTree h) (pmxProfileToJson_ok htext)
  refine ⟨reloaded pf, ?_, rfl, rfl, rfl, rfl, rfl, rfl, rfl, rfl,
    pmxResolveWithProfile_congr rfl rfl rfl rfl⟩
  rw [pmxProfileFromJson_profileTree h.readable hparse halloc, rereadProfile_of_fits h]

/-- A profile with a proxy that wants credentials, a chain over it and a rule for the chain. -/
def authProfile : PmxProfile :=
  { pmxProfileInit with
      proxies :=
        [{ pmxProxyInit with
            id := 1
            type := .http
            host := strlcpy pmxMaxHost (bytes "127.0.0.1")
            port := 8080
            useAuth := true
            username := strlcpy pmxMaxUser (bytes "alice")
            password := strlcpy pmxMaxPass (bytes "s3cr3t") }]
      chains := [{ pmxChainInit with id := 2, hops := [1], hops_fit := by decide }]
      rules :=
        [{ pmxRuleInit with
            id := 3
            portSpec := strlcpy pmxMaxPortspec (bytes "443")
            action := .proxy
            targetKind := .chain
            targetId := 2 }]
      nextId := 4 }

/-- The text cJSON prints for it. -/
def authText : CStr :=
  ⟨cstr ([
    "\x7b\n\t\"format\":\t\"pmxprofile\",\n\t\"version\":\t1,\n\t\"label\":\t\"New profile\",\n",
    "\t\"next_id\":\t4,\n\t\"settings\":\t\x7b\n\t\t\"dns_through_proxy\":\ttrue,\n",
    "\t\t\"demo_traffic\":\ttrue,\n\t\t\"demo_interval_ms\":\t1500,\n\t\t\"check\":\t\x7b\n",
    "\t\t\t\"probe_host\":\t\"example.com\",\n\t\t\t\"probe_port\":\t443,\n",
    "\t\t\t\"timeout_ms\":\t5000,\n\t\t\t\"measure_egress_ip\":\tfalse,\n",
    "\t\t\t\"measure_ping\":\ttrue,\n\t\t\t\"egress_service\":\t\"api.ipify.org\",\n",
    "\t\t\t\"egress_path\":\t\"/\"\n\t\t\x7d\n\t\x7d,\n\t\"lockdown\":\t\x7b\n\t\t\"mode\":\t1,\n",
    "\t\t\"block_until_verified\":\ttrue,\n\t\t\"block_dns_leak\":\ttrue,\n",
    "\t\t\"block_ipv6\":\ttrue,\n\t\t\"health_interval_ms\":\t4000,\n",
    "\t\t\"failures_before_trip\":\t2,\n\t\t\"successes_before_restore\":\t2\n\t\x7d,\n",
    "\t\"proxies\":\t[\x7b\n\t\t\t\"id\":\t1,\n\t\t\t\"label\":\t\"New proxy\",\n",
    "\t\t\t\"type\":\t\"http\",\n\t\t\t\"host\":\t\"127.0.0.1\",\n\t\t\t\"port\":\t8080,\n",
    "\t\t\t\"use_auth\":\ttrue,\n\t\t\t\"username\":\t\"alice\",\n",
    "\t\t\t\"password\":\t\"s3cr3t\",\n\t\t\t\"enabled\":\ttrue\n\t\t\x7d],\n",
    "\t\"chains\":\t[\x7b\n\t\t\t\"id\":\t2,\n\t\t\t\"label\":\t\"New chain\",\n",
    "\t\t\t\"mode\":\t0,\n\t\t\t\"enabled\":\ttrue,\n\t\t\t\"hops\":\t[1]\n\t\t\x7d],\n",
    "\t\"vpns\":\t[],\n\t\"rules\":\t[\x7b\n\t\t\t\"id\":\t3,\n\t\t\t\"name\":\t\"New rule\",\n",
    "\t\t\t\"enabled\":\ttrue,\n\t\t\t\"ports\":\t\"443\",\n\t\t\t\"action\":\t1,\n",
    "\t\t\t\"target_kind\":\t2,\n\t\t\t\"target_id\":\t2\n\t\t\x7d],\n\t\"default_rule\":\t\x7b\n",
    "\t\t\"id\":\t0,\n\t\t\"name\":\t\"Default\",\n\t\t\"enabled\":\ttrue,\n\t\t\"action\":\t0,\n",
    "\t\t\"target_kind\":\t0,\n\t\t\"target_id\":\t0\n\t\x7d\n\x7d"].flatMap bytes), nul_notMem_cstr _⟩

open Classical in
/-- cJSON on the tree of that profile, out of memory on any other. -/
noncomputable def authCJson : CJson where
  print := fun j => if j = profileTree authProfile then some authText else none
  parse := fun text => if text = authText then some (profileTree authProfile) else none

theorem authCJson_faithful : PrintsFaithfully authCJson := by
  intro j text _ hprint
  simp only [authCJson] at hprint ⊢
  split_ifs at hprint with hj
  rw [← Option.some.inj hprint, if_pos rfl, hj]

theorem authProfile_fits : ProfileFits authProfile where
  nextId := by decide
  settings := ⟨by decide, by decide, by decide⟩
  lockdown := ⟨by decide, by decide, by decide, by decide, by decide, by decide, by decide⟩
  proxies := by
    intro p hp
    rw [List.mem_singleton.1 hp]
    exact ⟨⟨by decide, fun u h => PmxProxyType.noConfusion h⟩, by decide⟩
  chains := by
    intro c hc
    rw [List.mem_singleton.1 hc]
    refine ⟨⟨by decide, by decide, fun hop hmem => ?_⟩, by decide⟩
    rw [List.mem_singleton.1 hmem]
    decide
  vpns := fun v hv => absurd hv List.not_mem_nil
  rules := by
    intro r hr
    rw [List.mem_singleton.1 hr]
    exact ⟨⟨by decide, by decide, by decide, by decide⟩, by decide⟩
  defaultRule := ⟨by decide, by decide, by decide, by decide⟩

theorem fromJson_toJson_auth :
    ∃ pf', pmxProfileFromJson authCJson ⟨fun _ => true, fun _ => true, fun _ => true, fun _ => true⟩
        pmxProfileInit authText = (pf', .ok) ∧
      pf'.label = authProfile.label ∧ pf'.nextId = authProfile.nextId ∧
      pf'.settings = authProfile.settings ∧ pf'.lockdown = authProfile.lockdown ∧
      pf'.proxies = authProfile.proxies ∧ pf'.chains = authProfile.chains ∧
      pf'.rules = authProfile.rules ∧ pf'.defaultRule = authProfile.defaultRule ∧
      ∀ q, pmxResolveWithProfile pf' q = pmxResolveWithProfile authProfile q :=
  fromJson_toJson authCJson_faithful authProfile_fits (fun _ => ⟨rfl, rfl, rfl, rfl⟩)
    (by rw [pmxProfileToJson, authCJson]; simp only [if_pos]) pmxProfileInit

end ProxiMight
