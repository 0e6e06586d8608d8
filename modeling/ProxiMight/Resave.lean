import Mathlib.Tactic.IntervalCases
import Mathlib.Tactic.Linarith
import ProxiMight.ProfileRoundTrip

/-!
# Saving a profile that was just loaded

A profile that was loaded holds what its file says, each field read in its own way: an id through the
`int` of a number, a hop through the double, an enumeration as the `int` it is.  All but the ids is
written back as it was read.  An id that was negative is a huge one, and that is read as `INT_MAX`.

* **`profileFromTree_readable`** — what is loaded can be read back but for its ids.
* **`resave_iff`** — a loaded profile is read back as it is exactly when its file gives no negative id
  and no hop that is not a double.
-/

namespace ProxiMight

open CString

/-! ### Numbers that are read -/

theorem truncate_le {v : ℚ} {hi : ℤ} (h : v ≤ hi) (h0 : 0 ≤ hi) : truncate v ≤ hi := by
  have hden : (0 : ℤ) < v.den := by exact_mod_cast v.pos
  rw [truncate]
  by_cases hsign : 0 ≤ v.num
  · have hmul : (v.num : ℚ) ≤ hi * v.den := by
      rw [← Rat.mul_den_eq_num]
      exact mul_le_mul_of_nonneg_right h (by exact_mod_cast hden.le)
    rw [Int.tdiv_eq_ediv_of_nonneg hsign]
    exact Int.ediv_le_of_le_mul hden (by exact_mod_cast hmul)
  · have hneg := Int.tdiv_nonneg (show 0 ≤ -v.num by omega) hden.le
    rw [Int.neg_tdiv] at hneg
    omega

theorem truncate_neg (v : ℚ) : truncate (-v) = -truncate v := by
  rw [truncate, truncate, Rat.num_neg_eq_neg_num, Rat.den_neg_eq_den, Int.neg_tdiv]

theorem fitsInt_valueInt (v : ℚ) : FitsInt (valueInt v) := by
  rw [valueInt]
  split_ifs with hhi hlo
  · decide
  · decide
  · have hneg : truncate (-v) ≤ -intMin := by
      refine truncate_le ?_ (by decide)
      push_cast
      linarith
    rw [truncate_neg] at hneg
    exact ⟨by omega, truncate_le (le_of_not_ge hhi) (by decide)⟩

theorem fitsInt_pmxJsonInt (o : Json) (key : String) {dflt : ℤ} (h : FitsInt dflt) :
    FitsInt (pmxJsonInt o key dflt) := by
  rw [pmxJsonInt]
  split
  · exact fitsInt_valueInt _
  · exact h

theorem le_clampInt {v lo hi : ℤ} (h : lo ≤ hi) : lo ≤ clampInt v lo hi := by
  rw [clampInt]
  split_ifs <;> omega

theorem clampInt_le {v lo hi : ℤ} (h : lo ≤ hi) : clampInt v lo hi ≤ hi := by
  rw [clampInt]
  split_ifs <;> omega

/-- An enumeration keeps the integer it was cast from. -/
theorem toInt_enumOfInt {E : Type} {top : ℤ} {declared : ℕ → E} {other : Undeclared top → E}
    (toInt : E → ℤ) (hdeclared : ∀ n : ℕ, (n : ℤ) ≤ top → toInt (declared n) = n)
    (hother : ∀ u, toInt (other u) = u.raw) (v : ℤ) : toInt (enumOfInt declared other v) = v := by
  rw [enumOfInt]
  split_ifs with h
  · exact hother _
  · rw [hdeclared v.toNat (by omega)]
    omega

theorem PmxAction.toInt_ofInt (v : ℤ) : (PmxAction.ofInt v).toInt = v := by
  refine toInt_enumOfInt PmxAction.toInt (fun n hn => ?_) (fun _ => rfl) v
  have hn : n ≤ 2 := by omega
  interval_cases n <;> rfl

theorem PmxTargetKind.toInt_ofInt (v : ℤ) : (PmxTargetKind.ofInt v).toInt = v := by
  refine toInt_enumOfInt PmxTargetKind.toInt (fun n hn => ?_) (fun _ => rfl) v
  have hn : n ≤ 2 := by omega
  interval_cases n <;> rfl

theorem PmxChainMode.toInt_ofInt (v : ℤ) : (PmxChainMode.ofInt v).toInt = v := by
  refine toInt_enumOfInt PmxChainMode.toInt (fun n hn => ?_) (fun _ => rfl) v
  have hn : n ≤ 1 := by omega
  interval_cases n <;> rfl

theorem PmxLockdownMode.toInt_ofInt (v : ℤ) : (PmxLockdownMode.ofInt v).toInt = v := by
  refine toInt_enumOfInt PmxLockdownMode.toInt (fun n hn => ?_) (fun _ => rfl) v
  have hn : n ≤ 3 := by omega
  interval_cases n <;> rfl

theorem PmxVpnKind.toInt_ofInt (v : ℤ) : (PmxVpnKind.ofInt v).toInt = v := by
  refine toInt_enumOfInt PmxVpnKind.toInt (fun n hn => ?_) (fun _ => rfl) v
  have hn : n ≤ 1 := by omega
  interval_cases n <;> rfl

/-! ### What is loaded is readable -/

theorem ruleFromJson_enums (o : Json) : RuleEnumsFit (ruleFromJson o) where
  action := by
    rw [ruleFromJson, PmxAction.toInt_ofInt]
    exact fitsInt_pmxJsonInt o _ (by decide)
  targetKind := by
    rw [ruleFromJson, PmxTargetKind.toInt_ofInt]
    exact fitsInt_pmxJsonInt o _ (by decide)

theorem settingsFromJson_fits (st : Json) : SettingsFit (settingsFromJson st) := by
  have hcheck : 500 ≤ (settingsFromJson st).check.timeoutMs ∧
      (settingsFromJson st).check.timeoutMs ≤ 30000 := by
    rw [settingsFromJson]
    dsimp only
    split
    · exact ⟨le_clampInt (by decide), clampInt_le (by decide)⟩
    · decide
  exact ⟨fitsInt_pmxJsonInt st _ (by decide), hcheck.1, hcheck.2⟩

theorem lockdownFromJson_fits (ld : Json) : LockdownFits (lockdownFromJson ld) where
  mode := by
    rw [lockdownFromJson, PmxLockdownMode.toInt_ofInt]
    exact fitsInt_pmxJsonInt ld _ (by decide)
  interval_ge := le_clampInt (by decide)
  interval_le := clampInt_le (by decide)
  failures_ge := le_clampInt (by decide)
  failures_le := clampInt_le (by decide)
  successes_ge := le_clampInt (by decide)
  successes_le := clampInt_le (by decide)

theorem proxyFromJson_type (o : Json) (u : Undeclared 4) : (proxyFromJson o).type ≠ .other u := by
  have hknown : ∀ s, (pmxProxyTypeFromStr s).getD .socks5 ≠ .other u := by
    intro s
    cases hfind : pmxProxyTypeFromStr s with
    | none => exact fun h => PmxProxyType.noConfusion h
    | some t =>
      rintro rfl
      simpa using List.mem_of_find?_eq_some hfind
  exact hknown _

theorem chainFromJson_mode (o : Json) : FitsInt (chainFromJson o).mode.toInt := by
  rw [(chainFromJson_frame o).2.2.1, PmxChainMode.toInt_ofInt]
  exact fitsInt_pmxJsonInt o _ (by decide)

/-- The loop over `endpoints` touches the endpoints only. -/
theorem foldl_readEndpoint_frame (items : List Json) : ∀ v : PmxVpn,
    (items.foldl readEndpoint v).id = v.id ∧ (items.foldl readEndpoint v).kind = v.kind ∧
      (items.foldl readEndpoint v).mtu = v.mtu ∧
      (items.foldl readEndpoint v).persistentKeepalive = v.persistentKeepalive ∧
      (items.foldl readEndpoint v).endpointsTruncated = v.endpointsTruncated := by
  induction items with
  | nil => intro v; exact ⟨rfl, rfl, rfl, rfl, rfl⟩
  | cons item items ih =>
    intro v
    rw [List.foldl_cons]
    obtain ⟨hid, hkind, hmtu, hkeep, htrunc⟩ := ih (readEndpoint v item)
    rw [hid, hkind, hmtu, hkeep, htrunc, readEndpoint]
    split_ifs <;> exact ⟨rfl, rfl, rfl, rfl, rfl⟩

/-- What is read of a VPN besides its endpoints and texts. -/
theorem vpnFromJson_frame (o : Json) :
    (vpnFromJson o).id = idOfInt (pmxJsonInt o "id" 0) ∧
      (vpnFromJson o).kind = .ofInt (pmxJsonInt o "kind" PmxVpnKind.wireguard.toInt) ∧
      (vpnFromJson o).mtu = pmxJsonInt o "mtu" 0 ∧
      (vpnFromJson o).persistentKeepalive = pmxJsonInt o "keepalive" 0 ∧
      (vpnFromJson o).endpointsTruncated = false := by
  rw [vpnFromJson]
  exact foldl_readEndpoint_frame _ _

theorem vpnFromJson_numbers (o : Json) : VpnNumbersFit (vpnFromJson o) := by
  obtain ⟨-, hkind, hmtu, hkeep, -⟩ := vpnFromJson_frame o
  refine ⟨?_, ?_, ?_⟩
  · rw [hkind, PmxVpnKind.toInt_ofInt]
    exact fitsInt_pmxJsonInt o _ (by decide)
  · rw [hmtu]
    exact fitsInt_pmxJsonInt o _ (by decide)
  · rw [hkeep]
    exact fitsInt_pmxJsonInt o _ (by decide)

/-- The elements of an array of the file that find their place in the profile. -/
def storedItems (alloc : ℕ → Bool) (root : Json) (key : String) : List Json :=
  storeItems id alloc 0 [] (arrayItems (root.getItem key))

theorem storeItems_map {α : Type} (read : Json → α) (alloc : ℕ → Bool) :
    ∀ (items : List Json) (cap : ℕ) (stored : List Json),
      storeItems read alloc cap (stored.map read) items =
        (storeItems id alloc cap stored items).map read := by
  intro items
  induction items with
  | nil => intro cap stored; rfl
  | cons o rest ih =>
    intro cap stored
    have hmove : stored.map read ++ [read o] = (stored ++ [o]).map read := by
      rw [List.map_append, List.map_singleton]
    rw [storeItems, storeItems, List.length_map, hmove, ih, ih, id_eq]
    split_ifs <;> rfl

theorem storeItems_eq_map {α : Type} (read : Json → α) (alloc : ℕ → Bool) (root : Json) (key : String) :
    storeItems read alloc 0 [] (arrayItems (root.getItem key)) = (storedItems alloc root key).map read :=
  storeItems_map read alloc _ 0 []

/-- **What is loaded is readable.** -/
theorem profileFromTree_readable (alloc : JsonAlloc) (root : Json) :
    ProfileReadable (profileFromTree alloc root) where
  settings := by
    rw [profileFromTree]
    dsimp only
    split
    · exact settingsFromJson_fits _
    · exact ⟨by decide, by decide, by decide⟩
  lockdown := by
    rw [profileFromTree]
    dsimp only
    split
    · exact lockdownFromJson_fits _
    · exact ⟨by decide, by decide, by decide, by decide, by decide, by decide, by decide⟩
  proxies := by
    rw [profileFromTree, storeItems_eq_map, List.forall_mem_map]
    exact fun o _ => proxyFromJson_type o
  chains := by
    rw [profileFromTree, storeItems_eq_map chainFromJson, List.forall_mem_map]
    exact fun o _ => chainFromJson_mode o
  vpns := by
    rw [profileFromTree, storeItems_eq_map vpnFromJson, List.forall_mem_map]
    exact fun o _ => vpnFromJson_numbers o
  rules := by
    rw [profileFromTree, storeItems_eq_map ruleFromJson, List.forall_mem_map]
    exact fun o _ => ruleFromJson_enums o
  defaultRule := by
    rw [profileFromTree]
    dsimp only
    split
    · exact ruleFromJson_enums _
    · exact ⟨by decide, by decide⟩

/-! ### Ids that survive -/

/-- An id that was read from a negative number is read back as `INT_MAX`. -/
theorem rereadId_idOfInt {v : ℤ} (h : FitsInt v) : rereadId (idOfInt v) = idOfInt v ↔ 0 ≤ v := by
  obtain ⟨hlo, hhi⟩ := h
  rw [intMin] at hlo
  rw [intMax] at hhi
  have hnat : ((idOfInt v).toNat : ℤ) = v % 2 ^ 64 := by
    rw [idOfInt, UInt64.ofInt, UInt64.toNat_ofNat', Nat.mod_eq_of_lt (by omega)]
    omega
  constructor
  · intro heq
    by_contra hneg
    have hbig : 2 ^ 53 ≤ (idOfInt v).toNat := by omega
    have hdouble := le_toDouble hbig
    have hmax : valueInt ((toDouble (idOfInt v).toNat : ℤ) : ℚ) = intMax := by
      refine if_pos ?_
      have hint : intMax ≤ (toDouble (idOfInt v).toNat : ℤ) := by
        rw [intMax]
        omega
      exact_mod_cast hint
    rw [rereadId, hmax] at heq
    rw [← heq] at hbig
    exact absurd hbig (by decide)
  · intro hpos
    refine rereadId_of_fits ?_
    rw [IdFits, hnat, intMax]
    omega

/-- A hop is read back exactly when it is a double. -/
theorem rereadHop_eq_iff (hop : PmxId) : rereadHop hop = hop ↔ toDouble hop.toNat = hop.toNat := by
  have h64 := hop.toNat_lt
  have hround := toDouble_le h64
  have hnat : (rereadHop hop).toNat = toDouble hop.toNat % 2 ^ 64 := by
    rw [rereadHop, hopOf, truncate_intCast, idOfInt, UInt64.ofInt, UInt64.toNat_ofNat']
    omega
  constructor
  · intro heq
    rw [heq] at hnat
    by_cases htop : toDouble hop.toNat = 2 ^ 64
    · -- the rounding reached the end of the range, and what is read back is zero
      rw [htop] at hnat
      have hzero : hop.toNat = 0 := hnat
      rw [hzero] at htop
      exact absurd htop (by decide)
    · omega
  · intro heq
    refine UInt64.toNat_inj.1 ?_
    rw [hnat, heq]
    exact Nat.mod_eq_of_lt h64

theorem map_eq_self_iff {α : Type} {f : α → α} {xs : List α} :
    xs.map f = xs ↔ ∀ x ∈ xs, f x = x := by
  nth_rewrite 2 [← List.map_id xs]
  exact List.map_inj_left

theorem rereadProxy_eq_iff (o : Json) :
    rereadProxy (proxyFromJson o) = proxyFromJson o ↔ 0 ≤ pmxJsonInt o "id" 0 := by
  rw [← rereadId_idOfInt (fitsInt_pmxJsonInt o "id" (by decide))]
  constructor
  · exact fun h => congrArg PmxProxy.id h
  · intro h
    rw [rereadProxy, proxyFromJson]
    dsimp only
    rw [h]

theorem rereadRule_eq_iff (o : Json) :
    rereadRule (ruleFromJson o) = ruleFromJson o ↔
      0 ≤ pmxJsonInt o "id" 0 ∧ 0 ≤ pmxJsonInt o "target_id" 0 := by
  rw [← rereadId_idOfInt (fitsInt_pmxJsonInt o "id" (by decide)),
    ← rereadId_idOfInt (fitsInt_pmxJsonInt o "target_id" (by decide))]
  constructor
  · exact fun h => ⟨congrArg PmxRule.id h, congrArg PmxRule.targetId h⟩
  · rintro ⟨hid, htarget⟩
    rw [rereadRule, ruleFromJson]
    dsimp only
    rw [hid, htarget]

theorem rereadVpn_eq_iff (o : Json) :
    rereadVpn (vpnFromJson o) = vpnFromJson o ↔ 0 ≤ pmxJsonInt o "id" 0 := by
  obtain ⟨hid, -, -, -, htruncated⟩ := vpnFromJson_frame o
  rw [← rereadId_idOfInt (fitsInt_pmxJsonInt o "id" (by decide)), ← hid]
  constructor
  · exact fun h => congrArg PmxVpn.id h
  · intro h
    rw [rereadVpn, h, ← htruncated]

/-- The hops of the chain are doubles. -/
def HopsExact (o : Json) : Prop :=
  ∀ v ∈ hopNumbers o, toDouble (hopOf v).toNat = (hopOf v).toNat

theorem rereadChain_eq_iff (o : Json) :
    rereadChain (chainFromJson o) = chainFromJson o ↔ 0 ≤ pmxJsonInt o "id" 0 ∧ HopsExact o := by
  have hhops : (chainFromJson o).hops.map rereadHop = (chainFromJson o).hops ↔ HopsExact o := by
    rw [map_eq_self_iff, chainFromJson_hops, List.forall_mem_map]
    exact forall₂_congr fun v _ => rereadHop_eq_iff _
  rw [← rereadId_idOfInt (fitsInt_pmxJsonInt o "id" (by decide)), ← chainFromJson_id, ← hhops]
  constructor
  · exact fun h => ⟨congrArg PmxChain.id h, congrArg PmxChain.hops h⟩
  · rintro ⟨hid, hhops⟩
    exact PmxChain.eq_of_fields hid rfl rfl hhops rfl

/-! ### The whole profile -/

/-- No id of the file that is loaded is negative, and every hop is a double. -/
structure IdsSurvive (alloc : JsonAlloc) (root : Json) : Prop where
  proxies : ∀ o ∈ storedItems alloc.proxies root "proxies", 0 ≤ pmxJsonInt o "id" 0
  chains : ∀ o ∈ storedItems alloc.chains root "chains", 0 ≤ pmxJsonInt o "id" 0 ∧ HopsExact o
  vpns : ∀ o ∈ storedItems alloc.vpns root "vpns", 0 ≤ pmxJsonInt o "id" 0
  rules : ∀ o ∈ storedItems alloc.rules root "rules",
    0 ≤ pmxJsonInt o "id" 0 ∧ 0 ≤ pmxJsonInt o "target_id" 0
  defaultRule : ∀ o, root.getItem "default_rule" = some o →
    0 ≤ pmxJsonInt o "id" 0 ∧ 0 ≤ pmxJsonInt o "target_id" 0

/-- Two profiles are the same but for their names, their paths and the next id. -/
def SameRecords (pf pf' : PmxProfile) : Prop :=
  pf'.proxies = pf.proxies ∧ pf'.chains = pf.chains ∧ pf'.rules = pf.rules ∧
    pf'.defaultRule = pf.defaultRule ∧ pf'.vpns = pf.vpns ∧ pf'.settings = pf.settings ∧
    pf'.lockdown = pf.lockdown

theorem map_readBack_iff {α : Type} {f : α → α} {read : Json → α} {P : Json → Prop}
    (h : ∀ o, f (read o) = read o ↔ P o) (alloc : ℕ → Bool) (root : Json) (key : String) :
    (storeItems read alloc 0 [] (arrayItems (root.getItem key))).map f =
        storeItems read alloc 0 [] (arrayItems (root.getItem key)) ↔
      ∀ o ∈ storedItems alloc root key, P o := by
  rw [storeItems_eq_map, map_eq_self_iff, List.forall_mem_map]
  exact forall₂_congr fun o _ => h o

theorem rereadRule_default_iff (alloc : JsonAlloc) (root : Json) :
    rereadRule (profileFromTree alloc root).defaultRule = (profileFromTree alloc root).defaultRule ↔
      ∀ o, root.getItem "default_rule" = some o →
        0 ≤ pmxJsonInt o "id" 0 ∧ 0 ≤ pmxJsonInt o "target_id" 0 := by
  rw [profileFromTree]
  dsimp only
  cases root.getItem "default_rule" with
  | none =>
    have hinit : rereadRule pmxProfileInit.defaultRule = pmxProfileInit.defaultRule :=
      rereadRule_of_fits (by decide) (by decide)
    exact iff_of_true hinit fun o h => by cases h
  | some dr =>
    dsimp only
    rw [rereadRule_eq_iff]
    exact ⟨fun h o ho => Option.some.inj ho ▸ h, fun h => h dr rfl⟩

theorem sameRecords_reread_iff (alloc : JsonAlloc) (root : Json) :
    SameRecords (profileFromTree alloc root) (rereadProfile (profileFromTree alloc root)) ↔
      IdsSurvive alloc root := by
  have hproxies := map_readBack_iff rereadProxy_eq_iff alloc.proxies root "proxies"
  have hchains := map_readBack_iff rereadChain_eq_iff alloc.chains root "chains"
  have hvpns := map_readBack_iff rereadVpn_eq_iff alloc.vpns root "vpns"
  have hrules := map_readBack_iff rereadRule_eq_iff alloc.rules root "rules"
  have hdefault := rereadRule_default_iff alloc root
  constructor
  · rintro ⟨h1, h2, h3, h4, h5, -, -⟩
    exact ⟨hproxies.1 h1, hchains.1 h2, hvpns.1 h5, hrules.1 h3, hdefault.1 h4⟩
  · intro h
    exact ⟨hproxies.2 h.proxies, hchains.2 h.chains, hrules.2 h.rules, hdefault.2 h.defaultRule,
      hvpns.2 h.vpns, rfl, rfl⟩

/-- **Opening a profile and saving it.**  For every text that is loaded: what is written from it is
loaded again, as the same profile, exactly when no id in it is negative and every hop is a double. -/
theorem resave_iff {C : CJson} (hC : PrintsDoubles C) {alloc alloc' : JsonAlloc} (halloc : alloc'.Ample)
    {pf₀ pf : PmxProfile} {text : CStr} {root : Json} (hparse : C.parse text = some root)
    (hload : pmxProfileFromJson C alloc pf₀ text = (pf, .ok)) {text' : CStr}
    (hsave : pmxProfileToJson C pf = .ok text') (pf₁ : PmxProfile) :
    (∃ pf', pmxProfileFromJson C alloc' pf₁ text' = (pf', .ok) ∧ SameRecords pf pf') ↔
      IdsSurvive alloc root := by
  obtain rfl := eq_profileFromTree_of_loaded hparse hload
  have hreadable := profileFromTree_readable alloc root
  have hids : ProfileIds (fun _ => True) (profileFromTree alloc root) :=
    ⟨trivial, fun _ _ => trivial, fun _ _ => ⟨trivial, fun _ _ => trivial⟩, fun _ _ => trivial,
      fun _ _ => ⟨trivial, trivial⟩, trivial, trivial⟩
  have hnested : Json.Nested IsDouble (995 + 5) (profileTree (profileFromTree alloc root)) :=
    nested_profileTree (fun _ => isDouble_of_fits) (fun id _ => isDouble_toDouble id.toNat_lt)
      hreadable.ints hids
  have hparse' := hC _ _ hnested (pmxProfileToJson_ok hsave)
  rw [pmxProfileFromJson_profileTree hreadable hparse' halloc, ← sameRecords_reread_iff]
  constructor
  · rintro ⟨pf', heq, hsame⟩
    obtain rfl := (Prod.mk.inj heq).1
    exact hsame
  · exact fun hsame => ⟨_, rfl, hsame⟩

theorem authCJson_doubles : PrintsDoubles authCJson := by
  intro j text _ hprint
  simp only [authCJson] at hprint ⊢
  split_ifs at hprint with hj
  rw [← Option.some.inj hprint, if_pos rfl, hj]

theorem resave_iff_auth :
    (∃ pf', pmxProfileFromJson authCJson .unlimited pmxProfileInit authText = (pf', .ok) ∧
        SameRecords (reloaded authProfile) pf') ↔
      IdsSurvive .unlimited (profileTree authProfile) := by
  have hparse : authCJson.parse authText = some (profileTree authProfile) := by
    rw [authCJson]
    simp only [if_pos]
  have hload : pmxProfileFromJson authCJson .unlimited pmxProfileInit authText
      = (reloaded authProfile, .ok) := by
    rw [pmxProfileFromJson_profileTree authProfile_fits.readable hparse (fun _ => ⟨rfl, rfl, rfl, rfl⟩),
      rereadProfile_of_fits authProfile_fits]
  have hsave : pmxProfileToJson authCJson (reloaded authProfile) = .ok authText := by
    rw [pmxProfileToJson, show profileTree (reloaded authProfile) = profileTree authProfile from rfl,
      authCJson]
    simp only [if_pos]
  exact resave_iff authCJson_doubles (fun _ => ⟨rfl, rfl, rfl, rfl⟩) hparse hload hsave pmxProfileInit

/-- cJSON on the text of one tree, which is parsed, and that of another, which is printed. -/
def resavingCJson (text text' : CStr) (tree tree' : Json) : CJson where
  print := fun _ => some text'
  parse := fun t => if t = text then some tree else if t = text' then some tree' else none

theorem resavingCJson_parse (text text' : CStr) (tree tree' : Json) :
    (resavingCJson text text' tree tree').parse text = some tree := if_pos rfl

theorem resavingCJson_reparse {text text' : CStr} (h : text' ≠ text) (tree tree' : Json) :
    (resavingCJson text text' tree tree').parse text' = some tree' :=
  (if_neg h).trans (if_pos rfl)

/-- Two proxies with negative ids, and a rule for the second of them. -/
def negativeIdText : CStr :=
  ⟨cstr ([
    "\x7b\"format\":\"pmxprofile\",",
    "\"proxies\":[\x7b\"id\":-1,\"host\":\"a\"\x7d,\x7b\"id\":-2,\"host\":\"b\"\x7d],",
    "\"rules\":[\x7b\"action\":1,\"target_kind\":1,\"target_id\":-2\x7d]\x7d"].flatMap bytes),
    nul_notMem_cstr _⟩

/-- The tree of that text. -/
def negativeIdTree : Json :=
  .obj [("format", jsonText pmxProfileFormat),
    ("proxies",
      .arr [.obj [("id", jsonInt (-1)), ("host", jsonText "a")],
        .obj [("id", jsonInt (-2)), ("host", jsonText "b")]]),
    ("rules",
      .arr [.obj [("action", jsonInt 1), ("target_kind", jsonInt 1), ("target_id", jsonInt (-2))]])]

/-- The text cJSON prints for the profile that is loaded from it. -/
def negativeIdResaved : CStr :=
  ⟨cstr ([
    "\x7b\n\t\"format\":\t\"pmxprofile\",\n\t\"version\":\t1,\n\t\"label\":\t\"Profile\",\n",
    "\t\"next_id\":\t1.8446744073709552e+19,\n\t\"settings\":\t\x7b\n",
    "\t\t\"dns_through_proxy\":\ttrue,\n",
    "\t\t\"demo_traffic\":\ttrue,\n\t\t\"demo_interval_ms\":\t1500,\n\t\t\"check\":\t\x7b\n",
    "\t\t\t\"probe_host\":\t\"example.com\",\n\t\t\t\"probe_port\":\t443,\n",
    "\t\t\t\"timeout_ms\":\t5000,\n\t\t\t\"measure_egress_ip\":\tfalse,\n",
    "\t\t\t\"measure_ping\":\ttrue,\n\t\t\t\"egress_service\":\t\"api.ipify.org\",\n",
    "\t\t\t\"egress_path\":\t\"/\"\n\t\t\x7d\n\t\x7d,\n\t\"lockdown\":\t\x7b\n\t\t\"mode\":\t1,\n",
    "\t\t\"block_until_verified\":\ttrue,\n\t\t\"block_dns_leak\":\ttrue,\n",
    "\t\t\"block_ipv6\":\ttrue,\n\t\t\"health_interval_ms\":\t4000,\n",
    "\t\t\"failures_before_trip\":\t2,\n\t\t\"successes_before_restore\":\t2\n\t\x7d,\n",
    "\t\"proxies\":\t[\x7b\n\t\t\t\"id\":\t1.8446744073709552e+19,\n",
    "\t\t\t\"label\":\t\"Proxy\",\n\t\t\t\"type\":\t\"socks5\",\n",
    "\t\t\t\"host\":\t\"a\",\n\t\t\t\"port\":\t1080,\n",
    "\t\t\t\"use_auth\":\tfalse,\n\t\t\t\"enabled\":\ttrue\n\t\t\x7d, ",
    "\x7b\n\t\t\t\"id\":\t1.8446744073709552e+19,\n",
    "\t\t\t\"label\":\t\"Proxy\",\n\t\t\t\"type\":\t\"socks5\",\n",
    "\t\t\t\"host\":\t\"b\",\n\t\t\t\"port\":\t1080,\n",
    "\t\t\t\"use_auth\":\tfalse,\n\t\t\t\"enabled\":\ttrue\n\t\t\x7d],\n",
    "\t\"chains\":\t[],\n\t\"vpns\":\t[],\n",
    "\t\"rules\":\t[\x7b\n\t\t\t\"id\":\t0,\n\t\t\t\"name\":\t\"Rule\",\n",
    "\t\t\t\"enabled\":\ttrue,\n\t\t\t\"action\":\t1,\n",
    "\t\t\t\"target_kind\":\t1,\n\t\t\t\"target_id\":\t1.8446744073709552e+19\n\t\t\x7d],\n",
    "\t\"default_rule\":\t\x7b\n",
    "\t\t\"id\":\t0,\n\t\t\"name\":\t\"Default\",\n\t\t\"enabled\":\ttrue,\n\t\t\"action\":\t0,\n",
    "\t\t\"target_kind\":\t0,\n\t\t\"target_id\":\t0\n\t\x7d\n\x7d"].flatMap bytes), nul_notMem_cstr _⟩

/-- The profile that is loaded from it. -/
def negativeIdProfile : PmxProfile := profileFromTree .unlimited negativeIdTree

/-- cJSON on the two texts. -/
def negativeIdCJson : CJson :=
  resavingCJson negativeIdText negativeIdResaved negativeIdTree (profileTree negativeIdProfile)

/-- Both ids become `INT_MAX`, so the rule that named the second proxy now finds the first. -/
theorem not_resave_negativeId :
    ∃ pf pf', pmxProfileFromJson negativeIdCJson .unlimited pmxProfileInit negativeIdText = (pf, .ok) ∧
      pmxProfileToJson negativeIdCJson pf = .ok negativeIdResaved ∧
      pmxProfileFromJson negativeIdCJson .unlimited pmxProfileInit negativeIdResaved = (pf', .ok) ∧
      ¬SameRecords pf pf' ∧
      (pmxResolveWithProfile pf ⟨none, none, none, 443⟩).via.map (·.host)
        = [strlcpy pmxMaxHost (bytes "b")] ∧
      (pmxResolveWithProfile pf' ⟨none, none, none, 443⟩).via.map (·.host)
        = [strlcpy pmxMaxHost (bytes "a")] := by
  have hdiffer : negativeIdResaved ≠ negativeIdText := by decide +kernel
  have hparse : negativeIdCJson.parse negativeIdText = some negativeIdTree :=
    resavingCJson_parse _ _ _ _
  have hreparse : negativeIdCJson.parse negativeIdResaved = some (profileTree negativeIdProfile) :=
    resavingCJson_reparse hdiffer _ _
  refine ⟨negativeIdProfile, rereadProfile negativeIdProfile, ?_, rfl,
    pmxProfileFromJson_profileTree (profileFromTree_readable _ _) hreparse
      (fun _ => ⟨rfl, rfl, rfl, rfl⟩) _, ?_, ?_, ?_⟩
  · rw [pmxProfileFromJson, hparse]
    exact if_neg (not_not.2 rfl)
  · rw [negativeIdProfile, sameRecords_reread_iff]
    exact fun h => absurd (h.proxies _ List.mem_cons_self) (by decide +kernel)
  · decide +kernel
  · decide +kernel

end ProxiMight
