import ProxiMight.Resave

/-!
# VPN records after a restart

Every field of a VPN record is written under a key and read back under the same one, but for the note
that endpoints were left out: `pmx_profile_to_json` does not write it, and a record that is read starts
without it.  The file may hold ids that do not fit elsewhere; the record is restored all the same.

* **`restoredVpn_iff`** — a record is restored in every field exactly when no endpoint was left out.
-/

namespace ProxiMight

open CString

/-- The ids of a profile are written as doubles, whatever they are. -/
theorem parse_of_saved {C : CJson} (hC : PrintsDoubles C) {pf : PmxProfile} (hints : ProfileInts pf)
    {text : CStr} (hsave : pmxProfileToJson C pf = .ok text) :
    C.parse text = some (profileTree pf) := by
  have hids : ProfileIds (fun _ => True) pf :=
    ⟨trivial, fun _ _ => trivial, fun _ _ => ⟨trivial, fun _ _ => trivial⟩, fun _ _ => trivial,
      fun _ _ => ⟨trivial, trivial⟩, trivial, trivial⟩
  have hnested : Json.Nested IsDouble (995 + 5) (profileTree pf) :=
    nested_profileTree (fun _ => isDouble_of_fits) (fun id _ => isDouble_toDouble id.toNat_lt) hints hids
  exact hC _ _ hnested (pmxProfileToJson_ok hsave)

/-- The VPNs read from the tree of a profile, whatever else is in it. -/
theorem profileFromTree_vpns {alloc : JsonAlloc} (halloc : ∀ n, alloc.vpns n = true) {pf : PmxProfile}
    (hvpns : ∀ v ∈ pf.vpns, VpnNumbersFit v) :
    (profileFromTree alloc (profileTree pf)).vpns = pf.vpns.map rereadVpn :=
  storeItems_of_readBack halloc
    (show (profileTree pf).getItem "vpns" = some (.arr (pf.vpns.map vpnToJson)) from by
      simp [profileTree, Json.getItem])
    fun v hv => vpnFromJson_vpnToJson (hvpns v hv)

theorem rereadVpn_eq_self_iff {v : PmxVpn} (hid : IdFits v.id) :
    rereadVpn v = v ↔ v.endpointsTruncated = false := by
  rw [rereadVpn_of_fits hid]
  constructor
  · intro h
    rw [← h]
  · intro h
    cases v
    cases h
    rfl

/-- **When a VPN record survives saving and loading.**  For every profile that is saved and every VPN
record in it whose numbers fit in an `int`: the file is loaded, the record is in its place with every
field but one as it was, and it is the same in every field exactly when none of its endpoints was left
out. -/
theorem restoredVpn_iff {C : CJson} (hC : PrintsDoubles C) {pf : PmxProfile} (hints : ProfileInts pf)
    {text : CStr} (hsave : pmxProfileToJson C pf = .ok text) {alloc : JsonAlloc}
    (halloc : ∀ n, alloc.vpns n = true) (pf₀ : PmxProfile) :
    ∃ pf', pmxProfileFromJson C alloc pf₀ text = (pf', .ok) ∧ pf'.vpns.length = pf.vpns.length ∧
      ∀ (i : ℕ) (v : PmxVpn), pf.vpns[i]? = some v → IdFits v.id →
        pf'.vpns[i]? = some { v with endpointsTruncated := false } ∧
        (pf'.vpns[i]? = some v ↔ v.endpointsTruncated = false) := by
  have hvpns := profileFromTree_vpns halloc hints.vpns
  refine ⟨_, pmxProfileFromJson_of_parse (parse_of_saved hC hints hsave) alloc pf₀,
    by rw [hvpns, List.length_map], fun i v hv hid => ?_⟩
  rw [hvpns, List.getElem?_map, hv, Option.map_some, ← rereadVpn_of_fits hid]
  exact ⟨rfl, Option.some_inj.trans (rereadVpn_eq_self_iff hid)⟩

/-- A profile with a VPN of eight endpoints, of which more were left out. -/
def manyPeersProfile : PmxProfile :=
  { pmxProfileInit with
      vpns :=
        [{ pmxVpnInit with
            id := 1
            endpoints := List.replicate 8 ⟨strlcpy pmxMaxHost (bytes "a"), 51820, true⟩
            endpointsTruncated := true
            endpoints_fit := Nat.le_refl 8 }]
      nextId := 2 }

/-- The text cJSON prints for it. -/
def manyPeersText : CStr :=
  ⟨cstr ([
    "\x7b\n\t\"format\":\t\"pmxprofile\",\n\t\"version\":\t1,\n\t\"label\":\t\"New profile\",\n",
    "\t\"next_id\":\t2,\n\t\"settings\":\t\x7b\n\t\t\"dns_through_proxy\":\ttrue,\n",
    "\t\t\"demo_traffic\":\ttrue,\n\t\t\"demo_interval_ms\":\t1500,\n\t\t\"check\":\t\x7b\n",
    "\t\t\t\"probe_host\":\t\"example.com\",\n\t\t\t\"probe_port\":\t443,\n",
    "\t\t\t\"timeout_ms\":\t5000,\n\t\t\t\"measure_egress_ip\":\tfalse,\n",
    "\t\t\t\"measure_ping\":\ttrue,\n\t\t\t\"egress_service\":\t\"api.ipify.org\",\n",
    "\t\t\t\"egress_path\":\t\"/\"\n\t\t\x7d\n\t\x7d,\n\t\"lockdown\":\t\x7b\n\t\t\"mode\":\t1,\n",
    "\t\t\"block_until_verified\":\ttrue,\n\t\t\"block_dns_leak\":\ttrue,\n",
    "\t\t\"block_ipv6\":\ttrue,\n\t\t\"health_interval_ms\":\t4000,\n",
    "\t\t\"failures_before_trip\":\t2,\n\t\t\"successes_before_restore\":\t2\n\t\x7d,\n",
    "\t\"proxies\":\t[],\n\t\"chains\":\t[],\n\t\"vpns\":\t[\x7b\n\t\t\t\"id\":\t1,\n",
    "\t\t\t\"label\":\t\"New VPN\",\n\t\t\t\"kind\":\t0,\n\t\t\t\"enabled\":\ttrue,\n",
    "\t\t\t\"mtu\":\t0,\n\t\t\t\"keepalive\":\t0,\n\t\t\t\"has_private_key\":\tfalse,\n",
    "\t\t\t\"has_preshared_key\":\tfalse,\n\t\t\t\"has_inline_secrets\":\tfalse,\n",
    "\t\t\t\"requires_user_pass\":\tfalse,\n\t\t\t\"full_tunnel\":\tfalse,\n",
    "\t\t\t\"endpoints\":\t["].flatMap bytes ++
    (List.replicate 7 ("\x7b\n\t\t\t\t\t\"host\":\t\"a\",\n\t\t\t\t\t\"port\":\t51820,\n" ++
      "\t\t\t\t\t\"udp\":\ttrue\n\t\t\t\t\x7d, ")).flatMap bytes ++ [
    "\x7b\n\t\t\t\t\t\"host\":\t\"a\",\n\t\t\t\t\t\"port\":\t51820,\n\t\t\t\t\t\"udp\":\ttrue\n",
    "\t\t\t\t\x7d]\n\t\t\x7d],\n\t\"rules\":\t[],\n\t\"default_rule\":\t\x7b\n\t\t\"id\":\t0,\n",
    "\t\t\"name\":\t\"Default\",\n\t\t\"enabled\":\ttrue,\n\t\t\"action\":\t0,\n",
    "\t\t\"target_kind\":\t0,\n\t\t\"target_id\":\t0\n\t\x7d\n\x7d"].flatMap bytes),
    nul_notMem_cstr _⟩

open Classical in
/-- cJSON on the tree of that profile, out of memory on any other. -/
noncomputable def manyPeersCJson : CJson where
  print := fun j => if j = profileTree manyPeersProfile then some manyPeersText else none
  parse := fun text => if text = manyPeersText then some (profileTree manyPeersProfile) else none

theorem manyPeersCJson_doubles : PrintsDoubles manyPeersCJson := by
  intro j text _ hprint
  simp only [manyPeersCJson] at hprint ⊢
  split_ifs at hprint with hj
  rw [← Option.some.inj hprint, if_pos rfl, hj]

theorem manyPeersProfile_ints : ProfileInts manyPeersProfile where
  demoInterval := by decide
  timeout := by decide
  lockdownMode := by decide
  healthInterval := by decide
  failures := by decide
  successes := by decide
  chains := fun c hc => absurd hc List.not_mem_nil
  vpns := by
    intro v hv
    rw [List.mem_singleton.1 hv]
    exact ⟨by decide, by decide, by decide⟩
  rules := fun r hr => absurd hr List.not_mem_nil
  defaultRule := ⟨by decide, by decide⟩

theorem manyPeersProfile_saved :
    pmxProfileToJson manyPeersCJson manyPeersProfile = .ok manyPeersText := by
  rw [pmxProfileToJson, manyPeersCJson]
  simp only [if_pos]

theorem restoredVpn_iff_manyPeers :
    ∃ pf', pmxProfileFromJson manyPeersCJson .unlimited pmxProfileInit manyPeersText = (pf', .ok) ∧
      pf'.vpns.length = manyPeersProfile.vpns.length ∧
      ∀ (i : ℕ) (v : PmxVpn), manyPeersProfile.vpns[i]? = some v → IdFits v.id →
        pf'.vpns[i]? = some { v with endpointsTruncated := false } ∧
        (pf'.vpns[i]? = some v ↔ v.endpointsTruncated = false) :=
  restoredVpn_iff manyPeersCJson_doubles manyPeersProfile_ints manyPeersProfile_saved (fun _ => rfl)
    pmxProfileInit

/-- The profile is saved and loaded, and the record no longer says that endpoints were left out. -/
theorem not_restoredVpn_manyPeers :
    ∃ v pf' v', manyPeersProfile.vpns = [v] ∧ VpnFits v ∧
      pmxProfileToJson manyPeersCJson manyPeersProfile = .ok manyPeersText ∧
      pmxProfileFromJson manyPeersCJson .unlimited pmxProfileInit manyPeersText = (pf', .ok) ∧
      pf'.vpns = [v'] ∧ v.endpointsTruncated = true ∧ v'.endpointsTruncated = false ∧ v' ≠ v := by
  have hparse := parse_of_saved manyPeersCJson_doubles manyPeersProfile_ints manyPeersProfile_saved
  refine ⟨_, _, _, rfl, ⟨by decide, by decide, by decide, by decide⟩, manyPeersProfile_saved,
    pmxProfileFromJson_of_parse hparse _ _, profileFromTree_vpns (fun _ => rfl) manyPeersProfile_ints.vpns, rfl, rfl, fun h => ?_⟩
  cases congrArg PmxVpn.endpointsTruncated h

end ProxiMight
