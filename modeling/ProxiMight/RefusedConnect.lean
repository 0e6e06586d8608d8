import ProxiMight.ReplyRouting
import ProxiMight.RelayService

/-!
# A connect that could not be registered (`wd_pump`)

A proxied connect is announced to the relay first and mapped in the NAT table then.  When the second call
refuses, the connect is treated as one that cannot be redirected, and the announcement stays: an entry for
a connection that was blocked, or let out directly.  It takes one of the 64 places and serves whoever
connects to the relay from that port.

* **`refused_leavesTables_iff`** — a connect that is not registered leaves the unexpired announcements and
  the mappings as they were, exactly when not the NAT table alone refuses it, or when the announcement was
  there before.
-/

namespace ProxiMight

open CString NatTable

/-! ### The unexpired announcements -/

/-- An entry as the code has it, without the flow. -/
def RelayEntry.bare (e : RelayEntry) : RelayEntry := { e with flow := 0 }

/-- The entries that are not expired at a time. -/
def PmxRelay.unexpired (r : PmxRelay) (now : ℕ) : List RelayEntry :=
  (expireLocked r now).pending.map RelayEntry.bare

/-- Those of the backend's relay. -/
def WdImpl.unexpired (im : WdImpl) (now : ℕ) : List RelayEntry :=
  match im.relay with
  | some relay => relay.unexpired now
  | none => []

/-- The relay takes an announcement for the port at that time. -/
def PmxRelay.Takes (r : PmxRelay) (srcPort : PmxPort) (chainLen now : ℕ) : Prop :=
  srcPort ≠ 0 ∧ 0 < chainLen ∧ chainLen ≤ pmxMaxChainHops ∧
    ((expireLocked r now).pendingFor srcPort ≠ none ∨
      (expireLocked r now).pending.length < pmxRelayMaxPending)

/-- The table has no slot for the port, and every slot is held by a live flow. -/
def NatTable.Full (n : NatTable) (srcPort : PmxPort) (now : ℕ) : Prop :=
  n.lookup srcPort = none ∧ ∀ slot ∈ n.slots, slot.used = true ∧ n.Live now slot

/-- Being unexpired is a matter of the entry's contents. -/
theorem unexpired_eq_filter (r : PmxRelay) (now : ℕ) :
    r.unexpired now =
      (r.pending.map RelayEntry.bare).filter fun e => decide (now - e.addedMs < pmxRelayEntryTtlMs) := by
  rw [PmxRelay.unexpired, expireLocked, List.filter_map]
  rfl

/-- To expire entries earlier makes no difference. -/
theorem unexpired_expireLocked (r : PmxRelay) {earlier now : ℕ} (h : earlier ≤ now) :
    (expireLocked r earlier).unexpired now = r.unexpired now := by
  have hexpired : (expireLocked r earlier).pending.map RelayEntry.bare = r.unexpired earlier := rfl
  rw [unexpired_eq_filter, hexpired, unexpired_eq_filter, unexpired_eq_filter, List.filter_filter]
  refine List.filter_congr fun e _ => ?_
  rw [← Bool.decide_and]
  refine decide_eq_decide.2 (and_iff_left_of_imp fun hyoung => ?_)
  omega

/-- When `pmx_relay_register` succeeds. -/
theorem pmxRelayRegister_ok_iff {r : PmxRelay} {srcPort : PmxPort} {dstHost : List UInt8}
    {dstPort : PmxPort} {chain : List PmxProxy} {chainLen now addedMs flow : ℕ} :
    (pmxRelayRegister r srcPort dstHost dstPort chain chainLen now addedMs flow).2 = .ok ↔
      r.Takes srcPort chainLen now := by
  have hnone : (expireLocked r now).pending.findIdx? (RelayEntry.isFor srcPort) = none ↔
      (expireLocked r now).pendingFor srcPort = none := by
    rw [PmxRelay.pendingFor, List.findIdx?_eq_none_iff, List.find?_eq_none]
    simp only [Bool.not_eq_true]
  rw [pmxRelayRegister, PmxRelay.Takes]
  split_ifs with hbad
  · refine iff_of_false (fun h => by cases h) fun h => ?_
    obtain ⟨hp, hpos, hle, -⟩ := h
    rcases hbad with hbad | hbad | hbad
    · exact hp hbad
    · omega
    · omega
  · rw [not_or, not_or] at hbad
    obtain ⟨hp, hzero, hle⟩ := hbad
    dsimp only
    cases hfind : (expireLocked r now).pending.findIdx? (RelayEntry.isFor srcPort) with
    | some i =>
      have hsome : (expireLocked r now).pendingFor srcPort ≠ none := by
        rw [Ne, ← hnone, hfind]
        exact Option.some_ne_none i
      exact iff_of_true rfl ⟨hp, Nat.pos_of_ne_zero hzero, Nat.not_lt.1 hle, Or.inl hsome⟩
    | none =>
      dsimp only
      split_ifs with hfull
      · refine iff_of_false (fun h => by cases h) fun h => ?_
        rcases h.2.2.2 with hsome | hroom
        · exact hsome (hnone.1 hfind)
        · omega
      · exact iff_of_true rfl ⟨hp, Nat.pos_of_ne_zero hzero, Nat.not_lt.1 hle, Or.inr (Nat.not_le.1 hfull)⟩

/-- The table after a registration that succeeds: an entry of the port is replaced, or one is added. -/
theorem pmxRelayRegister_table {r : PmxRelay} {srcPort : PmxPort} {dstHost : List UInt8}
    {dstPort : PmxPort} {chain : List PmxProxy} {chainLen now addedMs flow : ℕ}
    (hok : (pmxRelayRegister r srcPort dstHost dstPort chain chainLen now addedMs flow).2 = .ok) :
    let e : RelayEntry :=
      ⟨srcPort, strlcpy pmxMaxHost dstHost, dstPort, chain.take chainLen, addedMs, flow⟩
    let r' := (pmxRelayRegister r srcPort dstHost dstPort chain chainLen now addedMs flow).1
    (∃ i old, (expireLocked r now).pending[i]? = some old ∧
        (expireLocked r now).pendingFor srcPort = some old ∧
        r'.pending = (expireLocked r now).pending.set i e) ∨
      ((expireLocked r now).pendingFor srcPort = none ∧
        r'.pending = (expireLocked r now).pending ++ [e]) := by
  unfold pmxRelayRegister at hok ⊢
  split_ifs at hok ⊢
  dsimp only at hok ⊢
  cases hfind : (expireLocked r now).pending.findIdx? (RelayEntry.isFor srcPort) with
  | some i =>
    obtain ⟨hlt, hfor, hfirst⟩ := List.findIdx?_eq_some_iff_getElem.1 hfind
    refine Or.inl ⟨i, (expireLocked r now).pending[i], List.getElem?_eq_getElem hlt, ?_, rfl⟩
    rw [PmxRelay.pendingFor, List.find?_eq_some_iff_getElem]
    exact ⟨hfor, i, hlt, rfl, fun j hj => by simpa using hfirst j hj⟩
  | none =>
    rw [hfind] at hok
    dsimp only at hok ⊢
    split_ifs at hok ⊢
    refine Or.inr ⟨?_, rfl⟩
    rw [PmxRelay.pendingFor, List.find?_eq_none]
    simpa only [Bool.not_eq_true] using List.findIdx?_eq_none_iff.1 hfind

/-- At the time of the call nothing that is left is expired, the new entry included. -/
theorem unexpired_now_of_register {r : PmxRelay} {srcPort : PmxPort} {dstHost : List UInt8}
    {dstPort : PmxPort} {chain : List PmxProxy} {chainLen now addedMs flow : ℕ} (hclock : now ≤ addedMs)
    (hok : (pmxRelayRegister r srcPort dstHost dstPort chain chainLen now addedMs flow).2 = .ok) :
    (pmxRelayRegister r srcPort dstHost dstPort chain chainLen now addedMs flow).1.unexpired now =
      (pmxRelayRegister r srcPort dstHost dstPort chain chainLen now addedMs flow).1.pending.map
        RelayEntry.bare := by
  refine congrArg (List.map RelayEntry.bare) (List.filter_eq_self.2 fun x hx => ?_)
  have hnew : decide (now - addedMs < pmxRelayEntryTtlMs) = true := by
    rw [decide_eq_true_eq, Nat.sub_eq_zero_of_le hclock]
    exact Nat.zero_lt_succ _
  have hleft : ∀ x ∈ (expireLocked r now).pending,
      decide (now - x.addedMs < pmxRelayEntryTtlMs) = true := fun x hx => (List.mem_filter.1 hx).2
  rcases pmxRelayRegister_table hok with ⟨i, old, -, -, heq⟩ | ⟨-, heq⟩
  · rw [heq] at hx
    rcases List.mem_or_eq_of_mem_set hx with hold | rfl
    · exact hleft x hold
    · exact hnew
  · rw [heq] at hx
    rcases List.mem_append.1 hx with hold | hlast
    · exact hleft x hold
    · rw [List.mem_singleton.1 hlast]
      exact hnew

/-- **What a registration leaves of the announcements**: they are as they were exactly when the port's own
was there with the same contents. -/
theorem unexpired_pmxRelayRegister_iff {r : PmxRelay} {srcPort : PmxPort} {dstHost : List UInt8}
    {dstPort : PmxPort} {chain : List PmxProxy} {chainLen now addedMs flow : ℕ} (hclock : now ≤ addedMs)
    (hok : (pmxRelayRegister r srcPort dstHost dstPort chain chainLen now addedMs flow).2 = .ok) :
    (∀ t, now ≤ t → ((pmxRelayRegister r srcPort dstHost dstPort chain chainLen now addedMs
        flow).1.unexpired t).Perm (r.unexpired t)) ↔
      ∃ old, (expireLocked r now).pendingFor srcPort = some old ∧ old.bare =
        ⟨srcPort, strlcpy pmxMaxHost dstHost, dstPort, chain.take chainLen, addedMs, 0⟩ := by
  set e : RelayEntry :=
    ⟨srcPort, strlcpy pmxMaxHost dstHost, dstPort, chain.take chainLen, addedMs, flow⟩ with he
  set r' := (pmxRelayRegister r srcPort dstHost dstPort chain chainLen now addedMs flow).1 with hr'
  have hbare : e.bare = ⟨srcPort, strlcpy pmxMaxHost dstHost, dstPort, chain.take chainLen, addedMs, 0⟩ := rfl
  rw [← hbare]
  have hnow : r'.unexpired now = r'.pending.map RelayEntry.bare :=
    unexpired_now_of_register hclock hok
  rcases pmxRelayRegister_table hok with ⟨i, old, hi, hold, heq⟩ | ⟨hnone, heq⟩
  · have hput : (r'.pending.map RelayEntry.bare) =
        ((expireLocked r now).pending.map RelayEntry.bare).set i e.bare := by
      rw [hr', heq, List.map_set]
    have hi' : ((expireLocked r now).pending.map RelayEntry.bare)[i]? = some old.bare := by
      rw [List.getElem?_map, hi]
      rfl
    constructor
    · intro hsame
      have hperm := hsame now le_rfl
      rw [hnow, hput] at hperm
      exact ⟨old, hold, ((SlotTable.set_perm_iff hi' e.bare).1 hperm).symm⟩
    · rintro ⟨old', hold', hcontents⟩ t ht
      obtain rfl := Option.some.inj (hold.symm.trans hold')
      have hperm := (SlotTable.set_perm_iff hi' e.bare).2 hcontents.symm
      rw [← hput] at hperm
      rw [← unexpired_expireLocked r ht, unexpired_eq_filter, unexpired_eq_filter]
      exact hperm.filter _
  · refine iff_of_false (fun hsame => ?_) ?_
    · have hlength := (hsame now le_rfl).length_eq
      rw [hnow, hr', heq, PmxRelay.unexpired, List.length_map, List.length_map, List.length_append] at hlength
      exact absurd hlength (Nat.succ_ne_self _)
    · rintro ⟨old, hold, -⟩
      cases hnone.symm.trans hold

/-- When `pmx_nat_add` refuses a port. -/
theorem pmxNatAdd_refused_iff {n : NatTable} {srcAddr : UInt32} {srcPort : PmxPort}
    {origDstAddr : UInt32} {origDstPort : PmxPort} {now : ℕ} (hp : srcPort ≠ 0) :
    (pmxNatAdd n srcAddr srcPort origDstAddr origDstPort now).2 ≠ .ok ↔ n.Full srcPort now := by
  have hspec := addSpec n srcAddr origDstAddr origDstPort now hp
  rw [NatTable.Full, ← hspec.fails]
  constructor
  · intro hne
    by_contra hother
    exact hne (hspec.succeeds hother).1
  · intro herr hok
    cases herr.symm.trans hok

/-! ### A refused connect -/

/-- The connect is to be proxied and is not registered. -/
def wdRefuses (im : WdImpl) (decide : PmxFlow → PmxDecision) (addr : WdAddr) (env : WdEventEnv) : Bool :=
  isProxied im decide addr env && !wdRegisters im decide addr env

/-- A connect that is refused leaves the mappings, and the unexpired announcements at any later time, as they
were. -/
def RefusedLeavesTables (im : WdImpl) (decide : PmxFlow → PmxDecision) (addr : WdAddr)
    (env : WdEventEnv) : Prop :=
  wdRefuses im decide addr env = true →
    (wdPump im decide addr env).1.nat = im.nat ∧
      ∀ t, env.expireMs ≤ t → ((wdPump im decide addr env).1.unexpired t).Perm (im.unexpired t)

/-- The relay takes the announcement, and the NAT table has no place for the mapping. -/
def wdHalfRegisters (im : WdImpl) (addr : WdAddr) (env : WdEventEnv) (f : PmxFlow) (d : PmxDecision)
    (relay : PmxRelay) : Prop :=
  wdRoutable addr f d = true ∧ im.relay = some relay ∧
    relay.Takes addr.localPort d.viaCount env.expireMs ∧
      ∃ nat, im.nat = some nat ∧ nat.Full addr.localPort env.natMs

/-- The port was announced before, with the same destination and chain, at the same time. -/
def AlreadyAnnounced (addr : WdAddr) (env : WdEventEnv) (f : PmxFlow) (d : PmxDecision)
    (relay : PmxRelay) : Prop :=
  ∃ old, (expireLocked relay env.expireMs).pendingFor addr.localPort = some old ∧ old.bare =
    ⟨addr.localPort, f.dstHost, f.dstPort, d.viaArray.take d.viaCount, env.registerMs, 0⟩

/-- The call is made on the relay and the table that are there. -/
theorem wdHalfRegisters_iff {im : WdImpl} {addr : WdAddr} {env : WdEventEnv} {f : PmxFlow}
    {d : PmxDecision} {relay : PmxRelay} {nat : NatTable} (hrelay : im.relay = some relay)
    (hnat : im.nat = some nat) (relay' : PmxRelay) :
    wdHalfRegisters im addr env f d relay' ↔ relay' = relay ∧
      wdRoutable addr f d = true ∧ relay.Takes addr.localPort d.viaCount env.expireMs ∧
        nat.Full addr.localPort env.natMs := by
  rw [wdHalfRegisters, hrelay, hnat]
  constructor
  · rintro ⟨hroute, hsame, htakes, nat', hsame', hfull⟩
    obtain rfl := Option.some.inj hsame
    obtain rfl := Option.some.inj hsame'
    exact ⟨rfl, hroute, htakes, hfull⟩
  · rintro ⟨rfl, hroute, htakes, hfull⟩
    exact ⟨hroute, rfl, htakes, nat, rfl, hfull⟩

/-- What the two calls leave of a connect that is not registered. -/
theorem wdRegister_refused_iff {im : WdImpl} {addr : WdAddr} {env : WdEventEnv} {f : PmxFlow}
    {d : PmxDecision} (hclock : env.expireMs ≤ env.registerMs)
    (hrefused : (wdRegister im addr env f d).2 = false) :
    ((wdRegister im addr env f d).1.nat = im.nat ∧
        ∀ t, env.expireMs ≤ t → ((wdRegister im addr env f d).1.unexpired t).Perm (im.unexpired t)) ↔
      ∀ relay, wdHalfRegisters im addr env f d relay → AlreadyAnnounced addr env f d relay := by
  unfold wdRegister at hrefused ⊢
  split at hrefused
  · next relay nat hrelay hnat =>
    have hhalf : ∀ relay', wdHalfRegisters im addr env f d relay' ↔ _ := wdHalfRegisters_iff hrelay hnat
    have hbefore : ∀ t, im.unexpired t = relay.unexpired t := by
      intro t
      rw [WdImpl.unexpired, hrelay]
    dsimp only at hrefused ⊢
    split_ifs at hrefused ⊢ with hroute hreg
    · -- announced, but not mapped
      have hfull : nat.Full addr.localPort env.natMs :=
        (pmxNatAdd_refused_iff (pmxRelayRegister_valid hreg).1).1 (of_decide_eq_false hrefused)
      have hkept := pmxNatAdd_of_refused (of_decide_eq_false hrefused)
      have hlast := unexpired_pmxRelayRegister_iff hclock hreg
      rw [strlcpy_self] at hlast
      simp only [hbefore]
      refine (and_iff_right ((congrArg some hkept).trans hnat.symm)).trans (hlast.trans ?_)
      constructor
      · intro hsame relay' hrelay'
        obtain ⟨rfl, -⟩ := (hhalf relay').1 hrelay'
        exact hsame
      · intro hall
        exact hall relay ((hhalf relay).2 ⟨rfl, hroute, pmxRelayRegister_ok_iff.1 hreg, hfull⟩)
    · -- not announced
      refine iff_of_true ⟨hnat.symm ▸ rfl, fun t ht => ?_⟩ fun relay' hrelay' => ?_
      · rw [hbefore]
        rcases pmxRelayRegister_refused hreg with heq | heq
        · exact List.Perm.of_eq (congrArg (PmxRelay.unexpired · t) (congrArg Prod.fst heq))
        · refine List.Perm.of_eq (Eq.trans ?_ (unexpired_expireLocked relay ht))
          exact congrArg (PmxRelay.unexpired · t) (congrArg Prod.fst heq)
      · exact absurd (pmxRelayRegister_ok_iff.2 ((hhalf relay').1 hrelay').2.2.1) hreg
    · -- not routable
      refine iff_of_true ⟨rfl, fun t _ => List.Perm.refl _⟩ fun relay' hrelay' => ?_
      exact absurd ((hhalf relay').1 hrelay').2.1 hroute
  · next hmissing =>
    refine iff_of_true ⟨rfl, fun t _ => List.Perm.refl _⟩ fun relay hhalf => ?_
    obtain ⟨-, hrelay, -, nat, hnat, -⟩ := hhalf
    exact absurd hnat (hmissing relay nat hrelay)

/-- Such a connect is not registered. -/
theorem wdHalfRegisters.not_registered {im : WdImpl} {addr : WdAddr} {env : WdEventEnv} {f : PmxFlow}
    {d : PmxDecision} {relay : PmxRelay} (h : wdHalfRegisters im addr env f d relay) :
    (wdRegister im addr env f d).2 = false := by
  obtain ⟨hroute, hrelay, htakes, nat, hnat, hfull⟩ := h
  rw [wdRegister, hrelay, hnat]
  dsimp only
  rw [if_pos hroute, if_pos (pmxRelayRegister_ok_iff.2 htakes)]
  exact decide_eq_false ((pmxNatAdd_refused_iff htakes.1).2 hfull)

/-- **What a refused connect leaves behind.**  In every state of the two tables and for every connect: if it
is to be proxied and is not registered, the mappings and the unexpired announcements are afterwards what they
were, exactly when the relay does not take an announcement for which the NAT table has no place, unless the
same announcement was there before. -/
theorem refused_leavesTables_iff (im : WdImpl) (decide : PmxFlow → PmxDecision) (addr : WdAddr)
    (env : WdEventEnv) (hclock : env.expireMs ≤ env.registerMs) :
    RefusedLeavesTables im decide addr env ↔
      (isProxied im decide addr env = true → ∀ relay,
        wdHalfRegisters im addr env (wdFlow im addr env) (wdDecision im decide (wdFlow im addr env)) relay →
          AlreadyAnnounced addr env (wdFlow im addr env) (wdDecision im decide (wdFlow im addr env))
            relay) := by
  rw [RefusedLeavesTables, wdRefuses, Bool.and_eq_true, and_imp]
  refine imp_congr_right fun hproxied => ?_
  rw [wdRegisters, hproxied, Bool.true_and, Bool.not_eq_true']
  obtain ⟨hgated, hverdict⟩ := Bool.and_eq_true_iff.1 hproxied
  obtain ⟨-, hrelay, hnat⟩ := wdPump_of_gated hgated decide env
  rw [wdVerdict_of_proxy (eq_of_beq hverdict)] at hrelay hnat
  have hunexpired : ∀ t, (wdPump im decide addr env).1.unexpired t =
      (wdRegister im.counted addr env (wdFlow im addr env)
        (wdDecision im decide (wdFlow im addr env))).1.unexpired t := by
    intro t
    rw [WdImpl.unexpired, WdImpl.unexpired, hrelay]
  simp only [hnat, hunexpired]
  constructor
  · intro hleaves relay hhalf
    have hrefused : (wdRegister im.counted addr env (wdFlow im addr env)
        (wdDecision im decide (wdFlow im addr env))).2 = false := wdHalfRegisters.not_registered hhalf
    exact (wdRegister_refused_iff hclock hrefused).1 (hleaves hrefused) relay hhalf
  · intro hall hrefused
    exact (wdRegister_refused_iff hclock hrefused).2 hall

/-- A UDP connect is refused before either table is asked. -/
theorem refused_leavesTables_udp :
    wdRefuses wdRunning (fun f => pmxResolveWithProfile oneProxyProfile f.query) wdUdpConnect
        wdPlainEnv = true ∧
      RefusedLeavesTables wdRunning (fun f => pmxResolveWithProfile oneProxyProfile f.query) wdUdpConnect
        wdPlainEnv := by
  refine ⟨by decide +kernel, ?_⟩
  refine (refused_leavesTables_iff wdRunning _ wdUdpConnect wdPlainEnv le_rfl).2 fun _ relay hhalf => ?_
  have hroute : wdRoutable wdUdpConnect (wdFlow wdRunning wdUdpConnect wdPlainEnv)
      (wdDecision wdRunning (fun f => pmxResolveWithProfile oneProxyProfile f.query)
        (wdFlow wdRunning wdUdpConnect wdPlainEnv)) = false := by decide +kernel
  cases hroute.symm.trans hhalf.1

/-- A NAT table whose 1024 slots are held by live flows. -/
def fullNat : NatTable where
  slots := (List.range 1024).map fun i => freshSlot 3232235786 (UInt16.ofNat (i + 1)) 1572395042 443 1000
  count := 1024
  ttlMs := 120000

/-- The backend with that table and an empty relay. -/
def wdNatFull : WdImpl := { wdRunning with nat := some fullNat }

/-- The connect is blocked, and its announcement is left in the relay. -/
theorem not_refusedLeavesTables_natFull :
    let r := wdPump wdNatFull (fun f => pmxResolveWithProfile oneProxyProfile f.query) wdTcpConnect
      wdPlainEnv
    r.2.allowed = false ∧ wdNatFull.unexpired 1000 = [] ∧
      (r.1.unexpired 1000).map RelayEntry.srcPort = [50000] ∧
      ¬RefusedLeavesTables wdNatFull (fun f => pmxResolveWithProfile oneProxyProfile f.query) wdTcpConnect
        wdPlainEnv := by
  have hrun : (wdPump wdNatFull (fun f => pmxResolveWithProfile oneProxyProfile f.query) wdTcpConnect
        wdPlainEnv).2.allowed = false ∧ wdNatFull.unexpired 1000 = [] ∧
      ((wdPump wdNatFull (fun f => pmxResolveWithProfile oneProxyProfile f.query) wdTcpConnect
        wdPlainEnv).1.unexpired 1000).map RelayEntry.srcPort = [50000] ∧
      wdRefuses wdNatFull (fun f => pmxResolveWithProfile oneProxyProfile f.query) wdTcpConnect
        wdPlainEnv = true := by
    decide +kernel
  intro r
  obtain ⟨hblocked, hbefore, hafter, hrefused⟩ := hrun
  refine ⟨hblocked, hbefore, hafter, fun hleaves => ?_⟩
  have hperm := (hleaves hrefused).2 1000 le_rfl
  rw [hbefore] at hperm
  have hempty := congrArg (List.map RelayEntry.srcPort) hperm.eq_nil
  cases hafter.symm.trans hempty

end ProxiMight
