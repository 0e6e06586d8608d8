import Mathlib.Data.List.Forall2
import ProxiMight.Numbers
import ProxiMight.Remotes

/-!
# The ports of endpoints (`pmx_vpn_parse_openvpn`, `parse_hostport`)

A port is read by `strtol` and cast to 16 bits.  The WireGuard parser looks at the number before the cast.
The OpenVPN parser does not: it keeps what the cast leaves, takes 0 for a remote without a port, and gives
such a remote the last `port` of the config, or 1194.  Of a line either parser sees the first 1023 bytes.

* **`parseHostport_eq_some_iff`** — the values `parse_hostport` accepts, and what it makes of them.
* **`endpointPorts_iff`** — WireGuard endpoints have the ports written exactly when their lines are not cut
  inside the number; OpenVPN endpoints do exactly when the numbers that the config gives for them are ports
  and are left to the parser.
-/

namespace ProxiMight

open CString Words

/-! ### Numbers and ports -/

theorem portOfLong_toNat {n : ℤ} (hlow : 0 ≤ n) (hhigh : n ≤ 65535) : ((portOfLong n).toNat : ℤ) = n := by
  have hnat : (n % 65536).toNat < UInt16.size := by
    have : UInt16.size = 65536 := rfl
    omega
  rw [portOfLong, UInt16.toNat_ofNat_of_lt' hnat]
  omega

/-- A text that begins with the number of a port. -/
theorem portOfLong_strtol {t : List UInt8} {n : ℤ} (h : writtenNumber t = some n) (hlow : 1 ≤ n)
    (hhigh : n ≤ 65535) : ((portOfLong (strtol t).1).toNat : ℤ) = n := by
  have hclamp : clampLong n = n := clampLong_of_le (by rw [longMax]; omega) (by rw [longMax]; omega)
  rw [strtol_fst_eq, h]
  dsimp only
  rw [hclamp, portOfLong_toNat (by omega) hhigh]

/-- A text that begins with no number. -/
theorem portOfLong_strtol_none {t : List UInt8} (h : writtenNumber t = none) :
    portOfLong (strtol t).1 = 0 := by
  rw [strtol_fst_eq, h]
  rfl

theorem portInRange_strtol_iff (t : List UInt8) (port : PmxPort) :
    portInRange (strtol t).1 = some port ↔
      ∃ n, writtenNumber t = some n ∧ 1 ≤ n ∧ n ≤ 65535 ∧ (port.toNat : ℤ) = n := by
  rw [portInRange]
  constructor
  · intro h
    split_ifs at h with hrange
    obtain rfl := Option.some.inj h
    cases hn : writtenNumber t with
    | none =>
      rw [strtol_fst_eq, hn] at hrange
      exact absurd hrange.1 (Int.lt_irrefl 0)
    | some n =>
      have hclamp : (strtol t).1 = clampLong n := by rw [strtol_fst_eq, hn]
      have hin : 1 ≤ n ∧ n ≤ 65535 := by
        rw [hclamp, clampLong, longMax] at hrange
        split_ifs at hrange
        · omega
        · omega
        · omega
      exact ⟨n, rfl, hin.1, hin.2, portOfLong_strtol hn hin.1 hin.2⟩
  · rintro ⟨n, hn, hlow, hhigh, hport⟩
    have hclamp : (strtol t).1 = n := by
      rw [strtol_fst_eq, hn]
      exact clampLong_of_le (by rw [longMax]; omega) (by rw [longMax]; omega)
    rw [hclamp, if_pos ⟨by omega, hhigh⟩]
    refine congrArg some (UInt16.toNat_inj.1 ?_)
    have hread := portOfLong_toNat (n := n) (by omega) hhigh
    omega

/-! ### WireGuard -/

/-- The value is `host:port`, or `[host]:port`. -/
def EndpointForm (val host port : List UInt8) : Prop :=
  (val = host ++ 58 :: port ∧ (58 : UInt8) ∉ port ∧ host ≠ [] ∧ host.head? ≠ some 91) ∨
    (val = 91 :: (host ++ 93 :: 58 :: port) ∧ (93 : UInt8) ∉ host)

/-- What stands before and after the last colon. -/
theorem last_colon_iff (s host port : List UInt8) :
    (s.rdropWhile (· != 58)).dropLast = host ∧ host ≠ [] ∧ s.rtakeWhile (· != 58) = port ↔
      s = host ++ 58 :: port ∧ (58 : UInt8) ∉ port ∧ host ≠ [] := by
  constructor
  · rintro ⟨rfl, hne, rfl⟩
    have hfront : s.rdropWhile (· != 58) ≠ [] := by
      intro hnil
      rw [hnil] at hne
      exact hne rfl
    have hlast : (s.rdropWhile (· != 58)).getLast hfront = 58 := by
      simpa using List.rdropWhile_last_not (· != 58) s hfront
    refine ⟨?_, fun hmem => ?_, hne⟩
    · have hsplit := List.dropLast_append_getLast hfront
      rw [hlast] at hsplit
      rw [← List.singleton_append, ← List.append_assoc, hsplit]
      exact List.rdropWhile_append_rtakeWhile.symm
    · have hkept := List.mem_rtakeWhile_imp hmem
      simp at hkept
  · rintro ⟨rfl, hport, hne⟩
    have hkeep : ∀ c ∈ port.reverse, (c != 58) = true := by
      intro c hc
      rw [bne_iff_ne]
      rintro rfl
      exact hport (List.mem_reverse.1 hc)
    have hrev : (host ++ 58 :: port).reverse = port.reverse ++ 58 :: host.reverse := by simp
    refine ⟨?_, hne, ?_⟩
    · rw [List.rdropWhile, hrev, dropWhile_append_of_stop hkeep fun c hc => by
        rw [← Option.some.inj hc]; rfl]
      rw [List.reverse_cons, List.reverse_reverse, List.dropLast_concat]
    · rw [List.rtakeWhile, hrev, takeWhile_append_of_stop hkeep fun c hc => by
        rw [← Option.some.inj hc]; rfl]
      exact List.reverse_reverse port

/-- What stands in the brackets, and after the colon behind them. -/
theorem bracket_iff (s host port : List UInt8) :
    s.takeWhile (· != 93) = host ∧ (∃ c, s.dropWhile (· != 93) = c :: 58 :: port) ↔
      s = host ++ 93 :: 58 :: port ∧ (93 : UInt8) ∉ host := by
  constructor
  · rintro ⟨rfl, c, hrest⟩
    have hc := List.head?_dropWhile_not (· != 93) s
    rw [hrest] at hc
    have h93 : c = 93 := by simpa using hc
    refine ⟨?_, fun hmem => ?_⟩
    · rw [h93] at hrest
      rw [← hrest, List.takeWhile_append_dropWhile]
    · have hkept := List.mem_takeWhile_imp hmem
      simp at hkept
  · rintro ⟨rfl, hhost⟩
    have hkeep : ∀ c ∈ host, (c != 93) = true := by
      intro c hc
      rw [bne_iff_ne]
      rintro rfl
      exact hhost hc
    have hstop : ∀ c, (93 :: 58 :: port).head? = some c → (c != 93) = false := by
      intro c hc
      rw [← Option.some.inj hc]
      rfl
    exact ⟨takeWhile_append_of_stop hkeep hstop, 93, dropWhile_append_of_stop hkeep hstop⟩

/-- The two forms, told apart by the first character. -/
theorem endpointForm_bracket_iff (s host port : List UInt8) :
    EndpointForm (91 :: s) host port ↔
      s.takeWhile (· != 93) = host ∧ ∃ c, s.dropWhile (· != 93) = c :: 58 :: port := by
  rw [bracket_iff]
  constructor
  · rintro (⟨heq, -, hne, hhead⟩ | ⟨heq, hhost⟩)
    · refine absurd ?_ hhead
      rw [← List.head?_append_of_ne_nil host hne, ← heq]
      rfl
    · exact ⟨(List.cons.inj heq).2, hhost⟩
  · rintro ⟨rfl, hhost⟩
    exact Or.inr ⟨rfl, hhost⟩

theorem endpointForm_plain_iff {val : List UInt8} (hplain : val.head? ≠ some 91) (host port : List UInt8) :
    EndpointForm val host port ↔
      (val.rdropWhile (· != 58)).dropLast = host ∧ host ≠ [] ∧ val.rtakeWhile (· != 58) = port := by
  rw [last_colon_iff]
  constructor
  · rintro (⟨heq, hport, hne, -⟩ | ⟨rfl, -⟩)
    · exact ⟨heq, hport, hne⟩
    · exact absurd rfl hplain
  · rintro ⟨rfl, hport, hne⟩
    refine Or.inl ⟨rfl, hport, hne, fun hhead => hplain ?_⟩
    rw [List.head?_append_of_ne_nil _ hne, hhead]

/-- A host with what is read as its port. -/
theorem portInRange_map_iff (host port : List UInt8) (r : List UInt8 × PmxPort) :
    ((portInRange (strtol port).1).map fun p => (host, p)) = some r ↔
      ∃ n, r.1 = host ∧ writtenNumber port = some n ∧ 1 ≤ n ∧ n ≤ 65535 ∧ (r.2.toNat : ℤ) = n := by
  rw [Option.map_eq_some_iff]
  constructor
  · rintro ⟨p, hp, rfl⟩
    obtain ⟨n, hn⟩ := (portInRange_strtol_iff port p).1 hp
    exact ⟨n, rfl, hn⟩
  · rintro ⟨n, hhost, hn⟩
    exact ⟨r.2, (portInRange_strtol_iff port r.2).2 ⟨n, hn⟩, Prod.ext hhost.symm rfl⟩

/-- **What `parse_hostport` accepts**: a host and a text that begins with the number of a port. -/
theorem parseHostport_eq_some_iff (val : List UInt8) (hcap : ℕ) (r : List UInt8 × PmxPort) :
    parseHostport val hcap = some r ↔
      ∃ host port n, EndpointForm val host port ∧ r.1 = host.take (hcap - 1) ∧
        writtenNumber port = some n ∧ 1 ≤ n ∧ n ≤ 65535 ∧ (r.2.toNat : ℤ) = n := by
  rw [parseHostport]
  dsimp only
  by_cases hbracket : val.head? = some 91
  · obtain ⟨s, rfl⟩ : ∃ s, val = 91 :: s := by
      cases val with
      | nil => cases hbracket
      | cons c s => exact ⟨s, by rw [Option.some.inj hbracket]⟩
    rw [if_pos hbracket, List.drop_one, List.tail_cons]
    constructor
    · intro h
      split at h
      · next c rest hrest =>
        obtain ⟨n, hn⟩ := (portInRange_map_iff _ _ _).1 h
        exact ⟨_, _, n, (endpointForm_bracket_iff _ _ _).2 ⟨rfl, c, hrest⟩, hn⟩
      · cases h
    · rintro ⟨host, port, n, hval, hn⟩
      obtain ⟨hhost, c, hrest⟩ := (endpointForm_bracket_iff s host port).1 hval
      rw [hrest, hhost]
      exact (portInRange_map_iff _ _ _).2 ⟨n, hn⟩
  · rw [if_neg hbracket]
    constructor
    · intro h
      split_ifs at h with hnil
      obtain ⟨n, hn⟩ := (portInRange_map_iff _ _ _).1 h
      exact ⟨_, _, n, (endpointForm_plain_iff hbracket _ _).2 ⟨rfl, hnil, rfl⟩, hn⟩
    · rintro ⟨host, port, n, hval, hn⟩
      obtain ⟨rfl, hne, rfl⟩ := (endpointForm_plain_iff hbracket host port).1 hval
      rw [if_neg hne]
      exact (portInRange_map_iff _ _ _).2 ⟨n, hn⟩

/-- Where one relation tells what the other asks of the elements of the first list. -/
theorem forall₂_iff_forall {α β : Type} {R S : α → β → Prop} {C : α → Prop} {l : List α} {l' : List β}
    (h : List.Forall₂ R l l') (hiff : ∀ a b, R a b → (S a b ↔ C a)) :
    List.Forall₂ S l l' ↔ ∀ a ∈ l, C a := by
  induction h with
  | nil => exact iff_of_true .nil fun _ ha => absurd ha List.not_mem_nil
  | cons hab _ ih => rw [List.forall₂_cons, List.forall_mem_cons, hiff _ _ hab, ih]

theorem EndpointForm.unique {val host port host' port' : List UInt8} (h : EndpointForm val host port)
    (h' : EndpointForm val host' port') : port = port' := by
  by_cases hbracket : val.head? = some 91
  · obtain ⟨s, rfl⟩ : ∃ s, val = 91 :: s := by
      cases val with
      | nil => cases hbracket
      | cons c s => exact ⟨s, by rw [Option.some.inj hbracket]⟩
    obtain ⟨-, c, hrest⟩ := (endpointForm_bracket_iff _ _ _).1 h
    obtain ⟨-, c', hrest'⟩ := (endpointForm_bracket_iff _ _ _).1 h'
    rw [hrest] at hrest'
    exact (List.cons.inj (List.cons.inj hrest').2).2
  · obtain ⟨-, -, rfl⟩ := (endpointForm_plain_iff hbracket _ _).1 h
    exact ((endpointForm_plain_iff hbracket _ _).1 h').2.2

/-- The number of the port that a value of `Endpoint` names. -/
def EndpointNumber (val : List UInt8) (n : ℤ) : Prop :=
  ∃ host port, EndpointForm val host port ∧ writtenNumber port = some n

theorem EndpointNumber.unique {val : List UInt8} {n m : ℤ} (hn : EndpointNumber val n)
    (hm : EndpointNumber val m) : n = m := by
  obtain ⟨host, port, hform, hport⟩ := hn
  obtain ⟨host', port', hform', hport'⟩ := hm
  obtain rfl := hform.unique hform'
  exact Option.some.inj (hport.symm.trans hport')

/-- What stands behind the first `=` of a line. -/
def assigned (line : List UInt8) : List UInt8 := trim ((line.dropWhile (· != equals)).drop 1)

/-- The lines of a peer that assign a remote to `Endpoint`, as the parser sees them. -/
def remoteAssignments : WgSection → List (List UInt8) → List (List UInt8)
  | _, [] => []
  | sec, raw :: rest =>
    if ((peerValue (bytes "Endpoint") sec (wgBuf raw)).bind wgRemote).isSome then
      raw :: remoteAssignments (sectionAfter sec raw) rest
    else remoteAssignments (sectionAfter sec raw) rest

/-- The lines whose remotes are recorded. -/
def recordedEndpoints (text : CStr) : List (List UInt8) :=
  (remoteAssignments .none (configLines text)).take pmxMaxVpnEndpoints

/-- Every endpoint of a WireGuard config that is accepted has the port that is written on its line. -/
def WgPortsSaid (text : CStr) : Prop :=
  (pmxVpnParseWireguard text).2 = .ok →
    List.Forall₂ (fun raw (e : PmxVpnEndpoint) => 1 ≤ e.port.toNat ∧ e.port.toNat ≤ 65535 ∧
      EndpointNumber (assigned (wholeLine raw)) e.port.toNat) (recordedEndpoints text)
        (pmxVpnParseWireguard text).1.endpoints

/-- The first 1023 bytes of these lines give the numbers of the whole lines. -/
def WgNumbersLeft (text : CStr) : Prop :=
  ∀ raw ∈ recordedEndpoints text, ∀ n,
    EndpointNumber (assigned (wgBuf raw)) n → EndpointNumber (assigned (wholeLine raw)) n

theorem peerValue_eq_some {name line val : List UInt8} {sec : WgSection}
    (h : peerValue name sec line = some val) : val = assigned line := by
  rw [peerValue] at h
  split_ifs at h
  exact (Option.some.inj h).symm

/-- A remote that is accepted has the port it names. -/
theorem wgRemote_number {val : List UInt8} {e : PmxVpnEndpoint} (h : wgRemote val = some e) :
    1 ≤ e.port.toNat ∧ e.port.toNat ≤ 65535 ∧ EndpointNumber val e.port.toNat := by
  obtain ⟨r, hparse, hr⟩ := Option.bind_eq_some_iff.1 h
  split_ifs at hr
  obtain rfl := Option.some.inj hr
  obtain ⟨host, port, n, hform, -, hn, hlow, hhigh, hread⟩ :=
    (parseHostport_eq_some_iff val pmxMaxHost r).1 hparse
  show 1 ≤ r.2.toNat ∧ r.2.toNat ≤ 65535 ∧ EndpointNumber val r.2.toNat
  rw [← hread] at hn
  exact ⟨by omega, by omega, host, port, hform, hn⟩

/-- The remotes are those of these lines. -/
theorem remoteAssignments_remotes (ls : List (List UInt8)) :
    ∀ sec, List.Forall₂ (fun raw e => wgRemote (assigned (wgBuf raw)) = some e) (remoteAssignments sec ls)
      ((peerValues wgBuf (bytes "Endpoint") sec ls).filterMap wgRemote) := by
  induction ls with
  | nil => exact fun _ => .nil
  | cons raw ls ih =>
    intro sec
    rw [remoteAssignments, peerValues, List.filterMap_append]
    cases hval : peerValue (bytes "Endpoint") sec (wgBuf raw) with
    | none => exact ih _
    | some val =>
      obtain rfl := peerValue_eq_some hval
      rw [Option.bind_some, Option.toList_some]
      rcases Option.eq_none_or_eq_some (wgRemote (assigned (wgBuf raw))) with hremote | ⟨e, hremote⟩
      · rw [hremote, List.filterMap_cons_none hremote]
        exact ih _
      · rw [hremote, List.filterMap_cons_some hremote]
        exact .cons hremote (ih _)

theorem recordedEndpoints_remotes (text : CStr) :
    List.Forall₂ (fun raw e => wgRemote (assigned (wgBuf raw)) = some e) (recordedEndpoints text)
      (pmxVpnParseWireguard text).1.endpoints := by
  rw [(parseWireguard_remotes text).1]
  exact List.forall₂_take pmxMaxVpnEndpoints (remoteAssignments_remotes (configLines text) .none)

theorem wgPortsSaid_iff (text : CStr) : WgPortsSaid text ↔ WgNumbersLeft text := by
  have hremotes := recordedEndpoints_remotes text
  have hline : ∀ (raw : List UInt8) (e : PmxVpnEndpoint), wgRemote (assigned (wgBuf raw)) = some e →
      ((1 ≤ e.port.toNat ∧ e.port.toNat ≤ 65535 ∧ EndpointNumber (assigned (wholeLine raw)) e.port.toNat) ↔
        ∀ n, EndpointNumber (assigned (wgBuf raw)) n → EndpointNumber (assigned (wholeLine raw)) n) := by
    intro raw e hread
    obtain ⟨hlow, hhigh, hnumber⟩ := wgRemote_number hread
    rw [and_iff_right hlow, and_iff_right hhigh]
    constructor
    · intro hwhole n hn
      rw [hn.unique hnumber]
      exact hwhole
    · exact fun hleft => hleft _ hnumber
  rw [WgPortsSaid, forall₂_iff_forall hremotes hline]
  constructor
  · intro h raw hraw
    refine h ?_ raw hraw
    rw [(parseWireguard_remotes text).2.2]
    intro hnil
    rw [(parseWireguard_remotes text).1, hnil, List.take_nil] at hremotes
    rw [List.forall₂_nil_right_iff.1 hremotes] at hraw
    cases hraw
  · exact fun h _ => h

/-! ### OpenVPN -/

/-- The port that the config gives for a remote: the number of its own, or of the last `port`, or 1194. -/
def saidPort (global own : Option (List UInt8)) : ℤ :=
  (own.bind writtenNumber).getD ((global.bind writtenNumber).getD 1194)

/-- What the whole line says. -/
def wholeItem (raw : List UInt8) : OvpnItem := ovpnItem (words isSpace (stripComment raw))

/-- The word of a remote's port, if the item is a remote and has one. -/
def OvpnItem.ownPort (item : OvpnItem) : Option (List UInt8) := item.remoteOf.bind OvpnRemote.port

/-- The first eight lines that are read as remotes while no tag is being skipped. -/
def recordedLines (text : CStr) : List (List UInt8) :=
  ((unskipped .empty (configLines text)).filter fun raw => (lineItem raw).remoteOf.isSome).take
    pmxMaxVpnEndpoints

/-- The word of the last `port` directive that is read, on its whole line. -/
def writtenGlobal (text : CStr) : Option (List UInt8) :=
  globalPort ((unskipped .empty (configLines text)).map wholeItem)

/-- The port that the config gives for the remote on a line. -/
def saidFor (text : CStr) (raw : List UInt8) : ℤ := saidPort (writtenGlobal text) (wholeItem raw).ownPort

/-- Every endpoint of an OpenVPN config that is accepted has the port that the config gives for its
`remote` line. -/
def OvpnPortsSaid (text : CStr) : Prop :=
  (pmxVpnParseOpenvpn text).2 = .ok →
    List.Forall₂ (fun raw (e : PmxVpnEndpoint) => 1 ≤ e.port.toNat ∧ e.port.toNat ≤ 65535 ∧
      (e.port.toNat : ℤ) = saidFor text raw) (recordedLines text) (pmxVpnParseOpenvpn text).1.endpoints

/-- The number of the remote's own port, as far as the first 1023 bytes of the line hold it. -/
def numberLeft (raw : List UInt8) : Option ℤ := (lineItem raw).ownPort.bind writtenNumber

/-- The port that the last pass puts where it finds none: the low 16 bits of what the last `port` directive
leaves in the buffer, or 1194 where these are 0 or there is none. -/
def defaultLeft (text : CStr) : PmxPort :=
  let default := readPort 1194 (globalPort (ovpnItems text))
  if default ≠ 0 then default else 1194

/-- The number given for the remote on a line is a port and is left to the parser: the number of its own that
stands in the first 1023 bytes of the line is the one given for it; or none or 0 stands there, and the default
is the one given for it. -/
def PortLeft (text : CStr) (raw : List UInt8) : Prop :=
  1 ≤ saidFor text raw ∧ saidFor text raw ≤ 65535 ∧
    (numberLeft raw = some (saidFor text raw) ∨
      (numberLeft raw = none ∨ numberLeft raw = some 0) ∧
        ((defaultLeft text).toNat : ℤ) = saidFor text raw)

/-- The port of the last pass over the endpoints. -/
def recordedPort (default own : PmxPort) : PmxPort :=
  if own = 0 then if default ≠ 0 then default else 1194 else own

theorem applyDefaultPort_eq (default : PmxPort) (e : PmxVpnEndpoint) :
    applyDefaultPort default e = { e with port := recordedPort default e.port } := by
  rw [applyDefaultPort, recordedPort]
  split_ifs <;> rfl

theorem recordedPort_pos (default own : PmxPort) :
    1 ≤ (recordedPort default own).toNat ∧ (recordedPort default own).toNat ≤ 65535 := by
  have hne : recordedPort default own ≠ 0 := by
    rw [recordedPort]
    split_ifs with hown hdefault
    · exact hdefault
    · decide
    · exact hown
  have hpos : (recordedPort default own).toNat ≠ 0 := fun h => hne (UInt16.toNat_inj.1 h)
  have hlt := (recordedPort default own).toNat_lt
  omega

/-- The number of a port is read as it is written. -/
theorem readPort_of_number (otherwise : PmxPort) {word : List UInt8} {n : ℤ}
    (h : writtenNumber word = some n) (hlow : 1 ≤ n) (hhigh : n ≤ 65535) :
    readPort otherwise (some word) ≠ 0 ∧ ((readPort otherwise (some word)).toNat : ℤ) = n := by
  have hread : ((readPort otherwise (some word)).toNat : ℤ) = n := portOfLong_strtol h hlow hhigh
  refine ⟨fun hzero => ?_, hread⟩
  rw [hzero] at hread
  exact absurd hread (by simp; omega)

theorem readPort_of_noNumber {own : Option (List UInt8)} (h : own.bind writtenNumber = none) :
    readPort 0 own = 0 := by
  cases own with
  | none => rfl
  | some word => exact portOfLong_strtol_none h

/-- An item with a port of its own is made of three words or more. -/
theorem ovpnItem_ownPort {ws : List (List UInt8)} {word : List UInt8} :
    (ovpnItem ws).ownPort = some word ↔
      ∃ name host more, ws = name :: host :: word :: more ∧ ciEq name (bytes "remote") = true := by
  rcases ws with - | ⟨name, - | ⟨host, more⟩⟩
  · refine iff_of_false (fun h => by cases h) ?_
    rintro ⟨_, _, _, h, -⟩
    cases h
  · refine iff_of_false (fun h => by cases h) ?_
    rintro ⟨_, _, _, h, -⟩
    cases h
  · rw [ovpnItem]
    by_cases hname : ciEq name (bytes "remote") = true
    · rw [if_pos hname]
      show more[0]? = some word ↔ _
      cases more with
      | nil =>
        refine iff_of_false (fun h => by cases h) ?_
        rintro ⟨_, _, _, h, -⟩
        cases h
      | cons port more =>
        constructor
        · intro h
          obtain rfl := Option.some.inj h
          exact ⟨name, host, more, rfl, hname⟩
        · rintro ⟨_, _, _, h, -⟩
          cases h
          rfl
    · rw [if_neg hname]
      refine iff_of_false ?_ ?_
      · intro h
        split_ifs at h <;> cases h
      · rintro ⟨_, _, _, h, hremote⟩
        cases h
        exact hname hremote

/-- A text that goes on gives the remote the same word for its port, or a longer one. -/
theorem ownPort_of_append {s word : List UInt8} (h : (ovpnItem (words isSpace s)).ownPort = some word)
    (t : List UInt8) :
    ∃ more, (ovpnItem (words isSpace (s ++ t))).ownPort = some (word ++ more) := by
  obtain ⟨name, host, ws, hws, hname⟩ := ovpnItem_ownPort.1 h
  rcases @words_append_cases _ isSpace s t with
    ⟨more, hmore⟩ | ⟨front, w, w', more, hcut, hmore, hw⟩
  · refine ⟨[], ovpnItem_ownPort.2 ⟨name, host, ws ++ more, ?_, hname⟩⟩
    rw [hmore, hws, List.append_nil]
    rfl
  · -- the cut goes through a word behind the host
    rw [hws] at hcut
    rcases front with - | ⟨a, - | ⟨b, - | ⟨c, front⟩⟩⟩
    · cases hcut
    · cases hcut
    · cases hcut
      obtain ⟨x, rfl⟩ := hw
      exact ⟨x, ovpnItem_ownPort.2 ⟨name, host, more, hmore, hname⟩⟩
    · obtain ⟨rfl, rfl, rfl, -⟩ : name = a ∧ host = b ∧ word = c ∧ ws = front ++ [w] := by
        simpa using hcut
      refine ⟨[], ovpnItem_ownPort.2 ⟨name, host, front ++ w' :: more, ?_, hname⟩⟩
      rw [hmore, List.append_nil]
      rfl

/-- What the cut line says of a remote's own port is the beginning of what the whole line says. -/
theorem ownPort_prefix {raw word : List UInt8} (h : (lineItem raw).ownPort = some word) :
    ∃ more, (wholeItem raw).ownPort = some (word ++ more) := by
  have hcut : ∃ t, stripComment raw = stripComment (raw.take (ovpnLineSize - 1)) ++ t := by
    obtain ⟨t, ht⟩ := List.take_prefix (ovpnLineSize - 1) (stripComment raw)
    refine ⟨t, ?_⟩
    rw [stripComment, stripComment, ← List.take_takeWhile]
    exact ht.symm
  obtain ⟨t, ht⟩ := hcut
  rw [wholeItem, ht]
  exact ownPort_of_append h t

/-- A number that is left of another has its sign, and is no further from zero. -/
theorem numberLeft_of_some {raw : List UInt8} {n : ℤ} (h : numberLeft raw = some n) :
    ∃ m, (wholeItem raw).ownPort.bind writtenNumber = some m ∧ (0 ≤ n ∧ n ≤ m ∨ n ≤ 0 ∧ m ≤ n) := by
  obtain ⟨word, hword, hn⟩ := Option.bind_eq_some_iff.1 h
  obtain ⟨more, hwhole⟩ := ownPort_prefix hword
  rw [hwhole]
  exact writtenNumber_append hn more

theorem readPort_of_zero {own : Option (List UInt8)} (h : own.bind writtenNumber = some 0) :
    readPort 0 own = 0 := by
  obtain ⟨word, rfl, hn⟩ := Option.bind_eq_some_iff.1 h
  refine UInt16.toNat_inj.1 ?_
  show (portOfLong (strtol word).1).toNat = 0
  rw [strtol_fst_eq, hn]
  rfl

/-- **One remote**: it is recorded with the port given for it exactly when that is a port, and is left. -/
theorem recordedPort_eq_said_iff (text : CStr) (raw : List UInt8) :
    ((recordedPort (readPort 1194 (globalPort (ovpnItems text))) (readPort 0 (lineItem raw).ownPort)).toNat :
        ℤ) = saidFor text raw ↔ PortLeft text raw := by
  have hport := recordedPort_pos (readPort 1194 (globalPort (ovpnItems text)))
    (readPort 0 (lineItem raw).ownPort)
  have hdefault : readPort 0 (lineItem raw).ownPort = 0 →
      recordedPort (readPort 1194 (globalPort (ovpnItems text))) (readPort 0 (lineItem raw).ownPort)
        = defaultLeft text := fun h => by rw [recordedPort, if_pos h, defaultLeft]
  constructor
  · intro heq
    refine ⟨by omega, by omega, ?_⟩
    cases hleft : numberLeft raw with
    | none =>
      rw [hdefault (readPort_of_noNumber hleft)] at heq
      exact Or.inr ⟨Or.inl rfl, heq⟩
    | some n =>
      -- the number given is the one of which n is left
      obtain ⟨m, hm, hsign⟩ := numberLeft_of_some hleft
      have hsaid : saidFor text raw = m := by rw [saidFor, saidPort, hm, Option.getD_some]
      obtain ⟨word, hword, hn⟩ := Option.bind_eq_some_iff.1 hleft
      by_cases hzero : n = 0
      · subst hzero
        rw [hdefault (readPort_of_zero hleft)] at heq
        exact Or.inr ⟨Or.inr rfl, heq⟩
      · have hown : readPort 0 (lineItem raw).ownPort ≠ 0 ∧
            ((readPort 0 (lineItem raw).ownPort).toNat : ℤ) = n := by
          rw [hword]
          exact readPort_of_number 0 hn (by omega) (by omega)
        rw [recordedPort, if_neg hown.1, hown.2] at heq
        exact Or.inl (congrArg some heq)
  · rintro ⟨hlow, hhigh, hleft | ⟨hnone, hleft⟩⟩
    · obtain ⟨word, hword, hn⟩ := Option.bind_eq_some_iff.1 hleft
      obtain ⟨hne, hread⟩ := readPort_of_number 0 hn hlow hhigh
      rw [hword, recordedPort, if_neg hne, hread]
    · have hzero : readPort 0 (lineItem raw).ownPort = 0 := by
        rcases hnone with hnone | hnone
        · exact readPort_of_noNumber hnone
        · exact readPort_of_zero hnone
      rw [hdefault hzero, hleft]

/-- A line that fits the buffer is read as it is written. -/
theorem lineItem_of_short {raw : List UInt8} (h : raw.length < ovpnLineSize) :
    lineItem raw = wholeItem raw := by
  rw [lineItem, lineWords, List.take_of_length_le (Nat.le_sub_one_of_lt h), wholeItem]

/-- The default that is left of a number is that number. -/
theorem defaultLeft_of_short {text : CStr} (hlines : ∀ raw ∈ configLines text, raw.length < ovpnLineSize)
    (hlow : 1 ≤ ((writtenGlobal text).bind writtenNumber).getD 1194)
    (hhigh : ((writtenGlobal text).bind writtenNumber).getD 1194 ≤ 65535) :
    ((defaultLeft text).toNat : ℤ) = ((writtenGlobal text).bind writtenNumber).getD 1194 := by
  have hglobal : globalPort (ovpnItems text) = writtenGlobal text := by
    rw [ovpnItems, writtenGlobal, List.map_congr_left fun raw hraw =>
      lineItem_of_short (hlines raw ((unskipped_sublist _ _).subset hraw))]
  rw [defaultLeft, hglobal]
  cases hword : writtenGlobal text with
  | none => rfl
  | some word =>
    rw [hword, Option.bind_some] at hlow hhigh
    rw [Option.bind_some]
    cases hn : writtenNumber word with
    | none =>
      have hread : readPort 1194 (some word) = 0 := portOfLong_strtol_none hn
      rw [hread]
      rfl
    | some n =>
      rw [hn, Option.getD_some] at hlow hhigh
      obtain ⟨hne, hread⟩ := readPort_of_number 1194 hn hlow hhigh
      rw [if_pos hne]
      exact hread

/-- **Where no line is cut**, the numbers given have to be ports and no more. -/
theorem portLeft_of_short {text : CStr} (hlines : ∀ raw ∈ configLines text, raw.length < ovpnLineSize)
    {raw : List UInt8} (hraw : raw ∈ recordedLines text) :
    PortLeft text raw ↔ 1 ≤ saidFor text raw ∧ saidFor text raw ≤ 65535 := by
  have hread : raw ∈ unskipped .empty (configLines text) :=
    List.mem_of_mem_filter (List.mem_of_mem_take hraw)
  have hitem := lineItem_of_short (hlines raw ((unskipped_sublist _ _).subset hread))
  rw [PortLeft, ← and_assoc]
  refine and_iff_left_of_imp ?_
  rintro ⟨hlow, hhigh⟩
  rw [numberLeft, hitem]
  rw [saidFor, saidPort] at hlow hhigh ⊢
  cases hown : (wholeItem raw).ownPort.bind writtenNumber with
  | some n => exact Or.inl rfl
  | none =>
    rw [hown, Option.getD_none] at hlow hhigh
    exact Or.inr ⟨Or.inl rfl, defaultLeft_of_short hlines hlow hhigh⟩

/-- The hosts and ports of the endpoints, line by line. -/
theorem parseOpenvpn_hostPorts (text : CStr) :
    (pmxVpnParseOpenvpn text).1.endpoints.map (fun e => (e.host, e.port)) =
      ((remoteLines (ovpnItems text)).take pmxMaxVpnEndpoints).map fun r =>
        (strlcpy pmxMaxHost r.host,
          recordedPort (readPort 1194 (globalPort (ovpnItems text))) (readPort 0 r.port)) := by
  have hread := congrArg (List.map fun x : CBuf pmxMaxHost × PmxPort =>
    (x.1, recordedPort (lastPort 1194 (ovpnItems text)) x.2))
    (congrArg (List.take pmxMaxVpnEndpoints) (remotesFrom_map (ovpnItems text) true))
  rw [← List.map_take, ← List.map_take, List.map_map, List.map_map, lastPort_eq] at hread
  rw [(parseOpenvpn_remotes text).1, List.map_map, lastPort_eq]
  refine Eq.trans (List.map_congr_left fun e _ => ?_) hread
  rw [Function.comp_apply, applyDefaultPort_eq]
  rfl

/-- The remotes of the lines, and the lines that are remotes. -/
theorem remoteLines_ports {γ : Type} (f : Option (List UInt8) → γ) (ls : List (List UInt8)) :
    (remoteLines (ls.map lineItem)).map (fun r => f r.port) =
      (ls.filter fun raw => (lineItem raw).remoteOf.isSome).map fun raw => f (lineItem raw).ownPort := by
  induction ls with
  | nil => rfl
  | cons raw ls ih =>
    rw [remoteLines, List.map_cons]
    cases hremote : (lineItem raw).remoteOf with
    | none =>
      rw [List.filterMap_cons_none hremote,
        List.filter_cons_of_neg (by rw [hremote]; exact Bool.false_ne_true)]
      exact ih
    | some r =>
      rw [List.filterMap_cons_some hremote, List.filter_cons_of_pos (by rw [hremote]; rfl), List.map_cons,
        List.map_cons, OvpnItem.ownPort, hremote]
      exact congrArg (List.cons _) ih

/-- The ports of the endpoints, line by line. -/
theorem recordedLines_ports (text : CStr) :
    List.Forall₂ (fun raw (e : PmxVpnEndpoint) => e.port =
      recordedPort (readPort 1194 (globalPort (ovpnItems text))) (readPort 0 (lineItem raw).ownPort))
      (recordedLines text) (pmxVpnParseOpenvpn text).1.endpoints := by
  have hports := congrArg (List.map Prod.snd) (parseOpenvpn_hostPorts text)
  have hlines := congrArg (List.take pmxMaxVpnEndpoints) (remoteLines_ports
    (fun own => recordedPort (readPort 1194 (globalPort (ovpnItems text))) (readPort 0 own))
    (unskipped .empty (configLines text)))
  rw [← List.map_take, ← List.map_take] at hlines
  rw [List.map_map, List.map_map] at hports
  have hsame := hports.trans hlines
  have heq : List.Forall₂ (fun port port' => port' = port) ((recordedLines text).map fun raw =>
      recordedPort (readPort 1194 (globalPort (ovpnItems text))) (readPort 0 (lineItem raw).ownPort))
        ((pmxVpnParseOpenvpn text).1.endpoints.map PmxVpnEndpoint.port) := by
    rw [show (pmxVpnParseOpenvpn text).1.endpoints.map PmxVpnEndpoint.port = _ from hsame]
    exact List.forall₂_same.2 fun _ _ => rfl
  rw [List.forall₂_map_left_iff, List.forall₂_map_right_iff] at heq
  exact heq

theorem ovpnPortsSaid_iff (text : CStr) :
    OvpnPortsSaid text ↔ ∀ raw ∈ recordedLines text, PortLeft text raw := by
  have hports := recordedLines_ports text
  have hline : ∀ (raw : List UInt8) (e : PmxVpnEndpoint), e.port =
      recordedPort (readPort 1194 (globalPort (ovpnItems text))) (readPort 0 (lineItem raw).ownPort) →
      (1 ≤ e.port.toNat ∧ e.port.toNat ≤ 65535 ∧ (e.port.toNat : ℤ) = saidFor text raw ↔
        PortLeft text raw) := by
    intro raw e hport
    have hpos := recordedPort_pos (readPort 1194 (globalPort (ovpnItems text)))
      (readPort 0 (lineItem raw).ownPort)
    rw [hport, and_iff_right hpos.1, and_iff_right hpos.2]
    exact recordedPort_eq_said_iff text raw
  rw [OvpnPortsSaid, forall₂_iff_forall hports hline]
  constructor
  · intro h raw hraw
    refine h ?_ raw hraw
    rw [parseOpenvpn_ok_iff]
    intro hnil
    have hempty := parseOpenvpn_hostPorts text
    rw [hnil, List.take_nil, List.map_nil, List.map_eq_nil_iff] at hempty
    rw [hempty] at hports
    rw [List.forall₂_nil_right_iff.1 hports] at hraw
    cases hraw
  · exact fun h _ => h

/-- **Endpoint ports are what the config says.**  For every text: the endpoints of a WireGuard config have
the ports that are written on their lines exactly when the numbers of these lines are left whole by the cut
to 1023 bytes.  Those of an OpenVPN config have the ports that are given for them exactly when the number
given for each of the first eight remotes, its own or that of the last `port`, is a port and what is left of
these lines gives it. -/
theorem endpointPorts_iff (text : CStr) :
    (WgPortsSaid text ↔ WgNumbersLeft text) ∧
      (OvpnPortsSaid text ↔ ∀ raw ∈ recordedLines text, PortLeft text raw) :=
  ⟨wgPortsSaid_iff text, ovpnPortsSaid_iff text⟩

/-- A remote on port 70000, and one without a port behind the port 65537. -/
def wrappedPortsText : CStr := ⟨bytes "remote a 70000\nremote b\nport 65537\n", by decide⟩

/-- They are recorded on ports 4464 and 1. -/
theorem not_ovpnPortsSaid_wrapped :
    (pmxVpnParseOpenvpn wrappedPortsText).2 = .ok ∧
      (pmxVpnParseOpenvpn wrappedPortsText).1.endpoints.map (·.port) = [4464, 1] ∧
      ¬OvpnPortsSaid wrappedPortsText := by
  have hrun : (pmxVpnParseOpenvpn wrappedPortsText).2 = .ok ∧
      (pmxVpnParseOpenvpn wrappedPortsText).1.endpoints.map (·.port) = [4464, 1] ∧
      (recordedLines wrappedPortsText).map (saidFor wrappedPortsText) = [70000, 65537] := by
    decide +kernel
  obtain ⟨hok, hports, hsaid⟩ := hrun
  refine ⟨hok, hports, fun h => ?_⟩
  obtain ⟨raw, hraw, hnumber⟩ := List.mem_map.1 (hsaid ▸ List.mem_cons_self)
  have hhigh := ((ovpnPortsSaid_iff wrappedPortsText).1 h raw hraw).2.1
  rw [hnumber] at hhigh
  exact absurd hhigh (by decide)

end ProxiMight
