import ProxiMight.CommandLine
import ProxiMight.Decimal
import ProxiMight.Numbers
import ProxiMight.TunnelTable

/-!
# The command that brings a tunnel up (`pmx_vpn_bringup_command`, `pmx_vpn_up`)

The panel shows the command that a click on Connect runs.  It is formatted twice: for the panel with the
management port of the first slot, and for the client with the port of the entry that the VPN gets, into a
smaller buffer.

* **`commandShown_iff`** — the command shown is the one that is run, and the client reads the paths from
  it, just when it fits, the port is that of the first slot, and the config path does not end in a
  backslash.
-/

namespace ProxiMight

open CString CommandLine

/-- `pmx_vpn_client`. -/
structure PmxVpnClient where
  found : Bool
  path : CBuf pmxMaxPath

/-- `pmx_vpn_bringup_command`: the status, and the string left in `out`. -/
def pmxVpnBringupCommand (cap : ℕ) (v : PmxVpn) (client : Option PmxVpnClient) : PmxStatus × CBuf cap :=
  if cap = 0 then (.errInvalidArg, .empty)
  else
    let exe :=
      match client with
      | some c => if c.found then c.path.str else bytes "<vpn client>"
      | none => bytes "<vpn client>"
    if v.configPath.isEmpty then (.errInvalidArg, .empty)
    else if v.kind = .wireguard then
      (.ok, strlcpy cap
        (bytes "\"" ++ exe ++ bytes "\" /installtunnelservice \"" ++ v.configPath.str ++ bytes "\""))
    else
      (.ok, strlcpy cap
        (bytes "\"" ++ exe ++ bytes "\" --config \"" ++ v.configPath.str ++
          bytes "\" --management 127.0.0.1 " ++ decimal 25340))

/-- The buffer of the panel, `char cmd[PMX_MAX_PATH + 160]`. -/
def panelCap : ℕ := pmxMaxPath + 160

/-- The buffer of `pmx_vpn_up`, `char cmd[PMX_MAX_PATH + 128]`. -/
def upCap : ℕ := pmxMaxPath + 128

/-- The management port that the entry of a VPN has or gets; none without an entry. -/
def entryPort (es : List VpnEntry) (id : PmxId) : Option PmxPort :=
  match entryFor es id true with
  | (es, some slot) =>
    let e := entryAt es slot
    some (if e.mgmtPort = 0 then mgmtPortOf slot else e.mgmtPort)
  | (_, none) => none

/-- What `pmx_vpn_up` formats, before it is cut to its buffer. -/
def upText (v : PmxVpn) (exe : CBuf pmxMaxPath) (port : PmxPort) : List UInt8 :=
  if v.kind = .wireguard then
    bytes "\"" ++ exe.str ++ bytes "\" /installtunnelservice \"" ++ v.configPath.str ++ bytes "\""
  else
    bytes "\"" ++ exe.str ++ bytes "\" --config \"" ++ v.configPath.str ++
      bytes "\" --management 127.0.0.1 " ++ decimal port.toNat

/-- The command line that `pmx_vpn_up` hands to `pmx_proc_run` or `pmx_proc_spawn`, if it gets there. -/
def pmxVpnUpCommand (es : List VpnEntry) (v : PmxVpn) (client : PmxVpnClient) (elevated : Bool) :
    Option (CBuf upCap) :=
  if client.found = false then none
  else if (pmxVpnValidate 128 v).1 ≠ .ok then none
  else
    match entryPort es v.id with
    | none => none
    | some port =>
      if v.kind = .wireguard ∧ elevated = false then none
      else some (strlcpy upCap (upText v client.path port))

/-- The arguments the client is meant to get: its options and the config path. -/
def upArguments (v : PmxVpn) (port : PmxPort) : List Piece :=
  if v.kind = .wireguard then [.bare (bytes "/installtunnelservice"), .quoted v.configPath.str]
  else
    [.bare (bytes "--config"), .quoted v.configPath.str, .bare (bytes "--management"),
      .bare (bytes "127.0.0.1"), .bare (decimal port.toNat)]

/-! ### The port of the entry -/

/-- In a runner that calls and ends of children have led to, the port is that of the first slot just in the
first slot. -/
theorem TableInv.entryPort_eq_base_iff {w : VpnWorld} (hw : TableInv w) (id : PmxId) :
    entryPort w.entries id = some 25340 ↔ (entryFor w.entries id true).2 = some 0 := by
  have hslot : ∀ {i : ℕ} {e : VpnEntry}, i < 8 → (e.mgmtPort = 0 ∨ e.mgmtPort = mgmtPortOf i) →
      (some (if e.mgmtPort = 0 then mgmtPortOf i else e.mgmtPort) = some 25340 ↔ some i = some 0) := by
    intro i e hi he
    have hport : (if e.mgmtPort = 0 then mgmtPortOf i else e.mgmtPort) = mgmtPortOf i := by
      rcases he with h | h
      · rw [if_pos h]
      · rw [h, ite_self]
    rw [hport, Option.some_inj, Option.some_inj]
    exact ⟨fun h => mgmtPortOf_inj hi (by omega) h, fun h => by rw [h]; rfl⟩
  have hlt : ∀ {i : ℕ} {e : VpnEntry}, w.entries[i]? = some e → i < 8 := by
    intro i e hi
    obtain ⟨hlt, -⟩ := List.getElem?_eq_some_iff.1 hi
    rwa [hw.size] at hlt
  rw [entryPort]
  rcases entryFor_cases w.entries id with ⟨i, e, hi, -, heq, -⟩ | ⟨-, i, e, hi, -, heq, -⟩ | ⟨-, heq, -⟩
  · rw [heq]
    dsimp only
    rw [entryAt_eq hi]
    exact hslot (hlt hi) (hw.ports i e hi).1
  · obtain ⟨hbound, -⟩ := List.getElem?_eq_some_iff.1 hi
    rw [heq]
    dsimp only
    rw [entryAt_eq (List.getElem?_set_self hbound)]
    exact hslot (e := .fresh id) (hlt hi) (Or.inl rfl)
  · rw [heq]
    exact iff_of_false (fun h => by cases h) fun h => by cases h

/-! ### The two texts -/

theorem strlcpy_str_take {n : ℕ} {s : List UInt8} (h : nul ∉ s) : (strlcpy n s).str = s.take (n - 1) := by
  show (cstr s).take (n - 1) = _
  rw [cstr_of_notMem h]

theorem upText_eq_render (v : PmxVpn) (exe : CBuf pmxMaxPath) (port : PmxPort) :
    upText v exe port = inQuotes exe.str ++ render (upArguments v port) := by
  have hopen : bytes "\"" = [quote] := rfl
  have hinstall : bytes "\" /installtunnelservice \""
      = quote :: 32 :: (bytes "/installtunnelservice" ++ [32, quote]) := rfl
  have hconfig : bytes "\" --config \"" = quote :: 32 :: (bytes "--config" ++ [32, quote]) := rfl
  have hmanagement : bytes "\" --management 127.0.0.1 "
      = quote :: 32 :: (bytes "--management" ++ 32 :: (bytes "127.0.0.1" ++ [32])) := rfl
  rw [upText, upArguments]
  split_ifs
  · rw [hopen, hinstall]
    simp [render, inQuotes, Piece.text]
  · rw [hopen, hconfig, hmanagement]
    simp [render, inQuotes, Piece.text]

theorem nul_notMem_decimal (n : ℕ) : nul ∉ decimal n := by
  intro h
  have hdigit := isDigit_of_mem_decimal n nul h
  cases hdigit

theorem nul_notMem_upText (v : PmxVpn) (exe : CBuf pmxMaxPath) (port : PmxPort) :
    nul ∉ upText v exe port := by
  have hexe := exe.nul_notMem_str
  have hconfig := v.configPath.nul_notMem_str
  have hport := nul_notMem_decimal port.toNat
  have hlits : ∀ s ∈ [bytes "\"", bytes "\" /installtunnelservice \"", bytes "\" --config \"",
      bytes "\" --management 127.0.0.1 "], nul ∉ s := by decide
  simp only [List.forall_mem_cons] at hlits
  rw [upText]
  split_ifs
  · simp only [List.mem_append, hexe, hconfig, hlits.1, hlits.2.1, or_self, not_false_eq_true]
  · simp only [List.mem_append, hexe, hconfig, hport, hlits.1, hlits.2.2.1, hlits.2.2.2.1, or_self,
      not_false_eq_true]

/-- The panel formats what `pmx_vpn_up` formats for the first slot. -/
theorem pmxVpnBringupCommand_eq {v : PmxVpn} (hpath : v.configPath.isEmpty = false) {c : PmxVpnClient}
    (hfound : c.found = true) :
    pmxVpnBringupCommand panelCap v (some c) = (.ok, strlcpy panelCap (upText v c.path 25340)) := by
  have hnotempty : ¬v.configPath.isEmpty = true := by
    rw [hpath]
    exact Bool.false_ne_true
  rw [pmxVpnBringupCommand, if_neg (by decide)]
  simp only [hfound, if_true, if_neg hnotempty]
  rw [upText]
  split_ifs
  · rfl
  · rfl

/-- How long the text is. -/
theorem upText_length (v : PmxVpn) (exe : CBuf pmxMaxPath) (port : PmxPort) :
    (upText v exe port).length = exe.str.length + v.configPath.str.length +
      if v.kind = .wireguard then 27 else 38 + (decimal port.toNat).length := by
  have h1 : (bytes "\"").length = 1 := rfl
  have h2 : (bytes "\" /installtunnelservice \"").length = 25 := rfl
  have h3 : (bytes "\" --config \"").length = 12 := rfl
  have h4 : (bytes "\" --management 127.0.0.1 ").length = 25 := rfl
  rw [upText]
  split_ifs
  · simp only [List.length_append, h1, h2]
    omega
  · simp only [List.length_append, h1, h3, h4]
    omega

/-- Only the port tells two texts for a VPN apart. -/
theorem upText_inj {v : PmxVpn} {exe : CBuf pmxMaxPath} {p q : PmxPort} :
    upText v exe p = upText v exe q ↔ v.kind = .wireguard ∨ p = q := by
  rw [upText, upText]
  split_ifs with hkind
  · exact iff_of_true rfl (Or.inl hkind)
  · rw [List.append_cancel_left_eq, or_iff_right hkind]
    constructor
    · exact fun h => UInt16.toNat_inj.1 (decimal_inj h)
    · rintro rfl
      rfl

/-! ### Shown and run -/

/-- The command line `cmd` is what the panel shows, and where no path has a double quote it is whole and
gives the client its path, its options and the config path. -/
structure CommandShown (v : PmxVpn) (c : PmxVpnClient) (port : PmxPort) (cmd : CBuf upCap) : Prop where
  shown : (pmxVpnBringupCommand panelCap v (some c)).1 = .ok ∧
    (pmxVpnBringupCommand panelCap v (some c)).2.str = cmd.str
  read : quote ∉ c.path.str → quote ∉ v.configPath.str → cmd.str = upText v c.path port ∧
    argv cmd.str = c.path.str :: (upArguments v port).map Piece.value

/-- The paths fit, the port is that of the first slot, and the config path can stand before a double
quote. -/
structure CommandPlain (v : PmxVpn) (c : PmxVpnClient) (port : PmxPort) : Prop where
  fits : c.path.str.length + v.configPath.str.length ≤ if v.kind = .wireguard then 1124 else 1108
  port : v.kind = .wireguard ∨ port = 25340
  path : quote ∉ c.path.str → quote ∉ v.configPath.str → v.configPath.str.getLast? ≠ some backslash

theorem isWord_decimal (n : ℕ) : IsWord (decimal n) := by
  refine ⟨decimal_ne_nil n, fun c hc => ?_⟩
  have hdigit := (isDigit_iff c).1 (isDigit_of_mem_decimal n c hc)
  have hother : ∀ d : UInt8, d.toNat < 48 ∨ 57 < d.toNat → c ≠ d := by
    rintro d hd rfl
    omega
  refine ⟨hother quote (by decide), hother backslash (by decide), ?_⟩
  have h32 : c ≠ 32 := hother 32 (by decide)
  have h9 : c ≠ 9 := hother 9 (by decide)
  simp [isBlank, h32, h9]

theorem upArguments_plain {v : PmxVpn} (hquote : quote ∉ v.configPath.str)
    (hlast : v.configPath.str.getLast? ≠ some backslash) (port : PmxPort) :
    ∀ p ∈ upArguments v port, p.Plain := by
  have hpath : (Piece.quoted v.configPath.str).Plain := ⟨hquote, hlast⟩
  have hwords : ∀ w ∈ [bytes "/installtunnelservice", bytes "--config", bytes "--management",
      bytes "127.0.0.1"], (Piece.bare w).Plain := by
    show ∀ w ∈ [bytes "/installtunnelservice", bytes "--config", bytes "--management",
      bytes "127.0.0.1"], IsWord w
    decide +kernel
  have hport : (Piece.bare (decimal port.toNat)).Plain := isWord_decimal port.toNat
  simp only [List.forall_mem_cons] at hwords
  rw [upArguments]
  split_ifs
  · simp [hpath, hwords]
  · simp [hpath, hwords, hport]

/-- A whole command line is read as it is meant just when the config path does not end in a backslash. -/
theorem argv_upText_iff {v : PmxVpn} {exe : CBuf pmxMaxPath} (port : PmxPort) (hexe : quote ∉ exe.str)
    (hquote : quote ∉ v.configPath.str) :
    argv (upText v exe port) = exe.str :: (upArguments v port).map Piece.value ↔
      v.configPath.str.getLast? ≠ some backslash := by
  have hsplit : ∃ w rest, IsWord w ∧ upArguments v port = [.bare w] ++ .quoted v.configPath.str :: rest := by
    rw [upArguments]
    split_ifs
    · exact ⟨bytes "/installtunnelservice", [], by decide +kernel, rfl⟩
    · exact ⟨bytes "--config", _, by decide +kernel, rfl⟩
  rw [upText_eq_render, argv, programName_inQuotes hexe, List.cons_inj_right]
  constructor
  · intro h hlast
    obtain ⟨w, rest, hw, heq⟩ := hsplit
    rw [heq] at h
    refine arguments_render_ne (fun p hp => ?_) hquote hlast h
    rw [List.mem_singleton.1 hp]
    exact hw
  · exact fun hlast => arguments_render (upArguments_plain hquote hlast port)

/-- A text cut to a buffer, and one a little longer cut to a larger buffer. -/
theorem take_eq_take_iff {s t : List UInt8} {m n : ℕ} (hmn : n < m) (hle : t.length ≤ s.length)
    (hclose : s.length + n ≤ t.length + m) : s.take m = t.take n ↔ t.length ≤ n ∧ s = t := by
  constructor
  · intro h
    have hlen := congrArg List.length h
    rw [List.length_take, List.length_take] at hlen
    have hfits : t.length ≤ n := by omega
    rw [List.take_of_length_le (by omega), List.take_of_length_le hfits] at h
    exact ⟨hfits, h⟩
  · rintro ⟨hfits, rfl⟩
    rw [List.take_of_length_le (by omega), List.take_of_length_le hfits]

theorem configPath_of_valid {whySize : ℕ} {v : PmxVpn} (h : (pmxVpnValidate whySize v).1 = .ok) :
    v.configPath.isEmpty = false := by
  have hfault : vpnFault v = none := by
    rw [pmxVpnValidate] at h
    cases hfault : vpnFault v with
    | none => rfl
    | some text =>
      rw [hfault] at h
      cases h
  rw [vpnFault] at hfault
  split_ifs at hfault with _ _ _ _ hpath
  exact Bool.not_eq_true _ ▸ hpath

/-- A command line is handed over for a valid VPN that gets an entry, where the client was found. -/
theorem pmxVpnUpCommand_eq_some {es : List VpnEntry} {v : PmxVpn} {c : PmxVpnClient} {elevated : Bool}
    {port : PmxPort} {cmd : CBuf upCap} (hport : entryPort es v.id = some port)
    (hrun : pmxVpnUpCommand es v c elevated = some cmd) :
    c.found = true ∧ v.configPath.isEmpty = false ∧ cmd = strlcpy upCap (upText v c.path port) := by
  rw [pmxVpnUpCommand, hport] at hrun
  split_ifs at hrun with hfound hvalid helevated
  exact ⟨Bool.not_eq_false _ ▸ hfound, configPath_of_valid (not_not.1 hvalid), (Option.some.inj hrun).symm⟩

/-- **When the command shown is the command run.**  For every table of the runner and every VPN that
`pmx_vpn_up` hands a command line for: the panel shows it, and the client reads from it its own path, the
options and the config path, exactly when the paths fit, the port is that of the first slot, and the config
path does not end in a backslash. -/
theorem commandShown_iff {es : List VpnEntry} {v : PmxVpn} {c : PmxVpnClient} {elevated : Bool}
    {port : PmxPort} {cmd : CBuf upCap} (hport : entryPort es v.id = some port)
    (hrun : pmxVpnUpCommand es v c elevated = some cmd) :
    CommandShown v c port cmd ↔ CommandPlain v c port := by
  obtain ⟨hfound, hpath, rfl⟩ := pmxVpnUpCommand_eq_some hport hrun
  have hshown := pmxVpnBringupCommand_eq hpath hfound
  have hcmd : (strlcpy upCap (upText v c.path port)).str = (upText v c.path port).take 1151 :=
    strlcpy_str_take (nul_notMem_upText v c.path port)
  have hpanel : (strlcpy panelCap (upText v c.path 25340)).str = (upText v c.path 25340).take 1183 :=
    strlcpy_str_take (nul_notMem_upText v c.path 25340)
  have hport5 : (decimal (25340 : PmxPort).toNat).length = 5 := by decide
  have hdigits : (decimal port.toNat).length ≤ 5 :=
    length_decimal_le (by omega) (by have hlt := port.toNat_lt; omega)
  have hone : 0 < (decimal port.toNat).length := List.length_pos_iff.2 (decimal_ne_nil _)
  have hrunLen := upText_length v c.path port
  have hshownLen := upText_length v c.path 25340
  rw [hport5] at hshownLen
  -- the text with the port of the first slot is the longer one, by less than the buffers differ
  have hsame : (strlcpy panelCap (upText v c.path 25340)).str = (strlcpy upCap (upText v c.path port)).str ↔
      (upText v c.path port).length ≤ 1151 ∧ (v.kind = .wireguard ∨ 25340 = port) := by
    rw [hcmd, hpanel, take_eq_take_iff (by omega), upText_inj]
    · split_ifs at hrunLen hshownLen <;> omega
    · split_ifs at hrunLen hshownLen <;> omega
  have hfits : v.kind = .wireguard ∨ port = 25340 → ((upText v c.path port).length ≤ 1151 ↔
      c.path.str.length + v.configPath.str.length ≤ if v.kind = .wireguard then 1124 else 1108) := by
    intro hfirst
    rw [hrunLen]
    split_ifs with hkind
    · omega
    · rw [hfirst.resolve_left hkind, hport5]
      omega
  constructor
  · rintro ⟨⟨-, heq⟩, hread⟩
    rw [hshown] at heq
    obtain ⟨hlen, hfirst⟩ := hsame.1 heq
    have hfirst' : v.kind = .wireguard ∨ port = 25340 := hfirst.imp_right Eq.symm
    refine ⟨(hfits hfirst').1 hlen, hfirst', fun hexe hquote => ?_⟩
    obtain ⟨hwhole, hargv⟩ := hread hexe hquote
    rw [hwhole] at hargv
    exact (argv_upText_iff port hexe hquote).1 hargv
  · rintro ⟨hlen, hfirst, hlast⟩
    have hle := (hfits hfirst).2 hlen
    have hwhole : (strlcpy upCap (upText v c.path port)).str = upText v c.path port := by
      rw [hcmd, List.take_of_length_le hle]
    refine ⟨⟨by rw [hshown], ?_⟩, fun hexe hquote => ⟨hwhole, ?_⟩⟩
    · rw [hshown]
      exact hsame.2 ⟨hle, hfirst.imp_right Eq.symm⟩
    · rw [hwhole]
      exact (argv_upText_iff port hexe hquote).2 (hlast hexe hquote)

/-- The OpenVPN client at its usual place. -/
def openvpnClient : PmxVpnClient :=
  ⟨true, strlcpy pmxMaxPath (bytes "C:\\Program Files\\OpenVPN\\bin\\openvpn.exe")⟩

/-- A first tunnel is run as it is shown. -/
theorem commandShown_firstSlot :
    CommandShown homeOvpn openvpnClient 25340
      (strlcpy upCap (upText homeOvpn openvpnClient.path 25340)) := by
  have hport : entryPort vpnRunnerCreate.entries homeOvpn.id = some 25340 := by decide +kernel
  have hrun : pmxVpnUpCommand vpnRunnerCreate.entries homeOvpn openvpnClient false
      = some (strlcpy upCap (upText homeOvpn openvpnClient.path 25340)) := by decide +kernel
  exact (commandShown_iff hport hrun).2 ⟨by decide +kernel, Or.inr rfl, by decide +kernel⟩

/-- A second OpenVPN tunnel, while the first one is up. -/
def workOvpn : PmxVpn := { homeOvpn with id := 8 }

/-- It is run with the port of the second slot and shown with that of the first. -/
theorem not_commandShown_secondSlot :
    ∃ cmd, pmxVpnUpCommand (vpnStep vpnRunnerCreate (.up homeOvpn true startedEnv)).entries workOvpn
        openvpnClient false = some cmd ∧
      cmd.str = bytes "\"C:\\Program Files\\OpenVPN\\bin\\openvpn.exe\" --config \"home.ovpn\" " ++
        bytes "--management 127.0.0.1 25341" ∧
      (pmxVpnBringupCommand panelCap workOvpn (some openvpnClient)).2.str =
        bytes "\"C:\\Program Files\\OpenVPN\\bin\\openvpn.exe\" --config \"home.ovpn\" " ++
          bytes "--management 127.0.0.1 25340" ∧
      ∀ port, ¬CommandShown workOvpn openvpnClient port cmd := by
  have hcmd : (strlcpy upCap (upText workOvpn openvpnClient.path 25341)).str
      ≠ (pmxVpnBringupCommand panelCap workOvpn (some openvpnClient)).2.str := by decide +kernel
  exact ⟨strlcpy upCap (upText workOvpn openvpnClient.path 25341), by decide +kernel, by decide +kernel,
    by decide +kernel, fun port h => hcmd h.shown.2.symm⟩

end ProxiMight
