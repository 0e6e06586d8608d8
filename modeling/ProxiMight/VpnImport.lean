import ProxiMight.Files
import ProxiMight.Remotes
import ProxiMight.VpnRunner

/-!
# Importing a VPN config (`pmx_vpn_load_file`)

The format of a file is told by texts that stand somewhere in it, spelled in one or two ways; the parsers
take their names in any case and after any white space.

* **`sniffedRight_iff`** — a text gets to the parser that accepts it just when no parser does, or the text
  has the mark of a format whose parser does; a WireGuard mark comes first.
-/

namespace ProxiMight

open CString TextLines

/-- WireGuard configs are INI with an `[Interface]` section. -/
def hasInterfaceMark (text : List UInt8) : Bool :=
  contains text "[Interface]" || contains text "[interface]"

/-- OpenVPN is directive based. -/
def hasDirectiveMark (text : List UInt8) : Bool :=
  contains text "remote " || contains text "\nclient" || (bytes "client").isPrefixOf text ||
    contains text "dev tun" || contains text "dev tap" || contains text "proto "

def pmxVpnSniff (text : CStr) : Except PmxStatus PmxVpnKind :=
  if hasInterfaceMark (skipBom text.str) then .ok .wireguard
  else if hasDirectiveMark (skipBom text.str) then .ok .openvpn
  else .error .errParse

/-- `read_all`: what is read is a string up to its first NUL. -/
def readAll (fs : Files.Store CStr (List UInt8)) (path : CStr) : Except PmxStatus CStr :=
  match fs path with
  | some content => .ok ⟨cstr content, nul_notMem_cstr content⟩
  | none => .error .errIo

/-- `basename_of`, which is `base_name_no_ext` word for word. -/
def basenameOf (n : ℕ) (path : List UInt8) : CBuf n := baseNameNoExt n path

def pmxVpnKindStr : PmxVpnKind → List UInt8
  | .wireguard => bytes "WireGuard"
  | .openvpn => bytes "OpenVPN"
  | .other _ => bytes "?"

/-- The parser of a format. -/
def parseAs (kind : PmxVpnKind) (text : CStr) : PmxVpn × PmxStatus :=
  if kind = .wireguard then pmxVpnParseWireguard text else pmxVpnParseOpenvpn text

/-- The path and the label that a parsed config gets. -/
def nameVpn (path : CStr) (out : PmxVpn) : PmxVpn :=
  let label := basenameOf pmxMaxLabel path.str
  { out with
      configPath := strlcpy pmxMaxPath path.str
      label := if label.isEmpty then strlcpy pmxMaxLabel (pmxVpnKindStr out.kind) else label }

def pmxVpnLoadFile (fs : Files.Store CStr (List UInt8)) (path : CStr) : Except PmxStatus PmxVpn := do
  let text ← readAll fs path
  let kind ← pmxVpnSniff text
  let parsed := parseAs kind text
  if parsed.2 = .ok then .ok (nameVpn path parsed.1) else .error parsed.2

/-! ### What is accepted -/

/-- A peer has an endpoint that can be read. -/
def HasEndpoint (text : CStr) : Prop := wgRemotes text ≠ []

/-- There is a `remote` directive outside the skipped blocks. -/
def HasRemote (text : CStr) : Prop := remoteLines (ovpnItems text) ≠ []

theorem parseAs_ok_iff (kind : PmxVpnKind) (text : CStr) :
    (parseAs kind text).2 = .ok ↔ if kind = .wireguard then HasEndpoint text else HasRemote text := by
  rw [parseAs]
  split_ifs
  · exact (parseWireguard_remotes text).2.2
  · exact parseOpenvpn_ok_iff text

/-- A file is accepted if the text in it is, by the parser of its format. -/
theorem pmxVpnLoadFile_ok_iff {fs : Files.Store CStr (List UInt8)} {path text : CStr}
    (hread : readAll fs path = .ok text) :
    (∃ out, pmxVpnLoadFile fs path = .ok out) ↔
      ∃ kind, pmxVpnSniff text = .ok kind ∧ (parseAs kind text).2 = .ok := by
  have hload : pmxVpnLoadFile fs path = (pmxVpnSniff text).bind fun kind =>
      if (parseAs kind text).2 = .ok then .ok (nameVpn path (parseAs kind text).1)
      else .error (parseAs kind text).2 := by
    rw [pmxVpnLoadFile, hread]
    rfl
  rw [hload]
  cases hsniff : pmxVpnSniff text with
  | error st =>
    refine iff_of_false ?_ ?_
    · rintro ⟨out, hout⟩
      cases hout
    · rintro ⟨kind, hkind, -⟩
      cases hkind
  | ok kind =>
    by_cases hok : (parseAs kind text).2 = .ok
    · refine iff_of_true ⟨nameVpn path (parseAs kind text).1, ?_⟩ ⟨kind, rfl, hok⟩
      exact if_pos hok
    · refine iff_of_false ?_ ?_
      · rintro ⟨out, hout⟩
        have herror := (if_neg hok).symm.trans hout
        cases herror
      · rintro ⟨kind', hkind, hok'⟩
        obtain rfl := Except.ok.inj hkind
        exact hok hok'

/-! ### The right parser -/

/-- A text that one parser accepts is sniffed as of its format, and a file that some parser accepts is
accepted. -/
structure SniffedRight (text : CStr) : Prop where
  wireguard : (pmxVpnParseWireguard text).2 = .ok → (pmxVpnParseOpenvpn text).2 ≠ .ok →
    pmxVpnSniff text = .ok .wireguard
  openvpn : (pmxVpnParseOpenvpn text).2 = .ok → (pmxVpnParseWireguard text).2 ≠ .ok →
    pmxVpnSniff text = .ok .openvpn
  loads : (pmxVpnParseWireguard text).2 = .ok ∨ (pmxVpnParseOpenvpn text).2 = .ok →
    ∀ fs path, readAll fs path = .ok text → ∃ out, pmxVpnLoadFile fs path = .ok out

/-- The marks that a text shows, in the order they are looked for. -/
inductive Marked (text : CStr) : Except PmxStatus PmxVpnKind → Prop
  | iface : hasInterfaceMark (skipBom text.str) = true → Marked text (.ok .wireguard)
  | directive : hasInterfaceMark (skipBom text.str) = false → hasDirectiveMark (skipBom text.str) = true →
      Marked text (.ok .openvpn)
  | none : hasInterfaceMark (skipBom text.str) = false → hasDirectiveMark (skipBom text.str) = false →
      Marked text (.error .errParse)

theorem marked_sniff (text : CStr) : Marked text (pmxVpnSniff text) := by
  rw [pmxVpnSniff]
  cases hiface : hasInterfaceMark (skipBom text.str) with
  | true => exact .iface hiface
  | false =>
    cases hdirective : hasDirectiveMark (skipBom text.str) with
    | true => exact .directive hiface hdirective
    | false => exact .none hiface hdirective

theorem readAll_text (text path : CStr) : readAll (fun _ => some text.str) path = .ok text := by
  rw [readAll]
  exact congrArg Except.ok (Subtype.ext (cstr_of_notMem text.2))

/-- **When a text gets to the parser that understands it**: no parser accepts it; or it has the text
`[Interface]` or `[interface]` and an endpoint of a peer; or neither of these two, but one of the texts that
tell an OpenVPN config, and a `remote` directive. -/
theorem sniffedRight_iff (text : CStr) :
    SniffedRight text ↔
      (¬HasEndpoint text ∧ ¬HasRemote text) ∨
        (hasInterfaceMark (skipBom text.str) = true ∧ HasEndpoint text) ∨
        (hasInterfaceMark (skipBom text.str) = false ∧ hasDirectiveMark (skipBom text.str) = true ∧
          HasRemote text) := by
  have hwg : (pmxVpnParseWireguard text).2 = .ok ↔ HasEndpoint text := (parseWireguard_remotes text).2.2
  have hovpn : (pmxVpnParseOpenvpn text).2 = .ok ↔ HasRemote text := parseOpenvpn_ok_iff text
  have hsniff := marked_sniff text
  constructor
  · intro hright
    by_cases hnone : ¬HasEndpoint text ∧ ¬HasRemote text
    · exact Or.inl hnone
    · -- a file with this text is loaded, so the parser of the format that is sniffed accepts it
      have hsome : (pmxVpnParseWireguard text).2 = .ok ∨ (pmxVpnParseOpenvpn text).2 = .ok := by
        rw [hwg, hovpn]
        by_contra hneither
        exact hnone (not_or.1 hneither)
      have hread := readAll_text text default
      obtain ⟨kind, hkind, hok⟩ := (pmxVpnLoadFile_ok_iff hread).1 (hright.loads hsome _ _ hread)
      rw [parseAs_ok_iff] at hok
      rw [hkind] at hsniff
      cases hsniff with
      | iface hiface => exact Or.inr (Or.inl ⟨hiface, hok⟩)
      | directive hiface hdirective => exact Or.inr (Or.inr ⟨hiface, hdirective, hok⟩)
  · rintro (⟨hnowg, hnoovpn⟩ | ⟨hiface, hendpoint⟩ | ⟨hiface, hdirective, hremote⟩)
    · refine ⟨fun h _ => absurd (hwg.1 h) hnowg, fun h _ => absurd (hovpn.1 h) hnoovpn, ?_⟩
      rintro (h | h)
      · exact absurd (hwg.1 h) hnowg
      · exact absurd (hovpn.1 h) hnoovpn
    · have hkind : pmxVpnSniff text = .ok .wireguard := if_pos hiface
      refine ⟨fun _ _ => hkind, fun _ hnot => absurd (hwg.2 hendpoint) hnot, fun _ fs path hread => ?_⟩
      exact (pmxVpnLoadFile_ok_iff hread).2 ⟨.wireguard, hkind, hwg.2 hendpoint⟩
    · have hkind : pmxVpnSniff text = .ok .openvpn := by
        rw [pmxVpnSniff, hiface, if_neg Bool.false_ne_true, if_pos hdirective]
      refine ⟨fun _ hnot => absurd (hovpn.2 hremote) hnot, fun _ _ => hkind, fun _ fs path hread => ?_⟩
      exact (pmxVpnLoadFile_ok_iff hread).2 ⟨.openvpn, hkind, hovpn.2 hremote⟩

/-- A config with its headers in upper case. -/
def upperCaseText : CStr :=
  ⟨bytes "[INTERFACE]\nPrivateKey = k\n[PEER]\nEndpoint = vpn.example:51820\n", by decide⟩

/-- The WireGuard parser alone accepts such a config, but it is of no known format. -/
theorem not_sniffedRight_upperCase :
    (pmxVpnParseWireguard upperCaseText).2 = .ok ∧ (pmxVpnParseOpenvpn upperCaseText).2 ≠ .ok ∧
      pmxVpnSniff upperCaseText = .error .errParse ∧ ¬SniffedRight upperCaseText := by
  have hwg : (pmxVpnParseWireguard upperCaseText).2 = .ok := by decide +kernel
  have hovpn : (pmxVpnParseOpenvpn upperCaseText).2 ≠ .ok := by decide +kernel
  have hsniff : pmxVpnSniff upperCaseText = .error .errParse := by
    rw [pmxVpnSniff, if_neg (by decide +kernel), if_neg (by decide +kernel)]
  refine ⟨hwg, hovpn, hsniff, fun hright => ?_⟩
  rw [hright.wireguard hwg hovpn] at hsniff
  cases hsniff

end ProxiMight
