import ProxiMight.Addresses
import ProxiMight.Remotes

/-!
# The badge of a full tunnel (`allowed_ips_is_full_tunnel`)

Whether a tunnel takes all traffic is told from texts that stand somewhere in an `AllowedIPs` value.  The
text of a default route is one only in a network of length zero; the texts of the two halves also stand in
shorter networks (`128.0.0.0/16`), and `::/1` stands in `8000::/1`.

* **`fullTunnelTrue_iff`** — the badge is true of a config just when no value shows the texts of two halves
  or the listed networks leave no gap in IPv4 or in IPv6.
-/

namespace ProxiMight

open CString Addresses Separated TextLines

/-- The values of `AllowedIPs` of a config. -/
def allowedListed (text : CStr) : List (List UInt8) :=
  peerValues wholeLine (bytes "AllowedIPs") .none (configLines text)

/-- What the parser reads of these values: a line is cut to the buffer. -/
def allowedRead (text : CStr) : List (List UInt8) :=
  peerValues wgBuf (bytes "AllowedIPs") .none (configLines text)

/-- The pieces of a value between commas. -/
def networkTexts (val : List UInt8) : List (List UInt8) :=
  if val = [] then [] else (val.splitOn 44).map trim

/-- The value is a list of networks. -/
def IsNetworkList (val : List UInt8) : Prop := ∀ t ∈ networkTexts val, t ∈ cidr.lang

instance (val : List UInt8) : Decidable (IsNetworkList val) :=
  inferInstanceAs (Decidable (∀ t ∈ networkTexts val, t ∈ cidr.lang))

/-- The networks a config lists. -/
def listedNetworks (text : CStr) : List Network :=
  ((allowedListed text).flatMap networkTexts).map networkOf

/-- A config is badged as a full tunnel only if its networks cover one of the families. -/
def FullTunnelTrue (text : CStr) : Prop :=
  (pmxVpnParseWireguard text).1.fullTunnel = true →
    Covers .v4 (listedNetworks text) ∨ Covers .v6 (listedNetworks text)

/-- The texts of a default route. -/
def showsDefault (val : List UInt8) : Bool := contains val "0.0.0.0/0" || contains val "::/0"

/-- The texts of two halves; those of IPv6 stand in the one of the upper half. -/
def showsHalves (val : List UInt8) : Bool :=
  (contains val "0.0.0.0/1" && contains val "128.0.0.0/1") || contains val "8000::/1"

theorem contains_trans {a b : String} (h : bytes a <:+: bytes b) {val : List UInt8}
    (hval : contains val b = true) : contains val a = true :=
  decide_eq_true (h.trans (of_decide_eq_true hval))

theorem allowedIpsIsFullTunnel_eq (val : List UInt8) :
    allowedIpsIsFullTunnel val = (showsDefault val || showsHalves val) := by
  have hhalf : contains val "8000::/1" = true → contains val "::/1" = true := contains_trans (by decide)
  rw [allowedIpsIsFullTunnel, showsDefault, showsHalves]
  cases hdefault : contains val "0.0.0.0/0" || contains val "::/0" with
  | true => rfl
  | false =>
    rw [if_neg Bool.false_ne_true, Bool.false_or]
    cases hv4 : contains val "0.0.0.0/1" && contains val "128.0.0.0/1" with
    | true => rfl
    | false =>
      rw [if_neg Bool.false_ne_true, Bool.false_or]
      cases hv6 : contains val "8000::/1" with
      | true =>
        rw [hhalf hv6]
        rfl
      | false =>
        rw [Bool.and_false]
        rfl

/-! ### What the parser reads -/

theorem wgPeerEntry_fullTunnel (out : PmxVpn) (key val : List UInt8) :
    (wgPeerEntry out key val).fullTunnel =
      if ciEq key (bytes "AllowedIPs") = true then out.fullTunnel || allowedIpsIsFullTunnel val
      else out.fullTunnel := by
  by_cases hkey : ciEq key (bytes "AllowedIPs") = true
  · have hpublic : ciEq key (bytes "PublicKey") = false := by
      rw [ciEq_congr hkey]
      decide
    have hpreshared : ciEq key (bytes "PresharedKey") = false := by
      rw [ciEq_congr hkey]
      decide
    rw [if_pos hkey, wgPeerEntry, hpublic, hpreshared, if_neg Bool.false_ne_true,
      if_neg Bool.false_ne_true, if_pos hkey]
    dsimp only
    cases allowedIpsIsFullTunnel val with
    | true => rw [if_pos rfl, Bool.or_true]
    | false => rw [if_neg Bool.false_ne_true, Bool.or_false]
  · rw [if_neg hkey]
    simp only [wgPeerEntry, if_neg hkey, apply_ite PmxVpn.fullTunnel]
    cases parseHostport val pmxMaxHost with
    | none => simp only [ite_self]
    | some r =>
      simp only [addEndpoint, apply_ite PmxVpn.fullTunnel, apply_dite PmxVpn.fullTunnel, ite_self,
        dite_eq_ite]

theorem keyedBy_fullTunnel : KeyedBy PmxVpn.fullTunnel (bytes "AllowedIPs") fun full val =>
    full || allowedIpsIsFullTunnel val where
  name_ne_nil := by decide
  iface out key val := by
    simp only [wgInterfaceEntry, apply_ite PmxVpn.fullTunnel, ite_self]
  peer := wgPeerEntry_fullTunnel

/-- The badge is about the values that are read. -/
theorem parseWireguard_fullTunnel (text : CStr) :
    (pmxVpnParseWireguard text).1.fullTunnel = (allowedRead text).any allowedIpsIsFullTunnel := by
  have hfold : ∀ (vals : List (List UInt8)) (full : Bool),
      vals.foldl (fun full val => full || allowedIpsIsFullTunnel val) full =
        (full || vals.any allowedIpsIsFullTunnel) := by
    intro vals
    induction vals with
    | nil => exact fun full => (Bool.or_false full).symm
    | cons val vals ih =>
      intro full
      rw [List.foldl_cons, ih, List.any_cons, Bool.or_assoc]
  exact (keyedBy_fullTunnel.out_foldl (configLines text) wgInit).trans (hfold _ false)

/-! ### What is read of a line -/

theorem infix_trim {run s : List UInt8} (hrun : ∀ c ∈ run, isSpace c = false) (h : run <:+: s) :
    run <:+: trim s :=
  infix_rdropWhile hrun (infix_dropWhile hrun h)

/-- The buffer holds the beginning of the line. -/
theorem wgBuf_begins (raw : List UInt8) : wgBuf raw <+: wholeLine raw := by
  rcases List.eq_nil_or_concat (wgBuf raw) with hnil | ⟨front, c, hconcat⟩
  · rw [hnil]
    exact List.nil_prefix
  · have hfront : trim (stripComment (raw.take (wgLineSize - 1))) = front ++ [c] :=
      hconcat.trans List.concat_eq_append
    -- the last character of the buffer is not white space, so trimming the whole line does not take it
    have hlast : isSpace c = false := by
      refine isSpace_getLast_trim (s := stripComment (raw.take (wgLineSize - 1))) ?_
      rw [hfront]
      exact List.getLast?_concat
    have hread := trim_isPrefix (stripComment (raw.take (wgLineSize - 1)))
    rw [hfront] at hread
    have hne : (stripComment (raw.take (wgLineSize - 1))).dropWhile isSpace ≠ [] := by
      intro hnil
      rw [hnil] at hread
      exact List.append_ne_nil_of_right_ne_nil front (List.cons_ne_nil c []) (List.prefix_nil.1 hread)
    obtain ⟨cut, hcut⟩ : stripComment (raw.take (wgLineSize - 1)) <+: stripComment raw := by
      rw [stripComment, ← List.take_takeWhile]
      exact List.take_prefix _ _
    rw [wgBuf, hfront]
    refine prefix_trim hlast (hread.trans ?_)
    rw [← hcut, List.dropWhile_append, if_neg (by rwa [List.isEmpty_iff])]
    exact List.prefix_append _ _

/-- What the value that is read shows, apart from white space, the whole value shows. -/
def ShownBy (val whole : List UInt8) : Prop :=
  ∀ run : List UInt8, (∀ c ∈ run, isSpace c = false) → run <:+: val → run <:+: whole

theorem peerValue_of_begins {name line whole val : List UInt8} {sec : WgSection} (hline : line <+: whole)
    (h : peerValue name sec line = some val) :
    ∃ val', peerValue name sec whole = some val' ∧ ShownBy val val' := by
  rw [peerValue] at h
  split_ifs at h with hmeets
  obtain ⟨hsec, hheader, hequals, hname⟩ := hmeets
  obtain ⟨rest, rfl⟩ := hline
  obtain ⟨key, after, rfl, hkey⟩ := List.eq_append_cons_of_mem hequals
  have hsplit : key ++ equals :: after ++ rest = key ++ equals :: (after ++ rest) := by
    rw [List.append_assoc, List.cons_append]
  rw [takeWhile_piece_append hkey] at hname
  rw [dropWhile_piece_append hkey, List.drop_one, List.tail_cons] at h
  refine ⟨trim (after ++ rest), ?_, fun run hrun hinf => ?_⟩
  · rw [hsplit, peerValue, takeWhile_piece_append hkey, dropWhile_piece_append hkey, List.drop_one,
      List.tail_cons, if_pos]
    refine ⟨hsec, ?_, List.mem_append_right key List.mem_cons_self, hname⟩
    cases key with
    | nil => exact hheader
    | cons c key => exact hheader
  · rw [← Option.some.inj h] at hinf
    have hin : trim after <:+: after ++ rest :=
      ((trim_isPrefix after).isInfix.trans (List.dropWhile_suffix isSpace).isInfix).trans
        (List.prefix_append after rest).isInfix
    exact infix_trim hrun (hinf.trans hin)

/-- Each value that is read is that of a line of the config. -/
theorem mem_allowedRead {name : List UInt8} (ls : List (List UInt8)) :
    ∀ {sec : WgSection} {val : List UInt8}, val ∈ peerValues wgBuf name sec ls →
      ∃ val' ∈ peerValues wholeLine name sec ls, ShownBy val val' := by
  induction ls with
  | nil => intro sec val hval; cases hval
  | cons raw ls ih =>
    intro sec val hval
    rw [peerValues] at hval ⊢
    rcases List.mem_append.1 hval with hfirst | hrest
    · obtain ⟨val', hwhole, hshown⟩ := peerValue_of_begins (wgBuf_begins raw) (Option.mem_toList.1 hfirst)
      exact ⟨val', List.mem_append_left _ (Option.mem_toList.2 hwhole), hshown⟩
    · obtain ⟨val', hmem, hshown⟩ := ih hrest
      exact ⟨val', List.mem_append_right _ hmem, hshown⟩

/-! ### The default route -/

theorem isSpace_slash_zero : ∀ c ∈ [slash, 48], isSpace c = false :=
  List.forall_mem_cons.2 ⟨rfl, List.forall_mem_singleton.2 rfl⟩

/-- The text of a default route is part of that of a network of length zero. -/
theorem exists_length_zero {val : List UInt8} (hwell : IsNetworkList val) (hzero : [slash, 48] <:+: val) :
    ∃ t ∈ networkTexts val, (networkOf t).length = 0 := by
  have hne : val ≠ [] := by
    rintro rfl
    cases List.eq_nil_of_infix_nil hzero
  obtain ⟨piece, hpiece, hinf⟩ := infix_mem_splitOn (show (44 : UInt8) ∉ [slash, 48] by decide) val hzero
  have htext : trim piece ∈ networkTexts val := by
    rw [networkTexts, if_neg hne]
    exact List.mem_map_of_mem hpiece
  exact ⟨trim piece, htext, networkOf_length_zero (hwell _ htext) (infix_trim isSpace_slash_zero hinf)⟩

theorem infix_of_showsDefault {val : List UInt8} (h : showsDefault val = true) : [slash, 48] <:+: val := by
  rcases Bool.or_eq_true_iff.1 h with h | h
  · exact List.IsInfix.trans (by decide) (of_decide_eq_true h)
  · exact List.IsInfix.trans (by decide) (of_decide_eq_true h)

theorem covers_of_showsDefault {text : CStr} (hwell : ∀ val ∈ allowedListed text, IsNetworkList val)
    {val : List UInt8} (hval : val ∈ allowedRead text) (h : showsDefault val = true) :
    Covers .v4 (listedNetworks text) ∨ Covers .v6 (listedNetworks text) := by
  obtain ⟨val', hmem, hshown⟩ := mem_allowedRead _ hval
  have hzero : [slash, 48] <:+: val' := hshown _ isSpace_slash_zero (infix_of_showsDefault h)
  obtain ⟨t, ht, hlen⟩ := exists_length_zero (hwell val' hmem) hzero
  have hlisted : networkOf t ∈ listedNetworks text :=
    List.mem_map_of_mem (List.mem_flatMap.2 ⟨val', hmem, ht⟩)
  have hcovers := covers_of_length_zero hlisted hlen
  cases hfamily : (networkOf t).family with
  | v4 => exact Or.inl (hfamily ▸ hcovers)
  | v6 => exact Or.inr (hfamily ▸ hcovers)

/-- **When the badge is true.**  In a config whose `AllowedIPs` are lists of networks, either no value shows
the texts of two halves, as far as it is read, or the listed networks leave no gap in IPv4 or in IPv6. -/
theorem fullTunnelTrue_iff (text : CStr) (hwell : ∀ val ∈ allowedListed text, IsNetworkList val) :
    FullTunnelTrue text ↔
      (∀ val ∈ allowedRead text, showsHalves val = false) ∨
        NoGap .v4 (listedNetworks text) ∨ NoGap .v6 (listedNetworks text) := by
  rw [FullTunnelTrue, parseWireguard_fullTunnel, ← covers_iff, ← covers_iff]
  constructor
  · intro htrue
    by_cases hhalves : ∀ val ∈ allowedRead text, showsHalves val = false
    · exact Or.inl hhalves
    · rw [not_forall₂] at hhalves
      obtain ⟨val, hval, hshows⟩ := hhalves
      refine Or.inr (htrue (List.any_eq_true.2 ⟨val, hval, ?_⟩))
      rw [Bool.not_eq_false] at hshows
      rw [allowedIpsIsFullTunnel_eq, hshows, Bool.or_true]
  · rintro (hhalves | hcovers) hfull
    · obtain ⟨val, hval, hany⟩ := List.any_eq_true.1 hfull
      rw [allowedIpsIsFullTunnel_eq, hhalves val hval, Bool.or_false] at hany
      exact covers_of_showsDefault hwell hval hany
    · exact hcovers

/-- A peer with these `AllowedIPs`. -/
def allowedText (val : String) : CStr :=
  ⟨cstr (bytes "[Interface]\nPrivateKey = QUJD\n[Peer]\nEndpoint = vpn.example:51820\nAllowedIPs = " ++
    bytes val ++ bytes "\n"), nul_notMem_cstr _⟩

/-- The two halves of IPv4 are a full tunnel. -/
theorem fullTunnelTrue_halves :
    (pmxVpnParseWireguard (allowedText "0.0.0.0/1, 128.0.0.0/1")).1.fullTunnel = true ∧
      FullTunnelTrue (allowedText "0.0.0.0/1, 128.0.0.0/1") := by
  have hlisted : allowedListed (allowedText "0.0.0.0/1, 128.0.0.0/1") =
      [bytes "0.0.0.0/1, 128.0.0.0/1"] := by decide +kernel
  have hwell : ∀ val ∈ [bytes "0.0.0.0/1, 128.0.0.0/1"], IsNetworkList val := by decide +kernel
  have hnogap : NoGap .v4 (listedNetworks (allowedText "0.0.0.0/1, 128.0.0.0/1")) := by
    rw [listedNetworks, hlisted]
    decide +kernel
  rw [← hlisted] at hwell
  exact ⟨by decide +kernel, (fullTunnelTrue_iff _ hwell).2 (Or.inr (Or.inl hnogap))⟩

/-- The upper half of IPv6 alone gets the badge. -/
theorem not_fullTunnelTrue_upperHalf :
    (∀ val ∈ allowedListed (allowedText "8000::/1"), IsNetworkList val) ∧
      (pmxVpnParseWireguard (allowedText "8000::/1")).1.fullTunnel = true ∧
      ¬FullTunnelTrue (allowedText "8000::/1") := by
  have hlisted : allowedListed (allowedText "8000::/1") = [bytes "8000::/1"] := by decide +kernel
  have hfull : (pmxVpnParseWireguard (allowedText "8000::/1")).1.fullTunnel = true := by decide +kernel
  have hgap : ∀ f, ¬NoGap f (([bytes "8000::/1"].flatMap networkTexts).map networkOf) := by
    intro f
    cases f with
    | v4 => decide +kernel
    | v6 => decide +kernel
  rw [FullTunnelTrue, listedNetworks, hlisted, covers_iff, covers_iff]
  refine ⟨by decide +kernel, hfull, fun htrue => ?_⟩
  rcases htrue hfull with hcovers | hcovers
  · exact hgap .v4 hcovers
  · exact hgap .v6 hcovers

end ProxiMight
