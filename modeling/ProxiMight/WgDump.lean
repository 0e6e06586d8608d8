import Mathlib.Algebra.BigOperators.Group.List.Basic
import Mathlib.Algebra.GroupWithZero.Nat
import Mathlib.Tactic.Cases
import ProxiMight.Decimal
import ProxiMight.Numbers
import ProxiMight.Separated
import ProxiMight.TextLines
import ProxiMight.Types

/-!
# The peers of a WireGuard tunnel (`pmx_wg_parse_dump`)

`wg show <if> dump` prints a line for the interface and one for each peer, with the AllowedIPs list before
the handshake and the counters.  Each line goes through a buffer of 1024 bytes.

* **`dumpLine_peer`** — a peer counts with all of its numbers where they end inside the buffer, and not at
  all where they do not.
* **`wgStatus_iff`** — the status is that of all peers just when the peers that do not count change
  neither a sum nor the latest handshake.
-/

namespace ProxiMight

open CString

/-! ### The functions -/

/-- `ULLONG_MAX`. -/
def ullongMax : UInt64 := 18446744073709551615

/-- `strtoull(s, NULL, 10)`. -/
def strtoull (s : List UInt8) : UInt64 :=
  let signed := takeSign (s.dropWhile isSpace)
  let v := digitsVal (signed.2.takeWhile isDigit)
  if ullongMax.toNat < v then ullongMax
  else if signed.1 then -(UInt64.ofNat v) else UInt64.ofNat v

/-- `split_fields`: the fields of a line, `max` at most. -/
def splitFields (sep : UInt8) : ℕ → List UInt8 → List (List UInt8)
  | 0, _ => []
  | max + 1, p =>
    p.takeWhile (· != sep) ::
      if sep ∈ p then splitFields sep max ((p.dropWhile (· != sep)).drop 1) else []

/-- The characters that `next_line` takes off the end of a line. -/
def isLineEnd (c : UInt8) : Bool := c == 13 || c == 10

/-- `next_line`: what it leaves in `char line[cap]` of a line of the text. -/
def nextLine (cap : ℕ) (raw : List UInt8) : List UInt8 := (raw.take (cap - 1)).rdropWhile isLineEnd

/-- `pmx_vpn_status`. -/
structure PmxVpnStatus where
  verified : Bool
  connected : Bool
  rxBytes : UInt64
  txBytes : UInt64
  lastHandshakeEpoch : UInt64
  assignedIp : CBuf pmxMaxIp
  detail : CBuf pmxMaxMsg

/-- After `memset(out, 0, sizeof(*out))`. -/
def PmxVpnStatus.zero : PmxVpnStatus := ⟨false, false, 0, 0, 0, .empty, .empty⟩

/-- The tab between two fields. -/
def tab : UInt8 := 9

/-- `sizeof(line)`. -/
def lineCap : ℕ := 1024

/-- `PMX_WG_HANDSHAKE_FRESH_S`. -/
def pmxWgHandshakeFreshS : UInt64 := 180

/-- One round of the loop over the lines: `saw_peer` and `out`. -/
def dumpLine (s : Bool × PmxVpnStatus) (raw : List UInt8) : Bool × PmxVpnStatus :=
  let line := nextLine lineCap raw
  if line = [] then s
  else
    let f := splitFields tab 10 line
    -- the interface line has 4 fields; peers have 8
    if f.length < 8 then s
    else
      let hs := strtoull (f.getD 4 [])
      (true,
        { s.2 with
          lastHandshakeEpoch := if hs > s.2.lastHandshakeEpoch then hs else s.2.lastHandshakeEpoch
          rxBytes := s.2.rxBytes + strtoull (f.getD 5 [])
          txBytes := s.2.txBytes + strtoull (f.getD 6 []) })

/-- The bullet character. -/
def bullet : List UInt8 := [0xE2, 0x80, 0xA2]

/-- What is made of the peers once the text is read. -/
def wgVerdict (now : UInt64) (s : Bool × PmxVpnStatus) : PmxStatus × PmxVpnStatus :=
  let out := s.2
  if s.1 = false then (.errParse, { out with detail := strlcpy pmxMaxMsg (bytes "wg reported no peer") })
  else if out.lastHandshakeEpoch = 0 then
    (.ok,
      { out with
        verified := true
        connected := false
        detail := strlcpy pmxMaxMsg (bytes "no handshake yet") })
  else
    let age := if now > out.lastHandshakeEpoch then now - out.lastHandshakeEpoch else 0
    (.ok,
      { out with
        verified := true
        connected := decide (age ≤ pmxWgHandshakeFreshS)
        detail := strlcpy pmxMaxMsg
          (bytes "handshake " ++ decimal age.toNat ++ bytes "s ago " ++ bullet ++ bytes " rx " ++
            decimal out.rxBytes.toNat ++ bytes " / tx " ++ decimal out.txBytes.toNat ++ bytes " bytes") })

/-- `pmx_wg_parse_dump`: the status, and what `out` holds afterwards. -/
def pmxWgParseDump (text : Option CStr) (now : UInt64) (out : PmxVpnStatus) : PmxStatus × PmxVpnStatus :=
  match text with
  | none => (.errInvalidArg, out)
  | some text => wgVerdict now ((TextLines.lines text.str).foldl dumpLine (false, .zero))

/-! ### The output of `wg show <if> dump` -/

/-- The text of a field: no tab, no line end, no NUL. -/
def WgField : Type := { s : List UInt8 // tab ∉ s ∧ TextLines.newline ∉ s ∧ 13 ∉ s ∧ nul ∉ s }

/-- A peer. -/
structure WgPeer where
  publicKey : WgField
  presharedKey : WgField
  endpoint : WgField
  allowedIps : WgField
  latestHandshake : UInt64
  transferRx : UInt64
  transferTx : UInt64
  persistentKeepalive : WgField

/-- The first seven fields of a peer. -/
def WgPeer.numbered (p : WgPeer) : List (List UInt8) :=
  [p.publicKey.1, p.presharedKey.1, p.endpoint.1, p.allowedIps.1, decimal p.latestHandshake.toNat,
    decimal p.transferRx.toNat, decimal p.transferTx.toNat]

/-- Fields, each with the tab behind it. -/
def tabbed (fs : List (List UInt8)) : List UInt8 := fs.flatMap (· ++ [tab])

/-- The line of a peer. -/
def WgPeer.line (p : WgPeer) : List UInt8 := tabbed p.numbered ++ p.persistentKeepalive.1

/-- The numbers of a peer end, with the tab behind them, inside the buffer. -/
def WgPeer.Fits (p : WgPeer) : Prop := (tabbed p.numbered).length < lineCap

instance (p : WgPeer) : Decidable p.Fits := inferInstanceAs (Decidable (_ < _))

/-- An interface with its peers. -/
structure WgDump where
  privateKey : WgField
  publicKey : WgField
  listenPort : WgField
  fwmark : WgField
  peers : List WgPeer

/-- The line of the interface. -/
def WgDump.head (d : WgDump) : List UInt8 :=
  tabbed [d.privateKey.1, d.publicKey.1, d.listenPort.1] ++ d.fwmark.1

/-- The lines of a dump. -/
def WgDump.lines (d : WgDump) : List (List UInt8) := d.head :: d.peers.map WgPeer.line

/-- A line, ended by LF or by CRLF. -/
def EndsAs (raw line : List UInt8) : Prop := raw = line ∨ raw = line ++ [13]

/-- The text prints the dump. -/
def IsDump (d : WgDump) (text : CStr) : Prop := List.Forall₂ EndsAs (TextLines.lines text.str) d.lines

/-! ### Numbers -/

theorem strtoull_decimal (n : UInt64) : strtoull (decimal n.toNat) = n := by
  have hparts : NumberParts [] [] (decimal n.toNat) [] :=
    ⟨by simp, Or.inl rfl, isDigit_of_mem_decimal _, decimal_ne_nil _, by simp⟩
  have hspace : (decimal n.toNat).dropWhile isSpace = decimal n.toNat := by
    simpa using hparts.dropWhile_isSpace
  have hsign : takeSign (decimal n.toNat) = (false, decimal n.toNat) := by
    simpa using hparts.takeSign_eq
  have hdigits : (decimal n.toNat).takeWhile isDigit = decimal n.toNat :=
    List.takeWhile_eq_self_iff.2 (isDigit_of_mem_decimal _)
  have hle : ¬ ullongMax.toNat < n.toNat := by
    have hlt := n.toNat_lt
    show ¬ 18446744073709551615 < n.toNat
    omega
  simp only [strtoull, hspace, hsign, hdigits, digitsVal_decimal, if_neg hle, Bool.false_eq_true, if_false,
    UInt64.ofNat_toNat]

/-! ### Fields -/

section Fields

variable {sep : UInt8}

theorem splitFields_last {piece : List UInt8} (h : sep ∉ piece) (max : ℕ) :
    splitFields sep (max + 1) piece = [piece] := by
  rw [splitFields, if_neg h, List.takeWhile_eq_self_iff.2 (Separated.bne_of_notMem h)]

theorem splitFields_append {piece : List UInt8} (h : sep ∉ piece) (rest : List UInt8) (max : ℕ) :
    splitFields sep (max + 1) (piece ++ sep :: rest) = piece :: splitFields sep max rest := by
  rw [splitFields, if_pos (by simp), Separated.takeWhile_piece_append h, Separated.dropWhile_piece_append h]
  rfl

theorem splitFields_ne_nil (max : ℕ) (p : List UInt8) : 0 < (splitFields sep (max + 1) p).length := by
  rw [splitFields]
  exact Nat.succ_pos _

/-- There is a field behind each separator, and one before the first. -/
theorem length_splitFields_le (max : ℕ) (p : List UInt8) :
    (splitFields sep max p).length ≤ p.count sep + 1 := by
  induction p using Separated.piece_induction sep generalizing max with
  | last piece hpiece =>
    cases max with
    | zero => simp [splitFields]
    | succ max =>
      rw [splitFields_last hpiece]
      simp
  | cons piece rest hpiece ih =>
    cases max with
    | zero => simp [splitFields]
    | succ max =>
      have hrest := ih max
      rw [splitFields_append hpiece]
      simp only [List.length_cons, List.count_append, List.count_cons_self]
      omega

end Fields

theorem splitFields_tabbed {fs : List (List UInt8)} (h : ∀ f ∈ fs, tab ∉ f) (rest : List UInt8) (max : ℕ) :
    splitFields tab (max + fs.length) (tabbed fs ++ rest) = fs ++ splitFields tab max rest := by
  induction fs with
  | nil => rfl
  | cons f fs ih =>
    have hf := h f List.mem_cons_self
    have hcons : tabbed (f :: fs) ++ rest = f ++ tab :: (tabbed fs ++ rest) := by simp [tabbed]
    rw [hcons, List.length_cons, ← Nat.add_assoc, splitFields_append hf,
      ih fun g hg => h g (List.mem_cons_of_mem f hg)]
    rfl

theorem count_tabbed {fs : List (List UInt8)} (h : ∀ f ∈ fs, tab ∉ f) :
    (tabbed fs).count tab = fs.length := by
  induction fs with
  | nil => rfl
  | cons f fs ih =>
    have hf : f.count tab = 0 := List.count_eq_zero.2 (h f List.mem_cons_self)
    have hcons : tabbed (f :: fs) = f ++ tab :: tabbed fs := by simp [tabbed]
    rw [hcons, List.count_append, List.count_cons_self, hf, ih fun g hg => h g (List.mem_cons_of_mem f hg),
      List.length_cons, Nat.zero_add]

/-! ### The lines of a dump -/

theorem notMem_decimal {c : UInt8} (h : isDigit c = false) (n : ℕ) : c ∉ decimal n := by
  intro hmem
  rw [isDigit_of_mem_decimal n c hmem] at h
  cases h

theorem WgPeer.tab_notMem (p : WgPeer) : ∀ f ∈ p.numbered, tab ∉ f := by
  have htab : ∀ n : ℕ, tab ∉ decimal n := notMem_decimal rfl
  simp [numbered, htab, p.publicKey.2.1, p.presharedKey.2.1, p.endpoint.2.1, p.allowedIps.2.1]

/-- A line cut before its seventh tab has too few fields. -/
theorem dumpLine_of_count {raw : List UInt8} (h : (raw.take (lineCap - 1)).count tab < 7)
    (s : Bool × PmxVpnStatus) : dumpLine s raw = s := by
  have hcut : (nextLine lineCap raw).count tab ≤ (raw.take (lineCap - 1)).count tab :=
    (List.rdropWhile_prefix _ _).sublist.count_le tab
  have hfields : (splitFields tab 10 _).length ≤ _ := length_splitFields_le 10 (nextLine lineCap raw)
  rw [dumpLine]
  split_ifs
  · rfl
  · dsimp only
    rw [if_pos (by omega)]

theorem count_take_le (raw : List UInt8) : (raw.take (lineCap - 1)).count tab ≤ raw.count tab :=
  (List.take_prefix _ _).sublist.count_le tab

theorem EndsAs.count_tab {raw line : List UInt8} (h : EndsAs raw line) : raw.count tab = line.count tab := by
  rcases h with rfl | rfl
  · rfl
  · rw [List.count_append]
    rfl

/-- The line of the interface is passed over. -/
theorem dumpLine_head (d : WgDump) {raw : List UInt8} (h : EndsAs raw d.head) (s : Bool × PmxVpnStatus) :
    dumpLine s raw = s := by
  have hcount : d.head.count tab = 3 := by
    rw [WgDump.head, List.count_append,
      count_tabbed (by simp [d.privateKey.2.1, d.publicKey.2.1, d.listenPort.2.1]),
      List.count_eq_zero.2 d.fwmark.2.1]
    rfl
  have hcut := count_take_le raw
  rw [h.count_tab, hcount] at hcut
  exact dumpLine_of_count (by omega) s

/-- A peer, counted. -/
def addPeer (s : Bool × PmxVpnStatus) (p : WgPeer) : Bool × PmxVpnStatus :=
  (true,
    { s.2 with
      lastHandshakeEpoch :=
        if p.latestHandshake > s.2.lastHandshakeEpoch then p.latestHandshake else s.2.lastHandshakeEpoch
      rxBytes := s.2.rxBytes + p.transferRx
      txBytes := s.2.txBytes + p.transferTx })

/-- What stands before a tab is not taken off the end of a line. -/
theorem rdropWhile_append_tab (front rest : List UInt8) :
    ∃ rest', (front ++ [tab] ++ rest).rdropWhile isLineEnd = front ++ [tab] ++ rest' := by
  induction rest using List.reverseRecOn with
  | nil => exact ⟨[], by rw [List.append_nil, List.rdropWhile_concat_neg _ _ _ (by decide)]⟩
  | append_singleton rest c ih =>
    rw [← List.append_assoc]
    by_cases hc : isLineEnd c = true
    · rw [List.rdropWhile_concat_pos _ _ _ hc]
      exact ih
    · rw [List.rdropWhile_concat_neg _ _ _ hc]
      exact ⟨rest ++ [c], List.append_assoc _ _ _⟩

theorem tabbed_concat (fs : List (List UInt8)) (f : List UInt8) :
    tabbed (fs ++ [f]) = (tabbed fs ++ f) ++ [tab] := by
  simp [tabbed]

theorem WgPeer.tabbed_numbered (p : WgPeer) :
    tabbed p.numbered = tabbed p.numbered.dropLast ++ decimal p.transferTx.toNat ++ [tab] :=
  tabbed_concat p.numbered.dropLast (decimal p.transferTx.toNat)

theorem nextLine_fits {p : WgPeer} (hfits : p.Fits) (more : List UInt8) :
    ∃ rest, nextLine lineCap (tabbed p.numbered ++ more) = tabbed p.numbered ++ rest := by
  have hlen : (tabbed p.numbered).length ≤ lineCap - 1 := Nat.le_sub_one_of_lt hfits
  rw [nextLine, List.take_append, List.take_of_length_le hlen]
  generalize more.take (lineCap - 1 - (tabbed p.numbered).length) = more'
  rw [p.tabbed_numbered]
  exact rdropWhile_append_tab _ more'

theorem dumpLine_fits {p : WgPeer} (hfits : p.Fits) (more : List UInt8) (s : Bool × PmxVpnStatus) :
    dumpLine s (tabbed p.numbered ++ more) = addPeer s p := by
  obtain ⟨rest, hrest⟩ := nextLine_fits hfits more
  have hfields : splitFields tab 10 (tabbed p.numbered ++ rest) = p.numbered ++ splitFields tab 3 rest :=
    splitFields_tabbed p.tab_notMem rest 3
  have hlast : 0 < (splitFields tab 3 rest).length := splitFields_ne_nil 2 rest
  have hlen : ¬ (p.numbered ++ splitFields tab 3 rest).length < 8 := by
    rw [List.length_append, show p.numbered.length = 7 from rfl]
    omega
  have hne : tabbed p.numbered ++ rest ≠ [] := by simp [tabbed, WgPeer.numbered]
  rw [dumpLine, hrest, if_neg hne, hfields]
  dsimp only
  rw [if_neg hlen]
  simp only [WgPeer.numbered, List.cons_append, List.getD_cons_succ, List.getD_cons_zero, strtoull_decimal]
  rfl

theorem dumpLine_cut {p : WgPeer} (hfits : ¬ p.Fits) (more : List UInt8) (s : Bool × PmxVpnStatus) :
    dumpLine s (tabbed p.numbered ++ more) = s := by
  have hlen : lineCap ≤ (tabbed p.numbered).length := Nat.le_of_not_lt hfits
  have hcap : lineCap = 1024 := rfl
  have hfront := congrArg List.length p.tabbed_numbered
  rw [List.length_append, List.length_singleton] at hfront
  have hcount : (tabbed p.numbered).count tab = 7 := count_tabbed p.tab_notMem
  rw [p.tabbed_numbered, List.count_append, List.count_singleton_self] at hcount
  apply dumpLine_of_count
  rw [p.tabbed_numbered, List.append_assoc, List.take_append_of_le_length (by omega)]
  have hcut := (List.take_prefix (lineCap - 1)
    (tabbed p.numbered.dropLast ++ decimal p.transferTx.toNat)).sublist.count_le tab
  omega

/-- **A peer counts wholly or not at all.** -/
theorem dumpLine_peer (p : WgPeer) {raw : List UInt8} (h : EndsAs raw p.line) (s : Bool × PmxVpnStatus) :
    dumpLine s raw = if p.Fits then addPeer s p else s := by
  obtain ⟨more, rfl⟩ : ∃ more, raw = tabbed p.numbered ++ more := by
    rcases h with rfl | rfl
    · exact ⟨_, rfl⟩
    · exact ⟨_, List.append_assoc _ _ _⟩
  split_ifs with hfits
  · exact dumpLine_fits hfits more s
  · exact dumpLine_cut hfits more s

/-- The peers whose numbers are read. -/
def WgDump.counted (d : WgDump) : List WgPeer := d.peers.filter fun p => p.Fits

theorem foldl_dumpLine_peers {ps : List WgPeer} {raws : List (List UInt8)}
    (h : List.Forall₂ EndsAs raws (ps.map WgPeer.line)) (s : Bool × PmxVpnStatus) :
    raws.foldl dumpLine s = (ps.filter fun p => p.Fits).foldl addPeer s := by
  induction ps generalizing raws s with
  | nil =>
    cases List.forall₂_nil_right_iff.1 h
    rfl
  | cons p ps ih =>
    obtain ⟨raw, raws, hraw, hrest, rfl⟩ := List.forall₂_cons_right_iff.1 h
    rw [List.foldl_cons, dumpLine_peer p hraw, ih hrest]
    by_cases hfits : p.Fits
    · rw [if_pos hfits, List.filter_cons_of_pos (by simpa using hfits), List.foldl_cons]
    · rw [if_neg hfits, List.filter_cons_of_neg (by simpa using hfits)]

/-- The loop counts the peers that fit. -/
theorem foldl_dumpLine {d : WgDump} {text : CStr} (h : IsDump d text) (s : Bool × PmxVpnStatus) :
    (TextLines.lines text.str).foldl dumpLine s = d.counted.foldl addPeer s := by
  obtain ⟨raw, raws, hraw, hrest, heq⟩ := List.forall₂_cons_right_iff.1 h
  rw [heq, List.foldl_cons, dumpLine_head d hraw, foldl_dumpLine_peers hrest]
  rfl

/-! ### A text for every dump -/

theorem notMem_tabbed {c : UInt8} {fs : List (List UInt8)} (hc : c ≠ tab) (h : ∀ f ∈ fs, c ∉ f) :
    c ∉ tabbed fs := by
  rw [tabbed, List.mem_flatMap]
  rintro ⟨f, hf, hmem⟩
  rcases List.mem_append.1 hmem with hin | hin
  · exact h f hf hin
  · exact hc (List.mem_singleton.1 hin)

theorem WgDump.notMem_lines (d : WgDump) : ∀ l ∈ d.lines, TextLines.newline ∉ l ∧ nul ∉ l := by
  have hnewline : ∀ n : ℕ, TextLines.newline ∉ decimal n := notMem_decimal rfl
  have hnul : ∀ n : ℕ, nul ∉ decimal n := notMem_decimal rfl
  rw [WgDump.lines, List.forall_mem_cons]
  refine ⟨⟨?_, ?_⟩, List.forall_mem_map.2 fun p _ => ⟨?_, ?_⟩⟩ <;>
    refine List.not_mem_append (notMem_tabbed (by decide) ?_) ?_
  · simp [d.privateKey.2.2.1, d.publicKey.2.2.1, d.listenPort.2.2.1]
  · exact d.fwmark.2.2.1
  · simp [d.privateKey.2.2.2.2, d.publicKey.2.2.2.2, d.listenPort.2.2.2.2]
  · exact d.fwmark.2.2.2.2
  · simp [WgPeer.numbered, hnewline, p.publicKey.2.2.1, p.presharedKey.2.2.1, p.endpoint.2.2.1,
      p.allowedIps.2.2.1]
  · exact p.persistentKeepalive.2.2.1
  · simp [WgPeer.numbered, hnul, p.publicKey.2.2.2.2, p.presharedKey.2.2.2.2, p.endpoint.2.2.2.2,
      p.allowedIps.2.2.2.2]
  · exact p.persistentKeepalive.2.2.2.2

/-- The text of a dump, with LF behind each line. -/
def WgDump.text (d : WgDump) : CStr :=
  ⟨TextLines.unlines d.lines, by
    rw [TextLines.unlines, List.mem_flatMap]
    rintro ⟨l, hl, hmem⟩
    rcases List.mem_append.1 hmem with hin | hin
    · exact (d.notMem_lines l hl).2 hin
    · cases List.mem_singleton.1 hin⟩

theorem WgDump.isDump_text (d : WgDump) : IsDump d d.text := by
  show List.Forall₂ EndsAs (TextLines.lines (TextLines.unlines d.lines)) d.lines
  rw [TextLines.lines_unlines fun l hl => (d.notMem_lines l hl).1, List.forall₂_same]
  exact fun l _ => Or.inl rfl

/-! ### Sums and the latest handshake -/

/-- The sum of a counter. -/
def total (count : WgPeer → UInt64) (ps : List WgPeer) : ℕ := (ps.map fun p => (count p).toNat).sum

theorem total_cons (count : WgPeer → UInt64) (p : WgPeer) (ps : List WgPeer) :
    total count (p :: ps) = (count p).toNat + total count ps := by
  simp [total]

/-- The sum over all is that over the peers that fit and that over the others. -/
theorem total_filter (count : WgPeer → UInt64) (ps : List WgPeer) :
    total count ps =
      total count (ps.filter fun p => p.Fits) + total count (ps.filter fun p => ¬ p.Fits) := by
  induction ps with
  | nil => rfl
  | cons p ps ih =>
    rw [total_cons, ih]
    by_cases hfits : p.Fits
    · rw [List.filter_cons_of_pos (by simpa using hfits), List.filter_cons_of_neg (by simpa using hfits),
        total_cons]
      omega
    · rw [List.filter_cons_of_neg (by simpa using hfits), List.filter_cons_of_pos (by simpa using hfits),
        total_cons]
      omega

theorem foldl_addPeer_fst (ps : List WgPeer) (s : Bool × PmxVpnStatus) :
    (ps.foldl addPeer s).1 = (s.1 || !ps.isEmpty) := by
  induction ps generalizing s with
  | nil => simp
  | cons p ps ih =>
    rw [List.foldl_cons, ih]
    simp [addPeer]

theorem foldl_addPeer_rx (ps : List WgPeer) (s : Bool × PmxVpnStatus) :
    (ps.foldl addPeer s).2.rxBytes.toNat = (s.2.rxBytes.toNat + total (·.transferRx) ps) % 2 ^ 64 := by
  induction ps generalizing s with
  | nil => exact (Nat.mod_eq_of_lt s.2.rxBytes.toNat_lt).symm
  | cons p ps ih =>
    rw [List.foldl_cons, ih, total_cons]
    show ((s.2.rxBytes + p.transferRx).toNat + _) % 2 ^ 64 = _
    rw [UInt64.toNat_add]
    omega

theorem foldl_addPeer_tx (ps : List WgPeer) (s : Bool × PmxVpnStatus) :
    (ps.foldl addPeer s).2.txBytes.toNat = (s.2.txBytes.toNat + total (·.transferTx) ps) % 2 ^ 64 := by
  induction ps generalizing s with
  | nil => exact (Nat.mod_eq_of_lt s.2.txBytes.toNat_lt).symm
  | cons p ps ih =>
    rw [List.foldl_cons, ih, total_cons]
    show ((s.2.txBytes + p.transferTx).toNat + _) % 2 ^ 64 = _
    rw [UInt64.toNat_add]
    omega

/-- The latest handshake of some peers. -/
structure Latest (ps : List WgPeer) (h : UInt64) : Prop where
  mem : ∃ p ∈ ps, p.latestHandshake = h
  le : ∀ p ∈ ps, p.latestHandshake ≤ h

theorem Latest.unique {ps : List WgPeer} {g h : UInt64} (hg : Latest ps g) (hh : Latest ps h) : g = h := by
  obtain ⟨p, hp, rfl⟩ := hg.mem
  obtain ⟨q, hq, rfl⟩ := hh.mem
  exact UInt64.le_antisymm (hh.le p hp) (hg.le q hq)

theorem foldl_addPeer_handshake (ps : List WgPeer) (s : Bool × PmxVpnStatus) :
    let h := (ps.foldl addPeer s).2.lastHandshakeEpoch
    (h = s.2.lastHandshakeEpoch ∨ ∃ p ∈ ps, p.latestHandshake = h) ∧ s.2.lastHandshakeEpoch ≤ h ∧
      ∀ p ∈ ps, p.latestHandshake ≤ h := by
  induction ps generalizing s with
  | nil => exact ⟨Or.inl rfl, UInt64.le_refl _, by simp⟩
  | cons p ps ih =>
    obtain ⟨hfrom, hle, hall⟩ := ih (addPeer s p)
    have hnext : (addPeer s p).2.lastHandshakeEpoch =
        if p.latestHandshake > s.2.lastHandshakeEpoch then p.latestHandshake
        else s.2.lastHandshakeEpoch := rfl
    rw [hnext] at hfrom hle
    dsimp only
    rw [List.foldl_cons]
    split_ifs at hfrom hle with hlater
    · refine ⟨Or.inr ?_, UInt64.le_trans (UInt64.le_of_lt hlater) hle, ?_⟩
      · rcases hfrom with heq | ⟨q, hq, heq⟩
        · exact ⟨p, List.mem_cons_self, heq.symm⟩
        · exact ⟨q, List.mem_cons_of_mem p hq, heq⟩
      · exact List.forall_mem_cons.2 ⟨hle, hall⟩
    · refine ⟨?_, hle, List.forall_mem_cons.2 ⟨UInt64.le_trans (UInt64.not_lt.1 hlater) hle, hall⟩⟩
      rcases hfrom with heq | ⟨q, hq, heq⟩
      · exact Or.inl heq
      · exact Or.inr ⟨q, List.mem_cons_of_mem p hq, heq⟩

theorem latest_foldl_addPeer {ps : List WgPeer} (hne : ps ≠ []) :
    Latest ps (ps.foldl addPeer (false, .zero)).2.lastHandshakeEpoch := by
  obtain ⟨hfrom, -, hall⟩ := foldl_addPeer_handshake ps (false, .zero)
  refine ⟨?_, hall⟩
  rcases hfrom with hzero | hmem
  · obtain ⟨p, hp⟩ := List.exists_mem_of_ne_nil ps hne
    have hle := hall p hp
    rw [hzero] at hle ⊢
    exact ⟨p, hp, UInt64.le_antisymm hle (UInt64.zero_le)⟩
  · exact hmem

/-- It does not matter in which order peers are counted. -/
theorem addPeer_comm (s : Bool × PmxVpnStatus) (p q : WgPeer) :
    addPeer (addPeer s p) q = addPeer (addPeer s q) p := by
  have hlast : ∀ a b c : UInt64,
      (if c > (if b > a then b else a) then c else if b > a then b else a) =
        if b > (if c > a then c else a) then b else if c > a then c else a := by
    intro a b c
    grind
  have hadd : ∀ a b c : UInt64, a + b + c = a + c + b := by
    intro a b c
    rw [UInt64.add_assoc, UInt64.add_comm b c, UInt64.add_assoc]
  dsimp only [addPeer]
  rw [hlast s.2.lastHandshakeEpoch p.latestHandshake q.latestHandshake,
    hadd s.2.rxBytes p.transferRx q.transferRx, hadd s.2.txBytes p.transferTx q.transferTx]

/-! ### The verdict -/

/-- What is read from the text with these peers is the verdict over those that fit. -/
theorem pmxWgParseDump_eq {d : WgDump} {text : CStr} (h : IsDump d text) (now : UInt64)
    (out : PmxVpnStatus) :
    pmxWgParseDump (some text) now out = wgVerdict now (d.counted.foldl addPeer (false, .zero)) := by
  show wgVerdict now ((TextLines.lines text.str).foldl dumpLine (false, .zero)) = _
  rw [foldl_dumpLine h]

theorem wgVerdict_none (now : UInt64) {s : Bool × PmxVpnStatus} (h : s.1 = false) :
    (wgVerdict now s).1 = .errParse := by
  rw [wgVerdict, if_pos h]

theorem age_le_iff (now last : UInt64) :
    (if now > last then now - last else 0) ≤ pmxWgHandshakeFreshS ↔ now.toNat ≤ last.toNat + 180 := by
  have hfresh : pmxWgHandshakeFreshS.toNat = 180 := rfl
  rw [UInt64.le_iff_toNat_le, hfresh]
  split_ifs with hlater
  · rw [UInt64.toNat_sub_of_le _ _ (UInt64.le_of_lt hlater)]
    omega
  · have hle := UInt64.le_iff_toNat_le.1 (UInt64.not_lt.1 hlater)
    rw [UInt64.toNat_zero]
    omega

/-- With a peer seen, the verdict keeps the numbers and judges the latest handshake by its age. -/
theorem wgVerdict_seen (now : UInt64) {s : Bool × PmxVpnStatus} (h : s.1 = true) :
    (wgVerdict now s).1 = .ok ∧ (wgVerdict now s).2.rxBytes = s.2.rxBytes ∧
      (wgVerdict now s).2.txBytes = s.2.txBytes ∧
      (wgVerdict now s).2.lastHandshakeEpoch = s.2.lastHandshakeEpoch ∧
      ((wgVerdict now s).2.connected = true ↔
        s.2.lastHandshakeEpoch ≠ 0 ∧ now.toNat ≤ s.2.lastHandshakeEpoch.toNat + 180) := by
  rw [wgVerdict, if_neg (by rw [h]; exact Bool.true_eq_false.mp)]
  by_cases hzero : s.2.lastHandshakeEpoch = 0
  · rw [if_pos hzero]
    exact ⟨rfl, rfl, rfl, rfl, by simp [hzero]⟩
  · rw [if_neg hzero]
    refine ⟨rfl, rfl, rfl, rfl, ?_⟩
    dsimp only
    rw [decide_eq_true_eq, age_le_iff]
    exact (and_iff_right hzero).symm

theorem WgDump.counted_ne_nil {d : WgDump} : d.counted ≠ [] ↔ ∃ p ∈ d.peers, p.Fits := by
  simp [counted, List.filter_eq_nil_iff]

/-- Where no peer fits, none is seen. -/
theorem pmxWgParseDump_unseen {d : WgDump} {text : CStr} (h : IsDump d text) (hnone : d.counted = [])
    (now : UInt64) (out : PmxVpnStatus) : (pmxWgParseDump (some text) now out).1 = .errParse := by
  rw [pmxWgParseDump_eq h, hnone]
  exact wgVerdict_none now rfl

/-- Where one fits, the status is that of the peers that fit. -/
theorem pmxWgParseDump_seen {d : WgDump} {text : CStr} (h : IsDump d text) (hone : d.counted ≠ [])
    (now : UInt64) (out : PmxVpnStatus) :
    (pmxWgParseDump (some text) now out).1 = .ok ∧
      (pmxWgParseDump (some text) now out).2.rxBytes.toNat = total (·.transferRx) d.counted % 2 ^ 64 ∧
      (pmxWgParseDump (some text) now out).2.txBytes.toNat = total (·.transferTx) d.counted % 2 ^ 64 ∧
      ∃ last, (pmxWgParseDump (some text) now out).2.lastHandshakeEpoch = last ∧ Latest d.counted last ∧
        ((pmxWgParseDump (some text) now out).2.connected = true ↔
          last ≠ 0 ∧ now.toNat ≤ last.toNat + 180) := by
  have hseen : (d.counted.foldl addPeer (false, .zero)).1 = true := by
    rw [foldl_addPeer_fst]
    simpa using hone
  obtain ⟨hok, hrx, htx, hlast, hconnected⟩ := wgVerdict_seen now hseen
  rw [pmxWgParseDump_eq h]
  refine ⟨hok, ?_, ?_, _, hlast, latest_foldl_addPeer hone, hconnected⟩
  · rw [hrx, foldl_addPeer_rx]
    exact congrArg (· % 2 ^ 64) (Nat.zero_add _)
  · rw [htx, foldl_addPeer_tx]
    exact congrArg (· % 2 ^ 64) (Nat.zero_add _)

/-- The status is that of all peers of the dump. -/
structure StatusOfAll (d : WgDump) (text : CStr) (now : UInt64) (out : PmxVpnStatus) : Prop where
  status : (pmxWgParseDump (some text) now out).1 = .ok
  rx : (pmxWgParseDump (some text) now out).2.rxBytes.toNat = total (·.transferRx) d.peers % 2 ^ 64
  tx : (pmxWgParseDump (some text) now out).2.txBytes.toNat = total (·.transferTx) d.peers % 2 ^ 64
  latest : Latest d.peers (pmxWgParseDump (some text) now out).2.lastHandshakeEpoch
  connected : (pmxWgParseDump (some text) now out).2.connected = true ↔
    ∃ last, Latest d.peers last ∧ last ≠ 0 ∧ now.toNat ≤ last.toNat + 180
  order : ∀ (d' : WgDump) (text' : CStr) (out' : PmxVpnStatus), d'.peers.Perm d.peers →
    IsDump d' text' → pmxWgParseDump (some text') now out' = pmxWgParseDump (some text) now out

/-- The peers that do not fit change nothing of what is made of the others. -/
structure CutAddsNothing (ps : List WgPeer) : Prop where
  one : ∃ p ∈ ps, p.Fits
  rx : total (·.transferRx) (ps.filter fun p => ¬ p.Fits) % 2 ^ 64 = 0
  tx : total (·.transferTx) (ps.filter fun p => ¬ p.Fits) % 2 ^ 64 = 0
  handshake : ∀ p ∈ ps, ¬ p.Fits → ∃ q ∈ ps, q.Fits ∧ p.latestHandshake ≤ q.latestHandshake

/-- The status does not depend on the order of the peers. -/
theorem pmxWgParseDump_perm {d d' : WgDump} {text text' : CStr} (h : IsDump d text) (h' : IsDump d' text')
    (hperm : d'.peers.Perm d.peers) (now : UInt64) (out out' : PmxVpnStatus) :
    pmxWgParseDump (some text') now out' = pmxWgParseDump (some text) now out := by
  have hcounted : d'.counted.Perm d.counted := hperm.filter _
  rw [pmxWgParseDump_eq h, pmxWgParseDump_eq h',
    hcounted.foldl_eq' (fun p _ q _ s => addPeer_comm s p q) (false, .zero)]

/-- The latest handshake of those that fit is that of all, where no other is later. -/
theorem Latest.of_filter {ps : List WgPeer} {last : UInt64} (h : Latest (ps.filter fun p => p.Fits) last)
    (hothers : ∀ p ∈ ps, ¬ p.Fits → ∃ q ∈ ps, q.Fits ∧ p.latestHandshake ≤ q.latestHandshake) :
    Latest ps last := by
  have hfit : ∀ p ∈ ps, p.Fits → p.latestHandshake ≤ last :=
    fun p hp hfits => h.le p (List.mem_filter.2 ⟨hp, decide_eq_true hfits⟩)
  obtain ⟨p, hp, heq⟩ := h.mem
  refine ⟨⟨p, (List.mem_filter.1 hp).1, heq⟩, fun q hq => ?_⟩
  by_cases hfits : q.Fits
  · exact hfit q hq hfits
  · obtain ⟨q', hq', hfits', hle⟩ := hothers q hq hfits
    exact UInt64.le_trans hle (hfit q' hq' hfits')

/-- **The status is that of all peers just when those that are cut add nothing.** -/
theorem wgStatus_iff (d : WgDump) (text : CStr) (hdump : IsDump d text) (now : UInt64)
    (out : PmxVpnStatus) : StatusOfAll d text now out ↔ CutAddsNothing d.peers := by
  have hsplitRx : _ = total _ d.counted + _ := total_filter (·.transferRx) d.peers
  have hsplitTx : _ = total _ d.counted + _ := total_filter (·.transferTx) d.peers
  constructor
  · intro h
    have hone : d.counted ≠ [] := by
      intro hnone
      have hstatus := h.status
      rw [pmxWgParseDump_unseen hdump hnone] at hstatus
      cases hstatus
    obtain ⟨-, hrx, htx, last, hlast, hcounted, -⟩ := pmxWgParseDump_seen hdump hone now out
    refine ⟨WgDump.counted_ne_nil.1 hone, ?_, ?_, ?_⟩
    · have hall := h.rx
      omega
    · have hall := h.tx
      omega
    · intro p hp _
      have hle := h.latest.le p hp
      obtain ⟨q, hq, rfl⟩ := hcounted.mem
      obtain ⟨hq, hfits⟩ := List.mem_filter.1 hq
      exact ⟨q, hq, of_decide_eq_true hfits, by rwa [hlast] at hle⟩
  · intro h
    have hone := WgDump.counted_ne_nil.2 h.one
    obtain ⟨hok, hrx, htx, last, hlast, hcounted, hconnected⟩ := pmxWgParseDump_seen hdump hone now out
    have hlatest := hcounted.of_filter h.handshake
    refine ⟨hok, ?_, ?_, by rw [hlast]; exact hlatest, ?_, ?_⟩
    · have hcut := h.rx
      omega
    · have hcut := h.tx
      omega
    · rw [hconnected]
      constructor
      · exact fun hfresh => ⟨last, hlatest, hfresh⟩
      · rintro ⟨last', hlast', hfresh⟩
        rwa [hlatest.unique hlast']
    · exact fun d' text' out' hperm hdump' => pmxWgParseDump_perm hdump hdump' hperm now out out'

/-- A field with this text. -/
def wgField (s : List UInt8) (h : tab ∉ s ∧ TextLines.newline ∉ s ∧ 13 ∉ s ∧ nul ∉ s) : WgField := ⟨s, h⟩

/-- Two peers, one network each. -/
def twoPeers : WgDump where
  privateKey := wgField (bytes "PRIVKEYAAA") (by decide)
  publicKey := wgField (bytes "PUBKEYBBB") (by decide)
  listenPort := wgField (bytes "51820") (by decide)
  fwmark := wgField (bytes "off") (by decide)
  peers :=
    [⟨wgField (bytes "PEERPUB1") (by decide), wgField (bytes "(none)") (by decide),
        wgField (bytes "1.2.3.4:51820") (by decide), wgField (bytes "0.0.0.0/0") (by decide),
        1700000000, 1000, 2000, wgField (bytes "25") (by decide)⟩,
      ⟨wgField (bytes "PEERPUB2") (by decide), wgField (bytes "(none)") (by decide),
        wgField (bytes "5.6.7.8:51820") (by decide), wgField (bytes "10.0.0.0/8") (by decide),
        1700000030, 500, 700, wgField (bytes "0") (by decide)⟩]

theorem twoPeers_fit : ∀ p ∈ twoPeers.peers, p.Fits := by
  simp only [twoPeers, List.forall_mem_cons]
  exact ⟨by decide +kernel, by decide +kernel, by simp⟩

/-- The status of the two peers is that of both. -/
theorem wgStatus_twoPeers : StatusOfAll twoPeers twoPeers.text 1700000060 .zero := by
  refine (wgStatus_iff twoPeers twoPeers.text twoPeers.isDump_text 1700000060 .zero).2 ?_
  have hcut : twoPeers.peers.filter (fun p => ¬ p.Fits) = [] := by
    rw [List.filter_eq_nil_iff]
    intro p hp
    simpa using twoPeers_fit p hp
  refine ⟨⟨_, List.mem_cons_self, twoPeers_fit _ List.mem_cons_self⟩, ?_, ?_, ?_⟩
  · rw [hcut]
    rfl
  · rw [hcut]
    rfl
  · exact fun p hp hfits => absurd (twoPeers_fit p hp) hfits

/-- Ninety networks, as `wg` prints them. -/
def ninetyNetworks : List UInt8 :=
  List.intercalate [44] ((List.range 90).map fun i => bytes "10.10." ++ decimal i ++ bytes ".0/24")

/-- One peer that ninety networks are routed to. -/
def manyNetworks : WgDump where
  privateKey := wgField (bytes "PRIVKEYAAA") (by decide)
  publicKey := wgField (bytes "PUBKEYBBB") (by decide)
  listenPort := wgField (bytes "51820") (by decide)
  fwmark := wgField (bytes "off") (by decide)
  peers :=
    [⟨wgField (bytes "PEERPUB1") (by decide), wgField (bytes "(none)") (by decide),
      wgField (bytes "1.2.3.4:51820") (by decide), wgField ninetyNetworks (by decide +kernel),
      1700000000, 1000, 2000, wgField (bytes "25") (by decide)⟩]

/-- Its handshake is not seen: the status is that of a tunnel without peers. -/
theorem not_wgStatus_manyNetworks :
    ¬ ∀ (d : WgDump) (text : CStr), IsDump d text → d.peers ≠ [] → ∀ (now : UInt64) (out : PmxVpnStatus),
      StatusOfAll d text now out := by
  intro h
  have hnone : manyNetworks.counted = [] := by
    rw [WgDump.counted, manyNetworks]
    exact List.filter_cons_of_neg (by decide +kernel)
  have hstatus := (h manyNetworks manyNetworks.text manyNetworks.isDump_text (List.cons_ne_nil _ _)
    1700000060 .zero).status
  rw [pmxWgParseDump_unseen manyNetworks.isDump_text hnone] at hstatus
  cases hstatus

end ProxiMight
