import Mathlib.Data.List.Infix
import ProxiMight.OpenVpn

/-!
# Reading a WireGuard config (`pmx_vpn_parse_wireguard`)

The text is read line by line into a buffer of 1024 bytes; a longer line is cut.  A line is a section
header, an assignment to a key of the section, or nothing.  Of the two secret keys only the presence is
noted.

* **`wgLine_secret`** — what a line with a secret key does to the record.
* **`parseWireguard_keyBlind`** — two texts that differ in secrets only are read alike.
-/

namespace ProxiMight

open CString TextLines

/-- `sizeof(line)`. -/
def wgLineSize : ℕ := 1024

/-- The sections of a config. -/
inductive WgSection
  | none
  | iface
  | peer
  deriving DecidableEq

/-! ### Values -/

/-- `strstr(val, needle) != NULL`. -/
def contains (val : List UInt8) (needle : String) : Bool := decide (bytes needle <:+: val)

def allowedIpsIsFullTunnel (val : List UInt8) : Bool :=
  if contains val "0.0.0.0/0" || contains val "::/0" then true
  else if contains val "0.0.0.0/1" && contains val "128.0.0.0/1" then true
  else if contains val "::/1" && contains val "8000::/1" then true
  else false

/-- A port that was read as a `long`, if it is one. -/
def portInRange (v : ℤ) : Option PmxPort := if 0 < v ∧ v ≤ 65535 then some (portOfLong v) else none

/-- `parse_hostport` with a buffer of `hcap` bytes. -/
def parseHostport (s : List UInt8) (hcap : ℕ) : Option (List UInt8 × PmxPort) :=
  if s.head? = some 91 then
    let host := (s.drop 1).takeWhile (· != 93)
    match (s.drop 1).dropWhile (· != 93) with
    | _ :: 58 :: rest => (portInRange (strtol rest).1).map fun port => (host.take (hcap - 1), port)
    | _ => none
  else
    -- what ends in the last colon
    let host := (s.rdropWhile (· != 58)).dropLast
    if host = [] then none
    else
      (portInRange (strtol (s.rtakeWhile (· != 58))).1).map fun port => (host.take (hcap - 1), port)

/-! ### Lines -/

/-- The variables of the loop. -/
structure WgState where
  out : PmxVpn
  sec : WgSection
  deriving DecidableEq

def wgInit : WgState where
  out := { pmxVpnInit with kind := .wireguard }
  sec := .none

/-- The section a header starts. -/
def sectionOf (line : List UInt8) : WgSection :=
  if ciEq line (bytes "[Interface]") then .iface
  else if ciEq line (bytes "[Peer]") then .peer
  else .none

def wgInterfaceEntry (out : PmxVpn) (key val : List UInt8) : PmxVpn :=
  if ciEq key (bytes "PrivateKey") then { out with hasPrivateKey := true }
  else if ciEq key (bytes "Address") then { out with address := strlcpy pmxMaxHost val }
  else if ciEq key (bytes "DNS") then { out with dns := strlcpy pmxMaxHost val }
  else if ciEq key (bytes "MTU") then { out with mtu := (strtol val).1 }
  else out

def wgPeerEntry (out : PmxVpn) (key val : List UInt8) : PmxVpn :=
  if ciEq key (bytes "PublicKey") then { out with peerPublicKey := strlcpy 64 val }
  else if ciEq key (bytes "PresharedKey") then { out with hasPresharedKey := true }
  else if ciEq key (bytes "AllowedIPs") then
    { out with
        allowedIps := strlcpy pmxMaxAllowedIps val
        fullTunnel := if allowedIpsIsFullTunnel val then true else out.fullTunnel }
  else if ciEq key (bytes "Endpoint") then
    match parseHostport val pmxMaxHost with
    | some (host, port) => addEndpoint out host port true
    | none => out
  else if ciEq key (bytes "PersistentKeepalive") then
    { out with persistentKeepalive := (strtol val).1 }
  else out

/-- The assignment of a value to a key. -/
def wgEntry (st : WgState) (key val : List UInt8) : WgState :=
  match st.sec with
  | .iface => { st with out := wgInterfaceEntry st.out key val }
  | .peer => { st with out := wgPeerEntry st.out key val }
  | .none => st

/-- The character `=`. -/
def equals : UInt8 := 61

/-- The buffer `line` after `strip_comment` and `trim`. -/
def wgBuf (raw : List UInt8) : List UInt8 := trim (stripComment (raw.take (wgLineSize - 1)))

/-- One round of the loop, on the line `raw` of the text. -/
def wgLine (st : WgState) (raw : List UInt8) : WgState :=
  let line := wgBuf raw
  if line = [] then st
  else if line.head? = some 91 then { st with sec := sectionOf line }
  else if equals ∉ line then st
  else
    let key := trim (line.takeWhile (· != equals))
    let val := trim ((line.dropWhile (· != equals)).drop 1)
    if key = [] then st else wgEntry st key val

/-- What follows the loop. -/
def wgFinish (st : WgState) : PmxVpn × PmxStatus :=
  (st.out, if st.out.endpoints.length = 0 then .errParse else .ok)

def pmxVpnParseWireguard (text : CStr) : PmxVpn × PmxStatus :=
  wgFinish ((configLines text).foldl wgLine wgInit)

/-- The section the lines after `raw` are in. -/
def sectionAfter (sec : WgSection) (raw : List UInt8) : WgSection :=
  if (wgBuf raw).head? = some 91 then sectionOf (wgBuf raw) else sec

theorem wgLine_sec (st : WgState) (raw : List UInt8) :
    (wgLine st raw).sec = sectionAfter st.sec raw := by
  have hentry : ∀ key val, (wgEntry st key val).sec = st.sec := by
    intro key val
    rw [wgEntry]
    split <;> rfl
  unfold wgLine sectionAfter
  dsimp only
  by_cases hnil : wgBuf raw = []
  · rw [if_pos hnil, hnil]
    rfl
  · rw [if_neg hnil]
    by_cases hheader : (wgBuf raw).head? = some 91
    · rw [if_pos hheader, if_pos hheader]
    · rw [if_neg hheader, if_neg hheader]
      split_ifs
      · rfl
      · exact hentry _ _
      · rfl

/-! ### Lines with a secret -/

theorem ciEq_iff : ∀ a b : List UInt8, ciEq a b = true ↔ a.map toLower = b.map toLower := by
  intro a
  induction a with
  | nil =>
    intro b
    cases b with
    | nil => simp [ciEq]
    | cons => simp [ciEq]
  | cons x a ih =>
    intro b
    cases b with
    | nil => simp [ciEq]
    | cons y b =>
      rw [ciEq, List.map_cons, List.map_cons, List.cons.injEq]
      by_cases hxy : toLower x = toLower y
      · rw [if_neg (not_not.2 hxy), ih]
        exact ⟨fun h => ⟨hxy, h⟩, fun h => h.2⟩
      · rw [if_pos hxy]
        exact iff_of_false Bool.false_ne_true fun h => hxy h.1

/-- A key is compared as the name it equals is. -/
theorem ciEq_congr {key name : List UInt8} (h : ciEq key name = true) (other : List UInt8) :
    ciEq key other = ciEq name other := by
  rw [Bool.eq_iff_iff, ciEq_iff, ciEq_iff, (ciEq_iff key name).1 h]

/-- The key of a secret in a section. -/
def secretKey : WgSection → Option (List UInt8)
  | .iface => some (bytes "PrivateKey")
  | .peer => some (bytes "PresharedKey")
  | .none => none

/-- What stands before the `=` names a secret of the section. -/
def IsSecret (sec : WgSection) (before : List UInt8) : Prop :=
  ∃ name, secretKey sec = some name ∧ ciEq (trim before) name = true

/-- The note that is taken of a secret. -/
def noteSecret (st : WgState) : WgState :=
  match st.sec with
  | .iface => { st with out := { st.out with hasPrivateKey := true } }
  | .peer => { st with out := { st.out with hasPresharedKey := true } }
  | .none => st

theorem wgEntry_secret {st : WgState} {key name : List UInt8} (hname : secretKey st.sec = some name)
    (h : ciEq key name = true) (val : List UInt8) : wgEntry st key val = noteSecret st := by
  rw [wgEntry, noteSecret]
  cases hsec : st.sec with
  | none => rfl
  | iface =>
    rw [hsec] at hname
    obtain rfl := Option.some.inj hname
    dsimp only
    rw [wgInterfaceEntry, if_pos h]
  | peer =>
    rw [hsec] at hname
    obtain rfl := Option.some.inj hname
    have hother : ciEq key (bytes "PublicKey") = false := by
      rw [ciEq_congr h]
      decide
    dsimp only
    rw [wgPeerEntry, hother, if_neg Bool.false_ne_true, if_pos h]

/-- What trimming leaves out is white space. -/
theorem notMem_of_trim {s : List UInt8} {c : UInt8} (hspace : isSpace c = false) (h : c ∉ trim s) :
    c ∉ s := by
  intro hmem
  have hdrop : c ∈ s.dropWhile isSpace := by
    rw [← List.takeWhile_append_dropWhile (p := isSpace) (l := s)] at hmem
    rcases List.mem_append.1 hmem with hfront | hrest
    · rw [List.mem_takeWhile_imp hfront] at hspace
      cases hspace
    · exact hrest
  have hsplit := List.rdropWhile_append_rtakeWhile (p := isSpace) (l := s.dropWhile isSpace)
  rw [← hsplit] at hdrop
  rcases List.mem_append.1 hdrop with hkept | hend
  · exact h hkept
  · rw [List.mem_rtakeWhile_imp hend] at hspace
    cases hspace

/-- The letters of the names of secrets. -/
def secretLetters : List UInt8 := (bytes "PrivateKeyPresharedKey").map toLower

/-- What names a secret holds its letters and white space. -/
theorem IsSecret.notMem {sec : WgSection} {before : List UInt8} (h : IsSecret sec before) {c : UInt8}
    (hspace : isSpace c = false) (hletter : toLower c ∉ secretLetters) : c ∉ before := by
  obtain ⟨name, hname, heq⟩ := h
  have hsub : ∀ d ∈ name.map toLower, d ∈ secretLetters := by
    intro d hd
    have hletters : secretLetters
        = (bytes "PrivateKey").map toLower ++ (bytes "PresharedKey").map toLower := by decide
    rw [hletters, List.mem_append]
    cases sec with
    | none => cases hname
    | iface =>
      obtain rfl := Option.some.inj hname
      exact Or.inl hd
    | peer =>
      obtain rfl := Option.some.inj hname
      exact Or.inr hd
  refine notMem_of_trim hspace fun hmem => hletter (hsub _ ?_)
  rw [← (ciEq_iff _ _).1 heq]
  exact List.mem_map_of_mem hmem

theorem IsSecret.trim_ne_nil {sec : WgSection} {before : List UInt8} (h : IsSecret sec before) :
    trim before ≠ [] := by
  obtain ⟨name, hname, heq⟩ := h
  intro hnil
  rw [hnil] at heq
  cases sec with
  | none => cases hname
  | iface =>
    obtain rfl := Option.some.inj hname
    cases heq
  | peer =>
    obtain rfl := Option.some.inj hname
    cases heq

theorem IsSecret.dropWhile_ne_nil {sec : WgSection} {before : List UInt8} (h : IsSecret sec before) :
    before.dropWhile isSpace ≠ [] := by
  intro hnil
  apply h.trim_ne_nil
  rw [trim, hnil]
  rfl

theorem trim_dropWhile (s : List UInt8) : trim (s.dropWhile isSpace) = trim s := by
  rw [trim, trim, List.dropWhile_idempotent]

/-- The buffer holds the key and the `=` if the line is not cut before it. -/
theorem wgBuf_secret {sec : WgSection} {before : List UInt8} (h : IsSecret sec before)
    (hroom : before.length < wgLineSize - 1) (secret : List UInt8) :
    ∃ v, wgBuf (before ++ equals :: secret) = before.dropWhile isSpace ++ equals :: v := by
  have hhash : (35 : UInt8) ∉ before := h.notMem (by decide) (by decide)
  have hsemi : (59 : UInt8) ∉ before := h.notMem (by decide) (by decide)
  have hkeep : ∀ c ∈ before, (c != 35 && c != 59) = true := by
    intro c hc
    rw [Bool.and_eq_true, bne_iff_ne, bne_iff_ne]
    exact ⟨fun h35 => hhash (h35 ▸ hc), fun h59 => hsemi (h59 ▸ hc)⟩
  obtain ⟨k, hk⟩ := Nat.exists_eq_add_of_lt hroom
  have htake : (before ++ equals :: secret).take (wgLineSize - 1)
      = before ++ equals :: secret.take k := by
    rw [List.take_append, List.take_of_length_le (by omega),
      show wgLineSize - 1 - before.length = k + 1 by omega, List.take_succ_cons]
  have hstrip : stripComment (before ++ equals :: secret.take k)
      = before ++ equals :: stripComment (secret.take k) := by
    rw [stripComment, List.takeWhile_append_of_pos hkeep]
    rfl
  have hdrop : (before ++ equals :: stripComment (secret.take k)).dropWhile isSpace
      = before.dropWhile isSpace ++ equals :: stripComment (secret.take k) := by
    rw [List.dropWhile_append, if_neg (by rw [List.isEmpty_iff]; exact h.dropWhile_ne_nil)]
  obtain ⟨v, hv⟩ : before.dropWhile isSpace ++ [equals]
      <+: trim (before ++ equals :: stripComment (secret.take k)) := by
    refine prefix_trim (by decide) ?_
    rw [hdrop]
    exact ⟨stripComment (secret.take k), by rw [List.append_assoc]; rfl⟩
  refine ⟨v, ?_⟩
  rw [wgBuf, htake, hstrip, ← hv, List.append_assoc]
  rfl

/-- **A line with a secret leaves a note.** -/
theorem wgLine_secret {st : WgState} {before : List UInt8} (h : IsSecret st.sec before)
    (hroom : before.length < wgLineSize - 1) (secret : List UInt8) :
    wgLine st (before ++ equals :: secret) = noteSecret st := by
  obtain ⟨v, hbuf⟩ := wgBuf_secret h hroom secret
  have hdrop : ∀ c ∈ before.dropWhile isSpace, c ∈ before :=
    fun c hc => (List.dropWhile_suffix _).subset hc
  have hequals : equals ∉ before := h.notMem (by decide) (by decide)
  have hbracket : (91 : UInt8) ∉ before := h.notMem (by decide) (by decide)
  have hkeep : ∀ c ∈ before.dropWhile isSpace, (c != equals) = true := by
    intro c hc
    rw [bne_iff_ne]
    exact fun h61 => hequals (h61 ▸ hdrop c hc)
  have hhead : (before.dropWhile isSpace ++ equals :: v).head? ≠ some 91 := by
    rw [List.head?_append_of_ne_nil _ h.dropWhile_ne_nil]
    exact fun h91 => hbracket (hdrop _ (List.mem_of_mem_head? h91))
  have hkey : (before.dropWhile isSpace ++ equals :: v).takeWhile (· != equals)
      = before.dropWhile isSpace := by
    rw [List.takeWhile_append_of_pos hkeep]
    simp
  obtain ⟨name, hname, heq⟩ := h
  unfold wgLine
  dsimp only
  rw [hbuf, hkey, trim_dropWhile, if_neg (by simp), if_neg hhead, if_neg (by simp),
    if_neg (IsSecret.trim_ne_nil ⟨name, hname, heq⟩)]
  exact wgEntry_secret hname heq _

/-- A line that is cut before the `=` holds nothing of the secret. -/
theorem wgLine_cut {before : List UInt8} (hlong : wgLineSize - 1 ≤ before.length) (st : WgState)
    (secret : List UInt8) : wgLine st (before ++ equals :: secret) = wgLine st before := by
  have hbuf : wgBuf (before ++ equals :: secret) = wgBuf before := by
    rw [wgBuf, wgBuf, List.take_append_of_le_length hlong]
  unfold wgLine
  rw [hbuf]

theorem mem_wgBuf {raw : List UInt8} {c : UInt8} (h : c ∈ wgBuf raw) :
    c ∈ raw.take (wgLineSize - 1) := by
  have hstrip : c ∈ stripComment (raw.take (wgLineSize - 1)) :=
    (List.dropWhile_suffix isSpace).subset ((trim_isPrefix _).subset h)
  exact (List.takeWhile_prefix _).subset hstrip

theorem noteSecret_sec (st : WgState) : (noteSecret st).sec = st.sec := by
  rw [noteSecret]
  split <;> rfl

/-- **A line with a secret does the same whatever the secret is**, and it stays in its section. -/
theorem wgLine_secretBlind {st : WgState} {before : List UInt8} (h : IsSecret st.sec before)
    (secret secret' : List UInt8) :
    wgLine st (before ++ equals :: secret) = wgLine st (before ++ equals :: secret') ∧
      (wgLine st (before ++ equals :: secret)).sec = st.sec := by
  by_cases hroom : before.length < wgLineSize - 1
  · rw [wgLine_secret h hroom, wgLine_secret h hroom]
    exact ⟨rfl, noteSecret_sec st⟩
  · have hlong := Nat.le_of_not_lt hroom
    have hheader : (wgBuf before).head? ≠ some 91 := by
      intro h91
      have hmem := List.mem_of_mem_take (mem_wgBuf (List.mem_of_mem_head? h91))
      exact h.notMem (by decide) (by decide) hmem
    rw [wgLine_cut hlong, wgLine_cut hlong, wgLine_sec, sectionAfter, if_neg hheader]
    exact ⟨rfl, rfl⟩

/-! ### Texts that differ in secrets -/

/-- Line by line, in the section the lines before have led to, two texts are the same but for what stands
after the `=` of secrets. -/
inductive SameButSecrets : WgSection → List (List UInt8) → List (List UInt8) → Prop
  | nil {sec : WgSection} : SameButSecrets sec [] []
  | same {sec : WgSection} {l : List UInt8} {ls ls' : List (List UInt8)}
      (h : SameButSecrets (sectionAfter sec l) ls ls') : SameButSecrets sec (l :: ls) (l :: ls')
  | secret {sec : WgSection} {before s s' : List UInt8} {ls ls' : List (List UInt8)}
      (hsecret : IsSecret sec before) (h : SameButSecrets sec ls ls') :
      SameButSecrets sec ((before ++ equals :: s) :: ls) ((before ++ equals :: s') :: ls')

theorem foldl_wgLine_eq {sec : WgSection} {ls ls' : List (List UInt8)}
    (h : SameButSecrets sec ls ls') :
    ∀ st : WgState, st.sec = sec → ls.foldl wgLine st = ls'.foldl wgLine st := by
  induction h with
  | nil => exact fun _ _ => rfl
  | @same sec l ls ls' _ ih =>
    intro st hsec
    rw [List.foldl_cons, List.foldl_cons]
    exact ih _ (by rw [wgLine_sec, hsec])
  | @secret sec before s s' ls ls' hsecret _ ih =>
    intro st hsec
    subst hsec
    obtain ⟨hsame, hstay⟩ := wgLine_secretBlind hsecret s s'
    rw [List.foldl_cons, List.foldl_cons, ← hsame]
    exact ih _ hstay

/-- **Keys do not influence the record.**  Two texts whose lines are the same but for secrets get the same
status and the same record, whatever the secrets hold and however long they are. -/
theorem parseWireguard_keyBlind {text text' : CStr}
    (h : SameButSecrets .none (configLines text) (configLines text')) :
    pmxVpnParseWireguard text = pmxVpnParseWireguard text' := by
  rw [pmxVpnParseWireguard, pmxVpnParseWireguard, foldl_wgLine_eq h wgInit rfl]

/-- A config with two secrets. -/
def wgConfig (privateKey presharedKey : List UInt8) : List (List UInt8) :=
  [bytes "[Interface]", bytes "PrivateKey " ++ equals :: privateKey, bytes "DNS = 1.1.1.1",
    bytes "[Peer]", bytes "PresharedKey " ++ equals :: presharedKey,
    bytes "AllowedIPs = 0.0.0.0/0, ::/0", bytes "Endpoint = vpn.example.com:51820"]

def wgText (privateKey presharedKey : List UInt8) : CStr :=
  ⟨cstr (unlines (wgConfig privateKey presharedKey)), nul_notMem_cstr _⟩

example :
    let out := ((wgConfig (bytes " k") (bytes " p")).foldl wgLine wgInit).out
    out.hasPrivateKey = true ∧ out.hasPresharedKey = true ∧ out.fullTunnel = true ∧
      out.dns = strlcpy pmxMaxHost (bytes "1.1.1.1") ∧ out.endpoints.map (·.port) = [51820] := by
  decide +kernel

theorem sameButSecrets_wgConfig (k k' p p' : List UInt8) :
    SameButSecrets .none (wgConfig k p) (wgConfig k' p') := by
  refine .same (.secret ⟨bytes "PrivateKey", ?_, ?_⟩ (.same (.same
    (.secret ⟨bytes "PresharedKey", ?_, ?_⟩ (.same (.same .nil))))))
  · decide +kernel
  · decide +kernel
  · decide +kernel
  · decide +kernel

theorem parseWireguard_keyBlind_test :
    pmxVpnParseWireguard (wgText (bytes " SECRETPRIVATEKEYVALUE=") (bytes " SECRETPRESHAREDKEY=")) =
      pmxVpnParseWireguard (wgText (bytes "[Peer] # ; Endpoint = a:1") []) := by
  have hlines : ∀ k p : List UInt8, (∀ l ∈ wgConfig k p, newline ∉ l) →
      nul ∉ unlines (wgConfig k p) → hasBom (unlines (wgConfig k p)) = false →
        configLines (wgText k p) = wgConfig k p := by
    intro k p hnewline hnul hbom
    show lines (skipBom (cstr (unlines (wgConfig k p)))) = wgConfig k p
    rw [cstr_of_notMem hnul, skipBom, hbom, if_neg Bool.false_ne_true]
    exact lines_unlines hnewline
  refine parseWireguard_keyBlind ?_
  rw [hlines _ _ (by decide +kernel) (by decide +kernel) (by decide +kernel),
    hlines _ _ (by decide +kernel) (by decide +kernel) (by decide +kernel)]
  exact sameButSecrets_wgConfig _ _ _ _

end ProxiMight
