import ProxiMight.TextLines
import ProxiMight.Vpn

/-!
# Reading an OpenVPN config (`pmx_vpn_parse_openvpn`)

The text is read line by line into a buffer of 1024 bytes; a longer line is cut.  `<tag>` starts an
inline block whose body is skipped up to its closing tag, with `<connection>` as the one exception, and
every other line is a directive.

* **`ovpnLine_skippingTag`** — what a line does to the tag being skipped depends on that tag and the line
  alone.
-/

namespace ProxiMight

open CString TextLines

/-- `sizeof(line)`. -/
def ovpnLineSize : ℕ := 1024

/-- `sizeof(tag)`, `sizeof(close_tag)` and `sizeof(skipping_tag)`. -/
def ovpnTagSize : ℕ := 64

/-- The bytes of a UTF-8 byte order mark. -/
def byteOrderMark : List UInt8 := [0xEF, 0xBB, 0xBF]

def hasBom (text : List UInt8) : Bool := byteOrderMark.isPrefixOf text

def skipBom (text : List UInt8) : List UInt8 := if hasBom text then text.drop 3 else text

def ciEq : List UInt8 → List UInt8 → Bool
  | a :: as, b :: bs => if toLower a ≠ toLower b then false else ciEq as bs
  | [], [] => true
  | _, _ => false

/-- `strip_comment(s, true)`. -/
def stripComment (s : List UInt8) : List UInt8 := s.takeWhile fun c => c != 35 && c != 59

/-- `tokenize`: at most `max` words. -/
def tokenize : ℕ → List UInt8 → List (List UInt8)
  | 0, _ => []
  | max + 1, s =>
    let p := s.dropWhile isSpace
    if p = [] then []
    else
      p.takeWhile (fun c => !isSpace c) ::
        tokenize max ((p.dropWhile fun c => !isSpace c).drop 1)

/-- The cast of a `long` to `pmx_port`. -/
def portOfLong (v : ℤ) : PmxPort := UInt16.ofNat (v % 65536).toNat

/-! ### Tags -/

/-- The character `>`. -/
def gt : UInt8 := 62

/-- `strlcpy` into a tag buffer, cut at the first `>`. -/
def tagOf (s : List UInt8) : CBuf ovpnTagSize :=
  strlcpy ovpnTagSize ((strlcpy ovpnTagSize s).str.takeWhile (· != gt))

def isSecretTag (tag : List UInt8) : Bool :=
  [bytes "key", bytes "tls-auth", bytes "tls-crypt", bytes "tls-crypt-v2", bytes "secret",
    bytes "pkcs12"].any (ciEq tag)

def isParsedContainerTag (tag : List UInt8) : Bool := tag == bytes "connection"

/-- `line[0] == '<' && line[1] == '/'`. -/
def isCloseLine : List UInt8 → Bool
  | c :: d :: _ => c == 60 && d == 47
  | _ => false

/-- `line[0] == '<' && line[1] != '/'`. -/
def isOpenLine (line : List UInt8) : Bool := line.head? == some 60 && !isCloseLine line

/-- The line is the closing tag of `skip`. -/
def endsSkip (skip : CBuf ovpnTagSize) (line : List UInt8) : Bool :=
  isCloseLine line && (tagOf (line.drop 2)).str == skip.str

/-! ### Lines -/

/-- The variables of the loop. -/
structure OvpnState where
  out : PmxVpn
  defaultUdp : Bool
  defaultPort : PmxPort
  skippingTag : CBuf ovpnTagSize
  deriving DecidableEq

def ovpnInit : OvpnState where
  out := { pmxVpnInit with kind := .openvpn }
  defaultUdp := true
  defaultPort := 1194
  skippingTag := .empty

/-- The names of a protocol over TCP. -/
def isTcpWord (s : List UInt8) : Bool :=
  ciEq s (bytes "tcp") || ciEq s (bytes "tcp-client") || ciEq s (bytes "tcp4") ||
    ciEq s (bytes "tcp6")

/-- The chain of directives, on the words of a line. -/
def ovpnDirective (st : OvpnState) (tok : List (List UInt8)) : OvpnState :=
  let n := tok.length
  let word := fun i => tok.getD i []
  let is := fun name => ciEq (word 0) (bytes name)
  if n = 0 then st
  else if is "remote" && decide (n ≥ 2) then
    let port := if n ≥ 3 then portOfLong (strtol (word 2)).1 else 0
    let udp := if n ≥ 4 then !isTcpWord (word 3) else st.defaultUdp
    { st with out := addEndpoint st.out (word 1) port udp }
  else if is "proto" && decide (n ≥ 2) then { st with defaultUdp := !isTcpWord (word 1) }
  else if is "port" && decide (n ≥ 2) then { st with defaultPort := portOfLong (strtol (word 1)).1 }
  else if (is "cipher" || is "data-ciphers") && decide (n ≥ 2) then
    if st.out.cipher.isEmpty then { st with out := { st.out with cipher := strlcpy 64 (word 1) } }
    else st
  else if is "auth" && decide (n ≥ 2) then
    { st with out := { st.out with authDigest := strlcpy 64 (word 1) } }
  else if is "dev" && decide (n ≥ 2) then
    { st with out := { st.out with dev := strlcpy 16 (word 1) } }
  else if is "auth-user-pass" then { st with out := { st.out with requiresUserPass := true } }
  else if is "redirect-gateway" then { st with out := { st.out with fullTunnel := true } }
  else if is "tun-mtu" && decide (n ≥ 2) then
    { st with out := { st.out with mtu := (strtol (word 1)).1 } }
  else if is "dhcp-option" && decide (n ≥ 3) && ciEq (word 1) (bytes "DNS") then
    { st with out := { st.out with dns := strlcpy pmxMaxHost (word 2) } }
  else st

/-- The buffer `line` after `trim`. -/
def lineBuf (raw : List UInt8) : List UInt8 := trim (raw.take (ovpnLineSize - 1))

/-- A tag opens a block: its body is skipped, and only a secret is noted. -/
def openTag (st : OvpnState) (tag : CBuf ovpnTagSize) : OvpnState :=
  if isParsedContainerTag tag.str then st
  else
    { st with
        out := if isSecretTag tag.str then { st.out with hasInlineSecrets := true } else st.out
        skippingTag := tag }

/-- One round of the loop, on the line `raw` of the text. -/
def ovpnLine (st : OvpnState) (raw : List UInt8) : OvpnState :=
  let line := lineBuf raw
  if !st.skippingTag.isEmpty then
    if endsSkip st.skippingTag line then { st with skippingTag := .empty } else st
  else if isOpenLine line then openTag st (tagOf (line.drop 1))
  -- stray close of a container we parsed inline
  else if isCloseLine line then st
  else ovpnDirective st (tokenize 8 (trim (stripComment line)))

/-- The global port goes to the remotes that have none. -/
def applyDefaultPort (port : PmxPort) (ep : PmxVpnEndpoint) : PmxVpnEndpoint :=
  if ep.port = 0 then { ep with port := if port ≠ 0 then port else 1194 } else ep

/-- What follows the loop. -/
def ovpnFinish (st : OvpnState) : PmxVpn × PmxStatus :=
  ({ st.out with
      endpoints := st.out.endpoints.map (applyDefaultPort st.defaultPort)
      endpoints_fit := (List.length_map _).trans_le st.out.endpoints_fit },
    if st.out.endpoints.length = 0 then .errParse else .ok)

/-- The lines the loop reads. -/
def configLines (text : CStr) : List (List UInt8) := lines (skipBom text.str)

def pmxVpnParseOpenvpn (text : CStr) : PmxVpn × PmxStatus :=
  ovpnFinish ((configLines text).foldl ovpnLine ovpnInit)

/-! ### The tag being skipped -/

/-- What a line makes of the tag being skipped. -/
def tagStep (skip : CBuf ovpnTagSize) (raw : List UInt8) : CBuf ovpnTagSize :=
  if !skip.isEmpty then if endsSkip skip (lineBuf raw) then .empty else skip
  else if isOpenLine (lineBuf raw) && !isParsedContainerTag (tagOf ((lineBuf raw).drop 1)).str then
    tagOf ((lineBuf raw).drop 1)
  else skip

@[simp] theorem ovpnDirective_skippingTag (st : OvpnState) (tok : List (List UInt8)) :
    (ovpnDirective st tok).skippingTag = st.skippingTag := by
  simp only [ovpnDirective, apply_ite OvpnState.skippingTag, ite_self]

theorem ovpnLine_skippingTag (st : OvpnState) (raw : List UInt8) :
    (ovpnLine st raw).skippingTag = tagStep st.skippingTag raw := by
  unfold ovpnLine tagStep
  dsimp only
  by_cases hskip : (!st.skippingTag.isEmpty) = true
  · rw [if_pos hskip, if_pos hskip]
    split_ifs <;> rfl
  · rw [if_neg hskip, if_neg hskip]
    cases hopen : isOpenLine (lineBuf raw) with
    | true =>
      rw [if_pos rfl, Bool.true_and, openTag]
      cases isParsedContainerTag (tagOf ((lineBuf raw).drop 1)).str <;> rfl
    | false =>
      rw [if_neg Bool.false_ne_true, Bool.false_and, if_neg Bool.false_ne_true]
      by_cases hclose : isCloseLine (lineBuf raw) = true
      · rw [if_pos hclose]
      · rw [if_neg hclose, ovpnDirective_skippingTag]

/-- A line read while a tag is skipped changes at most that tag. -/
theorem ovpnLine_of_skipping {st : OvpnState} (h : st.skippingTag.isEmpty = false) (raw : List UInt8) :
    ovpnLine st raw =
      if endsSkip st.skippingTag (lineBuf raw) then { st with skippingTag := .empty } else st := by
  unfold ovpnLine
  dsimp only
  rw [if_pos (by rw [h]; rfl)]

/-- The directive `auth`. -/
theorem ovpnDirective_auth (st : OvpnState) (name : List UInt8) :
    ovpnDirective st [bytes "auth", name] =
      { st with out := { st.out with authDigest := strlcpy 64 name } } := by
  have hword : ∀ s ∈ [bytes "remote", bytes "proto", bytes "port", bytes "cipher",
      bytes "data-ciphers"], ciEq (bytes "auth") s = false := by decide
  have hauth : ciEq (bytes "auth") (bytes "auth") = true := by decide
  simp [ovpnDirective, hauth, hword]

end ProxiMight
