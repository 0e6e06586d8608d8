import ProxiMight.WireGuard
import ProxiMight.Words

/-!
# The remotes of a config

What the two parsers make of a whole config, put in terms of its lines: the lines that are read, what each
says about remotes, and the list of remotes they come to, of which the record keeps the first eight.

* **`parseOpenvpn_remotes`** — the endpoints of an OpenVPN config are the first eight remotes of the lines
  that are not skipped, with the port of the last `port` directive where they have none.
* **`parseWireguard_remotes`** — those of a WireGuard config are the first eight endpoints of its peers.
-/

namespace ProxiMight

open CString TextLines Words

/-! ### OpenVPN: lines -/

/-- What a line says about remotes. -/
inductive OvpnItem
  | remote (host : List UInt8) (port transport : Option (List UInt8))
  | proto (word : List UInt8)
  | port (word : List UInt8)
  | other
  deriving DecidableEq

/-- The item that the words of a line make. -/
def ovpnItem : List (List UInt8) → OvpnItem
  | name :: word :: more =>
    if ciEq name (bytes "remote") then .remote word more[0]? more[1]?
    else if ciEq name (bytes "proto") then .proto word
    else if ciEq name (bytes "port") then .port word
    else .other
  | _ => .other

/-- The words of a line, up to where it is cut and outside comments. -/
def lineWords (raw : List UInt8) : List (List UInt8) :=
  words isSpace (stripComment (raw.take (ovpnLineSize - 1)))

def lineItem (raw : List UInt8) : OvpnItem := ovpnItem (lineWords raw)

/-- The lines that are read while no tag is being skipped. -/
def unskipped : CBuf ovpnTagSize → List (List UInt8) → List (List UInt8)
  | _, [] => []
  | skip, raw :: rest =>
    if skip.isEmpty then raw :: unskipped (tagStep skip raw) rest else unskipped (tagStep skip raw) rest

theorem unskipped_sublist (ls : List (List UInt8)) : ∀ skip, (unskipped skip ls).Sublist ls := by
  induction ls with
  | nil => exact fun _ => .slnil
  | cons raw ls ih =>
    intro skip
    rw [unskipped]
    split_ifs
    · exact (ih _).cons_cons raw
    · exact (ih _).cons raw

/-- The items of a config that the parser sees. -/
def ovpnItems (text : CStr) : List OvpnItem := (unskipped .empty (configLines text)).map lineItem

/-! ### OpenVPN: words -/

theorem tokenize_eq_take (s : List UInt8) : ∀ n, tokenize n s = (words isSpace s).take n := by
  induction s using word_induction isSpace with
  | last s h =>
    intro n
    rw [words_of_dropWhile_eq_nil h, List.take_nil]
    cases n with
    | zero => rfl
    | succ n => rw [tokenize, h]; rfl
  | cons s h ih =>
    intro n
    cases n with
    | zero => rfl
    | succ n =>
      rw [words_eq_cons h, List.take_succ_cons, ← ih n, tokenize, if_neg h]
      rfl

theorem words_trim (s : List UInt8) : words isSpace (trim s) = words isSpace s := by
  rw [trim, words_rdropWhile, words_dropWhile]

/-- White space is no comment sign. -/
theorem not_comment_of_isSpace {c : UInt8} (h : isSpace c = true) : (c != 35 && c != 59) = true := by
  rw [Bool.and_eq_true, bne_iff_ne, bne_iff_ne]
  constructor
  · rintro rfl
    cases h
  · rintro rfl
    cases h

/-- To trim a line first makes no difference to its words outside comments. -/
theorem words_stripComment_trim (s : List UInt8) :
    words isSpace (stripComment (trim s)) = words isSpace (stripComment s) := by
  have hfront : words isSpace (stripComment s) = words isSpace (stripComment (s.dropWhile isSpace)) := by
    conv_lhs => rw [← List.takeWhile_append_dropWhile (p := isSpace) (l := s)]
    rw [stripComment, List.takeWhile_append_of_pos fun c hc =>
      not_comment_of_isSpace (List.mem_takeWhile_imp hc)]
    exact words_seps_append (fun c hc => List.mem_takeWhile_imp hc) _
  rw [hfront, trim]
  generalize s.dropWhile isSpace = t
  conv_rhs => rw [← List.rdropWhile_append_rtakeWhile (p := isSpace) (l := t)]
  rw [stripComment, stripComment, List.takeWhile_append]
  split_ifs with hall
  · -- no comment begins before the white space at the end
    have hspaces : ∀ c ∈ (t.rtakeWhile isSpace).takeWhile fun c => c != 35 && c != 59,
        isSpace c = true := fun c hc =>
      List.mem_rtakeWhile_imp ((List.takeWhile_prefix _).subset hc)
    rw [words_append_seps hspaces]
    exact congrArg (words isSpace) ((List.takeWhile_prefix _).eq_of_length hall)
  · rfl

/-- **The words the parser takes of a line.** -/
theorem tokenize_lineBuf (raw : List UInt8) :
    tokenize 8 (trim (stripComment (lineBuf raw))) = (lineWords raw).take 8 := by
  rw [tokenize_eq_take, words_trim, lineBuf, words_stripComment_trim, lineWords]

/-- More than four words do not matter. -/
theorem ovpnItem_take (ws : List (List UInt8)) : ovpnItem (ws.take 8) = ovpnItem ws := by
  rcases ws with - | ⟨name, - | ⟨word, more⟩⟩
  · rfl
  · rfl
  · rw [List.take_succ_cons, List.take_succ_cons, ovpnItem, ovpnItem,
      List.getElem?_take_of_lt (by decide), List.getElem?_take_of_lt (by decide)]

theorem eq_cons_of_isOpenLine {line : List UInt8} (h : isOpenLine line = true) :
    ∃ rest, line = 60 :: rest := by
  have hhead : line.head? = some 60 := by
    simpa using (Bool.and_eq_true_iff.1 h).1
  cases line with
  | nil => cases hhead
  | cons c rest => exact ⟨rest, by rw [Option.some.inj hhead]⟩

theorem eq_cons_of_isCloseLine {line : List UInt8} (h : isCloseLine line = true) :
    ∃ rest, line = 60 :: rest := by
  rcases line with - | ⟨c, - | ⟨d, rest⟩⟩
  · cases h
  · cases h
  · rw [isCloseLine, Bool.and_eq_true, beq_iff_eq] at h
    exact ⟨d :: rest, by rw [h.1]⟩

/-- The first word of a text that begins with a tag. -/
theorem words_of_tag {s rest : List UInt8} (h : trim s = 60 :: rest) :
    ∃ w ws, words isSpace (stripComment s) = (60 :: w) :: ws := by
  have hstrip : stripComment (60 :: rest) = 60 :: stripComment rest := rfl
  have hskip : (60 :: stripComment rest).dropWhile isSpace = 60 :: stripComment rest := rfl
  have hfirst : firstWord isSpace (60 :: stripComment rest) =
      60 :: (stripComment rest).takeWhile fun c => !isSpace c := rfl
  rw [← words_stripComment_trim, h, hstrip,
    words_eq_cons (by rw [hskip]; exact List.cons_ne_nil _ _), hfirst]
  exact ⟨_, _, rfl⟩

/-- A line that begins with a tag says nothing about remotes. -/
theorem lineItem_of_tag {raw rest : List UInt8} (h : lineBuf raw = 60 :: rest) :
    lineItem raw = .other := by
  obtain ⟨w, ws, hwords⟩ := words_of_tag h
  rw [lineItem, lineWords, hwords]
  cases ws with
  | nil => rfl
  | cons word more => rfl

/-! ### OpenVPN: the list of remotes -/

/-- The port that is read off a word, where there is one. -/
def readPort (otherwise : PmxPort) (word : Option (List UInt8)) : PmxPort :=
  match word with
  | some word => portOfLong (strtol word).1
  | none => otherwise

/-- Whether a remote goes over UDP. -/
def ownUdp (transport : Option (List UInt8)) (defaultUdp : Bool) : Bool :=
  match transport with
  | some word => !isTcpWord word
  | none => defaultUdp

/-- The remotes of the items, in order; the transport of those that have none is that of the last `proto`
before them. -/
def remotesFrom : Bool → List OvpnItem → List PmxVpnEndpoint
  | _, [] => []
  | udp, .remote host port transport :: rest =>
    ⟨strlcpy pmxMaxHost host, readPort 0 port, ownUdp transport udp⟩ :: remotesFrom udp rest
  | _, .proto word :: rest => remotesFrom (!isTcpWord word) rest
  | udp, .port _ :: rest => remotesFrom udp rest
  | udp, .other :: rest => remotesFrom udp rest

/-- A `remote` line: its words. -/
structure OvpnRemote where
  host : List UInt8
  port : Option (List UInt8)
  transport : Option (List UInt8)
  deriving DecidableEq

def OvpnItem.remoteOf : OvpnItem → Option OvpnRemote
  | .remote h p t => some ⟨h, p, t⟩
  | _ => none

def OvpnItem.portOf : OvpnItem → Option (List UInt8)
  | .port word => some word
  | _ => none

def OvpnItem.protoOf : OvpnItem → Option (List UInt8)
  | .proto word => some word
  | _ => none

/-- The `remote` lines among the items. -/
def remoteLines (items : List OvpnItem) : List OvpnRemote := items.filterMap OvpnItem.remoteOf

/-- The word of the last `port` directive. -/
def globalPort (items : List OvpnItem) : Option (List UInt8) := (items.filterMap OvpnItem.portOf).getLast?

/-- There is a remote for each `remote` line, with its host and port. -/
theorem remotesFrom_map (items : List OvpnItem) :
    ∀ udp, (remotesFrom udp items).map (fun e => (e.host, e.port)) =
      (remoteLines items).map fun r => (strlcpy pmxMaxHost r.host, readPort 0 r.port) := by
  induction items with
  | nil => exact fun _ => rfl
  | cons item items ih =>
    intro udp
    cases item with
    | remote host port transport => exact congrArg (List.cons _) (ih udp)
    | proto word => exact ih _
    | port word => exact ih udp
    | other => exact ih udp

theorem remotesFrom_length (udp : Bool) (items : List OvpnItem) :
    (remotesFrom udp items).length = (remoteLines items).length := by
  have h := congrArg List.length (remotesFrom_map items udp)
  rwa [List.length_map, List.length_map] at h

/-- The value of the last `port`. -/
def lastPort : PmxPort → List OvpnItem → PmxPort
  | port, [] => port
  | _, .port word :: rest => lastPort (portOfLong (strtol word).1) rest
  | port, .remote _ _ _ :: rest => lastPort port rest
  | port, .proto _ :: rest => lastPort port rest
  | port, .other :: rest => lastPort port rest

theorem lastPort_eq (items : List OvpnItem) :
    ∀ port, lastPort port items = readPort port (globalPort items) := by
  induction items with
  | nil => exact fun _ => rfl
  | cons item items ih =>
    intro port
    cases item with
    | port word =>
      have hlast : globalPort (.port word :: items) = some ((globalPort items).getD word) := by
        rw [globalPort, List.filterMap_cons]
        exact List.getLast?_cons
      rw [lastPort, ih, hlast]
      cases globalPort items <;> rfl
    | _ => exact ih port

/-- What a record has of remotes. -/
def PmxVpn.listed (v : PmxVpn) : List PmxVpnEndpoint × Bool := (v.endpoints, v.endpointsTruncated)

theorem addEndpoint_listed (v : PmxVpn) {host : List UInt8} (hne : host ≠ []) (port : PmxPort)
    (udp : Bool) : (addEndpoint v host port udp).listed =
      SlotTable.pushCapped pmxMaxVpnEndpoints v.listed ⟨strlcpy pmxMaxHost host, port, udp⟩ := by
  rw [addEndpoint, if_neg (by rw [List.isEmpty_iff]; exact hne), SlotTable.pushCapped, PmxVpn.listed,
    PmxVpn.listed]
  dsimp only
  by_cases hfull : v.endpoints.length ≥ pmxMaxVpnEndpoints
  · rw [dif_pos hfull, if_pos hfull]
  · rw [dif_neg hfull, if_neg hfull]

/-- What the loop keeps of remotes, and of the directives that bear on them. -/
structure OvpnSeen where
  listed : List PmxVpnEndpoint × Bool
  udp : Bool
  port : PmxPort

def OvpnState.seen (st : OvpnState) : OvpnSeen := ⟨st.out.listed, st.defaultUdp, st.defaultPort⟩

/-- What an item makes of it. -/
def itemStep (v : OvpnSeen) : OvpnItem → OvpnSeen
  | .remote host port transport =>
    { v with
        listed := SlotTable.pushCapped pmxMaxVpnEndpoints v.listed
          ⟨strlcpy pmxMaxHost host, readPort 0 port, ownUdp transport v.udp⟩ }
  | .proto word => { v with udp := !isTcpWord word }
  | .port word => { v with port := portOfLong (strtol word).1 }
  | .other => v

theorem foldl_itemStep (items : List OvpnItem) :
    ∀ v : OvpnSeen,
      (items.foldl itemStep v).listed =
          (remotesFrom v.udp items).foldl (SlotTable.pushCapped pmxMaxVpnEndpoints) v.listed ∧
        (items.foldl itemStep v).port = lastPort v.port items := by
  induction items with
  | nil => exact fun v => ⟨rfl, rfl⟩
  | cons item items ih =>
    intro v
    obtain ⟨hlisted, hport⟩ := ih (itemStep v item)
    rw [List.foldl_cons, hlisted, hport]
    cases item <;> exact ⟨rfl, rfl⟩

/-- The chain of directives, on words of which none is empty. -/
theorem ovpnDirective_seen (st : OvpnState) {tok : List (List UInt8)} (hne : ∀ w ∈ tok, w ≠ []) :
    (ovpnDirective st tok).seen = itemStep st.seen (ovpnItem tok) := by
  have hother : ∀ (hremote : ¬(ciEq (tok.getD 0 []) (bytes "remote") && decide (tok.length ≥ 2)) = true)
      (hproto : ¬(ciEq (tok.getD 0 []) (bytes "proto") && decide (tok.length ≥ 2)) = true)
      (hport : ¬(ciEq (tok.getD 0 []) (bytes "port") && decide (tok.length ≥ 2)) = true),
      (ovpnDirective st tok).seen = st.seen := by
    intro hremote hproto hport
    unfold ovpnDirective
    dsimp only
    rw [if_neg hremote, if_neg hproto, if_neg hport]
    simp only [apply_ite OvpnState.seen]
    simp only [OvpnState.seen, PmxVpn.listed, ite_self]
  rcases tok with - | ⟨name, - | ⟨word, more⟩⟩
  · rfl
  · refine hother ?_ ?_ ?_
    · simp
    · simp
    · simp
  · rw [ovpnItem]
    split_ifs with hremote hproto hport
    · have hword : word ≠ [] := hne word (List.mem_cons_of_mem _ List.mem_cons_self)
      unfold ovpnDirective
      dsimp only
      rw [if_neg (by simp), if_pos (by simp [hremote])]
      show OvpnSeen.mk (addEndpoint st.out word _ _).listed st.defaultUdp st.defaultPort = _
      rw [addEndpoint_listed _ hword]
      rcases more with - | ⟨port, - | ⟨transport, more⟩⟩
      · rfl
      · rfl
      · simp [itemStep, OvpnState.seen, readPort, ownUdp]
    · unfold ovpnDirective
      dsimp only
      rw [if_neg (by simp), if_neg (by simp [hremote]), if_pos (by simp [hproto])]
      rfl
    · unfold ovpnDirective
      dsimp only
      rw [if_neg (by simp), if_neg (by simp [hremote]), if_neg (by simp [hproto]),
        if_pos (by simp [hport])]
      rfl
    · refine hother ?_ ?_ ?_
      · simp [hremote]
      · simp [hproto]
      · simp [hport]

/-- **One line**: it counts by its item, unless a tag is being skipped. -/
theorem ovpnLine_seen (st : OvpnState) (raw : List UInt8) :
    (ovpnLine st raw).seen =
      if st.skippingTag.isEmpty then itemStep st.seen (lineItem raw) else st.seen := by
  cases hskip : st.skippingTag.isEmpty with
  | false =>
    rw [ovpnLine_of_skipping hskip, if_neg Bool.false_ne_true]
    split_ifs <;> rfl
  | true =>
    rw [if_pos rfl]
    unfold ovpnLine
    dsimp only
    rw [hskip, if_neg (by decide)]
    split_ifs with hopen hclose
    · obtain ⟨rest, hline⟩ := eq_cons_of_isOpenLine hopen
      rw [lineItem_of_tag hline, openTag]
      split_ifs <;> rfl
    · obtain ⟨rest, hline⟩ := eq_cons_of_isCloseLine hclose
      rw [lineItem_of_tag hline]
      rfl
    · rw [tokenize_lineBuf, ovpnDirective_seen, ovpnItem_take, lineItem]
      intro w hw
      exact (mem_words _ w (List.mem_of_mem_take hw)).1

theorem foldl_ovpnLine_seen (ls : List (List UInt8)) :
    ∀ st : OvpnState, (ls.foldl ovpnLine st).seen =
      ((unskipped st.skippingTag ls).map lineItem).foldl itemStep st.seen := by
  induction ls with
  | nil => exact fun _ => rfl
  | cons raw ls ih =>
    intro st
    rw [List.foldl_cons, ih, ovpnLine_skippingTag, ovpnLine_seen, unskipped]
    split_ifs <;> rfl

/-- **What an OpenVPN config comes to**: the first eight remotes of the lines that are not skipped, with the
port of the last `port` where they have none, and a note if there are more; a config without remotes is
refused. -/
theorem parseOpenvpn_remotes (text : CStr) :
    (pmxVpnParseOpenvpn text).1.endpoints =
        ((remotesFrom true (ovpnItems text)).take pmxMaxVpnEndpoints).map
          (applyDefaultPort (lastPort 1194 (ovpnItems text))) ∧
      (pmxVpnParseOpenvpn text).1.endpointsTruncated =
        decide (pmxMaxVpnEndpoints < (remotesFrom true (ovpnItems text)).length) ∧
      ((pmxVpnParseOpenvpn text).2 = .ok ↔ remotesFrom true (ovpnItems text) ≠ []) := by
  have hseen := foldl_ovpnLine_seen (configLines text) ovpnInit
  obtain ⟨hlisted, hport⟩ := foldl_itemStep (ovpnItems text) ovpnInit.seen
  have hkept := SlotTable.foldl_pushCapped pmxMaxVpnEndpoints (remotesFrom true (ovpnItems text)) [] false
    (Nat.zero_le _)
  have hout := (congrArg OvpnSeen.listed hseen).trans (hlisted.trans hkept)
  have hdefault := (congrArg OvpnSeen.port hseen).trans hport
  obtain ⟨hendpoints, htruncated⟩ := Prod.mk.injEq .. ▸ hout
  rw [List.nil_append] at hendpoints htruncated
  refine ⟨?_, ?_, ?_⟩
  · show (((configLines text).foldl ovpnLine ovpnInit).out.endpoints).map
      (applyDefaultPort ((configLines text).foldl ovpnLine ovpnInit).defaultPort) = _
    rw [hendpoints, show ((configLines text).foldl ovpnLine ovpnInit).defaultPort = _ from hdefault]
    rfl
  · exact htruncated.trans (Bool.false_or _)
  · show (if ((configLines text).foldl ovpnLine ovpnInit).out.endpoints.length = 0 then PmxStatus.errParse
      else .ok) = .ok ↔ _
    rw [hendpoints]
    cases remotesFrom true (ovpnItems text) with
    | nil => exact iff_of_false (fun h => by cases h) fun h => h rfl
    | cons r rs => exact iff_of_true (if_neg (Nat.succ_ne_zero _)) (List.cons_ne_nil _ _)

/-- A config is accepted if a `remote` line is read. -/
theorem parseOpenvpn_ok_iff (text : CStr) :
    (pmxVpnParseOpenvpn text).2 = .ok ↔ remoteLines (ovpnItems text) ≠ [] := by
  rw [(parseOpenvpn_remotes text).2.2, ← List.length_pos_iff, remotesFrom_length, List.length_pos_iff]

/-! ### WireGuard -/

/-- The value that a line assigns to a key of a peer. -/
def peerValue (name : List UInt8) (sec : WgSection) (line : List UInt8) : Option (List UInt8) :=
  if sec = .peer ∧ line.head? ≠ some 91 ∧ equals ∈ line ∧
      ciEq (trim (line.takeWhile (· != equals))) name = true then
    some (trim ((line.dropWhile (· != equals)).drop 1))
  else none

/-- A line without its comment and its outer white space, at its full length. -/
def wholeLine (raw : List UInt8) : List UInt8 := trim (stripComment raw)

/-- The values of all such lines, each read through `buf`. -/
def peerValues (buf : List UInt8 → List UInt8) (name : List UInt8) :
    WgSection → List (List UInt8) → List (List UInt8)
  | _, [] => []
  | sec, raw :: rest =>
    (peerValue name sec (buf raw)).toList ++ peerValues buf name (sectionAfter sec raw) rest

/-- What one key of a peer decides: a part of the record that no key of the interface touches, and that
`step` changes with the value of this key. -/
structure KeyedBy {β : Type} (f : PmxVpn → β) (name : List UInt8) (step : β → List UInt8 → β) : Prop where
  name_ne_nil : name ≠ []
  iface : ∀ out key val, f (wgInterfaceEntry out key val) = f out
  peer : ∀ out key val, f (wgPeerEntry out key val) = if ciEq key name = true then step (f out) val else f out

/-- **One line** of a WireGuard config, seen through a part that a key decides. -/
theorem KeyedBy.out_wgLine {β : Type} {f : PmxVpn → β} {name : List UInt8} {step : β → List UInt8 → β}
    (hf : KeyedBy f name step) (st : WgState) (raw : List UInt8) :
    f (wgLine st raw).out = (peerValue name st.sec (wgBuf raw)).toList.foldl step (f st.out) := by
  unfold wgLine peerValue
  dsimp only
  by_cases hnil : wgBuf raw = []
  · rw [if_pos hnil, if_neg (by rw [hnil]; exact fun h => List.not_mem_nil h.2.2.1)]
    rfl
  · rw [if_neg hnil]
    by_cases hheader : (wgBuf raw).head? = some 91
    · rw [if_pos hheader, if_neg fun h => h.2.1 hheader]
      rfl
    · rw [if_neg hheader]
      by_cases hequals : equals ∈ wgBuf raw
      · rw [if_neg (not_not_intro hequals)]
        by_cases hkey : trim ((wgBuf raw).takeWhile (· != equals)) = []
        · have hblank : ciEq [] name = false := by
            cases hname : name with
            | nil => exact absurd hname hf.name_ne_nil
            | cons => rfl
          rw [if_pos hkey, if_neg (by rw [hkey, hblank]; exact fun h => by cases h.2.2.2)]
          rfl
        · rw [if_neg hkey, wgEntry]
          cases hsec : st.sec with
          | none =>
            rw [if_neg fun h => by cases h.1]
            rfl
          | iface =>
            rw [if_neg fun h => by cases h.1]
            exact hf.iface _ _ _
          | peer =>
            dsimp only
            rw [hf.peer]
            by_cases hname : ciEq (trim ((wgBuf raw).takeWhile (· != equals))) name = true
            · rw [if_pos hname, if_pos ⟨rfl, hheader, hequals, hname⟩]
              rfl
            · rw [if_neg hname, if_neg fun h => hname h.2.2.2]
              rfl
      · rw [if_pos hequals, if_neg fun h => hequals h.2.2.1]
        rfl

theorem KeyedBy.out_foldl {β : Type} {f : PmxVpn → β} {name : List UInt8} {step : β → List UInt8 → β}
    (hf : KeyedBy f name step) (ls : List (List UInt8)) :
    ∀ st : WgState, f (ls.foldl wgLine st).out =
      (peerValues wgBuf name st.sec ls).foldl step (f st.out) := by
  induction ls with
  | nil => exact fun _ => rfl
  | cons raw ls ih =>
    intro st
    rw [List.foldl_cons, ih, wgLine_sec, hf.out_wgLine, peerValues, List.foldl_append]

/-- The remote that a value names. -/
def wgRemote (val : List UInt8) : Option PmxVpnEndpoint :=
  (parseHostport val pmxMaxHost).bind fun r =>
    if r.1 = [] then none else some ⟨strlcpy pmxMaxHost r.1, r.2, true⟩

/-- The remotes of a config that the parser sees. -/
def wgRemotes (text : CStr) : List PmxVpnEndpoint :=
  (peerValues wgBuf (bytes "Endpoint") .none (configLines text)).filterMap wgRemote

theorem wgInterfaceEntry_listed (out : PmxVpn) (key val : List UInt8) :
    (wgInterfaceEntry out key val).listed = out.listed := by
  simp only [wgInterfaceEntry, apply_ite PmxVpn.listed]
  simp only [PmxVpn.listed, ite_self]

theorem wgPeerEntry_listed (out : PmxVpn) (key val : List UInt8) :
    (wgPeerEntry out key val).listed =
      if ciEq key (bytes "Endpoint") = true then
        (wgRemote val).toList.foldl (SlotTable.pushCapped pmxMaxVpnEndpoints) out.listed
      else out.listed := by
  by_cases hkey : ciEq key (bytes "Endpoint") = true
  · have hother : ∀ name ∈ [bytes "PublicKey", bytes "PresharedKey", bytes "AllowedIPs"],
        ciEq key name = false := by
      intro name hname
      rw [ciEq_congr hkey]
      revert name
      decide
    have hpublic : ciEq key (bytes "PublicKey") = false := hother _ (by simp)
    have hpreshared : ciEq key (bytes "PresharedKey") = false := hother _ (by simp)
    have hallowed : ciEq key (bytes "AllowedIPs") = false := hother _ (by simp)
    rw [if_pos hkey, wgPeerEntry, hpublic, hpreshared, hallowed]
    simp only [Bool.false_eq_true, if_false, if_pos hkey]
    rw [wgRemote]
    cases parseHostport val pmxMaxHost with
    | none => rfl
    | some r =>
      obtain ⟨host, port⟩ := r
      dsimp only [Option.bind_some]
      by_cases hhost : host = []
      · rw [if_pos hhost, hhost]
        rfl
      · rw [if_neg hhost, addEndpoint_listed _ hhost]
        rfl
  · rw [if_neg hkey]
    simp only [wgPeerEntry, if_neg hkey, apply_ite PmxVpn.listed]
    simp only [PmxVpn.listed, ite_self]

theorem keyedBy_listed : KeyedBy PmxVpn.listed (bytes "Endpoint") fun listed val =>
    (wgRemote val).toList.foldl (SlotTable.pushCapped pmxMaxVpnEndpoints) listed where
  name_ne_nil := by decide
  iface := wgInterfaceEntry_listed
  peer := wgPeerEntry_listed

theorem foldl_wgLine_listed (ls : List (List UInt8)) (st : WgState) :
    (ls.foldl wgLine st).out.listed =
      ((peerValues wgBuf (bytes "Endpoint") st.sec ls).filterMap wgRemote).foldl
        (SlotTable.pushCapped pmxMaxVpnEndpoints) st.out.listed := by
  rw [keyedBy_listed.out_foldl, List.foldl_filterMap]
  refine List.foldl_ext _ _ _ fun listed val _ => ?_
  cases wgRemote val with
  | none => rfl
  | some r => rfl

/-- **What a WireGuard config comes to**: the first eight endpoints of its peers, and a note if there are
more; a config without one is refused. -/
theorem parseWireguard_remotes (text : CStr) :
    (pmxVpnParseWireguard text).1.endpoints = (wgRemotes text).take pmxMaxVpnEndpoints ∧
      (pmxVpnParseWireguard text).1.endpointsTruncated =
        decide (pmxMaxVpnEndpoints < (wgRemotes text).length) ∧
      ((pmxVpnParseWireguard text).2 = .ok ↔ wgRemotes text ≠ []) := by
  have hkept := SlotTable.foldl_pushCapped pmxMaxVpnEndpoints (wgRemotes text) [] false (Nat.zero_le _)
  have hout := (foldl_wgLine_listed (configLines text) wgInit).trans hkept
  obtain ⟨hendpoints, htruncated⟩ := Prod.mk.injEq .. ▸ hout
  rw [List.nil_append] at hendpoints htruncated
  refine ⟨hendpoints, htruncated.trans (Bool.false_or _), ?_⟩
  show (if ((configLines text).foldl wgLine wgInit).out.endpoints.length = 0 then PmxStatus.errParse
    else .ok) = .ok ↔ _
  rw [hendpoints]
  cases wgRemotes text with
  | nil => exact iff_of_false (fun h => by cases h) fun h => h rfl
  | cons r rs => exact iff_of_true (if_neg (Nat.succ_ne_zero _)) (List.cons_ne_nil _ _)

end ProxiMight
