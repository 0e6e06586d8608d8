import ProxiMight.EndpointPorts

/-!
# Where the global directives stand (`pmx_vpn_parse_openvpn`)

`proto` and `port` speak of the remotes that have none of their own.  The port is handed out after the
loop, whatever came first; the transport is taken by each `remote` line as it is read, so it reaches only
the remotes behind the directive.

* **`globals_moveFreely_iff`** — to move the two directives changes nothing exactly when TCP is handed to
  the same of the first eight remotes as before, and the same port.
* **`MovedGlobals.handedPort_eq_of_noBlocks`** — the port always is, unless lines are skipped.
-/

namespace ProxiMight

open CString TextLines Words

/-! ### Configs and moves -/

/-- The line is a directive of that name, with or without a word. -/
def isDirective (name : List UInt8) (raw : List UInt8) : Bool :=
  (lineWords raw).head?.any fun word => ciEq word name

/-- The line is neither of the two. -/
def isOtherLine (raw : List UInt8) : Bool :=
  !isDirective (bytes "proto") raw && !isDirective (bytes "port") raw

/-- The line begins with `<` and opens a block that is skipped. -/
def opensBlock (raw : List UInt8) : Bool :=
  isOpenLine (lineBuf raw) && !isParsedContainerTag (tagOf ((lineBuf raw).drop 1)).str

/-- The lines have no inline blocks. -/
def NoBlocks (ls : List (List UInt8)) : Prop := ∀ raw ∈ ls, opensBlock raw = false

instance (ls : List (List UInt8)) : Decidable (NoBlocks ls) := inferInstanceAs (Decidable (∀ _ ∈ _, _))

/-- The lines `ls'` are `ls` with the only `proto` and the only `port` at other places. -/
structure MovedGlobals (ls ls' : List (List UInt8)) : Prop where
  others : ls'.filter isOtherLine = ls.filter isOtherLine
  proto : ls'.filter (isDirective (bytes "proto")) = ls.filter (isDirective (bytes "proto"))
  port : ls'.filter (isDirective (bytes "port")) = ls.filter (isDirective (bytes "port"))
  one_proto : (ls.filter (isDirective (bytes "proto"))).length ≤ 1
  one_port : (ls.filter (isDirective (bytes "port"))).length ≤ 1

/-- The texts get the same status and the same endpoints. -/
def SameEndpoints (text text' : CStr) : Prop :=
  (pmxVpnParseOpenvpn text').2 = (pmxVpnParseOpenvpn text).2 ∧
    (pmxVpnParseOpenvpn text').1.endpoints = (pmxVpnParseOpenvpn text).1.endpoints

/-- The word of the `proto` directive. -/
def protoWord (items : List OvpnItem) : Option (List UInt8) := (items.filterMap OvpnItem.protoOf).head?

/-- The number of remotes before the `proto` directive. -/
def remotesBefore (items : List OvpnItem) : ℕ :=
  (remoteLines (items.takeWhile fun item => item.protoOf.isNone)).length

/-- A `proto` directive that names TCP stands before the remote at that place. -/
def TcpBefore (items : List OvpnItem) (i : ℕ) : Prop :=
  (protoWord items).any isTcpWord = true ∧ remotesBefore items ≤ i

instance (items : List OvpnItem) (i : ℕ) : Decidable (TcpBefore items i) :=
  inferInstanceAs (Decidable (_ ∧ _))

/-- The port for the remotes that have none. -/
def handedPort (items : List OvpnItem) : PmxPort := recordedPort (readPort 1194 (globalPort items)) 0

/-- The two come to the same for the remote at place `i`, where that has no transport, or no port. -/
def HandedAlike (items items' : List OvpnItem) (i : ℕ) (r : OvpnRemote) : Prop :=
  (r.transport = none → (TcpBefore items i ↔ TcpBefore items' i)) ∧
    (readPort 0 r.port = 0 → handedPort items = handedPort items')

/-- They do for each of the first eight remotes. -/
def HandOutAlike (items items' : List OvpnItem) : Prop :=
  ∀ i r, i < pmxMaxVpnEndpoints → (remoteLines items)[i]? = some r → HandedAlike items items' i r

/-! ### The items of the moved lines -/

theorem unskipped_of_noBlocks {ls : List (List UInt8)} (h : NoBlocks ls) :
    unskipped .empty ls = ls := by
  induction ls with
  | nil => rfl
  | cons raw ls ih =>
    have hskip : tagStep .empty raw = .empty := by
      have hopen := h raw List.mem_cons_self
      rw [opensBlock] at hopen
      rw [tagStep, if_neg (by decide), if_neg (by rw [hopen]; exact Bool.false_ne_true)]
    rw [unskipped, hskip, ih fun l hl => h l (List.mem_cons_of_mem _ hl)]
    rfl

/-- Neither of the two begins with a tag. -/
theorem isOtherLine_of_tag {raw rest : List UInt8} (h : lineBuf raw = 60 :: rest) :
    isOtherLine raw = true := by
  obtain ⟨w, ws, hwords⟩ := words_of_tag h
  rw [isOtherLine, isDirective, isDirective, lineWords, hwords]
  rfl

/-- What is skipped does not depend on the two. -/
theorem tagStep_of_directive {raw : List UInt8} (h : isOtherLine raw = false) (skip : CBuf ovpnTagSize) :
    tagStep skip raw = skip := by
  have hnotag : ∀ rest, lineBuf raw ≠ 60 :: rest := by
    intro rest hline
    rw [isOtherLine_of_tag hline] at h
    cases h
  have hopen : isOpenLine (lineBuf raw) = false := Bool.eq_false_iff.2 fun hopen =>
    have ⟨rest, hline⟩ := eq_cons_of_isOpenLine hopen
    hnotag rest hline
  have hclose : isCloseLine (lineBuf raw) = false := Bool.eq_false_iff.2 fun hclose =>
    have ⟨rest, hline⟩ := eq_cons_of_isCloseLine hclose
    hnotag rest hline
  rw [tagStep, hopen, endsSkip, hclose, Bool.false_and, Bool.false_and, if_neg Bool.false_ne_true,
    if_neg Bool.false_ne_true, ite_self]

theorem unskipped_filter (ls : List (List UInt8)) :
    ∀ skip, (unskipped skip ls).filter isOtherLine = unskipped skip (ls.filter isOtherLine) := by
  induction ls with
  | nil => exact fun _ => rfl
  | cons raw ls ih =>
    intro skip
    rw [unskipped]
    cases hother : isOtherLine raw with
    | true =>
      rw [List.filter_cons_of_pos hother, unskipped, ← ih]
      split_ifs
      · rw [List.filter_cons_of_pos hother]
      · rfl
    | false =>
      have hneg : ¬isOtherLine raw = true := by rw [hother]; exact Bool.false_ne_true
      rw [List.filter_cons_of_neg hneg, tagStep_of_directive hother, ← ih]
      split_ifs
      · rw [List.filter_cons_of_neg hneg]
      · rfl

/-- What a directive's item says of its name. -/
theorem lineItem_cases (raw : List UInt8) :
    lineItem raw = .other ∨
      (∃ host port transport, lineItem raw = .remote host port transport ∧
        isDirective (bytes "proto") raw = false ∧ isDirective (bytes "port") raw = false) ∨
      (∃ word, lineItem raw = .proto word ∧ isDirective (bytes "proto") raw = true) ∨
      ∃ word, lineItem raw = .port word ∧ isDirective (bytes "port") raw = true := by
  rw [lineItem, isDirective, isDirective]
  rcases lineWords raw with - | ⟨name, - | ⟨word, more⟩⟩
  · exact Or.inl rfl
  · exact Or.inl rfl
  · rw [ovpnItem]
    split_ifs with hremote hproto hport
    · refine Or.inr (Or.inl ⟨_, _, _, rfl, ?_, ?_⟩)
      · show ciEq name (bytes "proto") = false
        rw [ciEq_congr hremote]
        decide
      · show ciEq name (bytes "port") = false
        rw [ciEq_congr hremote]
        decide
    · exact Or.inr (Or.inr (Or.inl ⟨_, rfl, hproto⟩))
    · exact Or.inr (Or.inr (Or.inr ⟨_, rfl, hport⟩))
    · exact Or.inl rfl

/-- What lines of one kind contribute can be read off these lines. -/
theorem filterMap_lineItem {β : Type} {f : OvpnItem → Option β} {p : List UInt8 → Bool}
    (h : ∀ raw b, f (lineItem raw) = some b → p raw = true) (ls : List (List UInt8)) :
    ((ls.filter p).map lineItem).filterMap f = (ls.map lineItem).filterMap f := by
  induction ls with
  | nil => rfl
  | cons raw ls ih =>
    by_cases hp : p raw = true
    · rw [List.filter_cons_of_pos hp, List.map_cons, List.map_cons]
      cases hf : f (lineItem raw) with
      | none => rw [List.filterMap_cons_none hf, List.filterMap_cons_none hf, ih]
      | some b => rw [List.filterMap_cons_some hf, List.filterMap_cons_some hf, ih]
    · have hf : f (lineItem raw) = none := by
        cases hf : f (lineItem raw) with
        | none => rfl
        | some b => exact absurd (h raw b hf) hp
      rw [List.filter_cons_of_neg hp, List.map_cons, List.filterMap_cons_none hf, ih]

/-- Each `remote` line is another one, and each `proto` word is of a `proto` directive. -/
theorem isOtherLine_of_remote {raw : List UInt8} {r : OvpnRemote} (h : (lineItem raw).remoteOf = some r) :
    isOtherLine raw = true := by
  rw [isOtherLine]
  rcases lineItem_cases raw with heq | ⟨_, _, _, -, hproto, hport⟩ | ⟨_, heq, -⟩ | ⟨_, heq, -⟩
  · rw [heq] at h; cases h
  · rw [hproto, hport]; rfl
  · rw [heq] at h; cases h
  · rw [heq] at h; cases h

theorem isDirective_of_proto {raw w : List UInt8} (h : (lineItem raw).protoOf = some w) :
    isDirective (bytes "proto") raw = true := by
  rcases lineItem_cases raw with heq | ⟨_, _, _, heq, -⟩ | ⟨_, -, hname⟩ | ⟨_, heq, -⟩
  · rw [heq] at h; cases h
  · rw [heq] at h; cases h
  · exact hname
  · rw [heq] at h; cases h

theorem isDirective_of_port {raw w : List UInt8} (h : (lineItem raw).portOf = some w) :
    isDirective (bytes "port") raw = true := by
  rcases lineItem_cases raw with heq | ⟨_, _, _, heq, -⟩ | ⟨_, heq, -⟩ | ⟨_, -, hname⟩
  · rw [heq] at h; cases h
  · rw [heq] at h; cases h
  · rw [heq] at h; cases h
  · exact hname

namespace MovedGlobals

variable {text text' : CStr}

/-- The remotes stay as they are, in whatever lines are skipped. -/
theorem remoteLines_eq (h : MovedGlobals (configLines text) (configLines text')) :
    remoteLines (ovpnItems text') = remoteLines (ovpnItems text) := by
  have hread : ∀ t : CStr, remoteLines (ovpnItems t) =
      remoteLines ((unskipped .empty ((configLines t).filter isOtherLine)).map lineItem) := by
    intro t
    rw [remoteLines, remoteLines, ← unskipped_filter, ovpnItems,
      filterMap_lineItem fun raw r hr => isOtherLine_of_remote hr]
  rw [hread text, hread text', h.others]

theorem protoWords_length {ls : List (List UInt8)}
    (h : (ls.filter (isDirective (bytes "proto"))).length ≤ 1) :
    (((unskipped .empty ls).map lineItem).filterMap OvpnItem.protoOf).length ≤ 1 := by
  rw [← filterMap_lineItem fun raw w hw => isDirective_of_proto hw]
  refine (List.length_filterMap_le _ _).trans ?_
  rw [List.length_map]
  exact ((unskipped_sublist ls .empty).filter _).length_le.trans h

theorem one_proto_moved {ls ls' : List (List UInt8)} (h : MovedGlobals ls ls') :
    (ls'.filter (isDirective (bytes "proto"))).length ≤ 1 := by
  rw [h.proto]
  exact h.one_proto

/-- There are no new lines. -/
theorem mem {ls ls' : List (List UInt8)} (h : MovedGlobals ls ls') {raw : List UInt8} (hraw : raw ∈ ls') :
    raw ∈ ls := by
  cases hproto : isDirective (bytes "proto") raw with
  | true => exact List.mem_of_mem_filter (h.proto ▸ List.mem_filter.2 ⟨hraw, hproto⟩)
  | false =>
    cases hport : isDirective (bytes "port") raw with
    | true => exact List.mem_of_mem_filter (h.port ▸ List.mem_filter.2 ⟨hraw, hport⟩)
    | false =>
      refine List.mem_of_mem_filter (h.others ▸ List.mem_filter.2 ⟨hraw, ?_⟩)
      rw [isOtherLine, hproto, hport]
      rfl

/-- Without inline blocks a moved `port` is handed out as before. -/
theorem handedPort_eq_of_noBlocks (h : MovedGlobals (configLines text) (configLines text'))
    (hblocks : NoBlocks (configLines text)) :
    handedPort (ovpnItems text) = handedPort (ovpnItems text') := by
  have hread : ∀ t : CStr, NoBlocks (configLines t) → globalPort (ovpnItems t) =
      (((configLines t).filter (isDirective (bytes "port"))).map lineItem |>.filterMap
        OvpnItem.portOf).getLast? := by
    intro t ht
    rw [globalPort, ovpnItems, unskipped_of_noBlocks ht,
      filterMap_lineItem fun raw w hw => isDirective_of_port hw]
  rw [handedPort, handedPort, hread text hblocks, hread text' fun raw hraw => hblocks raw (h.mem hraw),
    h.port]

end MovedGlobals

/-! ### Transports -/

/-- The transport that the `proto` directive names. -/
def protoUdp (udp : Bool) (items : List OvpnItem) : Bool :=
  match protoWord items with
  | some word => !isTcpWord word
  | none => udp

/-- With one `proto` at most, a remote is told by its line and by the side it stands on. -/
theorem remotesFrom_getElem? (items : List OvpnItem) :
    ∀ udp, (items.filterMap OvpnItem.protoOf).length ≤ 1 → ∀ i : ℕ,
      (remotesFrom udp items)[i]? = (remoteLines items)[i]?.map fun r =>
        ⟨strlcpy pmxMaxHost r.host, readPort 0 r.port,
          ownUdp r.transport (if i < remotesBefore items then udp else protoUdp udp items)⟩ := by
  induction items with
  | nil => exact fun _ _ _ => rfl
  | cons item items ih =>
    intro udp hone i
    cases item with
    | remote host port transport =>
      cases i with
      | zero => rfl
      | succ i =>
        have hbefore : (i + 1 < remotesBefore (.remote host port transport :: items)) =
            (i < remotesBefore items) := propext Nat.succ_lt_succ_iff
        simp only [hbefore]
        exact ih udp hone i
    | proto word =>
      -- behind the only `proto` there is no other
      have hnone : items.filterMap OvpnItem.protoOf = [] :=
        List.length_eq_zero_iff.1 (Nat.le_zero.1 (Nat.le_of_succ_le_succ hone))
      have hudp : protoUdp (!isTcpWord word) items = !isTcpWord word := by
        rw [protoUdp, protoWord, hnone]
        rfl
      have hrest := ih (!isTcpWord word) (by rw [hnone]; exact Nat.zero_le 1) i
      simp only [hudp, ite_self] at hrest
      exact hrest
    | port word => exact ih udp hone i
    | other => exact ih udp hone i

/-- A remote gets UDP unless a `proto` before it names TCP. -/
theorem handedUdp_eq (items : List OvpnItem) (i : ℕ) :
    (if i < remotesBefore items then true else protoUdp true items) = !decide (TcpBefore items i) := by
  rw [protoUdp]
  by_cases hbefore : i < remotesBefore items
  · have hnot : ¬TcpBefore items i := fun h => Nat.not_lt.2 h.2 hbefore
    rw [if_pos hbefore, decide_eq_false hnot]
    rfl
  · rw [if_neg hbefore]
    cases hword : protoWord items with
    | none =>
      have hnot : ¬TcpBefore items i := by
        rintro ⟨htcp, -⟩
        rw [hword] at htcp
        cases htcp
      rw [decide_eq_false hnot]
      rfl
    | some word =>
      have hiff : isTcpWord word = true ↔ TcpBefore items i := by
        rw [TcpBefore, hword]
        exact (and_iff_left (Nat.le_of_not_lt hbefore)).symm
      exact congrArg not (Bool.eq_iff_iff.2 (hiff.trans decide_eq_true_iff.symm))

/-- Two transports of one remote. -/
theorem ownUdp_eq_iff (transport : Option (List UInt8)) (a b : Prop) [Decidable a] [Decidable b] :
    ownUdp transport (!decide a) = ownUdp transport (!decide b) ↔ (transport = none → (a ↔ b)) := by
  cases transport with
  | some word => exact iff_of_true rfl fun h => by cases h
  | none =>
    rw [ownUdp, ownUdp, Bool.not_inj_iff, decide_eq_decide]
    exact (imp_iff_right rfl).symm

/-- Two ports of one remote. -/
theorem recordedPort_eq_iff (default default' own : PmxPort) :
    recordedPort default own = recordedPort default' own ↔
      (own = 0 → recordedPort default 0 = recordedPort default' 0) := by
  by_cases hown : own = 0
  · rw [hown]
    exact (imp_iff_right rfl).symm
  · rw [recordedPort, recordedPort, if_neg hown, if_neg hown]
    exact iff_of_true rfl fun h => absurd h hown

/-! ### The endpoints of moved directives -/

/-- The endpoint that a `remote` line comes to, given the port and the transport handed to it. -/
def recordedRemote (port : PmxPort) (udp : Bool) (r : OvpnRemote) : PmxVpnEndpoint :=
  ⟨strlcpy pmxMaxHost r.host, recordedPort port (readPort 0 r.port), ownUdp r.transport udp⟩

/-- The endpoint at a place, where there is one `proto` at most. -/
theorem endpoints_getElem? {text : CStr}
    (hone : ((ovpnItems text).filterMap OvpnItem.protoOf).length ≤ 1) {i : ℕ} (hi : i < pmxMaxVpnEndpoints) :
    (pmxVpnParseOpenvpn text).1.endpoints[i]? = (remoteLines (ovpnItems text))[i]?.map
      (recordedRemote (readPort 1194 (globalPort (ovpnItems text)))
        (!decide (TcpBefore (ovpnItems text) i))) := by
  rw [(parseOpenvpn_remotes text).1, List.getElem?_map, List.getElem?_take_of_lt hi,
    remotesFrom_getElem? _ true hone, lastPort_eq, Option.map_map, handedUdp_eq]
  cases (remoteLines (ovpnItems text))[i]? with
  | none => rfl
  | some r => exact congrArg some (applyDefaultPort_eq _ _)

theorem parseOpenvpn_status (text : CStr) :
    (pmxVpnParseOpenvpn text).2 = if remoteLines (ovpnItems text) = [] then .errParse else .ok := by
  have hok := parseOpenvpn_ok_iff text
  split_ifs with hnil
  · have hnot : (pmxVpnParseOpenvpn text).2 ≠ .ok := fun h => hok.1 h hnil
    have hcases : (pmxVpnParseOpenvpn text).2 = .errParse ∨ (pmxVpnParseOpenvpn text).2 = .ok := by
      rw [pmxVpnParseOpenvpn, ovpnFinish]
      dsimp only
      split_ifs
      · exact Or.inl rfl
      · exact Or.inr rfl
    exact hcases.resolve_right hnot
  · exact hok.2 hnil

/-- A remote is recorded alike when it is handed the same. -/
theorem recordedRemote_eq_iff (items items' : List OvpnItem) (i : ℕ) (r : OvpnRemote) :
    recordedRemote (readPort 1194 (globalPort items)) (!decide (TcpBefore items i)) r =
        recordedRemote (readPort 1194 (globalPort items')) (!decide (TcpBefore items' i)) r ↔
      HandedAlike items items' i r := by
  rw [recordedRemote, recordedRemote, PmxVpnEndpoint.mk.injEq, and_iff_right rfl, recordedPort_eq_iff,
    ownUdp_eq_iff, and_comm]
  exact Iff.rfl

/-- **Where the directives may stand.**  Move the only `proto` and the only `port` of a config: the status
and the endpoints stay the same exactly when each of the first eight remotes is handed the same as before,
which means that one without a transport stays on its side of a `proto` that names TCP, and one without a
port gets the same. -/
theorem globals_moveFreely_iff (text text' : CStr)
    (hmoved : MovedGlobals (configLines text) (configLines text')) :
    SameEndpoints text text' ↔ HandOutAlike (ovpnItems text) (ovpnItems text') := by
  have hremotes := hmoved.remoteLines_eq
  have hone : ((ovpnItems text).filterMap OvpnItem.protoOf).length ≤ 1 :=
    MovedGlobals.protoWords_length hmoved.one_proto
  have hone' : ((ovpnItems text').filterMap OvpnItem.protoOf).length ≤ 1 :=
    MovedGlobals.protoWords_length hmoved.one_proto_moved
  have hstatus : (pmxVpnParseOpenvpn text').2 = (pmxVpnParseOpenvpn text).2 := by
    rw [parseOpenvpn_status, parseOpenvpn_status, hremotes]
  -- place by place
  have hplace : ∀ i, i < pmxMaxVpnEndpoints →
      ((pmxVpnParseOpenvpn text').1.endpoints[i]? = (pmxVpnParseOpenvpn text).1.endpoints[i]? ↔
        ∀ r, (remoteLines (ovpnItems text))[i]? = some r →
          HandedAlike (ovpnItems text) (ovpnItems text') i r) := by
    intro i hi
    rw [endpoints_getElem? hone' hi, endpoints_getElem? hone hi, hremotes]
    cases (remoteLines (ovpnItems text))[i]? with
    | none => exact iff_of_true rfl fun _ h => by cases h
    | some r =>
      rw [Option.map_some, Option.map_some, Option.some.injEq, eq_comm, recordedRemote_eq_iff]
      constructor
      · rintro h r' hr'
        obtain rfl := Option.some.inj hr'
        exact h
      · exact fun h => h r rfl
  have hfit : ∀ t : CStr, ∀ i, ¬i < pmxMaxVpnEndpoints → (pmxVpnParseOpenvpn t).1.endpoints[i]? = none :=
    fun t i hi => List.getElem?_eq_none
      ((pmxVpnParseOpenvpn t).1.endpoints_fit.trans (Nat.le_of_not_lt hi))
  rw [SameEndpoints, and_iff_right hstatus, List.ext_getElem?_iff]
  constructor
  · intro h i r hi hr
    exact (hplace i hi).1 (h i) r hr
  · intro h i
    by_cases hi : i < pmxMaxVpnEndpoints
    · exact (hplace i hi).2 fun r hr => h i r hi hr
    · rw [hfit text i hi, hfit text' i hi]

/-- A remote without a port and a transport and one with its own, behind the directives for the first. -/
def globalsFirstText : CStr :=
  ⟨bytes "proto tcp\nport 443\nremote a\nremote b 53 udp\n", by decide⟩

/-- The `port` is moved to the end. -/
def portLastText : CStr := ⟨bytes "proto tcp\nremote a\nremote b 53 udp\nport 443\n", by decide⟩

/-- Both are. -/
def globalsLastText : CStr := ⟨bytes "remote a\nremote b 53 udp\nport 443\nproto tcp\n", by decide⟩

theorem globals_moveFreely_port : SameEndpoints globalsFirstText portLastText :=
  (globals_moveFreely_iff globalsFirstText portLastText
    ⟨by decide +kernel, by decide +kernel, by decide +kernel, by decide +kernel, by decide +kernel⟩).2
    (by
      have hproto : protoWord (ovpnItems globalsFirstText) = protoWord (ovpnItems portLastText) ∧
          remotesBefore (ovpnItems globalsFirstText) = remotesBefore (ovpnItems portLastText) := by
        decide +kernel
      have hport : handedPort (ovpnItems globalsFirstText) = handedPort (ovpnItems portLastText) := by
        decide +kernel
      intro i r _ _
      refine ⟨fun _ => ?_, fun _ => hport⟩
      rw [TcpBefore, TcpBefore, hproto.1, hproto.2])

/-- Behind `remote a` the `proto tcp` comes too late: the first endpoint goes over UDP, though the port
reaches it. -/
theorem not_sameEndpoints_protoLast :
    NoBlocks (configLines globalsFirstText) ∧
      MovedGlobals (configLines globalsFirstText) (configLines globalsLastText) ∧
      (pmxVpnParseOpenvpn globalsFirstText).1.endpoints.map (fun e => (e.port, e.udp)) =
        [(443, false), (53, true)] ∧
      (pmxVpnParseOpenvpn globalsLastText).1.endpoints.map (fun e => (e.port, e.udp)) =
        [(443, true), (53, true)] ∧
      ¬SameEndpoints globalsFirstText globalsLastText := by
  have hfirst : (pmxVpnParseOpenvpn globalsFirstText).1.endpoints.map (fun e => (e.port, e.udp)) =
      [(443, false), (53, true)] := by decide +kernel
  have hlast : (pmxVpnParseOpenvpn globalsLastText).1.endpoints.map (fun e => (e.port, e.udp)) =
      [(443, true), (53, true)] := by decide +kernel
  refine ⟨by decide +kernel,
    ⟨by decide +kernel, by decide +kernel, by decide +kernel, by decide +kernel, by decide +kernel⟩,
    hfirst, hlast, fun h => ?_⟩
  rw [h.2, hfirst] at hlast
  exact absurd hlast (by decide)

end ProxiMight
