import ProxiMight.HttpTunnel
import ProxiMight.TunnelTable
import ProxiMight.WgDump

/-!
# Asking a client for its tunnel (`pmx_vpn_query_status`, `pmx_ovpn_parse_state`)

OpenVPN answers on its management socket with notices, a line for its state and `END`.  The answer is read
in eight receives at most, into a buffer of 4096 bytes, and the first state line in it is what is shown.

* **`ovpnStatus_sound`** — a state is shown only if the client has sent it, before any other.
* **`ovpnStatus_complete`** — a state that the client has sent within the first eight segments is shown,
  however it was cut into them.
-/

namespace ProxiMight

open CString TextLines

/-! ### The functions -/

def comma : UInt8 := 44

/-- The fields of a state line. -/
def stateFields (raw : List UInt8) : Option (List (List UInt8)) :=
  let line := nextLine lineCap raw
  -- async notices and the terminator
  if line = [] ∨ line.head? = some 62 ∨ line = bytes "END" then none
  -- a state line starts with a unix timestamp
  else if (line.head?.any isDigit) = false then none
  else
    let f := splitFields comma 10 line
    if f.length < 2 then none else some f

/-- `out` from the fields of a state line. -/
def statusOfState (f : List (List UInt8)) : PmxVpnStatus :=
  let assignedIp : CBuf pmxMaxIp :=
    if f.length > 3 ∧ f.getD 3 [] ≠ [] then strlcpy pmxMaxIp (f.getD 3 []) else .empty
  { PmxVpnStatus.zero with
    verified := true
    connected := decide (f.getD 1 [] = bytes "CONNECTED")
    assignedIp := assignedIp
    detail := strlcpy pmxMaxMsg
      (if f.length > 2 ∧ f.getD 2 [] ≠ [] ∧ f.getD 2 [] ≠ bytes "SUCCESS" then
        f.getD 1 [] ++ bytes " (" ++ f.getD 2 [] ++ bytes ")"
      else if assignedIp.isEmpty = false then
        f.getD 1 [] ++ bytes " " ++ bullet ++ bytes " " ++ assignedIp.str
      else f.getD 1 []) }

/-- The loop over the lines, which the first state line ends. -/
def stateLoop : List (List UInt8) → PmxStatus × PmxVpnStatus
  | [] =>
    (.errParse, { PmxVpnStatus.zero with
      detail := strlcpy pmxMaxMsg (bytes "no state line in management reply") })
  | raw :: raws =>
    match stateFields raw with
    | some f => (.ok, statusOfState f)
    | none => stateLoop raws

/-- `pmx_ovpn_parse_state`: the status, and what `out` holds afterwards. -/
def pmxOvpnParseState (text : Option CStr) (out : PmxVpnStatus) : PmxStatus × PmxVpnStatus :=
  match text with
  | none => (.errInvalidArg, out)
  | some text => stateLoop (lines text.str)

/-- The size of `buf`, less its terminator. -/
def stateReplyCap : ℕ := 4095

/-- The end of the answer. -/
def SeesEnd (buf : List UInt8) : Prop :=
  newline :: bytes "END" <:+: cstr buf ∨ 13 :: bytes "END" <:+: cstr buf

instance (buf : List UInt8) : Decidable (SeesEnd buf) := inferInstanceAs (Decidable (_ ∨ _))

/-- The receives that are left, and what `buf` holds. -/
def stateReplyLoop : ℕ → List UInt8 → Wire → List UInt8
  | 0, buf, _ => buf
  | n + 1, buf, w =>
    if buf.length < stateReplyCap then
      match pmxRecvSome w (stateReplyCap - buf.length) with
      | (.error _, _) => buf
      | (.ok got, w) => if SeesEnd (buf ++ got) then buf ++ got else stateReplyLoop n (buf ++ got) w
    else buf

/-- What a query meets: whether the client was found, and where; what a program run by it reports; the time;
and the management socket. -/
structure QueryEnv where
  client : Option (CBuf pmxMaxPath)
  run : CBuf (pmxMaxPath + 128) → ProcRun
  now : UInt64
  connect : PmxStatus
  wire : Wire

def failedQuery (st : PmxStatus) (detail : List UInt8) : PmxStatus × PmxVpnStatus :=
  (st, { PmxVpnStatus.zero with detail := strlcpy pmxMaxMsg detail })

/-- What stands before the last separator of the client's path: `\` first, else `/`. -/
def clientDir (path : CBuf pmxMaxPath) : List UInt8 :=
  if 92 ∈ path.str then (path.str.rdropWhile (· != 92)).dropLast
  else if 47 ∈ path.str then (path.str.rdropWhile (· != 47)).dropLast
  else []

/-- `wg show <tunnel> dump`. -/
def wgShowCommand (path : CBuf pmxMaxPath) (tunnel : CBuf 64) : CBuf (pmxMaxPath + 128) :=
  strlcpy _ (bytes "\"" ++ clientDir path ++ bytes "\\wg.exe\" show \"" ++ tunnel.str ++ bytes "\" dump")

/-- The WireGuard branch; the entry may get its tunnel's name. -/
def wgQuery (v : PmxVpn) (env : QueryEnv) (e : VpnEntry) : VpnEntry × PmxStatus × PmxVpnStatus :=
  match env.client with
  | none => (e, failedQuery .errNotFound (bytes "WireGuard client not found"))
  | some path =>
    let e := { e with
      tunnelName := if e.tunnelName.isEmpty then serviceName v.configPath else e.tunnelName }
    let ran := env.run (wgShowCommand path e.tunnelName)
    if ran.succeeded then (e, pmxWgParseDump (some ran.out) env.now .zero)
    else
      (e, failedQuery .errState (bytes "wg show failed (exit " ++ intText ran.code ++ bytes ") " ++ emDash ++
        bytes " usually needs Administrator"))

/-- The OpenVPN branch. -/
def ovpnQuery (env : QueryEnv) (e : VpnEntry) : PmxStatus × PmxVpnStatus :=
  if e.mgmtPort = 0 then failedQuery .errState (bytes "no management port for this tunnel")
  else if env.connect ≠ .ok then
    failedQuery .errNet (bytes "management socket unreachable (is the client running?)")
  else
    -- whether the question could be sent is not looked at
    let w := (pmxSendAll env.wire (bytes "state\n")).2
    let buf := stateReplyLoop 8 [] w
    pmxOvpnParseState (some ⟨cstr buf, nul_notMem_cstr buf⟩) .zero

/-- The world afterwards, the status and what `out` holds. -/
def pmxVpnQueryStatus (w : VpnWorld) (v : PmxVpn) (env : QueryEnv) : VpnWorld × PmxStatus × PmxVpnStatus :=
  match (entryFor w.entries v.id false).2 with
  | none => (w, failedQuery .errNotFound (bytes "not started by ProxiMight"))
  | some slot =>
    let e := entryAt w.entries slot
    if v.kind = .wireguard then
      let r := wgQuery v env e
      ({ w with entries := w.entries.set slot r.1 }, r.2)
    else (w, ovpnQuery env e)

/-! ### What is shown has been sent -/

/-- The loop stops at the first state line. -/
theorem stateLoop_ok {out : PmxVpnStatus} : ∀ {raws : List (List UInt8)}, stateLoop raws = (.ok, out) →
    ∃ pre raw post f, raws = pre ++ raw :: post ∧ (∀ l ∈ pre, stateFields l = none) ∧
      stateFields raw = some f ∧ out = statusOfState f := by
  intro raws
  induction raws with
  | nil =>
    intro h
    cases h
  | cons raw raws ih =>
    intro h
    rw [stateLoop] at h
    cases hfields : stateFields raw with
    | some f =>
      rw [hfields] at h
      cases h
      exact ⟨[], raw, raws, f, rfl, nofun, hfields, rfl⟩
    | none =>
      rw [hfields] at h
      obtain ⟨pre, raw', post, f, rfl, hpre, hraw', hout⟩ := ih h
      refine ⟨raw :: pre, raw', post, f, rfl, ?_, hraw', hout⟩
      intro l hl
      rcases List.mem_cons.1 hl with rfl | hl
      · exact hfields
      · exact hpre l hl

theorem stateLoop_skip {pre : List (List UInt8)} (h : ∀ l ∈ pre, stateFields l = none)
    (raws : List (List UInt8)) : stateLoop (pre ++ raws) = stateLoop raws := by
  induction pre with
  | nil => rfl
  | cons l pre ih =>
    rw [List.cons_append, stateLoop, h l List.mem_cons_self]
    exact ih fun l' hl' => h l' (List.mem_cons_of_mem l hl')

/-- The buffer holds what it held, and then the front of the stream. -/
theorem stateReplyLoop_isPrefix : ∀ (n : ℕ) (buf : List UInt8) (w : Wire),
    buf <+: stateReplyLoop n buf w ∧ stateReplyLoop n buf w <+: buf ++ w.arriving.flatten := by
  intro n
  induction n with
  | zero => exact fun buf w => ⟨List.prefix_refl _, List.prefix_append _ _⟩
  | succ n ih =>
    intro buf w
    rw [stateReplyLoop]
    split_ifs with hroom
    · cases hrecv : pmxRecvSome w (stateReplyCap - buf.length) with
      | mk r w' =>
        cases r with
        | error st => exact ⟨List.prefix_refl _, List.prefix_append _ _⟩
        | ok got =>
          have hstream := pmxRecvSome_flatten hrecv
          dsimp only
          rw [← hstream, ← List.append_assoc]
          split_ifs
          · exact ⟨List.prefix_append _ _, List.prefix_append _ _⟩
          · exact ⟨(List.prefix_append _ _).trans (ih (buf ++ got) w').1, (ih (buf ++ got) w').2⟩
    · exact ⟨List.prefix_refl _, List.prefix_append _ _⟩

theorem cstr_isPrefix {x y : List UInt8} (h : x <+: y) : cstr x <+: cstr y := by
  obtain ⟨tail, rfl⟩ := h
  rw [cstr, cstr, List.takeWhile_append]
  split_ifs with hall
  · rw [(List.takeWhile_prefix _).eq_of_length hall]
    exact List.prefix_append _ _
  · exact List.prefix_refl _

/-- A run that begins with a byte which the front has not lies behind it. -/
theorem infix_of_notMem {c : UInt8} {run y : List UInt8} : ∀ {x : List UInt8}, c ∉ x → c :: run <:+: x ++ y →
    c :: run <:+: y := by
  intro x
  induction x with
  | nil => exact fun _ h => h
  | cons b x ih =>
    intro hc h
    rcases List.infix_cons_iff.1 h with hpre | hinf
    · obtain ⟨rfl, -⟩ := List.cons_prefix_cons.1 hpre
      exact absurd List.mem_cons_self hc
    · exact ih (fun hx => hc (List.mem_cons_of_mem b hx)) hinf

theorem nextLine_prefix (raw : List UInt8) : nextLine lineCap raw <+: raw :=
  (List.rdropWhile_prefix _ _).trans (List.take_prefix _ _)

/-- What `stateFields` has taken a line for. -/
theorem stateFields_some {raw : List UInt8} {f : List (List UInt8)} (h : stateFields raw = some f) :
    ∃ time name rest, f = time :: name :: rest ∧ (time.head?.any isDigit) = true ∧
      time ++ comma :: name <+: raw := by
  rw [stateFields] at h
  dsimp only at h
  have hline := nextLine_prefix raw
  generalize nextLine lineCap raw = line at h hline
  split_ifs at h with hskip hdigit hshort
  obtain rfl := Option.some.inj h
  have hcomma : comma ∈ line := by
    by_contra hno
    rw [splitFields_last hno] at hshort
    exact hshort (Nat.lt_succ_self 1)
  obtain ⟨time, y, rfl, htime⟩ := List.eq_append_cons_of_mem hcomma
  have hhead : (time ++ comma :: y).head? = time.head? ∨ time = [] := by
    cases time with
    | nil => exact Or.inr rfl
    | cons c time => exact Or.inl rfl
  refine ⟨time, y.takeWhile (· != comma), _, splitFields_append htime y 9, ?_, ?_⟩
  · rcases hhead with hhead | rfl
    · rwa [hhead, Bool.not_eq_false] at hdigit
    · exact absurd rfl hdigit
  · refine List.IsPrefix.trans ?_ hline
    exact (List.prefix_append_right_inj time).2 (List.cons_prefix_cons.2 ⟨rfl, List.takeWhile_prefix _⟩)

/-- **No state is invented.**  Whatever a client sends, in whatever segments: a state is shown only if the
client is tracked, and can be asked; it is that of the first line on the socket that is one, and a tunnel
is shown as connected only where `CONNECTED` stands behind its timestamp. -/
theorem ovpnStatus_sound (w : VpnWorld) (v : PmxVpn) (hkind : v.kind ≠ .wireguard) (env : QueryEnv)
    {out : PmxVpnStatus} (hok : (pmxVpnQueryStatus w v env).2 = (.ok, out)) :
    (∃ slot, (entryFor w.entries v.id false).2 = some slot) ∧ env.connect = .ok ∧
    ∃ pre raw post f cut, lines (cstr env.wire.arriving.flatten) = pre ++ raw :: post ∧
      (∀ l ∈ pre, stateFields l = none) ∧ cut <+: raw ∧ stateFields cut = some f ∧ out = statusOfState f ∧
      (raw.head?.any isDigit) = true ∧
      (out.connected = true → ∃ time, time ++ comma :: bytes "CONNECTED" <+: raw) := by
  rw [pmxVpnQueryStatus] at hok
  cases hslot : (entryFor w.entries v.id false).2 with
  | none =>
    rw [hslot] at hok
    cases hok
  | some slot =>
    rw [hslot] at hok
    dsimp only at hok
    rw [if_neg hkind] at hok
    dsimp only at hok
    rw [ovpnQuery] at hok
    split_ifs at hok with hport hconnect
    · cases hok
    · cases hok
    · have harr := (pmxSendAll_arriving env.wire (bytes "state\n")).1
      obtain ⟨-, hbuf⟩ := stateReplyLoop_isPrefix 8 [] (pmxSendAll env.wire (bytes "state\n")).2
      rw [harr, List.nil_append] at hbuf
      obtain ⟨pre, cut, post, f, hlines, hpre, hcut, rfl⟩ := stateLoop_ok hok
      obtain ⟨raw, post', hstream, hraw⟩ := lines_of_prefix (cstr_isPrefix hbuf) hlines
      obtain ⟨time, name, rest, rfl, hdigit, hfront⟩ := stateFields_some hcut
      refine ⟨⟨slot, rfl⟩, not_not.1 hconnect, pre, raw, post', _, cut, hstream, hpre, hraw, hcut, rfl,
        ?_, ?_⟩
      · obtain ⟨tail, rfl⟩ := hfront.trans hraw
        cases time with
        | nil => cases hdigit
        | cons c time => exact hdigit
      · intro hconnected
        have hname : name = bytes "CONNECTED" := of_decide_eq_true hconnected
        exact ⟨time, hname ▸ hfront.trans hraw⟩

/-! ### What has been sent is shown -/

/-- `fs` with a comma between any two. -/
def commaJoin : List (List UInt8) → List UInt8
  | [] => []
  | [f] => f
  | f :: fs => f ++ comma :: commaJoin fs

/-- An asynchronous notice, or its line as it is sent. -/
structure IsNotice (raw : List UInt8) : Prop where
  marked : raw.head? = some 62
  newline_notMem : newline ∉ raw
  nul_notMem : nul ∉ raw
  noEnd : ¬ 13 :: bytes "END" <:+: raw

/-- An answer up to its state line: notices, and the fields of the line, which ends in LF or CRLF. -/
structure StateReply where
  notices : List (List UInt8)
  fields : List (List UInt8)
  crlf : Bool
  isNotice : ∀ l ∈ notices, IsNotice l
  two : 2 ≤ fields.length
  plain : ∀ f ∈ fields, ∀ c ∈ f, c ≠ comma ∧ c ≠ newline ∧ c ≠ 13 ∧ c ≠ nul
  stamped : ((fields.headD []).head?.any isDigit) = true
  short : (commaJoin fields).length < lineCap

namespace StateReply

def line (r : StateReply) : List UInt8 := commaJoin r.fields

def raw (r : StateReply) : List UInt8 := if r.crlf then r.line ++ [13] else r.line

def text (r : StateReply) : List UInt8 := unlines (r.notices ++ [r.raw])

end StateReply

theorem mem_commaJoin {c : UInt8} :
    ∀ {fs : List (List UInt8)}, c ∈ commaJoin fs → c = comma ∨ ∃ f ∈ fs, c ∈ f := by
  intro fs
  induction fs with
  | nil => exact fun h => nomatch h
  | cons f fs ih =>
    intro h
    cases fs with
    | nil => exact Or.inr ⟨f, List.mem_cons_self, h⟩
    | cons g fs =>
      rcases List.mem_append.1 h with hf | hrest
      · exact Or.inr ⟨f, List.mem_cons_self, hf⟩
      · rcases List.mem_cons.1 hrest with rfl | hrest
        · exact Or.inl rfl
        · rcases ih hrest with hc | ⟨f', hf', hc⟩
          · exact Or.inl hc
          · exact Or.inr ⟨f', List.mem_cons_of_mem f hf', hc⟩

/-- The fields of a joined line are those that were joined, as many as there is room for. -/
theorem splitFields_commaJoin : ∀ {fs : List (List UInt8)} (max : ℕ), fs ≠ [] → (∀ f ∈ fs, comma ∉ f) →
    splitFields comma max (commaJoin fs) = fs.take max := by
  intro fs
  induction fs with
  | nil => exact fun _ h => absurd rfl h
  | cons f fs ih =>
    intro max _ hfs
    have hf := hfs f List.mem_cons_self
    cases max with
    | zero => rfl
    | succ max =>
      cases fs with
      | nil =>
        rw [commaJoin, splitFields_last hf, List.take_succ_cons, List.take_nil]
      | cons g fs =>
        rw [commaJoin, splitFields_append hf, ih max (List.cons_ne_nil g fs)
          fun f' hf' => hfs f' (List.mem_cons_of_mem f hf'), List.take_succ_cons]
        exact nofun

theorem headD_commaJoin {fs : List (List UInt8)} (h : (fs.headD []) ≠ []) :
    (commaJoin fs).head? = (fs.headD []).head? := by
  cases fs with
  | nil => exact absurd rfl h
  | cons f fs =>
    cases fs with
    | nil => rfl
    | cons g fs =>
      cases f with
      | nil => exact absurd rfl h
      | cons c f => rfl

theorem IsNotice.stateFields {raw : List UInt8} (h : IsNotice raw) : stateFields raw = none := by
  have hline : nextLine lineCap raw = [] ∨ (nextLine lineCap raw).head? = some 62 := by
    obtain ⟨tail, htail⟩ := nextLine_prefix raw
    have hmarked := h.marked
    rw [← htail] at hmarked
    cases hcase : nextLine lineCap raw with
    | nil => exact Or.inl rfl
    | cons c line =>
      rw [hcase] at hmarked
      exact Or.inr hmarked
  rw [ProxiMight.stateFields]
  dsimp only
  rw [if_pos]
  rcases hline with hnil | hhead
  · exact Or.inl hnil
  · exact Or.inr (Or.inl hhead)

namespace StateReply

variable (r : StateReply)

theorem fields_ne_nil : r.fields ≠ [] := fun h => by simpa [h] using r.two

theorem head_line : (r.line.head?.any isDigit) = true := by
  have hne : r.fields.headD [] ≠ [] := by
    intro hnil
    have hstamped := r.stamped
    rw [hnil] at hstamped
    cases hstamped
  rw [line, headD_commaJoin hne]
  exact r.stamped

theorem mem_line {c : UInt8} (hc : c ∈ r.line) : c ≠ newline ∧ c ≠ 13 ∧ c ≠ nul := by
  rcases mem_commaJoin hc with rfl | ⟨f, hf, hcf⟩
  · decide
  · exact (r.plain f hf c hcf).2

theorem nextLine_raw : nextLine lineCap r.raw = r.line := by
  have hshort : r.line.length ≤ lineCap - 1 := Nat.le_sub_one_of_lt r.short
  have hself : r.line.rdropWhile isLineEnd = r.line := by
    rw [List.rdropWhile_eq_self_iff]
    intro hne hend
    obtain ⟨hlf, hcr, -⟩ := r.mem_line (List.getLast_mem hne)
    rw [isLineEnd, Bool.or_eq_true, beq_iff_eq, beq_iff_eq] at hend
    exact hend.elim hcr hlf
  have hends : ∀ k, (r.line ++ [13].take k).rdropWhile isLineEnd = r.line := by
    intro k
    cases k with
    | zero => rwa [List.take_zero, List.append_nil]
    | succ k => rwa [List.take_succ_cons, List.take_nil, List.rdropWhile_concat_pos _ _ _ (by decide)]
  rw [nextLine, raw]
  split_ifs
  · rw [List.take_append, List.take_of_length_le hshort]
    exact hends _
  · rw [List.take_of_length_le hshort]
    exact hself

theorem stateFields_raw : stateFields r.raw = some (r.fields.take 10) := by
  have hhead := r.head_line
  have hfields : splitFields comma 10 r.line = r.fields.take 10 :=
    splitFields_commaJoin 10 r.fields_ne_nil fun f hf hc => (r.plain f hf comma hc).1 rfl
  rw [stateFields]
  dsimp only
  rw [r.nextLine_raw, hfields]
  have hdigit : r.line ≠ [] ∧ r.line.head? ≠ some 62 ∧ r.line ≠ bytes "END" := by
    refine ⟨?_, ?_, ?_⟩
    · intro h
      rw [h] at hhead
      cases hhead
    · intro h
      rw [h] at hhead
      revert hhead
      decide
    · intro h
      rw [h] at hhead
      revert hhead
      decide
  rw [if_neg, if_neg, if_neg]
  · have htwo := r.two
    rw [List.length_take]
    omega
  · rw [hhead]
    decide
  · rintro (h | h | h)
    · exact hdigit.1 h
    · exact hdigit.2.1 h
    · exact hdigit.2.2 h

theorem plain_lines : ∀ l ∈ r.notices ++ [r.raw], newline ∉ l ∧ nul ∉ l ∧ ¬ 13 :: bytes "END" <:+: l := by
  intro l hl
  rcases List.mem_append.1 hl with hl | hl
  · have h := r.isNotice l hl
    exact ⟨h.newline_notMem, h.nul_notMem, h.noEnd⟩
  · obtain rfl := List.mem_singleton.1 hl
    have hmem : ∀ c ∈ r.raw, c ∈ r.line ∨ c = 13 := by
      intro c hc
      rw [raw] at hc
      split_ifs at hc
      · exact (List.mem_append.1 hc).imp_right List.mem_singleton.1
      · exact Or.inl hc
    refine ⟨fun hc => ?_, fun hc => ?_, ?_⟩
    · rcases hmem _ hc with hc | hc
      · exact (r.mem_line hc).1 rfl
      · cases hc
    · rcases hmem _ hc with hc | hc
      · exact (r.mem_line hc).2.2 rfl
      · cases hc
    · -- a carriage return stands only at the end
      have hcr : 13 ∉ r.line := fun hc => (r.mem_line hc).2.1 rfl
      have hraw : r.raw = r.line ++ if r.crlf then [13] else [] := by
        rw [raw]
        split_ifs
        · rfl
        · exact (List.append_nil _).symm
      intro hin
      rw [hraw] at hin
      have hle := (infix_of_notMem hcr hin).length_le
      split_ifs at hle
      · exact absurd hle (by decide)
      · exact absurd hle (by decide)

end StateReply

/-- No line that is sent begins with the end of the answer, so it is not seen in them. -/
theorem not_newline_end {ls : List (List UInt8)} (hno : ∀ l ∈ ls, newline ∉ l)
    (hend : ∀ l ∈ ls, ¬ bytes "END" <+: l) : ¬ newline :: bytes "END" <:+: unlines ls := by
  induction ls with
  | nil =>
    intro h
    have := h.length_le
    simp [unlines, bytes] at this
  | cons l ls ih =>
    intro h
    have heq : unlines (l :: ls) = l ++ newline :: unlines ls := by simp [unlines]
    rw [heq] at h
    rcases List.infix_cons_iff.1 (infix_of_notMem (hno l List.mem_cons_self) h) with hpre | hinf
    · have hfirst : bytes "END" <+: unlines ls := (List.cons_prefix_cons.1 hpre).2
      cases ls with
      | nil => exact absurd (List.prefix_nil.1 hfirst) (by decide)
      | cons l' ls =>
        have heq' : unlines (l' :: ls) = l' ++ newline :: unlines ls := by simp [unlines]
        rw [heq', isPrefix_iff_firstLine (by decide),
          (firstLine_append (hno l' (List.mem_cons_of_mem l List.mem_cons_self)) _).1] at hfirst
        exact hend l' (List.mem_cons_of_mem l List.mem_cons_self) hfirst
    · exact ih (fun l' hl' => hno l' (List.mem_cons_of_mem l hl'))
        (fun l' hl' => hend l' (List.mem_cons_of_mem l hl')) hinf

theorem not_return_end {ls : List (List UInt8)} (h : ∀ l ∈ ls, ¬ 13 :: bytes "END" <:+: l) :
    ¬ 13 :: bytes "END" <:+: unlines ls := by
  induction ls with
  | nil =>
    intro hin
    exact absurd hin.length_le (by decide)
  | cons l ls ih =>
    intro hin
    have heq : unlines (l :: ls) = l ++ newline :: unlines ls := by simp [unlines]
    rw [heq] at hin
    rcases Separated.infix_piece (by decide) hin with hl | hls
    · exact h l List.mem_cons_self hl
    · exact ih (fun l' hl' => h l' (List.mem_cons_of_mem l hl')) hls

theorem mem_unlines {c : UInt8} {ls : List (List UInt8)} (h : c ∈ unlines ls) :
    c = newline ∨ ∃ l ∈ ls, c ∈ l := by
  obtain ⟨l, hl, hc⟩ := List.mem_flatMap.1 h
  rcases List.mem_append.1 hc with hc | hc
  · exact Or.inr ⟨l, hl, hc⟩
  · exact Or.inl (List.mem_singleton.1 hc)

namespace StateReply

variable (r : StateReply)

theorem not_sees_end {buf : List UInt8} (h : buf <+: r.text) : ¬ SeesEnd buf := by
  have hin : cstr buf <:+: r.text := ((List.takeWhile_prefix _).trans h).isInfix
  rintro (hnl | hcr)
  · refine not_newline_end (fun l hl => (r.plain_lines l hl).1) (fun l hl => ?_) (hnl.trans hin)
    intro hend
    have hhead : l.head? = some 69 := by
      obtain ⟨tail, rfl⟩ := hend
      rfl
    rcases List.mem_append.1 hl with hl | hl
    · rw [(r.isNotice l hl).marked] at hhead
      cases hhead
    · obtain rfl := List.mem_singleton.1 hl
      have hdigit := r.head_line
      have hline : r.line.head? = r.raw.head? := by
        rw [raw]
        cases hl : r.line with
        | nil =>
          rw [hl] at hdigit
          cases hdigit
        | cons c line => split_ifs <;> rfl
      rw [hline, hhead] at hdigit
      exact absurd hdigit (by decide)
  · exact not_return_end (fun l hl => (r.plain_lines l hl).2.2) (hcr.trans hin)

theorem nul_notMem_text : nul ∉ r.text := by
  intro h
  rcases mem_unlines h with h | ⟨l, hl, hc⟩
  · cases h
  · exact (r.plain_lines l hl).2.1 hc

/-- The loop goes on until it has the state line, if eight segments reach that far. -/
theorem stateReplyLoop_reaches (hfits : r.text.length ≤ stateReplyCap) :
    ∀ (n : ℕ) (buf : List UInt8) (w : Wire), (∀ seg ∈ w.arriving, seg ≠ []) →
      r.text <+: buf ++ (w.arriving.take n).flatten → r.text <+: stateReplyLoop n buf w := by
  intro n
  induction n with
  | zero =>
    intro buf w _ hfront
    rwa [List.take_zero, List.flatten_nil, List.append_nil] at hfront
  | succ n ih =>
    intro buf w hsegs hfront
    rw [stateReplyLoop]
    by_cases hroom : buf.length < stateReplyCap
    · rw [if_pos hroom]
      cases harr : w.arriving with
      | nil =>
        rw [pmxRecvSome, harr]
        rwa [harr, List.take_nil, List.flatten_nil, List.append_nil] at hfront
      | cons seg rest =>
        rw [harr] at hsegs hfront
        rw [List.take_succ_cons, List.flatten_cons, ← List.append_assoc] at hfront
        rw [pmxRecvSome_cons harr (hsegs seg List.mem_cons_self) (by omega)]
        dsimp only
        by_cases hseg : seg.length ≤ stateReplyCap - buf.length
        · rw [Segments.receive_of_le hseg, List.take_of_length_le hseg]
          split_ifs with hend
          · rcases List.prefix_or_prefix_of_prefix hfront (List.prefix_append _ _) with htext | hbuf
            · exact htext
            · exact absurd hend (r.not_sees_end hbuf)
          · exact ih _ _ (fun s hs => hsegs s (List.mem_cons_of_mem seg hs)) hfront
        · -- the buffer is full, and the state line is in it
          have hfull : r.text <+: buf ++ seg.take (stateReplyCap - buf.length) := by
            refine List.prefix_of_prefix_length_le hfront ?_ ?_
            · exact ((List.prefix_append_right_inj buf).2 (List.take_prefix _ _)).trans
                (List.prefix_append _ _)
            · rw [List.length_append, List.length_take]
              omega
          split_ifs
          · exact hfull
          · exact hfull.trans (stateReplyLoop_isPrefix _ _ _).1
    · rw [if_neg hroom]
      exact List.prefix_of_prefix_length_le hfront (List.prefix_append _ _) (by omega)

end StateReply

/-- Of the fields of a line only the first four are looked at. -/
theorem statusOfState_take (fs : List (List UInt8)) : statusOfState (fs.take 10) = statusOfState fs := by
  have hget : ∀ i, i < 10 → (fs.take 10).getD i [] = fs.getD i [] := by
    intro i hi
    rw [List.getD_eq_getElem?_getD, List.getD_eq_getElem?_getD, List.getElem?_take_of_lt hi]
  have hlong : ∀ i, i < 10 → ((fs.take 10).length > i ↔ fs.length > i) := by
    intro i hi
    rw [List.length_take]
    omega
  simp only [statusOfState, hget 1 (by decide), hget 2 (by decide), hget 3 (by decide), hlong 2 (by decide),
    hlong 3 (by decide)]

/-- **What the client has sent is shown.**  Notices come in front or behind, the state line and what
follows it are cut into segments anywhere: if the state line ends within the first eight segments and in
the buffer, its state is shown, with the address in its fourth field. -/
theorem ovpnStatus_complete (w : VpnWorld) (v : PmxVpn) (hkind : v.kind ≠ .wireguard) (env : QueryEnv)
    (slot : ℕ) (hslot : (entryFor w.entries v.id false).2 = some slot)
    (hport : (entryAt w.entries slot).mgmtPort ≠ 0) (hconnect : env.connect = .ok) (r : StateReply)
    (hfits : r.text.length ≤ stateReplyCap) (hsegs : ∀ seg ∈ env.wire.arriving, seg ≠ [])
    (hsent : r.text <+: (env.wire.arriving.take 8).flatten) :
    pmxVpnQueryStatus w v env = (w, .ok, statusOfState r.fields) := by
  have harr := (pmxSendAll_arriving env.wire (bytes "state\n")).1
  have hbuf : r.text <+: stateReplyLoop 8 [] (pmxSendAll env.wire (bytes "state\n")).2 := by
    apply r.stateReplyLoop_reaches hfits
    · rwa [harr]
    · rwa [harr, List.nil_append]
  have hcstr := cstr_isPrefix hbuf
  rw [cstr_of_notMem r.nul_notMem_text] at hcstr
  obtain ⟨rest, hrest⟩ := hcstr
  have hlines := lines_unlines_append (fun l hl => (r.plain_lines l hl).1) rest
  have hstate : stateLoop (lines (r.text ++ rest)) = (.ok, statusOfState r.fields) := by
    rw [StateReply.text, hlines, List.append_assoc,
      stateLoop_skip fun l hl => (r.isNotice l hl).stateFields, List.singleton_append, stateLoop,
      r.stateFields_raw]
    dsimp only
    rw [statusOfState_take]
  have hquery : ovpnQuery env (entryAt w.entries slot) =
      stateLoop (lines (cstr (stateReplyLoop 8 [] (pmxSendAll env.wire (bytes "state\n")).2))) := by
    rw [ovpnQuery, if_neg hport, if_neg (not_not.2 hconnect)]
    rfl
  rw [pmxVpnQueryStatus, hslot]
  dsimp only
  rw [if_neg hkind, hquery, ← hrest, hstate]

/-- A client that says hello, reports a handshake and only then is connected. -/
def helloReply : StateReply where
  notices := [bytes ">INFO:OpenVPN Management Interface Version 5\r"]
  fields := [bytes "1700000000", bytes "CONNECTED", bytes "SUCCESS", bytes "10.8.0.2"]
  crlf := true
  isNotice := by
    intro l hl
    obtain rfl := List.mem_singleton.1 hl
    refine ⟨by decide, by decide +kernel, by decide +kernel, by decide +kernel⟩
  two := by decide
  plain := by decide +kernel
  stamped := by decide
  short := by decide +kernel

def helloWorld : VpnWorld := Runs.runFrom vpnStep vpnRunnerCreate [.up homeOvpn true startedEnv]

def helloEnv : QueryEnv where
  client := none
  run _ := ⟨.errIo, -1, default⟩
  now := 0
  connect := .ok
  wire := wireOpen [helloReply.text.take 50, helloReply.text.drop 50, bytes "END\r\n"] .errTimeout none

theorem ovpnStatus_complete_hello :
    ((pmxVpnQueryStatus helloWorld homeOvpn helloEnv).2.2.connected,
      (pmxVpnQueryStatus helloWorld homeOvpn helloEnv).2.2.assignedIp.str) = (true, bytes "10.8.0.2") := by
  rw [ovpnStatus_complete helloWorld homeOvpn (by decide) helloEnv 0 (by decide +kernel)
    (by decide +kernel) rfl helloReply (by decide +kernel) (by decide +kernel) (by decide +kernel)]
  decide +kernel

theorem ovpnStatus_sound_hello :
    ∃ time, ∃ raw ∈ lines (cstr helloEnv.wire.arriving.flatten),
      time ++ comma :: bytes "CONNECTED" <+: raw := by
  have hok : (pmxVpnQueryStatus helloWorld homeOvpn helloEnv).2.1 = .ok := by decide +kernel
  have hconnected : (pmxVpnQueryStatus helloWorld homeOvpn helloEnv).2.2.connected = true := by decide +kernel
  obtain ⟨-, -, pre, raw, post, f, cut, hlines, -, -, -, hout, -, hfront⟩ :=
    ovpnStatus_sound helloWorld homeOvpn (by decide) helloEnv (Prod.ext hok rfl)
  obtain ⟨time, htime⟩ := hfront hconnected
  exact ⟨time, raw, hlines ▸ List.mem_append_right pre List.mem_cons_self, htime⟩

end ProxiMight
