import ProxiMight.ChainTunnel
import ProxiMight.CheckerQueue
import ProxiMight.OvpnState
import Mathlib.Data.List.Infix

/-!
# A check of a proxy (`pmx_check_proxy` in `pmx_checker.c`)

A ping, a connection through the proxy that is closed again, and on request a second one, on which a
service is asked under which address it is seen: the first word behind the blank line of its answer.  The
answer is collected in at most eight receives, cut into segments anywhere.

* **`egressIp_checked`** — behind a proxy that is not an HTTP one the address shown is always a front of the
  one in the service's answer, and all of it if the answer comes in few enough segments and fits.
-/

namespace ProxiMight

open CString

/-- `pmx_proxy_type_str`. -/
def pmxProxyTypeStr : PmxProxyType → String
  | .socks5 => "SOCKS5"
  | .socks4 => "SOCKS4"
  | .socks4a => "SOCKS4a"
  | .http => "HTTP"
  | .https => "HTTPS"
  | .other _ => "?"

/-- `pmx_status_str`. -/
def pmxStatusStr : PmxStatus → String
  | .ok => "OK"
  | .errInvalidArg => "invalid argument"
  | .errNoMemory => "out of memory"
  | .errState => "invalid state"
  | .errUnsupported => "unsupported"
  | .errNotFound => "not found"
  | .errExists => "already exists"
  | .errIo => "I/O error"
  | .errParse => "parse error"
  | .errCrypto => "encryption/decryption failed"
  | .errNet => "network error"
  | .errTimeout => "timed out"
  | .errConnRefused => "connection refused"
  | .errDns => "DNS resolution failed"
  | .errProxyHandshake => "proxy handshake failed"
  | .errProxyAuth => "proxy authentication failed"
  | .errProxyRefused => "proxy refused the target"
  | .errBackend => "backend error"
  | .errFirewall => "firewall error"
  | .errPermission => "insufficient privilege"

/-! ### The address in an answer -/

/-- What stands behind the first blank line: `strstr(resp, "\r\n\r\n") + 4`. -/
def afterBlankLine : List UInt8 → Option (List UInt8)
  | [] => none
  | c :: s => if [13, 10, 13, 10] <+: c :: s then some ((c :: s).drop 4) else afterBlankLine s

/-- A blank, a CR or an LF. -/
def endsWord (c : UInt8) : Bool := c == 32 || c == 13 || c == 10

/-- What is copied out of the body: its first word, as much as `ip_out` holds. -/
def bodyWord (body : List UInt8) : List UInt8 :=
  ((body.dropWhile endsWord).takeWhile fun c => !endsWord c).take (pmxMaxIp - 1)

/-- The address in the answer `resp`. -/
def egressAddress (resp : List UInt8) : List UInt8 := (afterBlankLine (cstr resp)).elim [] bodyWord

/-! ### `measure_egress` -/

/-- The size of `resp`, less its terminator. -/
def egressReplyCap : ℕ := 2047

/-- The receives that are left, and what `resp` holds. -/
def egressReplyLoop : ℕ → List UInt8 → Wire → List UInt8
  | 0, resp, _ => resp
  | n + 1, resp, w =>
    if resp.length < egressReplyCap then
      match pmxRecvSome w (egressReplyCap - resp.length) with
      | (.error _, _) => resp
      | (.ok got, w) => egressReplyLoop n (resp ++ got) w
    else resp

/-- The request for the address. -/
def egressRequest (opts : PmxCheckOpts) : List UInt8 :=
  bytes "GET " ++ (if opts.egressPath.str = [] then bytes "/" else opts.egressPath.str)
    ++ bytes " HTTP/1.1\r\nHost: " ++ opts.egressService.str
    ++ bytes "\r\nUser-Agent: ProxiMight/checker\r\nConnection: close\r\n\r\n"

/-- What a check meets: how long a ping takes that is answered within a time, the two connects with their
sockets, and the clock. -/
structure CheckEnv where
  ping : ℤ → Option ℤ
  connect : PmxStatus
  probe : Wire
  egressConnect : PmxStatus
  egress : Wire
  start : ℕ
  done : ℕ
  checked : ℕ

def measureEgress (p : PmxProxy) (opts : PmxCheckOpts) (env : CheckEnv) : CBuf pmxMaxIp :=
  if opts.egressService.str = [] then .empty
  else if env.egressConnect ≠ .ok then .empty
  else
    let r := pmxProxyHandshake p opts.egressService.toCStr 80 env.egress
    if r.1 ≠ .ok then .empty
    else
      let sent := pmxSendAll r.2 (egressRequest opts)
      if sent.1 = .ok then strlcpy pmxMaxIp (egressAddress (egressReplyLoop 8 [] sent.2)) else .empty

/-- The request always fits the array it is printed to. -/
theorem length_egressRequest (opts : PmxCheckOpts) : (egressRequest opts).length < 512 := by
  have hpath := opts.egressPath.length_str_le
  have hservice := opts.egressService.length_str_le
  have hshown : (if opts.egressPath.str = [] then bytes "/" else opts.egressPath.str).length ≤ 127 := by
    split_ifs
    · exact Nat.le_of_ble_eq_true rfl
    · exact hpath
  have hget : (bytes "GET ").length = 4 := by decide +kernel
  have hhost : (bytes " HTTP/1.1\r\nHost: ").length = 17 := by decide +kernel
  have hrest : (bytes "\r\nUser-Agent: ProxiMight/checker\r\nConnection: close\r\n\r\n").length = 55 := by
    decide +kernel
  rw [egressRequest, List.length_append, List.length_append, List.length_append, List.length_append, hget,
    hhost, hrest]
  have hcap : pmxMaxHost - 1 = 255 := rfl
  omega

/-! ### `pmx_check_proxy` -/

/-- The status, and `out`.  The latency is the difference of two readings of the clock, as an `int`. -/
def pmxCheckProxy (p : PmxProxy) (opts : PmxCheckOpts) (env : CheckEnv) : PmxStatus × PmxCheckResult :=
  let out : PmxCheckResult :=
    { proxyId := p.id
      hopIndex := -1
      reachable := false
      handshakeOk := false
      latencyMs := -1
      pingMs := if opts.measurePing then (env.ping (min opts.timeoutMs 1500)).getD (-1) else -1
      status := .ok
      egressIp := .empty
      message := .empty
      checkedAtMs := env.checked }
  if env.connect ≠ .ok then
    (env.connect, { out with
      status := env.connect
      message := strlcpy pmxMaxMsg (bytes "unreachable: " ++ bytes (pmxStatusStr env.connect)) })
  else
    let st := (pmxProxyHandshake p opts.probeHost.toCStr opts.probePort env.probe).1
    let latency : ℤ := Int.bmod (env.done - env.start) (2 ^ 32)
    let out := { out with
      reachable := true, latencyMs := latency, handshakeOk := decide (st = PmxStatus.ok), status := st }
    if st = .ok then
      (st, { out with
        message := strlcpy pmxMaxMsg (bytes "OK via " ++ bytes (pmxProxyTypeStr p.type) ++ bytes " "
          ++ emDash ++ bytes " " ++ bytes (toString latency) ++ bytes " ms")
        egressIp := if opts.measureEgressIp then measureEgress p opts env else .empty })
    else
      (st, { out with
        message := strlcpy pmxMaxMsg (bytes "reachable, but " ++ bytes (pmxStatusStr st)) })

/-! ### Fronts -/

theorem takeWhile_isPrefix {x y : List UInt8} (p : UInt8 → Bool) (h : x <+: y) :
    x.takeWhile p <+: y.takeWhile p := by
  obtain ⟨tail, rfl⟩ := h
  rw [List.takeWhile_append]
  split_ifs with hall
  · rw [(List.takeWhile_prefix _).eq_of_length hall]
    exact List.prefix_append _ _
  · exact List.prefix_refl _

theorem dropWhile_isPrefix {x y : List UInt8} (p : UInt8 → Bool) (h : x <+: y) :
    x.dropWhile p <+: y.dropWhile p := by
  obtain ⟨tail, rfl⟩ := h
  rw [List.dropWhile_append]
  split_ifs with hnone
  · rw [List.isEmpty_iff.1 hnone]
    exact List.nil_prefix
  · exact List.prefix_append _ _

/-- The word of a front is a front of the word. -/
theorem bodyWord_isPrefix {x y : List UInt8} (h : x <+: y) : bodyWord x <+: bodyWord y :=
  (takeWhile_isPrefix _ (dropWhile_isPrefix _ h)).take _

theorem length_of_afterBlankLine : ∀ {s b : List UInt8}, afterBlankLine s = some b → 4 ≤ s.length := by
  intro s
  induction s with
  | nil => intro b h; cases h
  | cons c s ih =>
    intro b h
    rw [afterBlankLine] at h
    split_ifs at h with hblank
    · exact hblank.length_le
    · exact Nat.le_succ_of_le (ih h)

/-- A front that has a blank line shows where the first one is. -/
theorem afterBlankLine_isPrefix : ∀ {x y b : List UInt8}, x <+: y → afterBlankLine x = some b →
    ∃ b', afterBlankLine y = some b' ∧ b <+: b' := by
  intro x
  induction x with
  | nil => intro y b _ h; cases h
  | cons c x ih =>
    intro y b hxy h
    obtain ⟨y, rfl⟩ : ∃ y', y = c :: y' := by
      obtain ⟨tail, rfl⟩ := hxy
      exact ⟨x ++ tail, rfl⟩
    have hlong := length_of_afterBlankLine h
    have hrest : x <+: y := (List.cons_prefix_cons.1 hxy).2
    rw [afterBlankLine] at h ⊢
    split_ifs at h with hblank
    · obtain rfl := Option.some.inj h
      rw [if_pos (hblank.trans hxy)]
      exact ⟨_, rfl, hxy.drop 4⟩
    · rw [if_neg fun hlater => hblank (List.prefix_of_prefix_length_le hlater hxy hlong)]
      exact ih hrest h

/-- The address in a front of the answer is a front of the address. -/
theorem egressAddress_isPrefix {x y : List UInt8} (h : x <+: y) : egressAddress x <+: egressAddress y := by
  rw [egressAddress]
  cases hbody : afterBlankLine (cstr x) with
  | none => exact List.nil_prefix
  | some b =>
    obtain ⟨b', hbody', hfront⟩ := afterBlankLine_isPrefix (cstr_isPrefix h) hbody
    rw [egressAddress, hbody']
    exact bodyWord_isPrefix hfront

/-! ### The receives -/

/-- A receive takes the front of what can still be received. -/
theorem pmxRecvSome_stream {w w' : Wire} {cap : ℕ} {got : List UInt8}
    (h : pmxRecvSome w cap = (.ok got, w')) : got ++ w'.stream = w.stream := by
  obtain ⟨seg, rest, harr, hseg, hrecv⟩ := pmxRecvSome_ok h
  have hstream := Segments.receive_untilClosed cap hseg rest
  rw [hrecv] at hstream
  rw [Wire.stream, Wire.stream, harr]
  exact hstream

/-- The buffer holds a front of what can be received. -/
theorem egressReplyLoop_isPrefix : ∀ (n : ℕ) (resp : List UInt8) (w : Wire),
    egressReplyLoop n resp w <+: resp ++ w.stream := by
  intro n
  induction n with
  | zero => exact fun resp w => List.prefix_append _ _
  | succ n ih =>
    intro resp w
    rw [egressReplyLoop]
    split_ifs with hroom
    · cases hrecv : pmxRecvSome w (egressReplyCap - resp.length) with
      | mk r w' =>
        cases r with
        | error st => exact List.prefix_append _ _
        | ok got =>
          dsimp only
          rw [← pmxRecvSome_stream hrecv, ← List.append_assoc]
          exact ih (resp ++ got) w'
    · exact List.prefix_append _ _

/-- With few enough segments and room for them all it is all of it. -/
theorem egressReplyLoop_all : ∀ (n : ℕ) (resp : List UInt8) (w : Wire), w.arriving.length ≤ n →
    resp.length + w.stream.length ≤ egressReplyCap → egressReplyLoop n resp w = resp ++ w.stream := by
  intro n
  induction n with
  | zero =>
    intro resp w hfew _
    rw [Wire.stream, List.length_eq_zero_iff.1 (Nat.le_zero.1 hfew)]
    exact (List.append_nil resp).symm
  | succ n ih =>
    intro resp w hfew hfits
    rw [egressReplyLoop]
    cases harr : w.arriving with
    | nil =>
      have hstream : w.stream = [] := by rw [Wire.stream, harr]; rfl
      rw [pmxRecvSome, harr, hstream, List.append_nil]
      exact ite_self _
    | cons seg rest =>
      by_cases hseg : seg = []
      · have hstream : w.stream = [] := by rw [Wire.stream, harr, hseg]; rfl
        rw [pmxRecvSome, harr, hstream, List.append_nil]
        dsimp only
        rw [if_pos (Or.inl hseg)]
        exact ite_self _
      · have hstream : w.stream = seg ++ Segments.untilClosed rest := by
          rw [Wire.stream, harr, Segments.untilClosed_cons hseg]
        have hpos := List.length_pos_iff.2 hseg
        rw [hstream, List.length_append] at hfits
        rw [harr, List.length_cons] at hfew
        have hroom : resp.length < egressReplyCap := by omega
        have hfit : seg.length ≤ egressReplyCap - resp.length := by omega
        rw [if_pos hroom, pmxRecvSome_cons harr hseg (by omega), Segments.receive_of_le hfit,
          List.take_of_length_le hfit]
        dsimp only
        rw [ih _ _ (by dsimp only; omega) ?_, hstream, List.append_assoc]
        · rfl
        · rw [List.length_append]
          show resp.length + seg.length + (Segments.untilClosed rest).length ≤ egressReplyCap
          omega

/-! ### The segments a handshake leaves -/

/-- No segment more is to arrive behind it than before. -/
def Shrinks (f : Wire → PmxStatus × Wire) : Prop :=
  ∀ w, (f w).2.arriving.length ≤ w.arriving.length

namespace Shrinks

theorem status (st : PmxStatus) : Shrinks fun w => (st, w) := fun _ => Nat.le_refl _

theorem sending {k : Wire → PmxStatus × Wire} (h : Shrinks k) (msg : List UInt8) :
    Shrinks fun w => ProxiMight.sending msg w k := by
  intro w
  have harr := (pmxSendAll_arriving w msg).1
  dsimp only
  rw [ProxiMight.sending]
  split_ifs
  · rw [← harr]
    exact h _
  · rw [harr]

theorem recvExactLoop_length (ending : PmxStatus) (len : ℕ) : ∀ (segs : List (List UInt8))
    (got : List UInt8), (recvExactLoop ending len got segs).2.length ≤ segs.length := by
  intro segs
  induction segs with
  | nil =>
    intro got
    rw [recvExactLoop]
    split_ifs <;> exact Nat.le_refl 0
  | cons seg rest ih =>
    intro got
    rw [recvExactLoop]
    split_ifs
    · exact Nat.le_refl _
    · exact Nat.le_succ_of_le (ih (got ++ seg))
    · exact Nat.le_refl _
    · exact Nat.le_refl _

theorem receiving {k : List UInt8 → Wire → PmxStatus × Wire} (len : ℕ) (h : ∀ got, Shrinks (k got)) :
    Shrinks fun w => ProxiMight.receiving len w k := by
  intro w
  have hleft : (pmxRecvExact w len).2.arriving.length ≤ w.arriving.length :=
    recvExactLoop_length w.ending len w.arriving []
  dsimp only
  rw [ProxiMight.receiving]
  split
  · next st w' heq =>
    rw [heq] at hleft
    exact hleft
  · next got w' heq =>
    rw [heq] at hleft
    exact Nat.le_trans (h got w') hleft

theorem building {k : List UInt8 → Wire → PmxStatus × Wire} (msg : Except PmxStatus (List UInt8))
    (h : ∀ m, Shrinks (k m)) : Shrinks fun w => ProxiMight.building msg w fun m => k m w := by
  intro w
  cases msg with
  | error st => exact Nat.le_refl _
  | ok m => exact h m w

theorem ite {b : Prop} [Decidable b] {f g : Wire → PmxStatus × Wire} (hf : Shrinks f) (hg : Shrinks g) :
    Shrinks fun w => if b then f w else g w := by
  intro w
  dsimp only
  split_ifs
  · exact hf w
  · exact hg w

end Shrinks

theorem socks5Connect_shrinks (host : CStr) (port : PmxPort) : Shrinks (socks5Connect host port) := by
  apply Shrinks.building
  intro request
  apply Shrinks.sending
  apply Shrinks.receiving
  intro head
  apply Shrinks.ite (Shrinks.status _)
  intro w
  dsimp only
  split
  · exact Shrinks.receiving _ (fun _ => Shrinks.status .ok) w
  · exact Shrinks.receiving _ (fun _ => Shrinks.status .ok) w
  · exact Shrinks.receiving _ (fun _ => Shrinks.receiving _ fun _ => Shrinks.status .ok) w
  · exact Nat.le_refl _

theorem socks5Handshake_shrinks (p : PmxProxy) (host : CStr) (port : PmxPort) :
    Shrinks (socks5Handshake p host port) := by
  apply Shrinks.building
  intro greeting
  apply Shrinks.sending
  apply Shrinks.receiving
  intro reply
  apply Shrinks.ite (Shrinks.status _)
  apply Shrinks.ite
  · apply Shrinks.building
    intro msg
    apply Shrinks.sending
    apply Shrinks.receiving
    intro answer
    exact Shrinks.ite (Shrinks.status _) (socks5Connect_shrinks host port)
  · exact Shrinks.ite (Shrinks.status _) (socks5Connect_shrinks host port)

theorem socks4Handshake_shrinks (p : PmxProxy) (host : CStr) (port : PmxPort) :
    Shrinks (socks4Handshake p host port) := by
  apply Shrinks.building
  intro request
  apply Shrinks.sending
  apply Shrinks.receiving
  exact fun reply => Shrinks.status _

theorem pmxProxyHandshake_shrinks {p : PmxProxy} (hp : p.type ≠ .http) (host : CStr) (port : PmxPort) :
    Shrinks (pmxProxyHandshake p host port) := by
  intro w
  rw [pmxProxyHandshake]
  cases htype : p.type with
  | socks5 => exact socks5Handshake_shrinks p host port w
  | socks4 => exact socks4Handshake_shrinks p host port w
  | socks4a => exact socks4Handshake_shrinks p host port w
  | http => exact absurd htype hp
  | https => exact Nat.le_refl _
  | other raw => exact Nat.le_refl _

/-! ### What the service answers -/

/-- The proxy is found usable, and the service is asked through it. -/
def AsksEgress (p : PmxProxy) (opts : PmxCheckOpts) (env : CheckEnv) : Prop :=
  (pmxCheckProxy p opts env).1 = .ok ∧ opts.measureEgressIp = true ∧ opts.egressService.str ≠ [] ∧
    env.egressConnect = .ok

instance (p : PmxProxy) (opts : PmxCheckOpts) (env : CheckEnv) : Decidable (AsksEgress p opts env) :=
  inferInstanceAs (Decidable (_ ∧ _ ∧ _ ∧ _))

/-- The answer of the service: what comes behind the proxy's own answers, if it grants the request. -/
def egressAnswer (p : PmxProxy) (opts : PmxCheckOpts) (env : CheckEnv) : List UInt8 :=
  if AsksEgress p opts env then
    (hopReplyLength p opts.egressService.toCStr 80 env.egress.stream).elim [] fun n =>
      env.egress.stream.drop n
  else []

/-- A check shows an address only if it asks for one. -/
theorem pmxCheckProxy_egressIp (p : PmxProxy) (opts : PmxCheckOpts) (env : CheckEnv) :
    (pmxCheckProxy p opts env).2.egressIp
      = if AsksEgress p opts env then measureEgress p opts env else .empty := by
  by_cases hok : (pmxCheckProxy p opts env).1 = .ok
  · have hasks : AsksEgress p opts env ↔ opts.measureEgressIp = true ∧ opts.egressService.str ≠ [] ∧
        env.egressConnect = .ok := and_iff_right hok
    rw [pmxCheckProxy] at hok ⊢
    dsimp only at hok ⊢
    split_ifs at hok ⊢ <;> simp_all [measureEgress]
  · rw [if_neg fun h => hok h.1]
    rw [pmxCheckProxy] at hok ⊢
    dsimp only at hok ⊢
    split_ifs at hok ⊢ <;> first | rfl | contradiction

theorem nul_notMem_egressAddress (s : List UInt8) : nul ∉ egressAddress s := by
  have hbody : ∀ x b : List UInt8, afterBlankLine x = some b → b ⊆ x := by
    intro x
    induction x with
    | nil => intro b h; cases h
    | cons c x ih =>
      intro b h
      rw [afterBlankLine] at h
      split_ifs at h
      · obtain rfl := Option.some.inj h
        exact List.drop_subset 4 _
      · exact fun a ha => List.mem_cons_of_mem c (ih b h ha)
  rw [egressAddress]
  cases hb : afterBlankLine (cstr s) with
  | none => exact List.not_mem_nil
  | some b =>
    intro hnul
    have hin : nul ∈ b := (List.dropWhile_subset _) ((List.takeWhile_subset _) (List.mem_of_mem_take hnul))
    exact nul_notMem_cstr s (hbody _ b hb hin)

theorem length_egressAddress (s : List UInt8) : (egressAddress s).length ≤ pmxMaxIp - 1 := by
  rw [egressAddress]
  cases afterBlankLine (cstr s) with
  | none => exact Nat.zero_le _
  | some b => exact List.length_take_le _ _

/-- What is shown of the answer on a socket that is ready for the request. -/
theorem measured_told {opts : PmxCheckOpts} {w up : Wire} (hfewer : up.arriving.length ≤ w.arriving.length)
    (hshorter : up.stream.length ≤ w.stream.length) (htakes : w.takes = none → up.takes = none) :
    let sent := pmxSendAll up (egressRequest opts)
    let shown : CBuf pmxMaxIp :=
      if sent.1 = .ok then strlcpy pmxMaxIp (egressAddress (egressReplyLoop 8 [] sent.2)) else .empty
    shown.str <+: egressAddress up.stream ∧
      (w.takes = none → w.arriving.length ≤ 8 → w.stream.length ≤ egressReplyCap →
        shown.str = egressAddress up.stream) := by
  intro sent shown
  have harr := (pmxSendAll_arriving up (egressRequest opts)).1
  have hstream : sent.2.stream = up.stream := congrArg Segments.untilClosed harr
  have hcopied : ∀ s, (strlcpy pmxMaxIp (egressAddress s)).str = egressAddress s := fun s =>
    strlcpy_of_fits (nul_notMem_egressAddress s) (length_egressAddress s)
  by_cases hsent : sent.1 = .ok
  · have hshown : shown.str = egressAddress (egressReplyLoop 8 [] sent.2) := by
      rw [show shown = strlcpy pmxMaxIp _ from if_pos hsent]
      exact hcopied _
    rw [hshown, ← hstream]
    refine ⟨egressAddress_isPrefix (egressReplyLoop_isPrefix 8 [] sent.2), fun _ hfew hfits => ?_⟩
    rw [egressReplyLoop_all 8 [] sent.2 (by rw [harr]; omega) ?_]
    · rfl
    · rw [hstream, List.length_nil]
      omega
  · have hshown : shown = .empty := if_neg hsent
    rw [hshown]
    refine ⟨List.nil_prefix, fun hnone _ _ => absurd ?_ hsent⟩
    exact congrArg Prod.fst (pmxSendAll_of_room (w := up) (by rw [htakes hnone]; nofun))

/-- **What is measured is told by the service.**  Behind a proxy that is not an HTTP one, whatever the
segments of its answers and the service's: the address shown is a front of the one in the answer, and all of
it if no more than eight segments come, all fit, and no send fails. -/
theorem egressIp_checked (p : PmxProxy) (hp : p.type ≠ .http) (opts : PmxCheckOpts) (env : CheckEnv)
    (hending : env.egress.ending ≠ .ok) :
    (pmxCheckProxy p opts env).2.egressIp.str <+: egressAddress (egressAnswer p opts env) ∧
      (env.egress.takes = none → env.egress.arriving.length ≤ 8 →
        env.egress.stream.length ≤ egressReplyCap →
        (pmxCheckProxy p opts env).2.egressIp.str = egressAddress (egressAnswer p opts env)) := by
  rw [pmxCheckProxy_egressIp, egressAnswer]
  by_cases hasks : AsksEgress p opts env
  · rw [if_pos hasks, if_pos hasks, measureEgress, if_neg hasks.2.2.1, if_neg (not_not.2 hasks.2.2.2)]
    dsimp only
    have hkeeps := pmxProxyHandshake_keeps hp opts.egressService.toCStr 80
    have hshrinks := pmxProxyHandshake_shrinks hp opts.egressService.toCStr 80 env.egress
    by_cases hok : (pmxProxyHandshake p opts.egressService.toCStr 80 env.egress).1 = .ok
    · obtain ⟨n, hanswers, -, hstream⟩ := hkeeps.ok env.egress hending hok
      have hshorter : (pmxProxyHandshake p opts.egressService.toCStr 80 env.egress).2.stream.length
          ≤ env.egress.stream.length := by
        rw [hstream, List.length_drop]
        exact Nat.sub_le _ _
      rw [hopConversation_answers] at hanswers
      rw [if_neg (not_not.2 hok), hanswers, Option.elim_some, ← hstream]
      exact measured_told hshrinks hshorter fun hnone => hkeeps.takes env.egress hending hnone
    · rw [if_pos hok]
      refine ⟨List.nil_prefix, fun hnone _ _ => ?_⟩
      have hrefused : hopReplyLength p opts.egressService.toCStr 80 env.egress.stream = none := by
        rw [← hopConversation_answers, ← Option.not_isSome_iff_eq_none]
        exact fun hsome => hok (hkeeps.ok_of env.egress hending hnone hsome)
      rw [hrefused]
      rfl
  · rw [if_neg hasks, if_neg hasks]
    exact ⟨List.nil_prefix, fun _ _ _ => rfl⟩

/-- A SOCKS4 proxy that grants both requests. -/
def toldProxy : PmxProxy :=
  { pmxProxyInit with type := .socks4a, host := strlcpy pmxMaxHost (bytes "127.0.0.1") }

def toldOpts : PmxCheckOpts := { pmxCheckOptsDefaults with measureEgressIp := true }

/-- The service answers in two pieces, the second of which begins inside the address. -/
def toldEnv : CheckEnv where
  ping _ := none
  connect := .ok
  probe := wireOpen [[0, 90, 0, 0, 0, 0, 0, 0]] .errTimeout none
  egressConnect := .ok
  egress := wireOpen [[0, 90, 0, 0], [0, 0, 0, 0], bytes "HTTP/1.1 200 OK\r\n\r\n203.0", bytes ".113.9\n"]
    .errTimeout none
  start := 0
  done := 40
  checked := 90

theorem egressIp_checked_told :
    (pmxCheckProxy toldProxy toldOpts toldEnv).2.egressIp.str = bytes "203.0.113.9" := by
  rw [(egressIp_checked toldProxy (by decide) toldOpts toldEnv (by decide)).2 rfl (by decide)
    (by decide +kernel)]
  decide +kernel

end ProxiMight
