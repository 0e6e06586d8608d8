import ProxiMight.Socks5Stream

/-!
# Time limits (`pmx_recv_exact`, `pmx_tcp_connect_from`)

A time limit bounds a whole call, however many waits it is made of: each wait is given what is left.  Time
passes in the waits, and between two readings of the clock.

* **`pmxRecvExactTimed_eq`** — a peer that sends at its own pace is a `Wire` on which what comes too late
  does not come; and no pace makes the call last longer than its limit.
* **`pmxTcpConnectFrom_total`** — the limit is one for all addresses of a name together, from the moment the
  name is resolved; every socket that is opened is closed once, or returned.
-/

namespace ProxiMight

/-- What is left of a limit when the clock reads `now`; a limit of zero is none to the loop. -/
def timeLeft (timeout start now : ℕ) : Option ℕ :=
  if 0 < timeout then if timeout ≤ now - start then none else some (timeout - (now - start)) else some 0

/-- `select` with this timeout returns for what comes after `d` ms: at once, or before the time is up. -/
def comesInTime (remaining d : ℕ) : Bool := d == 0 || decide (d < remaining)

theorem comesInTime_le {remaining d : ℕ} (h : comesInTime remaining d = true) : d ≤ remaining := by
  rw [comesInTime, Bool.or_eq_true, beq_iff_eq, decide_eq_true_eq] at h
  omega

theorem timeLeft_eq_some {timeout start now remaining : ℕ} (hstart : start ≤ now)
    (h : timeLeft timeout start now = some remaining) (hpos : 0 < timeout) :
    now + remaining = start + timeout := by
  rw [timeLeft, if_pos hpos] at h
  split_ifs at h
  have hrem := Option.some.inj h
  omega

/-! ### Receiving -/

/-- What a peer sends: each piece comes so many ms after the one before, an empty one is its close, and
after the last nothing comes. -/
abbrev TimedPieces := List (ℕ × List UInt8)

/-- The answer, what is still to come, and the clock. -/
structure TimedRecv where
  result : Except PmxStatus (List UInt8)
  pieces : TimedPieces
  clock : ℕ

/-- The loop of `pmx_recv_exact`, entered at `start`. -/
def recvExactTimedLoop (timeout start len : ℕ) : TimedPieces → List UInt8 → ℕ → TimedRecv
  | [], got, clock =>
    if got.length < len then
      match timeLeft timeout start clock with
      | none => ⟨.error .errTimeout, [], clock⟩
      | some remaining => ⟨.error .errTimeout, [], clock + remaining⟩
    else ⟨.ok got, [], clock⟩
  | (d, seg) :: rest, got, clock =>
    if got.length < len then
      match timeLeft timeout start clock with
      | none => ⟨.error .errTimeout, (d, seg) :: rest, clock⟩
      | some remaining =>
        if comesInTime remaining d then
          if seg = [] then ⟨.error .errNet, (0, seg) :: rest, clock + d⟩
          else if seg.length ≤ len - got.length then
            recvExactTimedLoop timeout start len rest (got ++ seg) (clock + d)
          else
            ⟨.ok (got ++ seg.take (len - got.length)), (0, seg.drop (len - got.length)) :: rest,
              clock + d⟩
        else ⟨.error .errTimeout, (d - remaining, seg) :: rest, clock + remaining⟩
    else ⟨.ok got, (d, seg) :: rest, clock⟩

/-- `pmx_recv_exact`, called at `start`. -/
def pmxRecvExactTimed (timeout len start : ℕ) (pieces : TimedPieces) : TimedRecv :=
  recvExactTimedLoop timeout start len pieces [] start

/-- The pieces that come before the time is up. -/
def inTime : ℕ → TimedPieces → List (List UInt8)
  | _, [] => []
  | left, (d, seg) :: rest => if comesInTime left d then seg :: inTime (left - d) rest else []

/-- What is left of the limit at this moment. -/
structure LeftOf (timeout start clock left : ℕ) : Prop where
  started : start ≤ clock
  limited : 0 < timeout → 0 < left ∧ clock + left = start + timeout
  unlimited : timeout = 0 → left = 0

namespace LeftOf

variable {timeout start clock left d : ℕ}

theorem timeLeft_eq (h : LeftOf timeout start clock left) : timeLeft timeout start clock = some left := by
  obtain ⟨hstart, hlimited, hunlimited⟩ := h
  rw [timeLeft]
  split_ifs with hpos hover
  · have hleft := hlimited hpos
    omega
  · have hleft := hlimited hpos
    rw [Option.some.injEq]
    omega
  · rw [hunlimited (by omega)]

/-- A piece that comes in time leaves time. -/
theorem later (h : LeftOf timeout start clock left) (hd : comesInTime left d = true) :
    LeftOf timeout start (clock + d) (left - d) := by
  obtain ⟨hstart, hlimited, hunlimited⟩ := h
  rw [comesInTime, Bool.or_eq_true, beq_iff_eq, decide_eq_true_eq] at hd
  refine ⟨by omega, fun hpos => ?_, fun hzero => ?_⟩
  · have hleft := hlimited hpos
    omega
  · have hleft := hunlimited hzero
    omega

end LeftOf

/-- The timed loop is the untimed one on what comes in time; it ends in time; and where it succeeds, the
untimed one on everything does the same. -/
theorem recvExactTimedLoop_eq (timeout start len : ℕ) (ending : PmxStatus) :
    ∀ (pieces : TimedPieces) (got : List UInt8) (clock left : ℕ), LeftOf timeout start clock left →
      (recvExactTimedLoop timeout start len pieces got clock).result
          = (recvExactLoop .errTimeout len got (inTime left pieces)).1 ∧
        (clock ≤ (recvExactTimedLoop timeout start len pieces got clock).clock ∧
          (recvExactTimedLoop timeout start len pieces got clock).clock ≤ clock + left) ∧
        ∀ all, (recvExactTimedLoop timeout start len pieces got clock).result = .ok all →
          recvExactLoop ending len got (pieces.map Prod.snd)
            = (.ok all, (recvExactTimedLoop timeout start len pieces got clock).pieces.map Prod.snd) := by
  intro pieces
  induction pieces with
  | nil =>
    intro got clock left h
    rw [recvExactTimedLoop, inTime, List.map_nil, recvExactLoop, recvExactLoop, h.timeLeft_eq]
    split_ifs
    · exact ⟨rfl, ⟨Nat.le_add_right _ _, Nat.le_refl _⟩, fun _ hok => by cases hok⟩
    · exact ⟨rfl, ⟨Nat.le_refl _, Nat.le_add_right _ _⟩, fun _ hok => by cases hok; rfl⟩
  | cons piece rest ih =>
    obtain ⟨d, seg⟩ := piece
    intro got clock left h
    rw [recvExactTimedLoop, inTime, List.map_cons, recvExactLoop, h.timeLeft_eq]
    by_cases hlt : got.length < len
    · rw [if_pos hlt, if_pos hlt]
      dsimp only
      by_cases hd : comesInTime left d = true
      · have hdle := comesInTime_le hd
        rw [if_pos hd, if_pos hd, recvExactLoop, if_pos hlt]
        by_cases hempty : seg = []
        · rw [if_pos hempty, if_pos hempty, if_pos hempty]
          exact ⟨rfl, ⟨Nat.le_add_right _ _, by dsimp only; omega⟩, fun _ hok => by cases hok⟩
        · rw [if_neg hempty, if_neg hempty, if_neg hempty]
          by_cases hfit : seg.length ≤ len - got.length
          · rw [if_pos hfit, if_pos hfit, if_pos hfit]
            obtain ⟨hresult, ⟨hge, hle⟩, hall⟩ := ih (got ++ seg) (clock + d) (left - d) (h.later hd)
            exact ⟨hresult, ⟨by omega, by omega⟩, hall⟩
          · rw [if_neg hfit, if_neg hfit, if_neg hfit]
            exact ⟨rfl, ⟨Nat.le_add_right _ _, by dsimp only; omega⟩, fun _ hok => by cases hok; rfl⟩
      · rw [if_neg hd, if_neg hd, recvExactLoop, if_pos hlt]
        exact ⟨rfl, ⟨Nat.le_add_right _ _, Nat.le_refl _⟩, fun _ hok => by cases hok⟩
    · rw [if_neg hlt, if_neg hlt]
      have hok : (recvExactLoop .errTimeout len got
          (if comesInTime left d = true then seg :: inTime (left - d) rest else [])).1 = .ok got := by
        split_ifs
        · rw [recvExactLoop, if_neg hlt]
        · rw [recvExactLoop, if_neg hlt]
      exact ⟨hok.symm, ⟨Nat.le_refl _, Nat.le_add_right _ _⟩, fun _ h => by cases h; rfl⟩

/-- **A peer at its own pace.**  Whatever the pace: a receive with a time limit answers as the untimed one
does where only the pieces that come in time come; it lasts no longer than its limit, however the bytes
dribble in; it succeeds exactly when enough bytes come in time; and then it has read those bytes and no
others, whatever comes later. -/
theorem pmxRecvExactTimed_eq (timeout len start : ℕ) (pieces : TimedPieces) (takes : Option ℕ) :
    let r := pmxRecvExactTimed timeout len start pieces
    let w := wireOpen (inTime timeout pieces) .errTimeout takes
    r.result = (pmxRecvExact w len).1 ∧ (start ≤ r.clock ∧ r.clock ≤ start + timeout) ∧
      (∀ got, r.result = .ok got ↔ len ≤ w.stream.length ∧ got = w.stream.take len) ∧
      (∀ got, r.result = .ok got → pmxRecvExact (wireOpen (pieces.map Prod.snd) .errTimeout takes) len
        = (.ok got, wireOpen (r.pieces.map Prod.snd) .errTimeout takes)) := by
  intro r w
  have hleft : LeftOf timeout start start timeout := ⟨Nat.le_refl _, fun h => ⟨h, rfl⟩, fun h => h⟩
  obtain ⟨hresult, hclock, hall⟩ :=
    recvExactTimedLoop_eq timeout start len .errTimeout pieces [] start timeout hleft
  refine ⟨hresult, hclock, fun got => ?_, fun got hok => ?_⟩
  · have heq : r.result = (pmxRecvExact w len).1 := hresult
    rw [heq]
    by_cases hlen : len ≤ w.stream.length
    · obtain ⟨w', hrecv, -⟩ := pmxRecvExact_enough hlen
      rw [hrecv]
      exact ⟨fun h => ⟨hlen, (Except.ok.inj h).symm⟩, fun h => by rw [h.2]⟩
    · have hending : w.ending ≠ .ok := show PmxStatus.errTimeout ≠ .ok by decide
      obtain ⟨st, w', hrecv, -⟩ := pmxRecvExact_short hending (Nat.not_le.1 hlen)
      rw [hrecv]
      exact iff_of_false (fun h => by cases h) (fun h => hlen h.1)
  · have hloop := hall got hok
    rw [pmxRecvExact]
    show ((recvExactLoop .errTimeout len [] (pieces.map Prod.snd)).1, _) = _
    rw [wireOpen, hloop]
    rfl

/-! ### Connecting -/

/-- What `connect` answers on a nonblocking socket: connected, refused at once, or under way; then the
socket is writable after so many ms, if ever, with or without an error, or `select` fails. -/
inductive ConnectAnswer
  | connected
  | failed
  | pending (after : Option ℕ) (soError : Bool)
  | waitFails
  deriving DecidableEq

/-- One resolved address, what the calls answer for it, and the time they take up to the wait. -/
structure AddrInfo where
  inet : Bool
  socketOk : Bool
  bindOk : Bool
  answer : ConnectAnswer
  spent : ℕ
  deriving DecidableEq

/-- The call under way: the result so far, the socket handed out, the sockets opened and closed, each named
by the place of its address, and the clock. -/
structure ConnectRun where
  result : PmxStatus
  out : Option ℕ
  opened : List ℕ
  closed : List ℕ
  clock : ℕ

/-- What becomes of the socket of one address: whether it is connected, what the result is if not (`none`
leaves it as it was), and how long was waited. -/
def connectAnswer (remaining : ℕ) : ConnectAnswer → Bool × Option PmxStatus × ℕ
  | .connected => (true, none, 0)
  | .failed => (false, none, 0)
  | .waitFails => (false, some .errNet, 0)
  | .pending none _ => (false, some .errTimeout, remaining)
  | .pending (some after) soError =>
    if comesInTime remaining after then
      if soError then (false, some .errConnRefused, after) else (true, none, after)
    else (false, some .errTimeout, remaining)

/-- The loop of `pmx_tcp_connect_from` over the addresses from the `i`th on. -/
def connectLoop (timeout start : ℕ) (localPort : PmxPort) : List AddrInfo → ℕ → ConnectRun → ConnectRun
  | [], _, r => r
  | ai :: rest, i, r =>
    match timeLeft timeout start r.clock with
    | none => { r with result := if r.result = .errNet then .errTimeout else r.result }
    | some remaining =>
      let r := { r with clock := r.clock + ai.spent }
      if !ai.socketOk then connectLoop timeout start localPort rest (i + 1) r
      else
        let r := { r with opened := i :: r.opened }
        if localPort ≠ 0 ∧ ai.inet = true ∧ ai.bindOk = false then
          connectLoop timeout start localPort rest (i + 1)
            { r with closed := i :: r.closed, result := .errNet }
        else
          let a := connectAnswer remaining ai.answer
          let r := { r with clock := r.clock + a.2.2 }
          if a.1 then { r with result := .ok, out := some i }
          else
            connectLoop timeout start localPort rest (i + 1)
              { r with closed := i :: r.closed, result := a.2.1.getD r.result }

/-- `pmx_tcp_connect_from`, called at `start`.  `getaddrinfo` takes `resolveMs`, and `none` is a name that does
not resolve; `connect_start` is read after it. -/
def pmxTcpConnectFrom (resolved : Option (List AddrInfo)) (resolveMs : ℕ) (localPort : PmxPort)
    (timeout start : ℕ) : ConnectRun :=
  let connectStart := start + resolveMs
  match resolved with
  | none => ⟨.errDns, none, [], [], connectStart⟩
  | some [] => ⟨.errDns, none, [], [], connectStart⟩
  | some addrs => connectLoop timeout connectStart localPort addrs 0 ⟨.errNet, none, [], [], connectStart⟩

/-- Between two addresses: every socket that was opened has been closed, and there is no success. -/
structure ConnectRun.Between (r : ConnectRun) (i : ℕ) : Prop where
  closed : r.closed = r.opened
  nodup : r.opened.Nodup
  before : ∀ j ∈ r.opened, j < i
  out : r.out = none
  result : r.result = .errNet ∨ r.result = .errTimeout ∨ r.result = .errConnRefused

/-- What the call leaves: a socket exactly on success, and all other sockets closed, in time if there is a
limit. -/
structure ConnectRun.Settled (r : ConnectRun) (timeout latest : ℕ) : Prop where
  out : r.result = .ok ↔ r.out ≠ none
  result : r.result = .ok ∨ r.result = .errNet ∨ r.result = .errTimeout ∨ r.result = .errConnRefused
  opened : r.opened = r.out.toList ++ r.closed
  nodup : r.opened.Nodup
  inTime : 0 < timeout → r.clock ≤ latest

theorem connectAnswer_spec (remaining : ℕ) (a : ConnectAnswer) :
    (connectAnswer remaining a).2.2 ≤ remaining ∧ ∀ st, (connectAnswer remaining a).2.1 = some st →
      st = .errNet ∨ st = .errTimeout ∨ st = .errConnRefused := by
  cases a with
  | connected => exact ⟨Nat.zero_le _, fun _ h => by cases h⟩
  | failed => exact ⟨Nat.zero_le _, fun _ h => by cases h⟩
  | waitFails => exact ⟨Nat.zero_le _, fun _ h => by cases h; exact Or.inl rfl⟩
  | pending after soError =>
    cases after with
    | none => exact ⟨Nat.le_refl _, fun _ h => by cases h; exact Or.inr (Or.inl rfl)⟩
    | some after =>
      rw [connectAnswer]
      split_ifs with hin herr
      · exact ⟨comesInTime_le hin, fun _ h => by cases h; exact Or.inr (Or.inr rfl)⟩
      · exact ⟨comesInTime_le hin, fun _ h => by cases h⟩
      · exact ⟨Nat.le_refl _, fun _ h => by cases h; exact Or.inr (Or.inl rfl)⟩

namespace ConnectRun.Between

variable {r : ConnectRun} {i timeout latest : ℕ}

/-- Nothing was opened for an address. -/
theorem skip (h : r.Between i) (clock : ℕ) : { r with clock := clock }.Between (i + 1) :=
  ⟨h.closed, h.nodup, fun j hj => Nat.lt_succ_of_lt (h.before j hj), h.out, h.result⟩

theorem nodup_cons (h : r.Between i) : (i :: r.opened).Nodup :=
  List.nodup_cons.2 ⟨fun hi => Nat.lt_irrefl i (h.before i hi), h.nodup⟩

/-- A socket was opened and closed. -/
theorem close (h : r.Between i) (clock : ℕ) {st : PmxStatus}
    (hst : st = .errNet ∨ st = .errTimeout ∨ st = .errConnRefused) :
    (⟨st, r.out, i :: r.opened, i :: r.closed, clock⟩ : ConnectRun).Between (i + 1) where
  closed := by rw [h.closed]
  nodup := h.nodup_cons
  before j hj := by
    rcases List.mem_cons.1 hj with rfl | hj
    · exact Nat.lt_succ_self j
    · exact Nat.lt_succ_of_lt (h.before j hj)
  out := h.out
  result := hst

/-- No address is tried any more. -/
theorem settled (h : r.Between i) {st : PmxStatus}
    (hst : st = .errNet ∨ st = .errTimeout ∨ st = .errConnRefused) (htime : 0 < timeout → r.clock ≤ latest) :
    { r with result := st }.Settled timeout latest where
  out := by
    refine iff_of_false (fun hok => ?_) (fun hout => hout h.out)
    have hok' : st = .ok := hok
    rw [hok'] at hst
    rcases hst with hst | hst | hst <;> cases hst
  result := Or.inr hst
  opened := by
    show r.opened = r.out.toList ++ r.closed
    rw [h.out, h.closed]
    rfl
  nodup := h.nodup
  inTime := htime

end ConnectRun.Between

/-- The loop settles, in time: a wait ends when the time is up, and no address is tried after. -/
theorem connectLoop_settled {timeout start slack : ℕ} (localPort : PmxPort) :
    ∀ (addrs : List AddrInfo) (i : ℕ) (r : ConnectRun), r.Between i → start ≤ r.clock →
      (0 < timeout → r.clock ≤ start + timeout + slack) → (∀ ai ∈ addrs, ai.spent ≤ slack) →
      (connectLoop timeout start localPort addrs i r).Settled timeout (start + timeout + slack) := by
  intro addrs
  induction addrs with
  | nil => exact fun i r h _ htime _ => h.settled h.result htime
  | cons ai rest ih =>
    intro i r h hstart htime hslack
    have hspent := hslack ai List.mem_cons_self
    have hrest : ∀ ai ∈ rest, ai.spent ≤ slack := fun ai' hai => hslack ai' (List.mem_cons_of_mem ai hai)
    rw [connectLoop]
    cases hleft : timeLeft timeout start r.clock with
    | none =>
      refine h.settled ?_ htime
      split_ifs
      · exact Or.inr (Or.inl rfl)
      · exact h.result
    | some remaining =>
      have hlimited := timeLeft_eq_some hstart hleft
      obtain ⟨hwait, hst⟩ := connectAnswer_spec remaining ai.answer
      -- the clock in front of the wait, and behind it
      have hbefore : 0 < timeout → r.clock + ai.spent ≤ start + timeout + slack := by
        intro hpos
        have hrem := hlimited hpos
        omega
      have hbehind : 0 < timeout →
          r.clock + ai.spent + (connectAnswer remaining ai.answer).2.2 ≤ start + timeout + slack := by
        intro hpos
        have hrem := hlimited hpos
        omega
      dsimp only
      split_ifs with hsocket hbind hconnected
      · exact ih (i + 1) _ (h.skip _) (by dsimp only; omega) hbefore hrest
      · exact ih (i + 1) _ (h.close _ (Or.inl rfl)) (by dsimp only; omega) hbefore hrest
      · exact {
          out := iff_of_true rfl (Option.some_ne_none i)
          result := Or.inl rfl
          opened := by rw [h.closed]; rfl
          nodup := h.nodup_cons
          inTime := hbehind }
      · refine ih (i + 1) _ (h.close _ ?_) (by dsimp only; omega) hbehind hrest
        cases hsome : (connectAnswer remaining ai.answer).2.1 with
        | none => exact h.result
        | some st => exact hst st hsome

/-- **One limit for all addresses.**  However many addresses a name has and whatever the system answers for
each: the call hands out a socket exactly when it succeeds; of the sockets it has opened it has closed each
other one once, and not the one it hands out; and it returns within its limit, counted from the end of the name's
resolution, but for the time the calls for a single address take. -/
theorem pmxTcpConnectFrom_total (resolved : Option (List AddrInfo)) (resolveMs : ℕ) (localPort : PmxPort)
    (timeout start slack : ℕ) (hslack : ∀ addrs ∈ resolved, ∀ ai ∈ addrs, ai.spent ≤ slack) :
    let r := pmxTcpConnectFrom resolved resolveMs localPort timeout start
    (r.result = .ok ↔ r.out ≠ none) ∧ r.opened = r.out.toList ++ r.closed ∧ r.opened.Nodup ∧
      (0 < timeout → r.clock ≤ start + resolveMs + timeout + slack) := by
  have hdns : ∀ r : ConnectRun, r = ⟨.errDns, none, [], [], start + resolveMs⟩ →
      (r.result = .ok ↔ r.out ≠ none) ∧ r.opened = r.out.toList ++ r.closed ∧ r.opened.Nodup ∧
        (0 < timeout → r.clock ≤ start + resolveMs + timeout + slack) := by
    rintro r rfl
    exact ⟨iff_of_false (fun h => by cases h) (fun h => h rfl), rfl, List.nodup_nil,
      fun _ => Nat.le_trans (Nat.le_add_right _ timeout) (Nat.le_add_right _ slack)⟩
  rw [pmxTcpConnectFrom.eq_def]
  dsimp only
  split
  · exact hdns _ rfl
  · exact hdns _ rfl
  · next addrs _ =>
    have hbetween : (⟨.errNet, none, [], [], start + resolveMs⟩ : ConnectRun).Between 0 :=
      ⟨rfl, List.nodup_nil, fun _ hj => (by cases hj), rfl, Or.inl rfl⟩
    have htime : 0 < timeout → start + resolveMs ≤ start + resolveMs + timeout + slack := fun _ => by omega
    have hsettled :=
      connectLoop_settled localPort addrs 0 _ hbetween (Nat.le_refl _) htime (hslack addrs rfl)
    exact ⟨hsettled.out, hsettled.opened, hsettled.nodup, hsettled.inTime⟩

/-- An address that refuses after 300 ms, one that answers 500 ms after that, and one more. -/
def threeAddresses : List AddrInfo :=
  [⟨true, true, true, .pending (some 300) true, 1⟩, ⟨false, true, true, .pending (some 500) false, 1⟩,
    ⟨true, true, true, .connected, 1⟩]

theorem pmxTcpConnectFrom_total_three :
    let r := pmxTcpConnectFrom (some threeAddresses) 70 0 1000 0
    r.out = some 1 ∧ r.closed = [0] ∧ r.clock ≤ 1071 := by
  obtain ⟨-, -, -, htime⟩ := pmxTcpConnectFrom_total (some threeAddresses) 70 0 1000 0 1
    (fun addrs haddrs ai hai => by
      obtain rfl := Option.some.inj haddrs
      revert ai
      decide)
  exact ⟨by decide, by decide, htime (by decide)⟩

/-- An address that does not answer takes the time of those behind it. -/
example : (pmxTcpConnectFrom (some [⟨true, true, true, .pending none false, 1⟩,
    ⟨true, true, true, .connected, 1⟩]) 0 0 1000 0).result = .errTimeout := by decide

end ProxiMight
