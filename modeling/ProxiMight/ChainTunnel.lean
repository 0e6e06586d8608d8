import ProxiMight.RelayService
import ProxiMight.Socks5Stream
import ProxiMight.Splice

/-!
# The tunnel through a chain (`relay_conn_worker`)

The worker asks each hop of a chain for a connection to the next one, the last hop for one to the
destination, all on one socket: a handshake begins where the one before it has left the stream.  With
`Conversation.andThen` the chain is itself a conversation.  An HTTP hop is left out: what its handshake
reads is no function of the stream, see `httpHandshake_exact_iff`.

* **`relayHops_exact`** — what the hops are sent, when the chain is established, and where the tunnel
  then begins.
* **`relayConn_transparent`** — behind the handshakes the two peers see each other's bytes, and no others.
-/

namespace ProxiMight

open CString

/-! ### One conversation after another -/

namespace Conversation

/-- The second one begins behind the answers of the first. -/
def andThen (c d : Conversation) : Conversation where
  sends s := c.sends s ++ (c.answers s).elim [] fun n => d.sends (s.drop n)
  answers s := (c.answers s).bind fun n => (d.answers (s.drop n)).map (n + ·)

theorem andThen_sends (c d : Conversation) (s : List UInt8) :
    (c.andThen d).sends s = c.sends s ++ (c.answers s).elim [] fun n => d.sends (s.drop n) := rfl

theorem andThen_answers (c d : Conversation) (s : List UInt8) :
    (c.andThen d).answers s = (c.answers s).bind fun n => (d.answers (s.drop n)).map (n + ·) := rfl

end Conversation

/-- What arrives has no close but at its end. -/
def Wire.Tidy (w : Wire) (shut : Bool) : Prop :=
  ∃ segs : List (List UInt8), [] ∉ segs ∧ w.arriving = segs ++ if shut then [[]] else []

/-- A client that keeps to a conversation and leaves the socket fit for another. -/
structure Keeps (f : Wire → PmxStatus × Wire) (c : Conversation) : Prop extends Speaks f c where
  whole : ∀ w, w.ending ≠ .ok → (f w).1 = .ok → (f w).2.sent = w.sent ++ c.sends w.stream
  takes : ∀ w, w.ending ≠ .ok → w.takes = none → (f w).2.takes = none
  ending : ∀ w, w.ending ≠ .ok → (f w).2.ending = w.ending
  tidy : ∀ w shut, w.ending ≠ .ok → w.Tidy shut → (f w).2.Tidy shut

theorem recvExactLoop_tidy (ending : PmxStatus) (len : ℕ) (shut : Bool) :
    ∀ (segs : List (List UInt8)) (got : List UInt8), [] ∉ segs →
      ∃ left : List (List UInt8), [] ∉ left ∧
        (recvExactLoop ending len got (segs ++ if shut then [[]] else [])).2
          = left ++ if shut then [[]] else [] := by
  intro segs
  induction segs with
  | nil =>
    intro got _
    refine ⟨[], List.not_mem_nil, ?_⟩
    cases shut with
    | false =>
      show (recvExactLoop ending len got []).2 = []
      rw [recvExactLoop]
      split_ifs <;> rfl
    | true =>
      show (recvExactLoop ending len got [[]]).2 = [[]]
      rw [recvExactLoop, if_pos rfl]
      split_ifs <;> rfl
  | cons seg rest ih =>
    intro got hne
    rw [List.mem_cons, not_or] at hne
    rw [List.cons_append, recvExactLoop]
    by_cases hlt : got.length < len
    · rw [if_pos hlt, if_neg (fun hempty => hne.1 hempty.symm)]
      by_cases hfit : seg.length ≤ len - got.length
      · rw [if_pos hfit]
        exact ih (got ++ seg) hne.2
      · rw [if_neg hfit]
        refine ⟨seg.drop (len - got.length) :: rest, ?_, rfl⟩
        rw [List.mem_cons, not_or, eq_comm, List.drop_eq_nil_iff]
        exact ⟨hfit, hne.2⟩
    · rw [if_neg hlt]
      exact ⟨seg :: rest, by rw [List.mem_cons, not_or]; exact hne, rfl⟩

theorem pmxRecvExact_tidy {w : Wire} {shut : Bool} (h : w.Tidy shut) (len : ℕ) :
    (pmxRecvExact w len).2.Tidy shut := by
  obtain ⟨segs, hne, harr⟩ := h
  obtain ⟨left, hleft, heq⟩ := recvExactLoop_tidy w.ending len shut segs [] hne
  exact ⟨left, hleft, by rw [← heq, ← harr]; rfl⟩

theorem pmxSendAll_takes {w : Wire} (h : w.takes = none) (msg : List UInt8) :
    (pmxSendAll w msg).2.takes = none := by
  rw [pmxSendAll, h]

namespace Keeps

variable {c d : Conversation} {f g k : Wire → PmxStatus × Wire}

theorem done : Keeps (fun w => (.ok, w)) .done where
  toSpeaks := Speaks.done
  whole _ _ _ := (List.append_nil _).symm
  takes _ _ h := h
  ending _ _ := rfl
  tidy _ _ _ h := h

theorem fail {st : PmxStatus} (hst : st ≠ .ok) : Keeps (fun w => (st, w)) .fail where
  toSpeaks := Speaks.fail hst
  whole _ _ h := absurd h hst
  takes _ _ h := h
  ending _ _ := rfl
  tidy _ _ _ h := h

theorem sending (h : Keeps k c) (msg : List UInt8) :
    Keeps (fun w => ProxiMight.sending msg w k) (.send msg c) where
  toSpeaks := h.toSpeaks.sending msg
  whole w hending hok := by
    rcases pmxSendAll_cases w msg with ⟨w', hsend, hstream, hend, hsent, -⟩ | ⟨_, w', -, hsend, -, -⟩
    · rw [ProxiMight.sending, hsend, if_pos rfl] at hok ⊢
      rw [h.whole w' (hend ▸ hending) hok, hsent, hstream, List.append_assoc]
      rfl
    · rw [ProxiMight.sending, hsend, if_neg (fun hst => by cases hst)] at hok
      cases hok
  takes w hending hnone := by
    have hsent := pmxSendAll_takes hnone msg
    have hend := (pmxSendAll_arriving w msg).2
    rw [ProxiMight.sending]
    split_ifs
    · exact h.takes _ (hend ▸ hending) hsent
    · exact hsent
  ending w hending := by
    have hend := (pmxSendAll_arriving w msg).2
    rw [ProxiMight.sending]
    split_ifs
    · rw [h.ending _ (hend ▸ hending), hend]
    · exact hend
  tidy w shut hending htidy := by
    obtain ⟨harr, hend⟩ := pmxSendAll_arriving w msg
    have hsent : (pmxSendAll w msg).2.Tidy shut := by
      rw [Wire.Tidy, harr]
      exact htidy
    rw [ProxiMight.sending]
    split_ifs
    · exact h.tidy _ shut (hend ▸ hending) hsent
    · exact hsent

/-- How a receive goes on: with the front of the stream, or not at all. -/
theorem receiving_cases {len : ℕ} (k : List UInt8 → Wire → PmxStatus × Wire) {w : Wire}
    (hending : w.ending ≠ .ok) :
    (len ≤ w.stream.length ∧ (pmxRecvExact w len).2.stream = w.stream.drop len ∧
      ProxiMight.receiving len w k = k (w.stream.take len) (pmxRecvExact w len).2) ∨
    (∃ st, st ≠ .ok ∧ ProxiMight.receiving len w k = (st, (pmxRecvExact w len).2)) := by
  by_cases hlen : len ≤ w.stream.length
  · obtain ⟨w', hrecv, hstream, -⟩ := pmxRecvExact_enough hlen
    refine Or.inl ⟨hlen, ?_, ?_⟩
    · rw [hrecv]
      exact hstream
    · rw [ProxiMight.receiving, hrecv]
  · obtain ⟨st, w', hrecv, hst, -⟩ := pmxRecvExact_short hending (Nat.not_le.1 hlen)
    refine Or.inr ⟨st, hst, ?_⟩
    rw [ProxiMight.receiving, hrecv]

theorem receiving {len : ℕ} {k : List UInt8 → Wire → PmxStatus × Wire} {c : List UInt8 → Conversation}
    (h : ∀ got, got.length = len → Keeps (k got) (c got)) :
    Keeps (fun w => ProxiMight.receiving len w k) (.receive len c) where
  toSpeaks := Speaks.receiving fun got hgot => (h got hgot).toSpeaks
  whole w hending hok := by
    rcases receiving_cases k hending with ⟨hlen, hstream, heq⟩ | ⟨st, hst, heq⟩
    · rw [heq] at hok ⊢
      rw [(h _ (List.length_take_of_le hlen)).whole (pmxRecvExact w len).2 hending hok, hstream,
        Conversation.receive]
      simp only [if_pos hlen]
      rfl
    · rw [heq] at hok
      exact absurd hok hst
  takes w hending hnone := by
    rcases receiving_cases k hending with ⟨hlen, -, heq⟩ | ⟨st, -, heq⟩
    · rw [heq]
      exact (h _ (List.length_take_of_le hlen)).takes _ hending hnone
    · rw [heq]
      exact hnone
  ending w hending := by
    rcases receiving_cases k hending with ⟨hlen, -, heq⟩ | ⟨st, -, heq⟩
    · rw [heq]
      exact (h _ (List.length_take_of_le hlen)).ending _ hending
    · rw [heq]
      rfl
  tidy w shut hending htidy := by
    rcases receiving_cases k hending with ⟨hlen, -, heq⟩ | ⟨st, -, heq⟩
    · rw [heq]
      exact (h _ (List.length_take_of_le hlen)).tidy _ shut hending (pmxRecvExact_tidy htidy len)
    · rw [heq]
      exact pmxRecvExact_tidy htidy len

theorem building {msg : Except PmxStatus (List UInt8)} {k : List UInt8 → Wire → PmxStatus × Wire}
    {c : List UInt8 → Conversation} (hmsg : msg ≠ .error .ok) (h : ∀ m, Keeps (k m) (c m)) :
    Keeps (fun w => ProxiMight.building msg w fun m => k m w) (.build msg c) := by
  cases msg with
  | error st => exact fail fun hst => hmsg (hst ▸ rfl)
  | ok m => exact h m

theorem ite {b : Prop} [Decidable b] (hf : b → Keeps f c) (hg : ¬b → Keeps g d) :
    Keeps (fun w => if b then f w else g w) (if b then c else d) := by
  by_cases h : b
  · simp only [if_pos h]
    exact hf h
  · simp only [if_neg h]
    exact hg h

/-- A status that ends the handshake. -/
theorem status (st : PmxStatus) : Keeps (fun w => (st, w)) (if st = .ok then .done else .fail) := by
  by_cases h : st = .ok
  · subst h
    exact done
  · rw [if_neg h]
    exact fail h

/-- **One after another.**  The second begins where the first has succeeded. -/
theorem andThen (hf : Keeps f c) (hg : Keeps g d) :
    Keeps (fun w => if (f w).1 = .ok then g (f w).2 else f w) (c.andThen d) where
  sent w hending := by
    split_ifs with hok
    · obtain ⟨n, hn, -, hstream⟩ := hf.ok w hending hok
      obtain ⟨part, hpart, hsent, hall⟩ :=
        hg.sent (f w).2 (by rw [hf.ending w hending]; exact hending)
      rw [hstream] at hpart hall
      refine ⟨c.sends w.stream ++ part, ?_, ?_, ?_⟩
      · rw [Conversation.andThen_sends, hn]
        exact (List.prefix_append_right_inj _).2 hpart
      · rw [hsent, hf.whole w hending hok, List.append_assoc]
      · intro hnone
        rw [Conversation.andThen_sends, hn, hall (hf.takes w hending hnone)]
        rfl
    · obtain ⟨part, hpart, hsent, hall⟩ := hf.sent w hending
      refine ⟨part, hpart.trans (List.prefix_append _ _), hsent, fun hnone => ?_⟩
      -- a first conversation that has failed has no end to go on from
      have hanswers : c.answers w.stream = none := by
        rw [← Option.not_isSome_iff_eq_none]
        exact fun hsome => hok (hf.ok_of w hending hnone hsome)
      rw [Conversation.andThen_sends, hanswers, hall hnone]
      exact (List.append_nil _).symm
  ok w hending hok := by
    split_ifs at hok ⊢ with hfirst
    · obtain ⟨n, hn, hle, hstream⟩ := hf.ok w hending hfirst
      obtain ⟨m, hm, hle', hstream'⟩ :=
        hg.ok (f w).2 (by rw [hf.ending w hending]; exact hending) hok
      rw [hstream, List.length_drop] at hle'
      rw [hstream] at hm
      refine ⟨n + m, ?_, by omega, by rw [hstream', hstream, List.drop_drop]⟩
      rw [Conversation.andThen_answers, hn, Option.bind_some, hm]
      rfl
    · exact absurd hok hfirst
  ok_of w hending hnone hanswers := by
    cases hn : c.answers w.stream with
    | none =>
      rw [Conversation.andThen_answers, hn] at hanswers
      cases hanswers
    | some n =>
      have hfirst := hf.ok_of w hending hnone (by rw [hn]; rfl)
      obtain ⟨n', hn', -, hstream⟩ := hf.ok w hending hfirst
      obtain rfl : n' = n := Option.some.inj (hn'.symm.trans hn)
      rw [Conversation.andThen_answers, hn, Option.bind_some, Option.isSome_map] at hanswers
      rw [if_pos hfirst]
      apply hg.ok_of _ (by rw [hf.ending w hending]; exact hending) (hf.takes w hending hnone)
      rw [hstream]
      exact hanswers
  whole w hending hok := by
    split_ifs at hok ⊢ with hfirst
    · obtain ⟨n, hn, -, hstream⟩ := hf.ok w hending hfirst
      rw [hg.whole (f w).2 (by rw [hf.ending w hending]; exact hending) hok, hf.whole w hending hfirst,
        hstream, Conversation.andThen_sends, hn, List.append_assoc]
      rfl
    · exact absurd hok hfirst
  takes w hending hnone := by
    split_ifs
    · exact hg.takes _ (by rw [hf.ending w hending]; exact hending) (hf.takes w hending hnone)
    · exact hf.takes w hending hnone
  ending w hending := by
    split_ifs
    · rw [hg.ending _ (by rw [hf.ending w hending]; exact hending), hf.ending w hending]
    · exact hf.ending w hending
  tidy w shut hending htidy := by
    split_ifs
    · exact hg.tidy _ shut (by rw [hf.ending w hending]; exact hending) (hf.tidy w shut hending htidy)
    · exact hf.tidy w shut hending htidy

end Keeps

/-! ### One hop -/

/-- The SOCKS4 request, for a destination it can name. -/
def socks4Message (p : PmxProxy) (host : CStr) (port : PmxPort) : List (List UInt8) :=
  match pmxSocks4BuildConnect 512 host port (decide (p.type = .socks4a))
      (if p.useAuth then p.username.str else []) with
  | .error _ => []
  | .ok request => [request]

/-- The bytes of a reply that grants a SOCKS4 request. -/
def socks4ReplyLength (s : List UInt8) : Option ℕ :=
  if 8 ≤ s.length ∧ s[1]? = some 0x5A then some 8 else none

def socks4Conversation (p : PmxProxy) (host : CStr) (port : PmxPort) : Conversation :=
  .build (pmxSocks4BuildConnect 512 host port (decide (p.type = .socks4a))
      (if p.useAuth then p.username.str else [])) fun request =>
  .send request (.receive 8 fun reply => if pmxSocks4ParseReply reply = .ok then .done else .fail)

theorem socks4BuildConnect_ne_ok (cap : ℕ) (host : CStr) (port : PmxPort) (socks4a : Bool)
    (userid : List UInt8) : pmxSocks4BuildConnect cap host port socks4a userid ≠ .error .ok := by
  rw [pmxSocks4BuildConnect]
  split
  · split_ifs <;> exact fun h => by cases h
  · split_ifs <;> exact fun h => by cases h

theorem socks4Handshake_keeps (p : PmxProxy) (host : CStr) (port : PmxPort) :
    Keeps (socks4Handshake p host port) (socks4Conversation p host port) := by
  apply Keeps.building (socks4BuildConnect_ne_ok 512 host port _ _)
  intro request
  apply Keeps.sending
  apply Keeps.receiving
  exact fun reply _ => Keeps.status _

theorem socks4ParseReply_ok_iff {s : List UInt8} (hlen : 8 ≤ s.length) :
    pmxSocks4ParseReply (s.take 8) = .ok ↔ s[1]? = some 0x5A := by
  obtain _ | ⟨a, _ | ⟨b, t⟩⟩ := s
  · simp at hlen
  · simp at hlen
  · have hfull : ¬(a :: b :: t.take 6).length < 8 := by
      rw [show a :: b :: t.take 6 = (a :: b :: t).take 8 from rfl, List.length_take_of_le hlen]
      omega
    show pmxSocks4ParseReply (a :: b :: t.take 6) = .ok ↔ some b = some 0x5A
    rw [pmxSocks4ParseReply, if_neg hfull, Option.some.injEq]
    split_ifs with h
    · exact iff_of_true rfl h
    all_goals exact iff_of_false (fun hst => by cases hst) h

theorem socks4Reply_answers (s : List UInt8) :
    (Conversation.receive 8 fun reply =>
        if pmxSocks4ParseReply reply = .ok then Conversation.done else .fail).answers s
      = socks4ReplyLength s := by
  show (if 8 ≤ s.length then
    ((if pmxSocks4ParseReply (s.take 8) = .ok then Conversation.done else .fail).answers
      (s.drop 8)).map (8 + ·) else none) = _
  rw [socks4ReplyLength]
  by_cases hlen : 8 ≤ s.length
  · simp only [hlen, true_and, socks4ParseReply_ok_iff hlen]
    split_ifs <;> rfl
  · rw [if_neg hlen, if_neg (fun h => hlen h.1)]

theorem socks4Conversation_sends (p : PmxProxy) (host : CStr) (port : PmxPort) (s : List UInt8) :
    (socks4Conversation p host port).sends s = (socks4Message p host port).flatten := by
  rw [socks4Conversation, socks4Message]
  cases pmxSocks4BuildConnect 512 host port (decide (p.type = .socks4a))
      (if p.useAuth then p.username.str else []) with
  | error st => rfl
  | ok request =>
    show request ++ (if 8 ≤ s.length then
      (if pmxSocks4ParseReply (s.take 8) = .ok then Conversation.done else .fail).sends (s.drop 8)
      else []) = request ++ []
    split_ifs <;> rfl

theorem socks4Conversation_answers (p : PmxProxy) (host : CStr) (port : PmxPort) (s : List UInt8) :
    (socks4Conversation p host port).answers s =
      if socks4Message p host port = [] then none else socks4ReplyLength s := by
  rw [socks4Conversation, socks4Message]
  cases pmxSocks4BuildConnect 512 host port (decide (p.type = .socks4a))
      (if p.useAuth then p.username.str else []) with
  | error st => rfl
  | ok request =>
    rw [if_neg (List.cons_ne_nil _ _)]
    exact socks4Reply_answers s

theorem socks5Connect_keeps (host : CStr) (port : PmxPort) :
    Keeps (socks5Connect host port) (connectConversation host port) := by
  apply Keeps.building (buildConnect_ne_ok 512 host port)
  intro request
  apply Keeps.sending
  apply Keeps.receiving
  intro head _
  apply Keeps.ite
  · exact fun hst => Keeps.fail hst
  · intro _
    generalize head.getD 3 0 = atyp
    split
    · exact Keeps.receiving fun _ _ => Keeps.done
    · exact Keeps.receiving fun _ _ => Keeps.done
    · exact Keeps.receiving fun l _ => Keeps.receiving fun _ _ => Keeps.done
    · rename_i h1 h4 h3
      rw [boundConversation, if_neg h1, if_neg h4, if_neg h3]
      exact Keeps.fail (by decide)

theorem socks5Handshake_keeps (p : PmxProxy) (host : CStr) (port : PmxPort) :
    Keeps (socks5Handshake p host port) (socks5Conversation p host port) := by
  apply Keeps.building
  · rw [buildGreeting_eq]
    exact fun h => by cases h
  intro greeting
  apply Keeps.sending
  apply Keeps.receiving
  intro reply _
  apply Keeps.ite
  · exact fun hst => Keeps.fail hst
  intro _
  apply Keeps.ite
  · intro _
    apply Keeps.building
    · rw [buildUserpass_ok]
      exact fun h => by cases h
    intro msg
    apply Keeps.sending
    apply Keeps.receiving
    intro answer _
    apply Keeps.ite
    · exact fun _ => Keeps.fail (by decide)
    · exact fun _ => socks5Connect_keeps host port
  intro _
  apply Keeps.ite
  · exact fun _ => Keeps.fail (by decide)
  · exact fun _ => socks5Connect_keeps host port

/-- The handshake with a hop that is not an HTTP one; `https` is not implemented. -/
def hopConversation (p : PmxProxy) (host : CStr) (port : PmxPort) : Conversation :=
  match p.type with
  | .socks5 => socks5Conversation p host port
  | .socks4 => socks4Conversation p host port
  | .socks4a => socks4Conversation p host port
  | _ => .fail

/-- What a hop that answers with `s` is sent. -/
def hopMessages (p : PmxProxy) (host : CStr) (port : PmxPort) (s : List UInt8) : List (List UInt8) :=
  match p.type with
  | .socks5 => socks5Messages p host port s
  | .socks4 => socks4Message p host port
  | .socks4a => socks4Message p host port
  | _ => []

/-- The bytes of the answers of a hop that grants the request. -/
def hopReplyLength (p : PmxProxy) (host : CStr) (port : PmxPort) (s : List UInt8) : Option ℕ :=
  match p.type with
  | .socks5 => if connectMessage host port = [] then none else successLength s
  | .socks4 => if socks4Message p host port = [] then none else socks4ReplyLength s
  | .socks4a => if socks4Message p host port = [] then none else socks4ReplyLength s
  | _ => none

theorem pmxProxyHandshake_keeps {p : PmxProxy} (hp : p.type ≠ .http) (host : CStr) (port : PmxPort) :
    Keeps (pmxProxyHandshake p host port) (hopConversation p host port) := by
  have hdef : pmxProxyHandshake p host port = fun w => pmxProxyHandshake p host port w := rfl
  rw [hdef]
  simp only [pmxProxyHandshake, hopConversation]
  cases htype : p.type with
  | socks5 => exact socks5Handshake_keeps p host port
  | socks4 => exact socks4Handshake_keeps p host port
  | socks4a => exact socks4Handshake_keeps p host port
  | http => exact absurd htype hp
  | https => exact Keeps.fail (by decide)
  | other raw => exact Keeps.fail (by decide)

theorem hopConversation_sends (p : PmxProxy) (host : CStr) (port : PmxPort) (s : List UInt8) :
    (hopConversation p host port).sends s = (hopMessages p host port s).flatten := by
  rw [hopConversation, hopMessages]
  split
  · exact socks5Conversation_sends p host port s
  · exact socks4Conversation_sends p host port s
  · exact socks4Conversation_sends p host port s
  · rfl

theorem hopConversation_answers (p : PmxProxy) (host : CStr) (port : PmxPort) (s : List UInt8) :
    (hopConversation p host port).answers s = hopReplyLength p host port s := by
  rw [hopConversation, hopReplyLength]
  split
  · exact socks5Conversation_answers p host port s
  · exact socks4Conversation_answers p host port s
  · exact socks4Conversation_answers p host port s
  · rfl

/-! ### The chain -/

/-- `next_host` and `next_port` in front of these hops. -/
def hopTarget (dst : CBuf pmxMaxHost × PmxPort) (rest : List PmxProxy) : CBuf pmxMaxHost × PmxPort :=
  match rest with
  | q :: _ => (q.host, q.port)
  | [] => dst

/-- The hop loop of `relay_conn_worker`. -/
def relayHops (dst : CBuf pmxMaxHost × PmxPort) : List PmxProxy → Wire → PmxStatus × Wire
  | [], w => (.ok, w)
  | p :: rest, w =>
    let r := pmxProxyHandshake p (hopTarget dst rest).1.toCStr (hopTarget dst rest).2 w
    if r.1 = .ok then relayHops dst rest r.2 else r

def chainConversation (dst : CBuf pmxMaxHost × PmxPort) : List PmxProxy → Conversation
  | [] => .done
  | p :: rest =>
    (hopConversation p (hopTarget dst rest).1.toCStr (hopTarget dst rest).2).andThen
      (chainConversation dst rest)

/-- What the hops are sent when the socket answers with `s`: to each what its own handshake asks for, and
to the next hop nothing before this one has granted its request. -/
def chainMessages (dst : CBuf pmxMaxHost × PmxPort) : List PmxProxy → List UInt8 → List (List UInt8)
  | [], _ => []
  | p :: rest, s =>
    hopMessages p (hopTarget dst rest).1.toCStr (hopTarget dst rest).2 s ++
      (hopReplyLength p (hopTarget dst rest).1.toCStr (hopTarget dst rest).2 s).elim []
        fun n => chainMessages dst rest (s.drop n)

/-- The bytes of the answers of a chain whose hops all grant their requests. -/
def chainReplyLength (dst : CBuf pmxMaxHost × PmxPort) : List PmxProxy → List UInt8 → Option ℕ
  | [], _ => some 0
  | p :: rest, s =>
    (hopReplyLength p (hopTarget dst rest).1.toCStr (hopTarget dst rest).2 s).bind
      fun n => (chainReplyLength dst rest (s.drop n)).map (n + ·)

theorem relayHops_keeps (dst : CBuf pmxMaxHost × PmxPort) (chain : List PmxProxy)
    (hchain : ∀ p ∈ chain, p.type ≠ .http) : Keeps (relayHops dst chain) (chainConversation dst chain) := by
  induction chain with
  | nil => exact Keeps.done
  | cons p rest ih =>
    exact (pmxProxyHandshake_keeps (hchain p List.mem_cons_self) _ _).andThen
      (ih fun q hq => hchain q (List.mem_cons_of_mem p hq))

theorem chainConversation_answers (dst : CBuf pmxMaxHost × PmxPort) (chain : List PmxProxy) :
    ∀ s, (chainConversation dst chain).answers s = chainReplyLength dst chain s := by
  induction chain with
  | nil => exact fun _ => rfl
  | cons p rest ih =>
    intro s
    rw [chainConversation, Conversation.andThen_answers, hopConversation_answers, chainReplyLength]
    simp only [ih]

theorem chainConversation_sends (dst : CBuf pmxMaxHost × PmxPort) (chain : List PmxProxy) :
    ∀ s, (chainConversation dst chain).sends s = (chainMessages dst chain s).flatten := by
  induction chain with
  | nil => exact fun _ => rfl
  | cons p rest ih =>
    intro s
    rw [chainConversation, Conversation.andThen_sends, hopConversation_sends, hopConversation_answers,
      chainMessages, List.flatten_append]
    cases hopReplyLength p (hopTarget dst rest).1.toCStr (hopTarget dst rest).2 s with
    | none => rfl
    | some n => rw [Option.elim_some, Option.elim_some, ih]

/-- **What a chain is sent, and where its tunnel begins.**  Whatever comes back on the socket, in whatever
segments: each hop is sent its own handshake and the next one nothing before that has been granted; the
chain is established only when every hop has granted its request, and then exactly their answers have been
read, so that the stream stands at the first byte of the tunnel. -/
theorem relayHops_exact (dst : CBuf pmxMaxHost × PmxPort) (chain : List PmxProxy)
    (hchain : ∀ p ∈ chain, p.type ≠ .http) (segs : List (List UInt8)) (timedOut : Bool)
    (takes : Option ℕ) :
    let w := wireOpen segs (waitFailure timedOut) takes
    let r := relayHops dst chain w
    (r.2.sent <+: (chainMessages dst chain w.stream).flatten ∧
      (takes = none → r.2.sent = (chainMessages dst chain w.stream).flatten)) ∧
    (r.1 = .ok → ∃ n, chainReplyLength dst chain w.stream = some n ∧ n ≤ w.stream.length ∧
      r.2.stream = w.stream.drop n ∧ r.2.sent = (chainMessages dst chain w.stream).flatten) ∧
    (takes = none → (chainReplyLength dst chain w.stream).isSome → r.1 = .ok) := by
  intro w r
  have hkeeps := relayHops_keeps dst chain hchain
  have hending : w.ending ≠ .ok := by
    cases timedOut <;> exact fun h => by cases h
  refine ⟨?_, ?_, ?_⟩
  · obtain ⟨part, hpart, hsent, hall⟩ := hkeeps.sent w hending
    rw [chainConversation_sends] at hpart hall
    have hsent' : r.2.sent = part := hsent
    exact ⟨hsent' ▸ hpart, fun hnone => hsent'.trans (hall hnone)⟩
  · intro hok
    obtain ⟨n, hn, hle, hstream⟩ := hkeeps.ok w hending hok
    have hwhole := hkeeps.whole w hending hok
    rw [chainConversation_answers] at hn
    rw [chainConversation_sends] at hwhole
    exact ⟨n, hn, hle, hstream, hwhole⟩
  · intro hnone hsome
    exact hkeeps.ok_of w hending hnone (by rw [chainConversation_answers]; exact hsome)

/-- A SOCKS5 hop and a SOCKS4 hop behind it. -/
def twoHops : List PmxProxy :=
  [{ pmxProxyInit with host := strlcpy pmxMaxHost (bytes "10.0.0.1"), port := 1080 },
    { pmxProxyInit with type := .socks4, host := strlcpy pmxMaxHost (bytes "10.0.0.2"), port := 1081 }]

/-- The answers of both hops and two bytes of the tunnel, cut without regard to where each ends. -/
def twoHopsAnswer : List (List UInt8) :=
  [[5], [0, 5, 0, 0], [1, 0, 0, 0, 0, 0, 0, 0, 90], [0, 0, 0, 0, 0, 0, 72, 73]]

theorem relayHops_exact_two :
    (∀ p ∈ twoHops, p.type ≠ .http) ∧
      (relayHops (strlcpy pmxMaxHost (bytes "1.2.3.4"), 80) twoHops
        (wireOpen twoHopsAnswer .errTimeout none)).2.stream = [72, 73] := by
  have hchain : ∀ p ∈ twoHops, p.type ≠ .http := by decide
  obtain ⟨-, hok, hreach⟩ := relayHops_exact (strlcpy pmxMaxHost (bytes "1.2.3.4"), 80) twoHops hchain
    twoHopsAnswer true none
  have hlength : chainReplyLength (strlcpy pmxMaxHost (bytes "1.2.3.4"), 80) twoHops
      (wireOpen twoHopsAnswer (waitFailure true) none).stream = some 20 := by decide +kernel
  obtain ⟨n, hn, -, hstream, -⟩ := hok (hreach rfl (by rw [hlength]; rfl))
  obtain rfl : 20 = n := Option.some.inj (hlength.symm.trans hn)
  exact ⟨hchain, hstream⟩

/-! ### The worker on its sockets -/

/-- The handshake the worker stands before, on the upstream socket. -/
def connWorkerOn (s : ConnWorker × Wire) : ConnWorker × Wire :=
  match s.1.stage with
  | .hop i =>
    match s.1.entry.chain[i]? with
    | some p =>
      let r := pmxProxyHandshake p (s.1.entry.nextHop i).1.toCStr (s.1.entry.nextHop i).2 s.2
      (connWorkerStep s.1 (decide (r.1 = .ok)), r.2)
    | none => (connWorkerStep s.1 false, s.2)
  | _ => s

/-- The worker behind a dial that has succeeded, with all its handshakes made. -/
def connWorkerTunnel (e : RelayEntry) (up : Wire) : ConnWorker × Wire :=
  connWorkerOn^[e.chain.length] (connWorkerStep ⟨e, .dialling, []⟩ true, up)

/-- The destination behind the last hop. -/
def RelayEntry.dst (e : RelayEntry) : CBuf pmxMaxHost × PmxPort := (e.dstHost, e.dstPort)

theorem RelayEntry.hopTarget_drop (e : RelayEntry) (i : ℕ) :
    hopTarget e.dst (e.chain.drop (i + 1)) = e.nextHop i := by
  rw [RelayEntry.nextHop, ← List.head?_drop]
  cases e.chain.drop (i + 1) <;> rfl

theorem connWorkerOn_closed {s : ConnWorker × Wire} (h : s.1.stage = .closed) : connWorkerOn s = s := by
  rw [connWorkerOn, h]

/-- The handshakes from hop `i` on are the hop loop on the rest of the chain. -/
theorem connWorkerOn_hops (rest : List PmxProxy) :
    ∀ (i : ℕ) (w : ConnWorker) (up : Wire), w.entry.chain.drop i = rest → i ≤ w.entry.chain.length →
      (connWorkerOn^[rest.length] (w.enterHop i, up)).2 = (relayHops w.entry.dst rest up).2 ∧
        ((connWorkerOn^[rest.length] (w.enterHop i, up)).1.stage = .splicing ↔
          (relayHops w.entry.dst rest up).1 = .ok) := by
  induction rest with
  | nil =>
    intro i w up hdrop hi
    have hlen : ¬i < w.entry.chain.length := Nat.not_lt.2 (List.drop_eq_nil_iff.1 hdrop)
    refine ⟨rfl, iff_of_true ?_ rfl⟩
    show (w.enterHop i).stage = .splicing
    rw [ConnWorker.enterHop, if_neg hlen]
  | cons p rest ih =>
    intro i w up hdrop hi
    have hlt : i < w.entry.chain.length := by
      rw [← not_le, ← List.drop_eq_nil_iff, hdrop]
      exact List.cons_ne_nil p rest
    have hget : w.entry.chain[i]? = some p := by
      rw [← List.head?_drop, hdrop]
      rfl
    have hrest : w.entry.chain.drop (i + 1) = rest := by
      rw [← List.tail_drop, hdrop]
      rfl
    have htarget := w.entry.hopTarget_drop i
    rw [hrest] at htarget
    rw [List.length_cons, Function.iterate_succ_apply, ConnWorker.enterHop, if_pos hlt, relayHops, htarget]
    simp only [connWorkerOn, connWorkerStep, hget]
    by_cases hok : (pmxProxyHandshake p (w.entry.nextHop i).1.toCStr (w.entry.nextHop i).2 up).1 = .ok
    · rw [if_pos hok, decide_eq_true hok, if_pos rfl]
      exact ih (i + 1) _ _ hrest hlt
    · rw [if_neg hok, decide_eq_false hok, if_neg Bool.false_ne_true]
      rw [Function.iterate_fixed (connWorkerOn_closed rfl)]
      exact ⟨rfl, iff_of_false (fun h => by cases h) hok⟩

/-- **The worker refines the hop loop.**  Its handshakes leave the socket as the loop does, and it splices
exactly when the loop succeeds. -/
theorem connWorkerTunnel_eq {e : RelayEntry} (he : e.chain ≠ []) (up : Wire) :
    (connWorkerTunnel e up).2 = (relayHops e.dst e.chain up).2 ∧
      ((connWorkerTunnel e up).1.stage = .splicing ↔ (relayHops e.dst e.chain up).1 = .ok) := by
  obtain ⟨p, rest, hchain⟩ := List.exists_cons_of_ne_nil he
  have hdial : connWorkerStep ⟨e, .dialling, []⟩ true
      = (ConnWorker.mk e .dialling [.dial p.host p.port true]).enterHop 0 := by
    simp only [connWorkerStep, hchain]
    rfl
  rw [connWorkerTunnel, hdial]
  exact connWorkerOn_hops e.chain 0 (ConnWorker.mk e .dialling [.dial p.host p.port true]) up rfl
    (Nat.zero_le _)

/-! ### The splice behind the handshakes -/

/-- What a peer has sent by some moment, cut into segments, and whether it has closed its sending side. -/
structure Arrival where
  segs : List (List UInt8)
  shut : Bool
  ne_nil : [] ∉ segs

namespace Arrival

def bytes (a : Arrival) : List UInt8 := a.segs.flatten

/-- The socket on which this has arrived. -/
def wire (a : Arrival) (ending : PmxStatus) : Wire :=
  wireOpen (a.segs ++ if a.shut then [[]] else []) ending none

theorem wire_tidy (a : Arrival) (ending : PmxStatus) : (a.wire ending).Tidy a.shut :=
  ⟨a.segs, a.ne_nil, rfl⟩

end Arrival

/-- On a tidy socket all that arrives can be received. -/
theorem Wire.Tidy.stream_eq {w : Wire} {shut : Bool} (h : w.Tidy shut) :
    w.stream = w.arriving.flatten := by
  obtain ⟨segs, hne, harr⟩ := h
  rw [Wire.stream, harr]
  clear harr
  induction segs with
  | nil => cases shut <;> rfl
  | cons seg segs ih =>
    rw [List.mem_cons, not_or] at hne
    rw [List.cons_append, Segments.untilClosed_cons (fun h => hne.1 h.symm), ih hne.2, List.flatten_cons]

theorem Arrival.stream_wire (a : Arrival) (ending : PmxStatus) : (a.wire ending).stream = a.bytes := by
  rw [(a.wire_tidy ending).stream_eq, Arrival.wire, Arrival.bytes, wireOpen, List.flatten_append]
  cases a.shut <;> exact List.append_nil _

/-- The splice as it begins on two sockets; what they are sent is counted from here. -/
def spliceBehind (wire : Peer → Wire) (shut : Peer → Bool) : Splice :=
  ⟨fun p => { wire p with sent := [] }, fun p => (wire p).arriving.flatten, shut, true⟩

theorem spliceBehind_inv {wire : Peer → Wire} {shut : Peer → Bool} (htakes : ∀ p, (wire p).takes = none)
    (htidy : ∀ p, (wire p).Tidy (shut p)) : (spliceBehind wire shut).Inv where
  conserved _ := rfl
  takes := htakes
  ends := htidy

theorem spliceStep_said (s : Splice) (e : SpliceEvent) (p : Peer) : s.said p <+: (spliceStep s e).said p := by
  cases e with
  | send q msg =>
    rw [spliceStep]
    split_ifs
    · exact List.prefix_rfl
    · rw [s.arrive_said]
      exact List.prefix_append _ _
  | shutdown q =>
    rw [spliceStep]
    split_ifs
    · exact List.prefix_rfl
    · show s.said p <+: (s.arrive q []).said p
      rw [s.arrive_said]
      exact List.prefix_append _ _
  | round sel =>
    rw [spliceStep]
    split_ifs <;> exact List.prefix_rfl

/-- The sockets of a worker. -/
def connSockets (client up : Wire) : Peer → Wire
  | .client => client
  | .up => up

def connShut (client up : Arrival) : Peer → Bool
  | .client => client.shut
  | .up => up.shut

/-- **A relayed connection is transparent.**  Where a worker splices at all, the upstream has been sent the
handshakes of the whole chain and nothing else; from there on, under every schedule, it is sent a front of
the client's bytes and the client a front of the bytes behind the answers of the chain, each from the first
byte on; and a stream whose end the splice reads has been written to the other side as a whole. -/
theorem relayConn_transparent (e : RelayEntry) (hchain : ∀ p ∈ e.chain, p.type ≠ .http)
    (client up : Arrival) (timedOut : Bool) (evs : List SpliceEvent) :
    let t := connWorkerTunnel e (up.wire (waitFailure timedOut))
    let s := Runs.runFrom spliceStep
      (spliceBehind (connSockets (client.wire (waitFailure timedOut)) t.2) (connShut client up)) evs
    t.1.stage = .splicing →
      (∃ n, chainReplyLength e.dst e.chain up.bytes = some n ∧ up.bytes.drop n <+: s.said .up) ∧
      t.2.sent = (chainMessages e.dst e.chain up.bytes).flatten ∧
      client.bytes <+: s.said .client ∧
      (∀ p : Peer, (s.wire p.other).sent <+: s.said p) ∧
      (∀ p sel, s.going = true → s.ReadsEnd p sel →
        (spliceStep s (.round sel)).going = false ∧
          ((spliceStep s (.round sel)).wire p.other).sent = s.said p) := by
  intro t s hstage
  have he : e.chain ≠ [] := by
    intro hnil
    have hclosed : t.1.stage = .closed := by
      show (connWorkerTunnel e _).1.stage = .closed
      rw [connWorkerTunnel, hnil, List.length_nil]
      simp only [connWorkerStep, hnil]
      rfl
    rw [hclosed] at hstage
    cases hstage
  obtain ⟨hup, hsplices⟩ := connWorkerTunnel_eq he (up.wire (waitFailure timedOut))
  have hkeeps := relayHops_keeps e.dst e.chain hchain
  have hending : (up.wire (waitFailure timedOut)).ending ≠ .ok := by
    cases timedOut <;> exact fun h => by cases h
  have hok := hsplices.1 hstage
  obtain ⟨n, hn, -, hstream⟩ := hkeeps.ok _ hending hok
  have hwhole := hkeeps.whole _ hending hok
  rw [chainConversation_answers, up.stream_wire] at hn
  rw [up.stream_wire] at hstream
  rw [chainConversation_sends, up.stream_wire] at hwhole
  have htidy : t.2.Tidy up.shut := by
    rw [hup]
    exact hkeeps.tidy _ up.shut hending (up.wire_tidy _)
  have hstart : (spliceBehind (connSockets (client.wire (waitFailure timedOut)) t.2)
      (connShut client up)).Inv := by
    apply spliceBehind_inv
    · intro p
      cases p with
      | client => rfl
      | up =>
        show t.2.takes = none
        rw [hup]
        exact hkeeps.takes _ hending rfl
    · intro p
      cases p with
      | client => exact client.wire_tidy _
      | up => exact htidy
  have hinv := Runs.runFrom_inv Splice.Inv (fun _ e h => h.step e) evs _ hstart
  have hsaid : ∀ p, (connSockets (client.wire (waitFailure timedOut)) t.2 p).arriving.flatten
      <+: s.said p := by
    intro p
    apply Runs.runFrom_inv (fun s' : Splice =>
      (connSockets (client.wire (waitFailure timedOut)) t.2 p).arriving.flatten <+: s'.said p)
    · exact fun s' e h => h.trans (spliceStep_said s' e p)
    · exact List.prefix_rfl
  refine ⟨⟨n, hn, ?_⟩, ?_, ?_, fun p => ⟨_, (hinv.conserved p).symm⟩,
    fun p sel hgoing hend => hinv.readsEnd hgoing hend⟩
  · rw [← hstream, ← hup, htidy.stream_eq]
    exact hsaid .up
  · rw [hup, hwhole]
    rfl
  · rw [← client.stream_wire (waitFailure timedOut), (client.wire_tidy _).stream_eq]
    exact hsaid .client

def twoHopsEntry : RelayEntry :=
  ⟨50000, strlcpy pmxMaxHost (bytes "1.2.3.4"), 80, twoHops, 0, 0⟩

/-- A client that has spoken before its chain is established. -/
def earlyClient : Arrival := ⟨[[71, 69], [84]], false, by decide⟩

def twoHopsArrival : Arrival := ⟨twoHopsAnswer, false, by decide⟩

theorem relayConn_transparent_two :
    let t := connWorkerTunnel twoHopsEntry (twoHopsArrival.wire .errTimeout)
    let s := Runs.runFrom spliceStep
      (spliceBehind (connSockets (earlyClient.wire .errTimeout) t.2) (connShut earlyClient twoHopsArrival))
      [.round (.ready true true), .shutdown .client]
    [72, 73] <+: s.said .up ∧ (s.wire .client).sent <+: s.said .up := by
  have hstage : (connWorkerTunnel twoHopsEntry (twoHopsArrival.wire (waitFailure true))).1.stage
      = .splicing := by decide +kernel
  obtain ⟨⟨n, hn, htunnel⟩, -, -, hsent, -⟩ :=
    relayConn_transparent twoHopsEntry (by decide) earlyClient twoHopsArrival true
      [.round (.ready true true), .shutdown .client] hstage
  have hlength : chainReplyLength twoHopsEntry.dst twoHopsEntry.chain twoHopsArrival.bytes = some 20 := by
    decide +kernel
  obtain rfl : 20 = n := Option.some.inj (hlength.symm.trans hn)
  exact ⟨htunnel, hsent .up⟩

end ProxiMight
