import ProxiMight.CredentialSecrecy

/-!
# The SOCKS5 handshake on its stream (`socks5_handshake`)

What a client sends and reads is a function of the stream it is answered with, whatever the segments: a
`Conversation`.  There is one rule for each call of the handshake, and its conversation is put together
from them in the order of the code.

* **`pmxRecvExact_stream`** — an exact receive takes the front of the stream, or fails.
* **`socks5Handshake_follows`** — the handshake follows its conversation.
* **`socks5_consumes_exactly`** — what is sent, when it succeeds, and where the socket then stands.
-/

namespace ProxiMight

open CString

/-! ### Streams -/

/-- The bytes that can still be received. -/
def Wire.stream (w : Wire) : List UInt8 := Segments.untilClosed w.arriving

/-- Where enough bytes come, the loop fills the buffer from the front of the stream. -/
theorem recvExactLoop_enough (ending : PmxStatus) (len : ℕ) :
    ∀ (segs : List (List UInt8)) (got : List UInt8), got.length ≤ len →
      len ≤ got.length + (Segments.untilClosed segs).length →
      (recvExactLoop ending len got segs).1
          = .ok (got ++ (Segments.untilClosed segs).take (len - got.length)) ∧
        Segments.untilClosed (recvExactLoop ending len got segs).2
          = (Segments.untilClosed segs).drop (len - got.length) := by
  intro segs
  induction segs with
  | nil =>
    intro got hgot henough
    rw [Segments.untilClosed_nil, List.length_nil] at henough
    rw [recvExactLoop, if_neg (by omega)]
    exact ⟨by simp, by simp⟩
  | cons seg rest ih =>
    intro got hgot henough
    rw [recvExactLoop]
    by_cases hlt : got.length < len
    · by_cases hempty : seg = []
      · subst hempty
        rw [Segments.untilClosed_closed, List.length_nil] at henough
        omega
      · rw [Segments.untilClosed_cons hempty, List.length_append] at henough
        rw [if_pos hlt, if_neg hempty, Segments.untilClosed_cons hempty]
        by_cases hfit : seg.length ≤ len - got.length
        · obtain ⟨hok, hrest⟩ :=
            ih (got ++ seg) (by rw [List.length_append]; omega) (by rw [List.length_append]; omega)
          have hsub : len - (got ++ seg).length = len - got.length - seg.length := by
            rw [List.length_append]
            omega
          rw [if_pos hfit, hok, hrest, hsub, List.take_append, List.drop_append,
            List.take_of_length_le hfit, List.drop_eq_nil_of_le hfit, List.append_assoc, List.nil_append]
          exact ⟨rfl, rfl⟩
        · have hle : len - got.length ≤ seg.length := by omega
          have hdrop : seg.drop (len - got.length) ≠ [] := by
            rw [ne_eq, List.drop_eq_nil_iff]
            exact hfit
          rw [if_neg hfit, List.take_append_of_le_length hle, List.drop_append_of_le_length hle]
          exact ⟨rfl, Segments.untilClosed_cons hdrop rest⟩
    · have heq : len - got.length = 0 := by omega
      rw [if_neg hlt, heq, List.take_zero, List.append_nil]
      exact ⟨rfl, rfl⟩

/-- Where they do not, it fails with the status of the wait or of the close. -/
theorem recvExactLoop_short (ending : PmxStatus) (len : ℕ) :
    ∀ (segs : List (List UInt8)) (got : List UInt8),
      got.length + (Segments.untilClosed segs).length < len →
      (recvExactLoop ending len got segs).1 = .error ending ∨
        (recvExactLoop ending len got segs).1 = .error .errNet := by
  intro segs
  induction segs with
  | nil =>
    intro got hshort
    rw [Segments.untilClosed_nil, List.length_nil] at hshort
    rw [recvExactLoop, if_pos (by omega)]
    exact Or.inl rfl
  | cons seg rest ih =>
    intro got hshort
    rw [recvExactLoop, if_pos (by omega)]
    by_cases hempty : seg = []
    · rw [if_pos hempty]
      exact Or.inr rfl
    · rw [Segments.untilClosed_cons hempty, List.length_append] at hshort
      rw [if_neg hempty, if_pos (by omega)]
      exact ih (got ++ seg) (by rw [List.length_append]; omega)

/-- **An exact receive** takes the front of the stream where that is long enough. -/
theorem pmxRecvExact_enough {w : Wire} {len : ℕ} (h : len ≤ w.stream.length) :
    ∃ w', pmxRecvExact w len = (.ok (w.stream.take len), w') ∧ w'.stream = w.stream.drop len ∧
      w'.sent = w.sent ∧ w'.takes = w.takes ∧ w'.ending = w.ending := by
  obtain ⟨hok, hrest⟩ := recvExactLoop_enough w.ending len w.arriving [] (Nat.zero_le len)
    (by rw [List.length_nil, Nat.zero_add]; exact h)
  refine ⟨(pmxRecvExact w len).2, ?_, hrest, rfl, rfl, rfl⟩
  rw [Prod.ext_iff]
  exact ⟨hok, rfl⟩

theorem pmxRecvExact_short {w : Wire} {len : ℕ} (hending : w.ending ≠ .ok)
    (h : w.stream.length < len) :
    ∃ st w', pmxRecvExact w len = (.error st, w') ∧ st ≠ .ok ∧ w'.sent = w.sent := by
  have hshort := recvExactLoop_short w.ending len w.arriving []
    (by rw [List.length_nil, Nat.zero_add]; exact h)
  rcases hshort with herr | herr
  · exact ⟨w.ending, (pmxRecvExact w len).2, by rw [Prod.ext_iff]; exact ⟨herr, rfl⟩, hending, rfl⟩
  · exact ⟨.errNet, (pmxRecvExact w len).2, by rw [Prod.ext_iff]; exact ⟨herr, rfl⟩, by decide, rfl⟩

theorem pmxSendAll_cases (w : Wire) (msg : List UInt8) :
    (∃ w', pmxSendAll w msg = (.ok, w') ∧ w'.stream = w.stream ∧ w'.ending = w.ending ∧
      w'.sent = w.sent ++ msg ∧ (w.takes = none → w'.takes = none)) ∨
    (∃ part w', part <+: msg ∧ pmxSendAll w msg = (.errNet, w') ∧ w'.sent = w.sent ++ part ∧
      w.takes ≠ none) := by
  by_cases hroom : ∀ room ∈ w.takes, msg.length ≤ room
  · refine Or.inl ⟨_, pmxSendAll_of_room hroom, rfl, rfl, rfl, fun hnone => ?_⟩
    rw [hnone]
    rfl
  · simp only [not_forall, not_le] at hroom
    obtain ⟨room, htakes, hlt⟩ := hroom
    refine Or.inr ⟨msg.take room, _, List.take_prefix _ _, pmxSendAll_of_no_room htakes hlt, rfl, ?_⟩
    rw [htakes]
    exact Option.some_ne_none room

/-! ### Conversations -/

/-- What a client sends when it is answered with a stream, and how many bytes of it are the answers it
accepts, where it accepts them all. -/
structure Conversation where
  sends : List UInt8 → List UInt8
  answers : List UInt8 → Option ℕ

namespace Conversation

/-- Nothing more is said. -/
def done : Conversation := ⟨fun _ => [], fun _ => some 0⟩

def fail : Conversation := ⟨fun _ => [], fun _ => none⟩

def send (msg : List UInt8) (c : Conversation) : Conversation := ⟨fun s => msg ++ c.sends s, c.answers⟩

/-- What follows depends on the next `len` bytes. -/
def receive (len : ℕ) (c : List UInt8 → Conversation) : Conversation where
  sends s := if len ≤ s.length then (c (s.take len)).sends (s.drop len) else []
  answers s :=
    if len ≤ s.length then ((c (s.take len)).answers (s.drop len)).map (len + ·) else none

/-- A message that cannot be built ends the conversation. -/
def build (msg : Except PmxStatus (List UInt8)) (c : List UInt8 → Conversation) : Conversation :=
  match msg with
  | .error _ => fail
  | .ok msg => c msg

end Conversation

/-- A client that keeps to a conversation: it sends a front of what is to be sent, all of it where no send
fails, and succeeds only where all answers are accepted, which it has then read, no more and no less. -/
structure Speaks (f : Wire → PmxStatus × Wire) (c : Conversation) : Prop where
  sent : ∀ w, w.ending ≠ .ok → ∃ part, part <+: c.sends w.stream ∧ (f w).2.sent = w.sent ++ part ∧
    (w.takes = none → part = c.sends w.stream)
  ok : ∀ w, w.ending ≠ .ok → (f w).1 = .ok → ∃ n, c.answers w.stream = some n ∧ n ≤ w.stream.length ∧
    (f w).2.stream = w.stream.drop n
  ok_of : ∀ w, w.ending ≠ .ok → w.takes = none → (c.answers w.stream).isSome → (f w).1 = .ok

namespace Speaks

variable {c : Conversation} {k : Wire → PmxStatus × Wire}

theorem done : Speaks (fun w => (.ok, w)) .done where
  sent _ _ := ⟨[], List.nil_prefix, (List.append_nil _).symm, fun _ => rfl⟩
  ok _ _ _ := ⟨0, rfl, Nat.zero_le _, rfl⟩
  ok_of _ _ _ _ := rfl

theorem fail {st : PmxStatus} (hst : st ≠ .ok) : Speaks (fun w => (st, w)) .fail where
  sent _ _ := ⟨[], List.nil_prefix, (List.append_nil _).symm, fun _ => rfl⟩
  ok _ _ h := absurd h hst
  ok_of _ _ _ h := by cases h

theorem sending (h : Speaks k c) (msg : List UInt8) :
    Speaks (fun w => ProxiMight.sending msg w k) (.send msg c) where
  sent w hending := by
    rcases pmxSendAll_cases w msg with ⟨w', hsend, hstream, hend, hsent, htakes⟩ |
      ⟨part, w', hpart, hsend, hsent, htakes⟩
    · obtain ⟨part, hpart, hk, hall⟩ := h.sent w' (hend ▸ hending)
      rw [hstream] at hpart hall
      refine ⟨msg ++ part, (List.prefix_append_right_inj msg).2 hpart, ?_, ?_⟩
      · rw [ProxiMight.sending, hsend, if_pos rfl, hk, hsent, List.append_assoc]
      · exact fun hnone => congrArg (msg ++ ·) (hall (htakes hnone))
    · refine ⟨part, hpart.trans (List.prefix_append _ _), ?_, fun hnone => absurd hnone htakes⟩
      rw [ProxiMight.sending, hsend, if_neg (fun hst => by cases hst)]
      exact hsent
  ok w hending hok := by
    rcases pmxSendAll_cases w msg with ⟨w', hsend, hstream, hend, -, -⟩ | ⟨_, w', -, hsend, -, -⟩
    · rw [ProxiMight.sending, hsend, if_pos rfl] at hok ⊢
      rw [← hstream]
      exact h.ok w' (hend ▸ hending) hok
    · rw [ProxiMight.sending, hsend, if_neg (fun hst => by cases hst)] at hok
      cases hok
  ok_of w hending hnone hanswers := by
    rcases pmxSendAll_cases w msg with ⟨w', hsend, hstream, hend, -, htakes⟩ | ⟨_, _, -, -, -, htakes⟩
    · rw [ProxiMight.sending, hsend, if_pos rfl]
      exact h.ok_of w' (hend ▸ hending) (htakes hnone) (by rw [hstream]; exact hanswers)
    · exact absurd hnone htakes

theorem receiving {len : ℕ} {k : List UInt8 → Wire → PmxStatus × Wire} {c : List UInt8 → Conversation}
    (h : ∀ got, got.length = len → Speaks (k got) (c got)) :
    Speaks (fun w => ProxiMight.receiving len w k) (.receive len c) where
  sent w hending := by
    by_cases hlen : len ≤ w.stream.length
    · obtain ⟨w', hrecv, hstream, hsent, htakes, hend⟩ := pmxRecvExact_enough hlen
      obtain ⟨part, hpart, hk, hall⟩ :=
        (h _ (List.length_take_of_le hlen)).sent w' (hend ▸ hending)
      rw [hstream] at hpart hall
      rw [Conversation.receive, ProxiMight.receiving, hrecv]
      simp only [if_pos hlen]
      exact ⟨part, hpart, by rw [hk, hsent], fun hnone => hall (htakes.trans hnone)⟩
    · obtain ⟨st, w', hrecv, -, hsent⟩ := pmxRecvExact_short hending (Nat.not_le.1 hlen)
      rw [Conversation.receive, ProxiMight.receiving, hrecv]
      simp only [if_neg hlen]
      exact ⟨[], List.nil_prefix, by rw [hsent, List.append_nil], fun _ => rfl⟩
  ok w hending hok := by
    by_cases hlen : len ≤ w.stream.length
    · obtain ⟨w', hrecv, hstream, -, -, hend⟩ := pmxRecvExact_enough hlen
      rw [ProxiMight.receiving, hrecv] at hok ⊢
      obtain ⟨n, hn, hle, hrest⟩ :=
        (h _ (List.length_take_of_le hlen)).ok w' (hend ▸ hending) hok
      rw [hstream] at hn hle hrest
      rw [List.length_drop] at hle
      refine ⟨len + n, ?_, by omega, by rw [hrest, List.drop_drop]⟩
      rw [Conversation.receive]
      simp only [if_pos hlen, hn, Option.map_some]
    · obtain ⟨st, w', hrecv, hst, -⟩ := pmxRecvExact_short hending (Nat.not_le.1 hlen)
      rw [ProxiMight.receiving, hrecv] at hok
      exact absurd hok hst
  ok_of w hending hnone hanswers := by
    rw [Conversation.receive] at hanswers
    by_cases hlen : len ≤ w.stream.length
    · obtain ⟨w', hrecv, hstream, -, htakes, hend⟩ := pmxRecvExact_enough hlen
      simp only [if_pos hlen, Option.isSome_map] at hanswers
      rw [ProxiMight.receiving, hrecv]
      exact (h _ (List.length_take_of_le hlen)).ok_of w' (hend ▸ hending) (htakes.trans hnone)
        (by rw [hstream]; exact hanswers)
    · simp only [if_neg hlen] at hanswers
      cases hanswers

theorem building {msg : Except PmxStatus (List UInt8)} {k : List UInt8 → Wire → PmxStatus × Wire}
    {c : List UInt8 → Conversation} (hmsg : msg ≠ .error .ok) (h : ∀ m, Speaks (k m) (c m)) :
    Speaks (fun w => ProxiMight.building msg w fun m => k m w) (.build msg c) := by
  cases msg with
  | error st => exact fail fun hst => hmsg (hst ▸ rfl)
  | ok m => exact h m

end Speaks

/-! ### The handshake -/

/-- The bound address and port of a reply with this address type. -/
def boundConversation (atyp : UInt8) : Conversation :=
  if atyp = 1 then .receive (4 + 2) fun _ => .done
  else if atyp = 4 then .receive (16 + 2) fun _ => .done
  else if atyp = 3 then .receive 1 fun l => .receive ((l.headD 0).toNat + 2) fun _ => .done
  else .fail

/-- The rest of the reply with this head. -/
def replyConversation (head : List UInt8) : Conversation :=
  if pmxSocks5ParseConnectReply head ≠ .ok then .fail else boundConversation (head.getD 3 0)

def connectConversation (host : CStr) (port : PmxPort) : Conversation :=
  .build (pmxSocks5BuildConnect 512 host port) fun request =>
  .send request (.receive 4 replyConversation)

def answerConversation (host : CStr) (port : PmxPort) (answer : List UInt8) : Conversation :=
  if answer.getD 1 0 ≠ 0 then .fail else connectConversation host port

def methodConversation (p : PmxProxy) (host : CStr) (port : PmxPort) (reply : List UInt8) :
    Conversation :=
  if (pmxSocks5ParseMethod reply).1 ≠ .ok then .fail
  else if (pmxSocks5ParseMethod reply).2 = 2 then
    .build (pmxSocks5BuildUserpass 512 p.username.str p.password.str) fun msg =>
    .send msg (.receive 2 (answerConversation host port))
  else if (pmxSocks5ParseMethod reply).2 ≠ 0 then .fail
  else connectConversation host port

def socks5Conversation (p : PmxProxy) (host : CStr) (port : PmxPort) : Conversation :=
  .build (pmxSocks5BuildGreeting 512 p.useAuth) fun greeting =>
  .send greeting (.receive 2 (methodConversation p host port))

theorem buildConnect_ne_ok (cap : ℕ) (host : CStr) (port : PmxPort) :
    pmxSocks5BuildConnect cap host port ≠ .error .ok := by
  rw [pmxSocks5BuildConnect]
  split
  · split_ifs <;> exact fun h => by cases h
  · split_ifs <;> exact fun h => by cases h

theorem buildGreeting_eq (withAuth : Bool) :
    pmxSocks5BuildGreeting 512 withAuth = .ok (if withAuth then [5, 2, 0, 2] else [5, 1, 0]) := by
  cases withAuth <;> rfl

theorem follows_ite {b : Prop} [Decidable b] {f g : Wire → PmxStatus × Wire} {c d : Conversation}
    (hf : b → Speaks f c) (hg : ¬b → Speaks g d) :
    Speaks (fun w => if b then f w else g w) (if b then c else d) := by
  by_cases h : b
  · simp only [if_pos h]
    exact hf h
  · simp only [if_neg h]
    exact hg h

theorem socks5Connect_follows (host : CStr) (port : PmxPort) :
    Speaks (socks5Connect host port) (connectConversation host port) := by
  apply Speaks.building (buildConnect_ne_ok 512 host port)
  intro request
  apply Speaks.sending
  apply Speaks.receiving
  intro head _
  apply follows_ite
  · exact fun hst => Speaks.fail hst
  · intro _
    generalize head.getD 3 0 = atyp
    split
    · exact Speaks.receiving fun _ _ => Speaks.done
    · exact Speaks.receiving fun _ _ => Speaks.done
    · exact Speaks.receiving fun l _ => Speaks.receiving fun _ _ => Speaks.done
    · rename_i h1 h4 h3
      rw [boundConversation, if_neg h1, if_neg h4, if_neg h3]
      exact Speaks.fail (by decide)

/-- **The handshake keeps to its conversation.** -/
theorem socks5Handshake_follows (p : PmxProxy) (host : CStr) (port : PmxPort) :
    Speaks (socks5Handshake p host port) (socks5Conversation p host port) := by
  apply Speaks.building
  · rw [buildGreeting_eq]
    exact fun h => by cases h
  intro greeting
  apply Speaks.sending
  apply Speaks.receiving
  intro reply _
  apply follows_ite
  · exact fun hst => Speaks.fail hst
  intro _
  apply follows_ite
  · intro _
    apply Speaks.building
    · rw [buildUserpass_ok]
      exact fun h => by cases h
    intro msg
    apply Speaks.sending
    apply Speaks.receiving
    intro answer _
    apply follows_ite
    · exact fun _ => Speaks.fail (by decide)
    · exact fun _ => socks5Connect_follows host port
  intro _
  apply follows_ite
  · exact fun _ => Speaks.fail (by decide)
  · exact fun _ => socks5Connect_follows host port

/-! ### What is sent and what is read -/

/-- The bytes of the bound address: four, sixteen, or a length byte and that many. -/
def boundLength (atyp : UInt8) (rest : List UInt8) : Option ℕ :=
  if atyp = 1 then some 4
  else if atyp = 4 then some 16
  else if atyp = 3 then rest.head?.map fun l => 1 + l.toNat
  else none

/-- The bytes of a successful reply to the CONNECT request, where it is all there. -/
def connectReplyLength : List UInt8 → Option ℕ
  | _ :: rep :: _ :: atyp :: rest =>
    if rep = 0 then
      (boundLength atyp rest).bind fun bound =>
        if bound + 2 ≤ rest.length then some (4 + bound + 2) else none
    else none
  | _ => none

/-- The bytes of the replies of a server that answers every message with success. -/
def successLength (s : List UInt8) : Option ℕ :=
  if [5, 2] <+: s then
    if s[3]? = some 0 then (connectReplyLength (s.drop 4)).map (2 + 2 + ·) else none
  else if [5, 0] <+: s then (connectReplyLength (s.drop 2)).map (2 + ·)
  else none

def greeting (p : PmxProxy) : List UInt8 := if p.useAuth then [5, 2, 0, 2] else [5, 1, 0]

/-- The user and password message. -/
def userpass (p : PmxProxy) : List UInt8 :=
  [1, UInt8.ofNat p.username.str.length] ++ (p.username.str ++ [UInt8.ofNat p.password.str.length] ++
    p.password.str)

/-- The CONNECT request, for a host that fits one. -/
def connectMessage (host : CStr) (port : PmxPort) : List (List UInt8) :=
  match pmxSocks5BuildConnect 512 host port with
  | .error _ => []
  | .ok request => [request]

/-- The messages to a server that answers with `s`: each after the answer to the one before it. -/
def socks5Messages (p : PmxProxy) (host : CStr) (port : PmxPort) (s : List UInt8) : List (List UInt8) :=
  greeting p ::
    if [5, 2] <+: s then userpass p :: if s[3]? = some 0 then connectMessage host port else []
    else if [5, 0] <+: s then connectMessage host port
    else []

theorem parseConnectReply_ok_iff (a b c d : UInt8) :
    pmxSocks5ParseConnectReply [a, b, c, d] = .ok ↔ b = 0 := by
  rw [pmxSocks5ParseConnectReply]
  split_ifs with h0 h2 h3 h5
  · exact iff_of_true rfl h0
  all_goals exact iff_of_false (fun h => by cases h) h0

/-- The last bytes of a reply. -/
theorem receive_done (n : ℕ) (s : List UInt8) :
    (Conversation.receive n fun _ => .done).sends s = [] ∧
      (Conversation.receive n fun _ => .done).answers s = if n ≤ s.length then some n else none :=
  ⟨ite_self _, rfl⟩

theorem boundConversation_sends (atyp : UInt8) (s : List UInt8) : (boundConversation atyp).sends s = [] := by
  rw [boundConversation]
  split_ifs
  · exact (receive_done _ s).1
  · exact (receive_done _ s).1
  · show (if 1 ≤ s.length then
      (Conversation.receive (((s.take 1).headD 0).toNat + 2) fun _ => .done).sends (s.drop 1) else []) = []
    rw [(receive_done _ _).1, ite_self]
  · rfl

theorem boundConversation_answers (atyp : UInt8) (s : List UInt8) :
    (boundConversation atyp).answers s =
      (boundLength atyp s).bind fun bound => if bound + 2 ≤ s.length then some (bound + 2) else none := by
  rw [boundConversation, boundLength]
  split_ifs
  · exact (receive_done _ s).2
  · exact (receive_done _ s).2
  · cases s with
    | nil => rfl
    | cons l t =>
      show (if 1 ≤ (l :: t).length then
        ((Conversation.receive (l.toNat + 2) fun _ => .done).answers t).map (1 + ·) else none) =
          if 1 + l.toNat + 2 ≤ (l :: t).length then some (1 + l.toNat + 2) else none
      rw [(receive_done _ t).2, if_pos (by simp), List.length_cons]
      by_cases h : l.toNat + 2 ≤ t.length
      · rw [if_pos h, if_pos (by omega), Option.map_some, ← Nat.add_assoc]
      · rw [if_neg h, if_neg (by omega), Option.map_none]
  · rfl

theorem connectConversation_sends (host : CStr) (port : PmxPort) (s : List UInt8) :
    (connectConversation host port).sends s = (connectMessage host port).flatten := by
  rw [connectConversation, connectMessage]
  cases pmxSocks5BuildConnect 512 host port with
  | error st => rfl
  | ok request =>
    have hrest : (Conversation.receive 4 replyConversation).sends s = [] := by
      show (if 4 ≤ s.length then (replyConversation (s.take 4)).sends (s.drop 4) else []) = []
      rw [replyConversation]
      split_ifs
      · rfl
      · exact boundConversation_sends _ _
      · rfl
    show request ++ (Conversation.receive 4 replyConversation).sends s = request ++ []
    rw [hrest]

theorem receive_reply_answers (s : List UInt8) :
    (Conversation.receive 4 replyConversation).answers s = connectReplyLength s := by
  show (if 4 ≤ s.length then ((replyConversation (s.take 4)).answers (s.drop 4)).map (4 + ·) else none) = _
  obtain _ | ⟨a, _ | ⟨b, _ | ⟨c, _ | ⟨d, t⟩⟩⟩⟩ := s
  · rfl
  · rfl
  · rfl
  · rfl
  · rw [if_pos (by simp), connectReplyLength]
    show ((replyConversation [a, b, c, d]).answers t).map (4 + ·) = _
    rw [replyConversation]
    by_cases hrep : b = 0
    · rw [if_neg (not_not.2 ((parseConnectReply_ok_iff a b c d).2 hrep)), if_pos hrep]
      show ((boundConversation d).answers t).map (4 + ·) = _
      rw [boundConversation_answers]
      cases boundLength d t with
      | none => rfl
      | some bound =>
        rw [Option.bind_some, Option.bind_some, apply_ite (Option.map (4 + ·)), Option.map_some,
          Option.map_none, ← Nat.add_assoc]
    · rw [if_pos (fun hok => hrep ((parseConnectReply_ok_iff a b c d).1 hok)), if_neg hrep]
      rfl

theorem connectConversation_answers (host : CStr) (port : PmxPort) (s : List UInt8) :
    (connectConversation host port).answers s =
      if connectMessage host port = [] then none else connectReplyLength s := by
  rw [connectConversation, connectMessage]
  cases pmxSocks5BuildConnect 512 host port with
  | error st => rfl
  | ok request =>
    rw [if_neg (List.cons_ne_nil _ _)]
    exact receive_reply_answers s

/-- What follows a method reply, by what it says. -/
theorem methodConversation_eq (p : PmxProxy) (host : CStr) (port : PmxPort) (a m : UInt8) :
    methodConversation p host port [a, m] =
      if a = 5 ∧ m = 2 then .send (userpass p) (.receive 2 (answerConversation host port))
      else if a = 5 ∧ m = 0 then connectConversation host port
      else .fail := by
  rw [methodConversation, buildUserpass_ok, pmxSocks5ParseMethod]
  by_cases ha : a = 5
  · by_cases hff : m = 0xFF
    · subst hff
      simp [ha]
    · by_cases h2 : m = 2
      · simp [ha, h2, Conversation.build, userpass]
      · by_cases h0 : m = 0
        · simp [ha, h0]
        · simp [ha, hff, h2, h0]
  · simp [ha]

theorem receive_answer (host : CStr) (port : PmxPort) (s : List UInt8) :
    (Conversation.receive 2 (answerConversation host port)).sends s
        = (if s[1]? = some 0 then connectMessage host port else []).flatten ∧
      (Conversation.receive 2 (answerConversation host port)).answers s
        = if s[1]? = some 0 then ((connectConversation host port).answers (s.drop 2)).map (2 + ·)
          else none := by
  obtain _ | ⟨v, _ | ⟨st, t⟩⟩ := s
  · exact ⟨rfl, rfl⟩
  · exact ⟨rfl, rfl⟩
  · show (if 2 ≤ (v :: st :: t).length then (answerConversation host port [v, st]).sends t else []) = _ ∧
      (if 2 ≤ (v :: st :: t).length then ((answerConversation host port [v, st]).answers t).map (2 + ·)
        else none) =
      if some st = some 0 then ((connectConversation host port).answers t).map (2 + ·) else none
    have hlen : 2 ≤ (v :: st :: t).length := by simp
    rw [if_pos hlen, if_pos hlen]
    by_cases hst : st = 0
    · subst hst
      exact ⟨connectConversation_sends host port t, rfl⟩
    · have hanswer : answerConversation host port [v, st] = .fail := if_pos hst
      rw [hanswer, if_neg (by simpa using hst), if_neg (by simpa using hst)]
      exact ⟨rfl, rfl⟩

theorem not_prefix_short {a b : UInt8} {s : List UInt8} (h : s.length < 2) : ¬[a, b] <+: s := by
  intro hpre
  have hle := hpre.length_le
  simp only [List.length_cons, List.length_nil] at hle
  omega

theorem prefix_pair_iff (a b c m : UInt8) (t : List UInt8) : [a, b] <+: c :: m :: t ↔ c = a ∧ m = b := by
  rw [List.cons_prefix_cons, List.cons_prefix_cons]
  simp [eq_comm]

theorem socks5Conversation_sends (p : PmxProxy) (host : CStr) (port : PmxPort) (s : List UInt8) :
    (socks5Conversation p host port).sends s = (socks5Messages p host port s).flatten := by
  rw [socks5Conversation, buildGreeting_eq, socks5Messages, List.flatten_cons]
  show greeting p ++ (Conversation.receive 2 (methodConversation p host port)).sends s = _
  congr 1
  obtain _ | ⟨a, _ | ⟨m, t⟩⟩ := s
  · rfl
  · rw [if_neg (not_prefix_short (by simp)), if_neg (not_prefix_short (by simp))]
    rfl
  · show (if 2 ≤ (a :: m :: t).length then (methodConversation p host port [a, m]).sends t else []) = _
    rw [if_pos (by simp), methodConversation_eq]
    simp only [prefix_pair_iff]
    split_ifs with h2 hauth h0
    · show userpass p ++ (Conversation.receive 2 (answerConversation host port)).sends t = _
      rw [(receive_answer host port t).1, if_pos (show t[1]? = some 0 from hauth), List.flatten_cons]
    · show userpass p ++ (Conversation.receive 2 (answerConversation host port)).sends t = _
      rw [(receive_answer host port t).1, if_neg (show ¬t[1]? = some 0 from hauth), List.flatten_cons]
    · exact connectConversation_sends host port t
    · rfl

theorem socks5Conversation_answers (p : PmxProxy) (host : CStr) (port : PmxPort) (s : List UInt8) :
    (socks5Conversation p host port).answers s =
      if connectMessage host port = [] then none else successLength s := by
  rw [socks5Conversation, buildGreeting_eq, successLength]
  show (Conversation.receive 2 (methodConversation p host port)).answers s = _
  obtain _ | ⟨a, _ | ⟨m, t⟩⟩ := s
  · rw [if_neg (not_prefix_short (by simp)), if_neg (not_prefix_short (by simp)), ite_self]
    rfl
  · rw [if_neg (not_prefix_short (by simp)), if_neg (not_prefix_short (by simp)), ite_self]
    rfl
  · show (if 2 ≤ (a :: m :: t).length then
      ((methodConversation p host port [a, m]).answers t).map (2 + ·) else none) = _
    rw [if_pos (by simp), methodConversation_eq]
    simp only [prefix_pair_iff]
    by_cases h2 : a = 5 ∧ m = 2
    · rw [if_pos h2, if_pos h2]
      show ((Conversation.receive 2 (answerConversation host port)).answers t).map (2 + ·) =
        if connectMessage host port = [] then none
        else if t[1]? = some 0 then (connectReplyLength (t.drop 2)).map (2 + 2 + ·) else none
      rw [(receive_answer host port t).2, connectConversation_answers]
      by_cases hauth : t[1]? = some 0
      · rw [if_pos hauth, if_pos hauth]
        split_ifs
        · rfl
        · rw [Option.map_map]
          congr 1
          funext n
          exact (Nat.add_assoc 2 2 n).symm
      · rw [if_neg hauth, if_neg hauth, ite_self]
        rfl
    · rw [if_neg h2, if_neg h2]
      by_cases h0 : a = 5 ∧ m = 0
      · rw [if_pos h0, if_pos h0, connectConversation_answers]
        split_ifs <;> rfl
      · rw [if_neg h0, if_neg h0, ite_self]
        rfl

/-! ### The buffers -/

/-- A receive into a buffer of `size` bytes; `overrun` stands for what one past its end would do. -/
def receivingInto (overrun : PmxStatus × Wire) (size len : ℕ) (w : Wire)
    (k : List UInt8 → Wire → PmxStatus × Wire) : PmxStatus × Wire :=
  if len ≤ size then receiving len w k else overrun

/-- The second half of `socks5_handshake` with its buffers: `head[4]`, `l`, and `drain[256 + 2]`. -/
def socks5ConnectInto (overrun : PmxStatus × Wire) (host : CStr) (port : PmxPort) (w : Wire) :
    PmxStatus × Wire :=
  building (pmxSocks5BuildConnect 512 host port) w fun request =>
  sending request w fun w =>
  receivingInto overrun 4 4 w fun head w =>
  if pmxSocks5ParseConnectReply head ≠ .ok then (pmxSocks5ParseConnectReply head, w)
  else if head.getD 3 0 = 1 then receivingInto overrun (256 + 2) (4 + 2) w fun _ w => (.ok, w)
  else if head.getD 3 0 = 4 then receivingInto overrun (256 + 2) (16 + 2) w fun _ w => (.ok, w)
  else if head.getD 3 0 = 3 then
    receivingInto overrun 1 1 w fun l w =>
    receivingInto overrun (256 + 2) ((l.headD 0).toNat + 2) w fun _ w => (.ok, w)
  else (.errProxyHandshake, w)

/-- `socks5_handshake` with its buffers: `reply[2]` and `ar[2]` before those of the second half. -/
def socks5HandshakeInto (overrun : PmxStatus × Wire) (p : PmxProxy) (host : CStr) (port : PmxPort)
    (w : Wire) : PmxStatus × Wire :=
  building (pmxSocks5BuildGreeting 512 p.useAuth) w fun greeting =>
  sending greeting w fun w =>
  receivingInto overrun 2 2 w fun reply w =>
  let r := pmxSocks5ParseMethod reply
  if r.1 ≠ .ok then (r.1, w)
  else if r.2 = 2 then
    building (pmxSocks5BuildUserpass 512 p.username.str p.password.str) w fun msg =>
    sending msg w fun w =>
    receivingInto overrun 2 2 w fun answer w =>
    if answer.getD 1 0 ≠ 0 then (.errProxyAuth, w) else socks5ConnectInto overrun host port w
  else if r.2 ≠ 0 then (.errProxyAuth, w)
  else socks5ConnectInto overrun host port w

theorem receivingInto_eq (overrun : PmxStatus × Wire) {size len : ℕ} (h : len ≤ size) (w : Wire)
    (k : List UInt8 → Wire → PmxStatus × Wire) :
    receivingInto overrun size len w k = receiving len w k :=
  if_pos h

theorem socks5ConnectInto_eq (overrun : PmxStatus × Wire) (host : CStr) (port : PmxPort) (w : Wire) :
    socks5ConnectInto overrun host port w = socks5Connect host port w := by
  have hdrain : ∀ l : List UInt8, (l.headD 0).toNat + 2 ≤ 256 + 2 := by
    intro l
    have hlt := (l.headD 0).toNat_lt
    omega
  simp only [socks5ConnectInto, socks5Connect, receivingInto_eq overrun (le_refl 4),
    receivingInto_eq overrun (le_refl 1), receivingInto_eq overrun (show 4 + 2 ≤ 256 + 2 by decide),
    receivingInto_eq overrun (show 16 + 2 ≤ 256 + 2 by decide), receivingInto_eq overrun (hdrain _)]
  congr 1
  funext request
  congr 1
  funext w
  congr 1
  funext head w
  -- the address types of the `switch`
  split_ifs with hreply h1 h4 h3
  · rfl
  · rw [h1]
    rfl
  · rw [h4]
    rfl
  · rw [h3]
    rfl
  · split
    · next heq => exact absurd heq h1
    · next heq => exact absurd heq h4
    · next heq => exact absurd heq h3
    · rfl

theorem socks5HandshakeInto_eq (overrun : PmxStatus × Wire) (p : PmxProxy) (host : CStr)
    (port : PmxPort) (w : Wire) :
    socks5HandshakeInto overrun p host port w = socks5Handshake p host port w := by
  have hconnect := socks5ConnectInto_eq overrun host port
  simp only [socks5HandshakeInto, receivingInto_eq overrun (le_refl 2), hconnect]
  rfl

/-! ### What the handshake consumes -/

/-- What a wait that fails ends with: the time is up, or an error. -/
def waitFailure (timedOut : Bool) : PmxStatus := if timedOut then .errTimeout else .errNet

/-- **The handshake takes exactly its own bytes.**  Whatever the server's bytes and the segments they come
in: the messages go out one after the other, the password's exactly after method 2 and each only after the
answer to the one before was accepted; success means that all answers are success replies and that exactly
they have been read; without a failing send such answers do succeed; and no receive goes past its buffer. -/
theorem socks5_consumes_exactly (p : PmxProxy) (host : CStr) (port : PmxPort)
    (segs : List (List UInt8)) (timedOut : Bool) (takes : Option ℕ) :
    let w := wireOpen segs (waitFailure timedOut) takes
    let r := socks5Handshake p host port w
    (r.2.sent <+: (socks5Messages p host port w.stream).flatten ∧
      (takes = none → r.2.sent = (socks5Messages p host port w.stream).flatten)) ∧
    (r.1 = .ok → ∃ n, successLength w.stream = some n ∧ n ≤ w.stream.length ∧
      r.2.stream = w.stream.drop n) ∧
    (takes = none → connectMessage host port ≠ [] → (successLength w.stream).isSome → r.1 = .ok) ∧
    (∀ overrun, socks5HandshakeInto overrun p host port w = r) := by
  have hfollows := socks5Handshake_follows p host port
  have hending : (wireOpen segs (waitFailure timedOut) takes).ending ≠ .ok := by
    cases timedOut <;> exact fun h => by cases h
  refine ⟨?_, ?_, ?_, fun overrun => socks5HandshakeInto_eq overrun p host port _⟩
  · obtain ⟨part, hpart, hsent, hall⟩ := hfollows.sent _ hending
    rw [socks5Conversation_sends] at hpart hall
    have hsent' : (socks5Handshake p host port (wireOpen segs (waitFailure timedOut) takes)).2.sent = part :=
      hsent
    exact ⟨hsent' ▸ hpart, fun hnone => hsent'.trans (hall hnone)⟩
  · intro hok
    obtain ⟨n, hn, hle, hrest⟩ := hfollows.ok _ hending hok
    rw [socks5Conversation_answers] at hn
    split_ifs at hn
    exact ⟨n, hn, hle, hrest⟩
  · intro hnone hmsg hsome
    apply hfollows.ok_of _ hending hnone
    rw [socks5Conversation_answers, if_neg hmsg]
    exact hsome

end ProxiMight
