import ProxiMight.Segments
import ProxiMight.Types

/-!
# Sending and receiving on a socket (`pmx_net.c`)

A connected socket is a `Wire`: the segments still to arrive, what a wait ends with once nothing more
arrives in time, and the bytes sent so far.  An empty segment is the peer closing its side.  A time
limit that strikes while bytes are still under way is a `Wire` on which they do not arrive.
-/

namespace ProxiMight

/-- A connected socket, seen from this end. -/
structure Wire where
  arriving : List (List UInt8)
  ending : PmxStatus
  /-- How many more bytes the socket takes before a send fails; `none` if no send fails. -/
  takes : Option ℕ
  sent : List UInt8

/-- A new socket on which nothing has been sent. -/
def wireOpen (arriving : List (List UInt8)) (ending : PmxStatus) (takes : Option ℕ) : Wire :=
  ⟨arriving, ending, takes, []⟩

def pmxSendAll (w : Wire) (msg : List UInt8) : PmxStatus × Wire :=
  match w.takes with
  | none => (.ok, { w with sent := w.sent ++ msg })
  | some room =>
    if msg.length ≤ room then
      (.ok, { w with takes := some (room - msg.length), sent := w.sent ++ msg })
    else (.errNet, { w with takes := some 0, sent := w.sent ++ msg.take room })

def pmxRecvSome (w : Wire) (cap : ℕ) : Except PmxStatus (List UInt8) × Wire :=
  match w.arriving with
  | [] => (.error w.ending, w)
  | seg :: rest =>
    if seg = [] ∨ cap = 0 then (.error .errNet, w)
    else
      let r := Segments.receive cap (seg :: rest)
      (.ok r.1, { w with arriving := r.2 })

/-- The loop of `pmx_recv_exact`: what is in the buffer, and the segments left. -/
def recvExactLoop (ending : PmxStatus) (len : ℕ) (got : List UInt8) :
    List (List UInt8) → Except PmxStatus (List UInt8) × List (List UInt8)
  | [] => if got.length < len then (.error ending, []) else (.ok got, [])
  | seg :: rest =>
    if got.length < len then
      if seg = [] then (.error .errNet, seg :: rest)
      else if seg.length ≤ len - got.length then recvExactLoop ending len (got ++ seg) rest
      else (.ok (got ++ seg.take (len - got.length)), seg.drop (len - got.length) :: rest)
    else (.ok got, seg :: rest)

def pmxRecvExact (w : Wire) (len : ℕ) : Except PmxStatus (List UInt8) × Wire :=
  let r := recvExactLoop w.ending len [] w.arriving
  (r.1, { w with arriving := r.2 })

/-! ### Early returns -/

/-- `st = pmx_send_all(...); if (st != PMX_OK) return st;` -/
def sending (msg : List UInt8) (w : Wire) (k : Wire → PmxStatus × Wire) : PmxStatus × Wire :=
  let r := pmxSendAll w msg
  if r.1 = .ok then k r.2 else r

/-- `st = pmx_recv_exact(...); if (st != PMX_OK) return st;` -/
def receiving (len : ℕ) (w : Wire) (k : List UInt8 → Wire → PmxStatus × Wire) : PmxStatus × Wire :=
  match pmxRecvExact w len with
  | (.error st, w) => (st, w)
  | (.ok got, w) => k got w

/-- `st = build(...); if (st != PMX_OK) return st;` -/
def building (msg : Except PmxStatus (List UInt8)) (w : Wire) (k : List UInt8 → PmxStatus × Wire) :
    PmxStatus × Wire :=
  match msg with
  | .error st => (st, w)
  | .ok msg => k msg

/-! ### Receiving -/

/-- What a receive that succeeds has done. -/
theorem pmxRecvSome_ok {w w' : Wire} {cap : ℕ} {got : List UInt8} (h : pmxRecvSome w cap = (.ok got, w')) :
    ∃ seg rest, w.arriving = seg :: rest ∧ seg ≠ [] ∧
      Segments.receive cap (seg :: rest) = (got, w'.arriving) := by
  rw [pmxRecvSome] at h
  cases harr : w.arriving with
  | nil =>
    rw [harr] at h
    cases h
  | cons seg rest =>
    rw [harr] at h
    dsimp only at h
    split_ifs at h with hbad
    · cases h
    · cases h
      exact ⟨seg, rest, rfl, fun hseg => hbad (Or.inl hseg), rfl⟩

/-- It takes the front of the stream. -/
theorem pmxRecvSome_flatten {w w' : Wire} {cap : ℕ} {got : List UInt8}
    (h : pmxRecvSome w cap = (.ok got, w')) : got ++ w'.arriving.flatten = w.arriving.flatten := by
  obtain ⟨seg, rest, harr, -, hrecv⟩ := pmxRecvSome_ok h
  have hflat := Segments.receive_flatten cap (seg :: rest)
  rw [hrecv] at hflat
  rw [harr]
  exact hflat

/-! ### Sending -/

theorem pmxSendAll_arriving (w : Wire) (msg : List UInt8) :
    (pmxSendAll w msg).2.arriving = w.arriving ∧ (pmxSendAll w msg).2.ending = w.ending := by
  rw [pmxSendAll]
  split
  · exact ⟨rfl, rfl⟩
  · split_ifs
    · exact ⟨rfl, rfl⟩
    · exact ⟨rfl, rfl⟩

theorem pmxSendAll_of_room {w : Wire} {msg : List UInt8} (h : ∀ room ∈ w.takes, msg.length ≤ room) :
    pmxSendAll w msg =
      (.ok, { w with takes := w.takes.map (· - msg.length), sent := w.sent ++ msg }) := by
  rw [pmxSendAll]
  cases htakes : w.takes with
  | none => simp
  | some room =>
    rw [htakes] at h
    simp [h room rfl]

theorem pmxSendAll_of_no_room {w : Wire} {msg : List UInt8} {room : ℕ} (htakes : w.takes = some room)
    (h : room < msg.length) :
    pmxSendAll w msg = (.errNet, { w with takes := some 0, sent := w.sent ++ msg.take room }) := by
  rw [pmxSendAll, htakes]
  simp [Nat.not_le.2 h]

end ProxiMight
