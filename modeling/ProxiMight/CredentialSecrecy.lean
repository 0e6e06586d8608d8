import ProxiMight.ProxyHandshake

/-!
# Credentials when authentication is off

With `use_auth` off the SOCKS4 and HTTP clients look at neither the user name nor the password.  The
SOCKS5 client offers no password method, but takes the method the server names.

* **`transcript_secret_iff`** — what is sent depends on the credentials exactly when a SOCKS5 server asks
  for a password it was not offered.
-/

namespace ProxiMight

open CString

/-- What the handshake has sent when it ends, for a proxy with these credentials. -/
def transcript (p : PmxProxy) (user : CBuf pmxMaxUser) (pass : CBuf pmxMaxPass) (host : CStr)
    (port : PmxPort) (w : Wire) : List UInt8 :=
  (pmxProxyHandshake { p with username := user, password := pass } host port w).2.sent

/-- A SOCKS5 server answers the greeting with the password method, and the socket takes the first two
bytes of what follows the greeting. -/
def AsksForPassword (p : PmxProxy) (w : Wire) : Prop :=
  p.type = .socks5 ∧ (pmxRecvExact w 2).1 = .ok [5, 2] ∧ ∀ room ∈ w.takes, 5 ≤ room

/-! ### Sending and receiving -/

theorem pmxRecvExact_congr {w w' : Wire} (harr : w'.arriving = w.arriving) (hend : w'.ending = w.ending)
    (len : ℕ) : (pmxRecvExact w' len).1 = (pmxRecvExact w len).1 := by
  simp only [pmxRecvExact, harr, hend]

theorem pmxRecvExact_sent (w : Wire) (len : ℕ) :
    (pmxRecvExact w len).2.sent = w.sent ∧ (pmxRecvExact w len).2.takes = w.takes :=
  ⟨rfl, rfl⟩

theorem recvExactLoop_length {ending : PmxStatus} {len : ℕ} :
    ∀ (segs : List (List UInt8)) (got : List UInt8), got.length ≤ len →
      ∀ {got'}, (recvExactLoop ending len got segs).1 = .ok got' → got'.length = len := by
  intro segs
  induction segs with
  | nil =>
    intro got hle got' h
    rw [recvExactLoop] at h
    split_ifs at h with hlt
    obtain rfl := Except.ok.inj h
    omega
  | cons seg rest ih =>
    intro got hle got' h
    rw [recvExactLoop] at h
    split_ifs at h with hlt hempty hfit
    · exact ih (got ++ seg) (by rw [List.length_append]; omega) h
    · obtain rfl := Except.ok.inj h
      rw [List.length_append, List.length_take]
      omega
    · obtain rfl := Except.ok.inj h
      omega

theorem pmxRecvExact_length {w : Wire} {len : ℕ} {got : List UInt8}
    (h : (pmxRecvExact w len).1 = .ok got) : got.length = len :=
  recvExactLoop_length w.arriving [] (Nat.zero_le len) h

/-- Nothing that was sent is taken back. -/
theorem sent_prefix_pmxSendAll (w : Wire) (msg : List UInt8) : w.sent <+: (pmxSendAll w msg).2.sent := by
  rw [pmxSendAll]
  split
  · exact List.prefix_append _ _
  · split_ifs
    · exact List.prefix_append _ _
    · exact List.prefix_append _ _

section Prefix

variable {pre : List UInt8} {w : Wire}

theorem sending_prefix {msg : List UInt8} {k : Wire → PmxStatus × Wire}
    (h : pre <+: (pmxSendAll w msg).2.sent) (hk : ∀ w, pre <+: w.sent → pre <+: (k w).2.sent) :
    pre <+: (sending msg w k).2.sent := by
  rw [sending]
  split_ifs
  · exact hk _ h
  · exact h

theorem receiving_prefix {len : ℕ} {k : List UInt8 → Wire → PmxStatus × Wire}
    (h : pre <+: w.sent) (hk : ∀ got w, pre <+: w.sent → pre <+: (k got w).2.sent) :
    pre <+: (receiving len w k).2.sent := by
  rw [receiving]
  cases hr : pmxRecvExact w len with
  | mk result w' =>
    have hsent : w'.sent = w.sent := by rw [← (pmxRecvExact_sent w len).1, hr]
    cases result with
    | error st => exact hsent ▸ h
    | ok got => exact hk got w' (hsent ▸ h)

theorem building_prefix {msg : Except PmxStatus (List UInt8)} {k : List UInt8 → PmxStatus × Wire}
    (h : pre <+: w.sent) (hk : ∀ m, pre <+: (k m).2.sent) : pre <+: (building msg w k).2.sent := by
  cases msg with
  | error st => exact h
  | ok m => exact hk m

theorem socks5Connect_prefix (host : CStr) (port : PmxPort) (h : pre <+: w.sent) :
    pre <+: (socks5Connect host port w).2.sent := by
  rw [socks5Connect]
  refine building_prefix h fun request => ?_
  refine sending_prefix (h.trans (sent_prefix_pmxSendAll w request)) fun w h => ?_
  refine receiving_prefix h fun head w h => ?_
  split_ifs
  · exact h
  · split
    · exact receiving_prefix h fun _ _ h => h
    · exact receiving_prefix h fun _ _ h => h
    · exact receiving_prefix h fun l w h => receiving_prefix h fun _ _ h => h
    · exact h

end Prefix

/-! ### The SOCKS5 client without authentication -/

/-- The proxy with other credentials. -/
def withCredentials (p : PmxProxy) (user : CBuf pmxMaxUser) (pass : CBuf pmxMaxPass) : PmxProxy :=
  { p with username := user, password := pass }

/-- The server got the greeting and named the password method. -/
def PasswordNamed (w : Wire) : Prop :=
  (∀ room ∈ w.takes, 3 ≤ room) ∧ (pmxRecvExact w 2).1 = .ok [5, 2]

/-- The reply names a method other than the password, or no method at all. -/
theorem parseMethod_of_ne {reply : List UInt8} (hlen : reply.length = 2) (hne : reply ≠ [5, 2])
    (hok : (pmxSocks5ParseMethod reply).1 = .ok) : (pmxSocks5ParseMethod reply).2 ≠ 2 := by
  match reply, hlen with
  | [b0, b1], _ =>
    rw [pmxSocks5ParseMethod] at hok ⊢
    split_ifs at hok ⊢ with h0 hff
    · rintro rfl
      rw [not_not] at h0
      exact hne (by rw [h0])

/-- The client that offers no authentication, up to the server's choice. -/
theorem socks5Handshake_noAuth {p : PmxProxy} (hauth : p.useAuth = false) (host : CStr)
    (port : PmxPort) (w : Wire) :
    socks5Handshake p host port w =
      sending [5, 1, 0] w fun w => receiving 2 w (socks5AfterMethod p host port) := by
  rw [socks5Handshake, hauth]
  rfl

/-- What follows a reply that does not name the password method does not look at the credentials. -/
theorem socks5AfterMethod_unnamed (p : PmxProxy) (host : CStr) (port : PmxPort) {reply : List UInt8}
    (hlen : reply.length = 2) (hne : reply ≠ [5, 2]) (w : Wire) (user : CBuf pmxMaxUser)
    (pass : CBuf pmxMaxPass) :
    socks5AfterMethod (withCredentials p user pass) host port reply w
      = socks5AfterMethod p host port reply w := by
  simp only [socks5AfterMethod]
  by_cases hok : (pmxSocks5ParseMethod reply).1 = .ok
  · have hmethod := parseMethod_of_ne hlen hne hok
    simp only [hok, ne_eq, not_true_eq_false, if_false, if_neg hmethod]
  · rw [if_pos hok, if_pos hok]

/-- Unless the server names the password method, the credentials are not looked at. -/
theorem socks5Handshake_unnamed {p : PmxProxy} (hauth : p.useAuth = false) (host : CStr)
    (port : PmxPort) {w : Wire} (h : ¬PasswordNamed w) (user : CBuf pmxMaxUser)
    (pass : CBuf pmxMaxPass) :
    socks5Handshake (withCredentials p user pass) host port w = socks5Handshake p host port w := by
  rw [socks5Handshake_noAuth hauth, socks5Handshake_noAuth (p := withCredentials p user pass) hauth,
    sending, sending]
  by_cases hsend : (pmxSendAll w [5, 1, 0]).1 = .ok
  · have hroom : ∀ room ∈ w.takes, 3 ≤ room := by
      intro room htakes
      by_contra hlt
      rw [pmxSendAll_of_no_room htakes (by simpa using hlt)] at hsend
      cases hsend
    rw [if_pos hsend, if_pos hsend, receiving, receiving]
    have hframe := pmxSendAll_arriving w [5, 1, 0]
    have hrecv := pmxRecvExact_congr hframe.1 hframe.2 2
    cases hr : pmxRecvExact (pmxSendAll w [5, 1, 0]).2 2 with
    | mk result w' =>
      rw [hr] at hrecv
      cases result with
      | error st => rfl
      | ok reply =>
        refine socks5AfterMethod_unnamed p host port (pmxRecvExact_length hrecv.symm) ?_ w' user pass
        rintro rfl
        exact h ⟨hroom, hrecv.symm⟩
  · rw [if_neg hsend, if_neg hsend]

/-- Where it does, they are used. -/
theorem socks5Handshake_named {p : PmxProxy} (hauth : p.useAuth = false) (host : CStr) (port : PmxPort)
    {w : Wire} (h : PasswordNamed w) :
    ∃ w', w'.sent = w.sent ++ [5, 1, 0] ∧ w'.takes = w.takes.map (· - 3) ∧
      ∀ user pass, socks5Handshake (withCredentials p user pass) host port w =
        socks5Authenticate (withCredentials p user pass) w' (socks5Connect host port) := by
  have hroom : ∀ room ∈ w.takes, ([5, 1, 0] : List UInt8).length ≤ room := h.1
  have hsend := pmxSendAll_of_room hroom
  refine ⟨(pmxRecvExact (pmxSendAll w [5, 1, 0]).2 2).2, ?_, ?_, ?_⟩
  · rw [(pmxRecvExact_sent _ 2).1, hsend]
  · rw [(pmxRecvExact_sent _ 2).2, hsend]
    rfl
  · intro user pass
    have hframe := pmxSendAll_arriving w [5, 1, 0]
    have hrecv := pmxRecvExact_congr hframe.1 hframe.2 2
    rw [h.2] at hrecv
    rw [socks5Handshake_noAuth (p := withCredentials p user pass) hauth, sending,
      if_pos (by rw [hsend]), receiving]
    cases hr : pmxRecvExact (pmxSendAll w [5, 1, 0]).2 2 with
    | mk result w' =>
      rw [hr] at hrecv
      obtain rfl : result = .ok [5, 2] := hrecv
      rfl

/-! ### What the message shows -/

/-- The user and password message, which always fits its buffer. -/
theorem buildUserpass_ok (user : CBuf pmxMaxUser) (pass : CBuf pmxMaxPass) :
    pmxSocks5BuildUserpass 512 user.str pass.str =
      .ok ([1, UInt8.ofNat user.str.length] ++
        (user.str ++ [UInt8.ofNat pass.str.length] ++ pass.str)) := by
  have huser : user.str.length ≤ 127 := user.length_str_le
  have hpass : pass.str.length ≤ 255 := pass.length_str_le
  rw [pmxSocks5BuildUserpass, if_neg (by omega), if_neg (by omega)]
  simp

/-- A socket with room for one byte shows the version of the message, which is the same for all. -/
theorem socks5Authenticate_short {p : PmxProxy} {w : Wire} {room : ℕ} (htakes : w.takes = some room)
    (hroom : room ≤ 1) (k : Wire → PmxStatus × Wire) :
    (socks5Authenticate p w k).2.sent = w.sent ++ [1].take room := by
  rw [socks5Authenticate, buildUserpass_ok, building, sending,
    pmxSendAll_of_no_room htakes (by simp; omega)]
  obtain rfl | rfl : room = 0 ∨ room = 1 := by omega
  · rfl
  · rfl

/-- A socket with room for two bytes shows the length of the user name. -/
theorem socks5Authenticate_long {p : PmxProxy} {w : Wire} (hroom : ∀ room ∈ w.takes, 2 ≤ room)
    (host : CStr) (port : PmxPort) :
    w.sent ++ [1, UInt8.ofNat p.username.str.length] <+:
      (socks5Authenticate p w (socks5Connect host port)).2.sent := by
  have hshown : ∀ rest, w.sent ++ [1, UInt8.ofNat p.username.str.length] <+:
      (pmxSendAll w ([1, UInt8.ofNat p.username.str.length] ++ rest)).2.sent := by
    intro rest
    rw [pmxSendAll]
    cases htakes : w.takes with
    | none =>
      rw [← List.append_assoc]
      exact List.prefix_append _ _
    | some room =>
      obtain ⟨r, rfl⟩ : ∃ r, room = r + 2 := ⟨room - 2, by have := hroom room htakes; omega⟩
      dsimp only
      split_ifs
      · rw [← List.append_assoc]
        exact List.prefix_append _ _
      · rw [List.cons_append, List.cons_append, List.nil_append, List.take_succ_cons,
          List.take_succ_cons]
        exact (List.prefix_append_right_inj _).2 ⟨rest.take r, rfl⟩
  rw [socks5Authenticate, buildUserpass_ok, building]
  refine sending_prefix (hshown _) fun w h => receiving_prefix h fun answer w h => ?_
  split_ifs
  · exact h
  · exact socks5Connect_prefix host port h

/-- A server that asks gets the length of the user name. -/
theorem AsksForPassword.shown {p : PmxProxy} {w : Wire} (h : AsksForPassword p w)
    (hauth : p.useAuth = false) (host : CStr) (port : PmxPort) :
    ∃ sent, ∀ user pass,
      sent ++ [1, UInt8.ofNat user.str.length] <+: transcript p user pass host port w := by
  obtain ⟨htype, hrecv, hroom⟩ := h
  have hnamed : PasswordNamed w := ⟨fun room h => by have := hroom room h; omega, hrecv⟩
  obtain ⟨w', -, htakes, heq⟩ := socks5Handshake_named hauth host port hnamed
  have hroom' : ∀ room ∈ w'.takes, 2 ≤ room := by
    rw [htakes]
    intro room h
    obtain ⟨room₀, h₀, rfl⟩ := Option.map_eq_some_iff.1 h
    have := hroom room₀ h₀
    omega
  refine ⟨w'.sent, fun user pass => ?_⟩
  have hlong := socks5Authenticate_long (p := withCredentials p user pass) hroom' host port
  rw [← heq user pass] at hlong
  rw [transcript, pmxProxyHandshake, htype]
  exact hlong

/-- Any other SOCKS5 server sees the same bytes whatever the credentials are. -/
theorem transcript_socks5_same {p : PmxProxy} {w : Wire} (htype : p.type = .socks5)
    (hauth : p.useAuth = false) (hnot : ¬AsksForPassword p w) (host : CStr) (port : PmxPort)
    (user user' : CBuf pmxMaxUser) (pass pass' : CBuf pmxMaxPass) :
    transcript p user pass host port w = transcript p user' pass' host port w := by
  have hrun : ∀ user pass, transcript p user pass host port w
      = (socks5Handshake (withCredentials p user pass) host port w).2.sent := by
    intro user pass
    rw [transcript, pmxProxyHandshake, htype]
    rfl
  rw [hrun, hrun]
  by_cases hnamed : PasswordNamed w
  · -- the socket fails before the length of the user name is out
    obtain ⟨w', -, htakes, heq⟩ := socks5Handshake_named hauth host port hnamed
    obtain ⟨room, hmem, hlt⟩ : ∃ room ∈ w.takes, room < 5 := by
      by_contra hnone
      exact hnot ⟨htype, hnamed.2, fun room hmem =>
        Nat.not_lt.1 fun hlt => hnone ⟨room, hmem, hlt⟩⟩
    have htakes' : w'.takes = some (room - 3) := by rw [htakes, hmem]; rfl
    rw [heq, heq, socks5Authenticate_short htakes' (by omega),
      socks5Authenticate_short htakes' (by omega)]
  · rw [socks5Handshake_unnamed hauth host port hnamed,
      socks5Handshake_unnamed hauth host port hnamed]

/-- **Credentials with authentication off.**  What is sent does not depend on them, unless a SOCKS5
server asks for a password it was not offered. -/
theorem transcript_secret_iff {p : PmxProxy} (hauth : p.useAuth = false) (host : CStr) (port : PmxPort)
    (w : Wire) :
    (∀ user pass user' pass',
      transcript p user pass host port w = transcript p user' pass' host port w) ↔
        ¬AsksForPassword p w := by
  constructor
  · intro hsame hasks
    obtain ⟨sent, hshown⟩ := hasks.shown hauth host port
    have hempty := hshown .empty .empty
    have hfilled := hshown (strlcpy pmxMaxUser (bytes "a")) .empty
    rw [hsame .empty .empty (strlcpy pmxMaxUser (bytes "a")) .empty] at hempty
    have hboth := List.append_cancel_left
      ((List.prefix_of_prefix_length_le hempty hfilled (by simp)).eq_of_length (by simp))
    exact absurd hboth (by decide)
  · intro hnot user pass user' pass'
    cases htype : p.type with
    | socks5 => exact transcript_socks5_same htype hauth hnot host port user user' pass pass'
    | socks4 => simp [transcript, pmxProxyHandshake, socks4Handshake, htype, hauth]
    | socks4a => simp [transcript, pmxProxyHandshake, socks4Handshake, htype, hauth]
    | http => simp [transcript, pmxProxyHandshake, httpHandshake, httpRequest, htype, hauth]
    | https => simp [transcript, pmxProxyHandshake, htype]
    | other u => simp [transcript, pmxProxyHandshake, htype]

/-- A server that was offered no authentication asks for a password. -/
def askingServer : Wire := wireOpen [[5, 2]] .errTimeout none

/-- The stored user name and password are sent, although authentication is off. -/
theorem askingServer_gets_credentials :
    let user := strlcpy pmxMaxUser (bytes "alice")
    let pass := strlcpy pmxMaxPass (bytes "s3cr3t")
    let host := (strlcpy 16 (bytes "example.com")).toCStr
    pmxProxyInit.useAuth = false ∧
      transcript pmxProxyInit user pass host 443 askingServer
        = [5, 1, 0] ++ [1, 5] ++ bytes "alice" ++ [6] ++ bytes "s3cr3t" ∧
      ¬∀ user pass user' pass', transcript pmxProxyInit user pass host 443 askingServer
        = transcript pmxProxyInit user' pass' host 443 askingServer := by
  refine ⟨rfl, by decide, ?_⟩
  intro hsame
  exact absurd (hsame (strlcpy pmxMaxUser (bytes "alice")) .empty .empty .empty) (by decide)

/-- A server that takes the offer. -/
theorem transcript_secret_iff_offered :
    (∀ user pass user' pass', transcript pmxProxyInit user pass
        (strlcpy 16 (bytes "example.com")).toCStr 443 (wireOpen [[5, 0]] .errTimeout none)
      = transcript pmxProxyInit user' pass' (strlcpy 16 (bytes "example.com")).toCStr 443
          (wireOpen [[5, 0]] .errTimeout none)) ↔
      ¬AsksForPassword pmxProxyInit (wireOpen [[5, 0]] .errTimeout none) :=
  transcript_secret_iff rfl _ 443 _

end ProxiMight
