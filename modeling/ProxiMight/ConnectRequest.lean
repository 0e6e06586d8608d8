import ProxiMight.HttpConnect

/-!
# What a CONNECT request says (`pmx_http_build_connect`)

The credentials are formatted three times: into `creds`, as base64, and as a line of `auth_header`.
The first two look at what fits; the third cuts the line to 511 bytes and goes on.

* **`base64Decode_base64Text`** — what `pmx_base64_encode` writes decodes to what it was given.
* **`build_completeOrRefused_iff`** — every request accepted is complete, unless `user:password` is
  longer than 360 bytes and the request still fits.
-/

namespace ProxiMight

open CString

/-! ### Base64 as it is read back -/

/-- The value of a character of the alphabet. -/
def base64Value (c : UInt8) : Option ℕ :=
  if 65 ≤ c ∧ c ≤ 90 then some (c.toNat - 65)
  else if 97 ≤ c ∧ c ≤ 122 then some (c.toNat - 71)
  else if 48 ≤ c ∧ c ≤ 57 then some (c.toNat + 4)
  else if c = 43 then some 62
  else if c = 47 then some 63
  else none

/-- Six bits for each character. -/
def sextets : List UInt8 → Option ℕ :=
  List.foldlM (fun n c => (base64Value c).map (64 * n + ·)) 0

/-- A group of four characters stands for three bytes. -/
def fullGroup (a b c d : UInt8) : Option (List UInt8) :=
  (sextets [a, b, c, d]).map fun n =>
    [UInt8.ofNat (n / 2 ^ 16), UInt8.ofNat (n / 2 ^ 8 % 256), UInt8.ofNat (n % 256)]

/-- A group that ends in `=` stands for two bytes, or for one; the bits behind them are zero. -/
def paddedGroup (a b c : UInt8) : Option (List UInt8) :=
  if c = 61 then
    (sextets [a, b]).bind fun n => if n % 2 ^ 4 = 0 then some [UInt8.ofNat (n / 2 ^ 4)] else none
  else
    (sextets [a, b, c]).bind fun n =>
      if n % 2 ^ 2 = 0 then some [UInt8.ofNat (n / 2 ^ 10), UInt8.ofNat (n / 2 ^ 2 % 256)] else none

/-- Groups of four characters, of which only the last may be padded. -/
def base64Decode : List UInt8 → Option (List UInt8)
  | a :: b :: c :: d :: rest =>
    if rest = [] ∧ d = 61 then paddedGroup a b c
    else (fullGroup a b c d).bind fun g => (base64Decode rest).map (g ++ ·)
  | [] => some []
  | _ => none

theorem base64Value_b64Char (n : ℕ) : base64Value (b64Char n) = some (n % 64) := by
  have hall : ∀ k : Fin 64, base64Value (b64Alphabet.getD k 0) = some k.val := by decide +kernel
  exact hall ⟨n % 64, Nat.mod_lt n (by decide)⟩

theorem b64Char_ne_pad (n : ℕ) : b64Char n ≠ 61 := by
  intro h
  have hvalue := base64Value_b64Char n
  rw [h] at hvalue
  cases hvalue

theorem base64Text_length (s : List UInt8) : (base64Text s).length = (s.length + 2) / 3 * 4 := by
  induction s using base64Text.induct with
  | case1 a b c rest ih =>
    rw [base64Text]
    simp only [List.length_cons, ih]
    omega
  | case2 => simp [base64Text]
  | case3 => simp [base64Text]
  | case4 => simp [base64Text]

/-- Only whole groups decode. -/
theorem length_of_base64Decode {s t : List UInt8} (h : base64Decode s = some t) :
    s.length % 4 = 0 := by
  induction s using base64Decode.induct generalizing t with
  | case1 a b c d rest hlast =>
    simp [hlast.1]
  | case2 a b c d rest hlast ih =>
    rw [base64Decode, if_neg hlast, Option.bind_eq_some_iff] at h
    obtain ⟨g, -, htail⟩ := h
    rw [Option.map_eq_some_iff] at htail
    obtain ⟨tail, htail, -⟩ := htail
    have hrest := ih htail
    simp only [List.length_cons]
    omega
  | case3 => rfl
  | case4 s hne hnil =>
    rw [base64Decode] at h
    · cases h
    · exact hne
    · exact hnil

/-- A byte is read back from the number it was made part of. -/
theorem ofNat_eq {a : UInt8} {n : ℕ} (h : n = a.toNat) : UInt8.ofNat n = a := by
  rw [h, UInt8.ofNat_toNat]

/-- The last group, where it is padded. -/
theorem base64Decode_padded (a b c : UInt8) : base64Decode [a, b, c, 61] = paddedGroup a b c := by
  rw [base64Decode, if_pos ⟨rfl, rfl⟩]

theorem paddedGroup_of_two {a b : UInt8} {k l m : ℕ}
    (h : 64 * (64 * (k % 64) + l % 64) + m % 64 = a.toNat * 2 ^ 10 + b.toNat * 2 ^ 2) :
    paddedGroup (b64Char k) (b64Char l) (b64Char m) = some [a, b] := by
  have hb := b.toNat_lt
  rw [paddedGroup, if_neg (b64Char_ne_pad _)]
  simp only [sextets, List.foldlM_cons, List.foldlM_nil, base64Value_b64Char, Option.map_some,
    Option.bind_eq_bind, Option.bind_some, Option.pure_def, Nat.mul_zero, Nat.zero_add, h]
  rw [if_pos (by omega), ofNat_eq (a := a) (by omega), ofNat_eq (a := b) (by omega)]

theorem paddedGroup_of_one {a : UInt8} {k l : ℕ} (h : 64 * (k % 64) + l % 64 = a.toNat * 2 ^ 4) :
    paddedGroup (b64Char k) (b64Char l) 61 = some [a] := by
  rw [paddedGroup, if_pos rfl]
  simp only [sextets, List.foldlM_cons, List.foldlM_nil, base64Value_b64Char, Option.map_some,
    Option.bind_eq_bind, Option.bind_some, Option.pure_def, Nat.mul_zero, Nat.zero_add, h]
  rw [if_pos (by omega), ofNat_eq (a := a) (by omega)]

/-- **Base64 is read back.** -/
theorem base64Decode_base64Text (s : List UInt8) : base64Decode (base64Text s) = some s := by
  induction s using base64Text.induct with
  | case1 a b c rest ih =>
    have ha := a.toNat_lt
    have hb := b.toNat_lt
    have hc := c.toNat_lt
    rw [base64Text, base64Decode, if_neg (fun hpad => b64Char_ne_pad _ hpad.2), ih, fullGroup]
    simp only [sextets, List.foldlM_cons, List.foldlM_nil, base64Value_b64Char, Option.map_some,
      Option.bind_eq_bind, Option.bind_some, Option.pure_def, Option.some.injEq, List.cons_append,
      List.nil_append, List.cons.injEq, and_true]
    refine ⟨ofNat_eq ?_, ofNat_eq ?_, ofNat_eq ?_⟩
    all_goals omega
  | case2 a b =>
    have ha := a.toNat_lt
    have hb := b.toNat_lt
    rw [base64Text, base64Decode_padded]
    exact paddedGroup_of_two (by omega)
  | case3 a =>
    have ha := a.toNat_lt
    rw [base64Text, base64Decode_padded]
    exact paddedGroup_of_one (by omega)
  | case4 => rfl

/-! ### The request as it is meant -/

/-- `host:port`. -/
def connectTarget (host : List UInt8) (port : PmxPort) : List UInt8 :=
  host ++ bytes ":" ++ decimal port.toNat

/-- The lines of a CONNECT request, `auth` among them, and the empty line at its end. -/
def connectRequest (host : List UInt8) (port : PmxPort) (auth : List UInt8) : List UInt8 :=
  bytes "CONNECT " ++ connectTarget host port ++ bytes " HTTP/1.1\r\n" ++
    (bytes "Host: " ++ connectTarget host port ++ bytes "\r\n") ++
    bytes "Proxy-Connection: keep-alive\r\n" ++ auth ++ bytes "\r\n"

/-- The line that carries the credentials. -/
def proxyAuthLine (b64 : List UInt8) : List UInt8 :=
  bytes "Proxy-Authorization: Basic " ++ b64 ++ bytes "\r\n"

/-- `user:password`; a password that is not there is empty. -/
def credentials (user : List UInt8) (pass : Option CStr) : List UInt8 :=
  user ++ bytes ":" ++ (pass.map CStr.str).getD []

/-- The user the request is to name, if any. -/
def namedUser (user : Option CStr) : Option (List UInt8) :=
  (user.map CStr.str).filter fun u => !u.isEmpty

/-- What is to stand between the `Proxy-Connection` line and the empty line. -/
def AuthComplete (user pass : Option CStr) (auth : List UInt8) : Prop :=
  match namedUser user with
  | none => auth = []
  | some u => ∃ b64, base64Decode b64 = some (credentials u pass) ∧ auth = proxyAuthLine b64

/-- The bytes are the whole request and nothing else. -/
def RequestComplete (host : CStr) (port : PmxPort) (user pass : Option CStr) (out : List UInt8) : Prop :=
  ∃ auth, AuthComplete user pass auth ∧ out = connectRequest host.str port auth

/-- What is written is complete, or an error is returned. -/
def CompleteOrRefused (cap : ℕ) (host : CStr) (port : PmxPort) (user pass : Option CStr) : Prop :=
  ∀ out, pmxHttpBuildConnect cap host port user pass = .ok out → RequestComplete host port user pass out

theorem connectRequest_length (host : List UInt8) (port : PmxPort) (auth : List UInt8) :
    (connectRequest host port auth).length = 2 * (connectTarget host port).length + 59 + auth.length := by
  have hline : (bytes "CONNECT ").length = 8 ∧ (bytes " HTTP/1.1\r\n").length = 11 ∧
      (bytes "Host: ").length = 6 ∧ (bytes "\r\n").length = 2 ∧
      (bytes "Proxy-Connection: keep-alive\r\n").length = 30 := by decide
  obtain ⟨h1, h2, h3, h4, h5⟩ := hline
  rw [connectRequest]
  simp only [List.length_append, h1, h2, h3, h4, h5]
  omega

theorem authLine_length (b64 : List UInt8) : (proxyAuthLine b64).length = b64.length + 29 := by
  have hline : (bytes "Proxy-Authorization: Basic ").length = 27 ∧ (bytes "\r\n").length = 2 := by
    decide
  rw [proxyAuthLine, List.length_append, List.length_append, hline.1, hline.2]
  omega

theorem connectRequest_inj {host : List UInt8} {port : PmxPort} {auth auth' : List UInt8}
    (h : connectRequest host port auth = connectRequest host port auth') : auth = auth' :=
  List.append_cancel_left (List.append_cancel_right h)

theorem length_credentials_le (u : CBuf pmxMaxUser) (pass : Option (CBuf pmxMaxPass)) :
    (credentials u.str (pass.map CBuf.toCStr)).length ≤ 383 := by
  have huser : u.str.length ≤ 127 := u.length_str_le
  have hpass : (((pass.map CBuf.toCStr).map CStr.str).getD []).length ≤ 255 := by
    cases pass with
    | none => exact Nat.zero_le _
    | some w => exact w.length_str_le
  have hcolon : (bytes ":").length = 1 := by decide
  rw [credentials, List.length_append, List.length_append, hcolon]
  omega

/-- What a user and a password out of the fields of a proxy become: their line, cut to its buffer. -/
theorem authHeader_of_user {user : CStr} {pass : Option CStr} (huser : ¬user.str.isEmpty = true)
    (hlen : (credentials user.str pass).length ≤ 383) :
    authHeader (some user) pass
      = .ok ((proxyAuthLine (base64Text (credentials user.str pass))).take 511) := by
  have hfits : ¬(credentials user.str pass).length ≥ pmxMaxUser + pmxMaxPass + 2 := by
    show ¬(credentials user.str pass).length ≥ 386
    omega
  have hb64 : pmxBase64Encode (credentials user.str pass)
      ((pmxMaxUser + pmxMaxPass + 2 + 2) / 3 * 4 + 4) = .ok (base64Text (credentials user.str pass)) := by
    have hcap : ¬520 < ((credentials user.str pass).length + 2) / 3 * 4 + 1 := by omega
    exact if_neg hcap
  rw [credentials] at hfits hb64
  rw [authHeader, if_neg huser]
  simp only [if_neg hfits, hb64]
  rfl

theorem authHeader_of_fits (user : Option (CBuf pmxMaxUser)) (pass : Option (CBuf pmxMaxPass)) :
    authHeader (user.map CBuf.toCStr) (pass.map CBuf.toCStr) =
      .ok (match namedUser (user.map CBuf.toCStr) with
        | none => []
        | some u => (proxyAuthLine (base64Text (credentials u (pass.map CBuf.toCStr)))).take 511) := by
  cases user with
  | none => rfl
  | some u =>
    by_cases hempty : u.str.isEmpty = true
    · have hnamed : namedUser ((some u).map CBuf.toCStr) = none := by
        apply Option.filter_some_neg
        show (!u.str.isEmpty) = false
        rw [hempty, Bool.not_true]
      rw [hnamed]
      exact if_pos hempty
    · have hnamed : namedUser ((some u).map CBuf.toCStr) = some u.str := by
        apply Option.filter_some_pos
        show (!u.str.isEmpty) = true
        rw [Bool.eq_false_iff.2 hempty, Bool.not_false]
      rw [hnamed]
      exact authHeader_of_user hempty (length_credentials_le u pass)

theorem pmxHttpBuildConnect_of_auth {user pass : Option CStr} {auth : List UInt8}
    (h : authHeader user pass = .ok auth) (cap : ℕ) (host : CStr) (port : PmxPort) :
    pmxHttpBuildConnect cap host port user pass =
      if (connectRequest host.str port auth).length ≥ cap then .error .errInvalidArg
      else .ok (connectRequest host.str port auth) := by
  have hhost : bytes " HTTP/1.1\r\nHost: " = bytes " HTTP/1.1\r\n" ++ bytes "Host: " := by decide
  have hkeep : bytes "\r\nProxy-Connection: keep-alive\r\n"
      = bytes "\r\n" ++ bytes "Proxy-Connection: keep-alive\r\n" := by decide
  rw [pmxHttpBuildConnect, h, connectRequest]
  simp only [hhost, hkeep, connectTarget, List.append_assoc]

theorem authLine_of_short {creds : List UInt8} (h : creds.length ≤ 360) :
    (proxyAuthLine (base64Text creds)).take 511 = proxyAuthLine (base64Text creds) := by
  apply List.take_of_length_le
  rw [authLine_length, base64Text_length]
  omega

/-- A header that has been cut is no complete line: 482 characters are not whole groups. -/
theorem cut_ne_authLine {creds b64 : List UInt8} (h : 360 < creds.length) {t : List UInt8}
    (hdecode : base64Decode b64 = some t) :
    (proxyAuthLine (base64Text creds)).take 511 ≠ proxyAuthLine b64 := by
  intro heq
  have hlen := congrArg List.length heq
  rw [List.length_take, authLine_length, authLine_length, base64Text_length] at hlen
  have hgroups := length_of_base64Decode hdecode
  omega

theorem length_cut {creds : List UInt8} (h : 360 < creds.length) :
    ((proxyAuthLine (base64Text creds)).take 511).length = 511 := by
  rw [List.length_take, authLine_length, base64Text_length]
  omega

/-- Credentials that are cut go out in a request that fits. -/
theorem not_completeOrRefused {user pass : Option CStr} {u : List UInt8} {cap : ℕ} {host : CStr}
    {port : PmxPort} (hnamed : namedUser user = some u)
    (hauth : authHeader user pass = .ok ((proxyAuthLine (base64Text (credentials u pass))).take 511))
    (hlong : 360 < (credentials u pass).length)
    (hcap : 2 * (connectTarget host.str port).length + 570 < cap) :
    ¬CompleteOrRefused cap host port user pass := by
  intro hall
  have hfits : ¬(connectRequest host.str port
      ((proxyAuthLine (base64Text (credentials u pass))).take 511)).length ≥ cap := by
    rw [connectRequest_length, length_cut hlong]
    omega
  obtain ⟨auth, hcomplete, hout⟩ := hall _ (by rw [pmxHttpBuildConnect_of_auth hauth, if_neg hfits])
  rw [AuthComplete, hnamed] at hcomplete
  obtain ⟨b64, hdecode, rfl⟩ := hcomplete
  exact cut_ne_authLine hlong hdecode (connectRequest_inj hout)

/-- **What is accepted is complete, unless the credentials are cut.**  For a user and a password out of
the fields of a proxy, every request that is written is complete, or an error is returned, exactly when
there is no user to name, `user:password` has at most 360 bytes, or the cut request does not fit. -/
theorem build_completeOrRefused_iff (cap : ℕ) (host : CBuf pmxMaxHost) (port : PmxPort)
    (user : Option (CBuf pmxMaxUser)) (pass : Option (CBuf pmxMaxPass)) :
    CompleteOrRefused cap host.toCStr port (user.map CBuf.toCStr) (pass.map CBuf.toCStr) ↔
      ∀ u ∈ namedUser (user.map CBuf.toCStr),
        (credentials u (pass.map CBuf.toCStr)).length ≤ 360 ∨
          cap ≤ 2 * (connectTarget host.str port).length + 570 := by
  have hauth := authHeader_of_fits user pass
  cases hnamed : namedUser (user.map CBuf.toCStr) with
  | none =>
    rw [hnamed] at hauth
    refine ⟨fun _ u hu => (by cases hu), fun _ out hout => ?_⟩
    rw [pmxHttpBuildConnect_of_auth hauth] at hout
    split_ifs at hout
    exact ⟨[], by rw [AuthComplete, hnamed], (Except.ok.inj hout).symm⟩
  | some u =>
    rw [hnamed] at hauth
    constructor
    · rintro hall u' ⟨⟩
      by_contra hcond
      rw [not_or, not_le, not_le] at hcond
      exact not_completeOrRefused hnamed hauth hcond.1 hcond.2 hall
    · intro hcond out hout
      rw [pmxHttpBuildConnect_of_auth hauth] at hout
      split_ifs at hout with hfits
      refine ⟨_, ?_, (Except.ok.inj hout).symm⟩
      rw [AuthComplete, hnamed]
      rcases hcond u rfl with hshort | hcap
      · exact ⟨_, base64Decode_base64Text _, authLine_of_short hshort⟩
      · by_cases hlong : 360 < (credentials u (pass.map CBuf.toCStr)).length
        · refine absurd ?_ hfits
          rw [connectRequest_length, length_cut hlong]
          show cap ≤ 2 * (connectTarget host.str port).length + 59 + 511
          omega
        · exact ⟨_, base64Decode_base64Text _, authLine_of_short (by omega)⟩

/-- A field filled to its last byte with one letter. -/
def filled (n : ℕ) (c : UInt8) (h : nul ≠ c) : CBuf n :=
  ⟨List.replicate (n - 1) c, List.length_replicate.le, fun hmem => h (List.eq_of_mem_replicate hmem)⟩

def fullUser : CBuf pmxMaxUser := filled pmxMaxUser 117 (by decide)

def fullPass : CBuf pmxMaxPass := filled pmxMaxPass 112 (by decide)

/-- The destination `h`. -/
def shortHost : CBuf pmxMaxHost := ⟨[104], by simp [pmxMaxHost], by simp [nul]⟩

/-- In the 1024 bytes of `http_handshake` such credentials are cut, and the request is accepted. -/
theorem fullCredentials_cut :
    ¬(∀ (cap : ℕ) (host : CBuf pmxMaxHost) (port : PmxPort) (user : Option (CBuf pmxMaxUser))
        (pass : Option (CBuf pmxMaxPass)),
        CompleteOrRefused cap host.toCStr port (user.map CBuf.toCStr) (pass.map CBuf.toCStr)) ∧
      ¬CompleteOrRefused 1024 shortHost.toCStr 443 (some fullUser.toCStr) (some fullPass.toCStr) := by
  have hnamed : namedUser (some fullUser.toCStr) = some fullUser.str := Option.filter_some_pos rfl
  have hlong : (credentials fullUser.str (some fullPass.toCStr)).length = 383 := by
    have huser : fullUser.str.length = 127 := List.length_replicate
    have hpass : fullPass.str.length = 255 := List.length_replicate
    have hcolon : (bytes ":").length = 1 := by decide
    show (fullUser.str ++ bytes ":" ++ fullPass.str).length = 383
    rw [List.length_append, List.length_append, huser, hpass, hcolon]
  have htarget : (connectTarget shortHost.toCStr.str 443).length = 5 := by decide
  have hcut : ¬CompleteOrRefused 1024 shortHost.toCStr 443 (some fullUser.toCStr)
      (some fullPass.toCStr) := by
    have hauth : authHeader (some fullUser.toCStr) (some fullPass.toCStr) = _ :=
      authHeader_of_user Bool.false_ne_true hlong.le
    exact not_completeOrRefused hnamed hauth (by omega) (by omega)
  exact ⟨fun hall => hcut (hall 1024 shortHost 443 (some fullUser) (some fullPass)), hcut⟩

end ProxiMight
