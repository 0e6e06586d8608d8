import ProxiMight.Decimal
import ProxiMight.Numbers
import ProxiMight.Separated
import ProxiMight.Socks

/-!
# What a SOCKS request names (`pmx_socks5_build_connect`, `pmx_socks4_build_connect`)

A request is read back as the three protocols read it.  Whether a host goes as an address is decided by
`sscanf`, which also takes numbers with signs, white space or any run of digits for the four numbers of a
literal; and SOCKS4a keeps the addresses `0.0.0.x` for itself.

* **`parseIpv4_eq_some_iff`** — the hosts that `parse_ipv4` accepts.
* **`socks_names_iff`** — a request names its destination exactly where an accepted host is written
  plainly and is no SOCKS4a marker; such requests are told apart.
-/

namespace CString.NumberParts

variable {w sign ds r : List UInt8}

/-- `%u` reads a number with these parts. -/
theorem scanUnsigned_eq (h : NumberParts w sign ds r) :
    ProxiMight.scanUnsigned (w ++ (sign ++ (ds ++ r))) =
      some ((if digitsVal ds > ProxiMight.scanMax then ProxiMight.scanMax
        else if sign = [45] then
          (ProxiMight.scanMax + 1 - digitsVal ds) % (ProxiMight.scanMax + 1)
        else digitsVal ds) % (ProxiMight.uintMax + 1), r) := by
  have hne : ¬ ds.isEmpty = true := by
    rw [List.isEmpty_iff]
    exact h.ne_nil
  simp only [ProxiMight.scanUnsigned, h.dropWhile_isSpace, h.takeSign_eq,
    takeWhile_append_of_stop h.digits h.stop, dropWhile_append_of_stop h.digits h.stop, if_neg hne,
    decide_eq_true_eq]

/-- A number of a few digits, without a sign, is stored as it is. -/
theorem scanUnsigned_small (h : NumberParts [] [] ds r) (hval : digitsVal ds ≤ ProxiMight.uintMax) :
    ProxiMight.scanUnsigned (ds ++ r) = some (digitsVal ds, r) := by
  have hfits : ¬digitsVal ds > ProxiMight.scanMax := by
    rw [ProxiMight.uintMax] at hval
    rw [ProxiMight.scanMax]
    omega
  have hscan := h.scanUnsigned_eq
  rwa [if_neg hfits, if_neg (List.cons_ne_nil 45 []).symm, Nat.mod_eq_of_lt (Nat.lt_succ_of_le hval)] at hscan

end CString.NumberParts

namespace ProxiMight

open CString

/-! ### Literals -/

/-- One to three digits, with a value up to 255. -/
structure Octet (part : List UInt8) : Prop where
  ne_nil : part ≠ []
  length_le : part.length ≤ 3
  digits : ∀ c ∈ part, isDigit c = true
  le : digitsVal part ≤ 255

/-- The dotted-decimal form of an address. -/
def IsLiteral (host octets : List UInt8) : Prop :=
  ∃ a b c d, Octet a ∧ Octet b ∧ Octet c ∧ Octet d ∧
    host = a ++ 46 :: (b ++ 46 :: (c ++ 46 :: d)) ∧
    octets = [a, b, c, d].map fun part => UInt8.ofNat (digitsVal part)

/-- Only digits and dots, and no more than three digits in a row. -/
def Plain (host : List UInt8) : Prop :=
  (∀ c ∈ host, isDigit c = true ∨ c = 46) ∧
    ∀ run, run <:+: host → (∀ c ∈ run, isDigit c = true) → run.length ≤ 3

theorem scanDot_eq_some_iff (s r : List UInt8) : scanDot s = some r ↔ s = 46 :: r := by
  constructor
  · intro h
    unfold scanDot at h
    split at h
    · rw [Option.some.inj h]
    · cases h
  · rintro rfl
    rfl

/-- **The hosts that go as an address.** -/
theorem parseIpv4_eq_some_iff (host : CStr) (octets : List UInt8) :
    parseIpv4 host = some octets ↔
      ∃ a b c d s t u, scanUnsigned host.str = some (a, 46 :: s) ∧ scanUnsigned s = some (b, 46 :: t) ∧
        scanUnsigned t = some (c, 46 :: u) ∧ scanUnsigned u = some (d, []) ∧
        (a ≤ 255 ∧ b ≤ 255 ∧ c ≤ 255 ∧ d ≤ 255) ∧
        octets = [a, b, c, d].map UInt8.ofNat := by
  rw [parseIpv4]
  simp only [Option.bind_eq_bind, Option.bind_eq_some_iff, Prod.exists, scanDot_eq_some_iff]
  constructor
  · rintro ⟨a, _, ha, _, rfl, b, _, hb, _, rfl, c, _, hc, _, rfl, d, rest, hd, hoctets⟩
    split_ifs at hoctets with hbad
    simp only [not_or, not_not, not_lt] at hbad
    obtain ⟨rfl, hle⟩ := hbad
    exact ⟨a, b, c, d, _, _, _, ha, hb, hc, hd, hle, (Option.some.inj hoctets).symm⟩
  · rintro ⟨a, b, c, d, s, t, u, ha, hb, hc, hd, ⟨ha', hb', hc', hd'⟩, rfl⟩
    refine ⟨a, _, ha, s, rfl, b, _, hb, t, rfl, c, _, hc, u, rfl, d, [], hd, ?_⟩
    rw [if_neg]
    · rfl
    · simp only [not_or, not_not, not_lt]
      exact ⟨trivial, ha', hb', hc', hd'⟩

theorem Octet.scanUnsigned_append {part rest : List UInt8} (h : Octet part)
    (hrest : ∀ c, rest.head? = some c → isDigit c = false) :
    scanUnsigned (part ++ rest) = some (digitsVal part, rest) := by
  have hparts : NumberParts [] [] part rest :=
    ⟨fun _ hc => absurd hc List.not_mem_nil, Or.inl rfl, h.digits, h.ne_nil, hrest⟩
  have hle := h.le
  exact hparts.scanUnsigned_small (by rw [uintMax]; omega)

/-- A literal goes as its address. -/
theorem IsLiteral.parseIpv4_eq {host : CStr} {octets : List UInt8} (h : IsLiteral host.str octets) :
    parseIpv4 host = some octets := by
  obtain ⟨a, b, c, d, ha, hb, hc, hd, hhost, rfl⟩ := h
  have hdot : ∀ (rest : List UInt8) (e : UInt8), (46 :: rest).head? = some e → isDigit e = false := by
    rintro rest e he
    rw [← Option.some.inj he]
    rfl
  rw [parseIpv4_eq_some_iff, hhost]
  refine ⟨_, _, _, _, _, _, _, ha.scanUnsigned_append (hdot _), hb.scanUnsigned_append (hdot _),
    hc.scanUnsigned_append (hdot _), ?_, ⟨ha.le, hb.le, hc.le, hd.le⟩, rfl⟩
  have hlast : scanUnsigned (d ++ []) = some (digitsVal d, []) :=
    hd.scanUnsigned_append fun e he => by cases he
  rwa [List.append_nil] at hlast

/-- Digits have a value below the power of ten of their number. -/
theorem digitsVal_lt_pow {ds : List UInt8} (hds : ∀ c ∈ ds, isDigit c = true) :
    digitsVal ds < 10 ^ ds.length := by
  induction ds using List.reverseRecOn with
  | nil => exact Nat.one_pos
  | append_singleton ds c ih =>
    have hrest := ih fun d hd => hds d (List.mem_append_left _ hd)
    have hdigit := (isDigit_iff c).1 (hds c (List.mem_append_right _ List.mem_cons_self))
    rw [digitsVal_concat, List.length_append, List.length_singleton, Nat.pow_succ]
    omega

/-- What `%u` reads off the front of digits and dots is a run of digits. -/
theorem scanUnsigned_plain {s r : List UInt8} {v : ℕ} (hs : Plain s) (h : scanUnsigned s = some (v, r))
    (hv : v ≤ 255) : ∃ part, Octet part ∧ v = digitsVal part ∧ s = part ++ r := by
  have hdigits : (takeSign (s.dropWhile isSpace)).2.takeWhile isDigit ≠ [] := by
    intro hnil
    simp [scanUnsigned, hnil] at h
  obtain ⟨w, sign, ds, r', rfl, hparts⟩ := exists_numberParts_of_digits hdigits
  have hw : w = [] := by
    rw [List.eq_nil_iff_forall_not_mem]
    intro c hc
    have hspace := hparts.space c hc
    rcases hs.1 c (List.mem_append_left _ hc) with hdigit | rfl
    · rw [isDigit_iff] at hdigit
      rw [isSpace_iff] at hspace
      omega
    · cases hspace
  have hsign : sign = [] := by
    rcases hparts.sign with h0 | rfl | rfl
    · exact h0
    · rcases hs.1 43 (by simp) with hdigit | hdot
      · cases hdigit
      · cases hdot
    · rcases hs.1 45 (by simp) with hdigit | hdot
      · cases hdigit
      · cases hdot
  subst hw hsign
  have hlen : ds.length ≤ 3 := hs.2 ds ⟨[], r', rfl⟩ hparts.digits
  have hsmall : digitsVal ds < 10 ^ 3 :=
    Nat.lt_of_lt_of_le (digitsVal_lt_pow hparts.digits) (Nat.pow_le_pow_right (Nat.succ_pos 9) hlen)
  have hscan := hparts.scanUnsigned_small (by rw [uintMax]; omega)
  obtain ⟨hval, rfl⟩ := Prod.mk.inj (Option.some.inj (hscan.symm.trans h))
  exact ⟨ds, ⟨hparts.ne_nil, hlen, hparts.digits, hval.trans_le hv⟩, hval.symm, rfl⟩

theorem Plain.tail {part rest : List UInt8} {c : UInt8} (h : Plain (part ++ c :: rest)) : Plain rest := by
  have hsub : rest <:+: part ++ c :: rest := ⟨part ++ [c], [], by simp⟩
  exact ⟨fun e he => h.1 e (hsub.subset he), fun run hrun => h.2 run (hrun.trans hsub)⟩

/-- An accepted host that is written plainly is a literal. -/
theorem IsLiteral.of_plain {host : CStr} {octets : List UInt8} (h : parseIpv4 host = some octets)
    (hplain : Plain host.str) : IsLiteral host.str octets := by
  obtain ⟨a, b, c, d, s, t, u, ha, hb, hc, hd, ⟨ha', hb', hc', hd'⟩, rfl⟩ :=
    (parseIpv4_eq_some_iff host octets).1 h
  obtain ⟨pa, hpa, rfl, hhost⟩ := scanUnsigned_plain hplain ha ha'
  rw [hhost] at hplain
  obtain ⟨pb, hpb, rfl, rfl⟩ := scanUnsigned_plain hplain.tail hb hb'
  obtain ⟨pc, hpc, rfl, rfl⟩ := scanUnsigned_plain hplain.tail.tail hc hc'
  obtain ⟨pd, hpd, rfl, rfl⟩ := scanUnsigned_plain hplain.tail.tail.tail hd hd'
  exact ⟨pa, pb, pc, pd, hpa, hpb, hpc, hpd, by rw [hhost, List.append_nil], rfl⟩

theorem Octet.plain {part : List UInt8} (h : Octet part) : Plain part :=
  ⟨fun c hc => Or.inl (h.digits c hc), fun _ hrun _ => hrun.length_le.trans h.length_le⟩

theorem Plain.dot {part rest : List UInt8} (hpart : Plain part) (hrest : Plain rest) :
    Plain (part ++ 46 :: rest) := by
  constructor
  · intro c hc
    rcases List.mem_append.1 hc with hc | hc
    · exact hpart.1 c hc
    · rcases List.mem_cons.1 hc with rfl | hc
      · exact Or.inr rfl
      · exact hrest.1 c hc
  · intro run hrun hdigits
    have hdot : (46 : UInt8) ∉ run := fun hmem => Bool.false_ne_true (hdigits 46 hmem)
    rcases Separated.infix_piece hdot hrun with hinf | hinf
    · exact hpart.2 run hinf hdigits
    · exact hrest.2 run hinf hdigits

/-- A literal is written plainly. -/
theorem IsLiteral.plain {host octets : List UInt8} (h : IsLiteral host octets) : Plain host := by
  obtain ⟨a, b, c, d, ha, hb, hc, hd, rfl, -⟩ := h
  exact ha.plain.dot (hb.plain.dot (hc.plain.dot hd.plain))

/-! ### The messages as they are read -/

/-- A destination of a request. -/
inductive SocksDest
  | ip (octets : List UInt8)
  | name (host : List UInt8)
  deriving DecidableEq

/-- What a CONNECT request says; SOCKS5 has no user id. -/
structure SocksRequest where
  command : UInt8
  dest : SocksDest
  port : ℕ
  userId : Option (List UInt8)
  deriving DecidableEq

/-- Two bytes, the high one first. -/
def portBe : List UInt8 → Option (ℕ × List UInt8)
  | hi :: lo :: rest => some (256 * hi.toNat + lo.toNat, rest)
  | _ => none

/-- A field of `n` bytes. -/
def takeField (n : ℕ) (s : List UInt8) : Option (List UInt8 × List UInt8) :=
  if n ≤ s.length then some (s.take n, s.drop n) else none

/-- A field up to its NUL. -/
def takeString (s : List UInt8) : Option (List UInt8 × List UInt8) :=
  if nul ∈ s then some (s.takeWhile (· != nul), (s.dropWhile (· != nul)).tail) else none

/-- The address of a SOCKS5 request, by its type. -/
def readAddress (atyp : UInt8) (s : List UInt8) : Option (SocksDest × List UInt8) :=
  if atyp = 1 then (takeField 4 s).map fun r => (.ip r.1, r.2)
  else if atyp = 4 then (takeField 16 s).map fun r => (.ip r.1, r.2)
  else if atyp = 3 then
    match s with
    | len :: s => (takeField len.toNat s).map fun r => (.name r.1, r.2)
    | [] => none
  else none

/-- A SOCKS5 request, and what follows it. -/
def readSocks5 : List UInt8 → Option (SocksRequest × List UInt8)
  | 5 :: cmd :: _ :: atyp :: s => do
    let (dest, s) ← readAddress atyp s
    let (port, s) ← portBe s
    some (⟨cmd, dest, port, none⟩, s)
  | _ => none

/-- The addresses SOCKS4a keeps for itself: a name follows the user id. -/
def socks4aMarker : List UInt8 → Bool
  | [a, b, c, d] => a == 0 && b == 0 && c == 0 && d != 0
  | _ => false

/-- A SOCKS4 or SOCKS4a request, and what follows it. -/
def readSocks4 (socks4a : Bool) : List UInt8 → Option (SocksRequest × List UInt8)
  | 4 :: cmd :: s => do
    let (port, s) ← portBe s
    let (octets, s) ← takeField 4 s
    let (user, s) ← takeString s
    if socks4a && socks4aMarker octets then do
      let (host, s) ← takeString s
      some (⟨cmd, .name host, port, some user⟩, s)
    else some (⟨cmd, .ip octets, port, some user⟩, s)
  | _ => none

theorem portBe_putPortBe (port : PmxPort) (rest : List UInt8) :
    portBe (putPortBe port ++ rest) = some (port.toNat, rest) := by
  have hlt := port.toNat_lt
  show some (256 * (UInt8.ofNat (port.toNat / 256)).toNat + (UInt8.ofNat port.toNat).toNat, rest) = _
  rw [UInt8.toNat_ofNat', UInt8.toNat_ofNat']
  congr 2
  omega

theorem takeField_append {n : ℕ} {field : List UInt8} (h : field.length = n) (rest : List UInt8) :
    takeField n (field ++ rest) = some (field, rest) := by
  have hle : n ≤ (field ++ rest).length := by
    rw [List.length_append]
    omega
  rw [takeField, if_pos hle, List.take_left' h, List.drop_left' h]

theorem takeString_append {s : List UInt8} (h : nul ∉ s) (rest : List UInt8) :
    takeString (s ++ nul :: rest) = some (s, rest) := by
  rw [takeString, if_pos (List.mem_append_right s List.mem_cons_self),
    Separated.takeWhile_piece_append h, Separated.dropWhile_piece_append h, List.tail_cons]

theorem readSocks5_ip {ip4 : List UInt8} (h : ip4.length = 4) (port : PmxPort) (tail : List UInt8) :
    readSocks5 ([5, 1, 0, 1] ++ ip4 ++ putPortBe port ++ tail)
      = some (⟨1, .ip ip4, port.toNat, none⟩, tail) := by
  have haddr : readAddress 1 (ip4 ++ (putPortBe port ++ tail)) = some (.ip ip4, putPortBe port ++ tail) := by
    show (takeField 4 _).map _ = _
    rw [takeField_append h, Option.map_some]
  rw [List.append_assoc, List.append_assoc]
  show (do let (dest, s) ← readAddress 1 (ip4 ++ (putPortBe port ++ tail)); _) = _
  rw [haddr, Option.bind_eq_bind, Option.bind_some, portBe_putPortBe]
  rfl

theorem readSocks5_name {host : List UInt8} (h : host.length ≤ 255) (port : PmxPort)
    (tail : List UInt8) :
    readSocks5 ([5, 1, 0, 3, UInt8.ofNat host.length] ++ host ++ putPortBe port ++ tail)
      = some (⟨1, .name host, port.toNat, none⟩, tail) := by
  have hlen : host.length = (UInt8.ofNat host.length).toNat := by
    rw [UInt8.toNat_ofNat']
    omega
  have haddr : readAddress 3 (UInt8.ofNat host.length :: (host ++ (putPortBe port ++ tail)))
      = some (.name host, putPortBe port ++ tail) := by
    show (takeField (UInt8.ofNat host.length).toNat _).map _ = _
    rw [takeField_append hlen, Option.map_some]
  rw [List.append_assoc, List.append_assoc]
  show (do
    let (dest, s) ← readAddress 3 (UInt8.ofNat host.length :: (host ++ (putPortBe port ++ tail))); _) = _
  rw [haddr, Option.bind_eq_bind, Option.bind_some, portBe_putPortBe]
  rfl

/-- A SOCKS4 request up to its user id. -/
theorem readSocks4_head {ip4 : List UInt8} (h : ip4.length = 4) {userid : List UInt8}
    (huser : nul ∉ userid) (socks4a : Bool) (port : PmxPort) (s : List UInt8) :
    readSocks4 socks4a ([4, 1] ++ putPortBe port ++ ip4 ++ userid ++ [0] ++ s) =
      if socks4a && socks4aMarker ip4 then
        (takeString s).map fun r => (⟨1, .name r.1, port.toNat, some userid⟩, r.2)
      else some (⟨1, .ip ip4, port.toNat, some userid⟩, s) := by
  have hshape : [4, 1] ++ putPortBe port ++ ip4 ++ userid ++ [0] ++ s
      = 4 :: 1 :: (putPortBe port ++ (ip4 ++ (userid ++ nul :: s))) := by
    simp only [List.append_assoc, List.cons_append, List.nil_append, nul]
  rw [hshape]
  simp only [readSocks4, portBe_putPortBe, takeField_append h, takeString_append huser,
    Option.bind_eq_bind, Option.bind_some]
  cases socks4a && socks4aMarker ip4 with
  | false => rfl
  | true => cases takeString s <;> rfl

/-! ### What a request names -/

/-- The destination a host string stands for. -/
def Denotes (host : List UInt8) : SocksDest → Prop
  | .ip octets => IsLiteral host octets
  | .name n => n = host ∧ ∀ octets, ¬IsLiteral host octets

/-- The bytes, whatever follows them, are read as one CONNECT request for the host and the port. -/
def Socks5Names (cap : ℕ) (host : CStr) (port : PmxPort) : Prop :=
  ∀ out, pmxSocks5BuildConnect cap host port = .ok out →
    ∃ dest, Denotes host.str dest ∧
      ∀ tail, readSocks5 (out ++ tail) = some (⟨1, dest, port.toNat, none⟩, tail)

/-- Likewise for SOCKS4 and SOCKS4a, with the user id. -/
def Socks4Names (cap : ℕ) (host : CStr) (port : PmxPort) (socks4a : Bool) (userid : CStr) : Prop :=
  ∀ out, pmxSocks4BuildConnect cap host port socks4a userid.str = .ok out →
    ∃ dest, Denotes host.str dest ∧
      ∀ tail, readSocks4 socks4a (out ++ tail) = some (⟨1, dest, port.toNat, some userid.str⟩, tail)

/-- The host is no SOCKS4a marker to `parse_ipv4`. -/
def NoMarker (host : CStr) : Prop := ∀ octets ∈ parseIpv4 host, socks4aMarker octets = false

instance (host : CStr) : Decidable (NoMarker host) :=
  inferInstanceAs (Decidable (∀ octets ∈ parseIpv4 host, socks4aMarker octets = false))

theorem length_of_parseIpv4 {host : CStr} {octets : List UInt8} (h : parseIpv4 host = some octets) :
    octets.length = 4 := by
  obtain ⟨_, _, _, _, _, _, _, -, -, -, -, -, rfl⟩ := (parseIpv4_eq_some_iff host octets).1 h
  rfl

/-- A host that is not accepted stands for itself. -/
theorem denotes_name {host : CStr} (h : parseIpv4 host = none) : Denotes host.str (.name host.str) := by
  refine ⟨rfl, fun octets hliteral => ?_⟩
  rw [hliteral.parseIpv4_eq] at h
  cases h

/-- An accepted host stands for its address exactly when it is written plainly. -/
theorem denotes_ip_iff {host : CStr} {octets : List UInt8} (h : parseIpv4 host = some octets) :
    Denotes host.str (.ip octets) ↔ Plain host.str :=
  ⟨IsLiteral.plain, IsLiteral.of_plain h⟩

theorem Denotes.unique {host : CStr} {dest dest' : SocksDest} (h : Denotes host.str dest)
    (h' : Denotes host.str dest') : dest = dest' := by
  cases dest with
  | ip octets =>
    cases dest' with
    | ip octets' =>
      have heq := (IsLiteral.parseIpv4_eq h).symm.trans (IsLiteral.parseIpv4_eq h')
      rw [Option.some.inj heq]
    | name n => exact absurd h (h'.2 octets)
  | name n =>
    cases dest' with
    | ip octets' => exact absurd h' (h.2 octets')
    | name n' => rw [h.1, h'.1]

theorem socks5Names_iff (cap : ℕ) (host : CStr) (port : PmxPort) :
    Socks5Names cap host port ↔ cap < 10 ∨ parseIpv4 host = none ∨ Plain host.str := by
  rw [Socks5Names, pmxSocks5BuildConnect]
  cases hparse : parseIpv4 host with
  | none =>
    refine ⟨fun _ => Or.inr (Or.inl rfl), fun _ out hout => ?_⟩
    dsimp only at hout
    split_ifs at hout with hlen hcap
    refine ⟨.name host.str, denotes_name hparse, fun tail => ?_⟩
    rw [← Except.ok.inj hout]
    exact readSocks5_name (by omega) port tail
  | some ip4 =>
    have hread := fun tail => readSocks5_ip (length_of_parseIpv4 hparse) port tail
    by_cases hcap : cap < 4 + 4 + 2
    · simp only [if_pos hcap]
      exact ⟨fun _ => Or.inl hcap, fun _ out hout => by cases hout⟩
    · simp only [if_neg hcap, Except.ok.injEq, forall_eq', hread, Option.some.injEq, Prod.mk.injEq,
        SocksRequest.mk.injEq, and_true, true_and, forall_const, reduceCtorEq, false_or]
      constructor
      · rintro ⟨dest, hdest, rfl⟩
        exact Or.inr ((denotes_ip_iff hparse).1 hdest)
      · rintro (hlt | hplain)
        · exact absurd hlt hcap
        · exact ⟨.ip ip4, (denotes_ip_iff hparse).2 hplain, rfl⟩

theorem socks4Names_iff (cap : ℕ) (host : CStr) (port : PmxPort) (socks4a : Bool) (userid : CStr) :
    Socks4Names cap host port socks4a userid ↔
      cap < 9 + userid.str.length ∨ parseIpv4 host = none ∨
        (Plain host.str ∧ (socks4a = true → NoMarker host)) := by
  have huser : nul ∉ userid.str := userid.2
  have hname : nul ∉ host.str := host.2
  rw [Socks4Names, pmxSocks4BuildConnect, NoMarker]
  cases hparse : parseIpv4 host with
  | none =>
    refine ⟨fun _ => Or.inr (Or.inl rfl), fun _ out hout => ?_⟩
    dsimp only at hout
    split_ifs at hout with hflag hcap
    refine ⟨.name host.str, denotes_name hparse, fun tail => ?_⟩
    have h4a : socks4a = true := by simpa using hflag
    have hshape : [4, 1] ++ putPortBe port ++ [0, 0, 0, 1] ++ userid.str ++ [0] ++ host.str ++ [0] ++ tail
        = [4, 1] ++ putPortBe port ++ [0, 0, 0, 1] ++ userid.str ++ [0] ++ (host.str ++ nul :: tail) := by
      simp only [List.append_assoc, List.cons_append, List.nil_append, nul]
    rw [← Except.ok.inj hout, hshape, readSocks4_head rfl huser, h4a, takeString_append hname]
    rfl
  | some ip4 =>
    have hread := fun tail => readSocks4_head (length_of_parseIpv4 hparse) huser socks4a port tail
    by_cases hcap : cap < 1 + 1 + 2 + 4 + userid.str.length + 1
    · simp only [if_pos hcap]
      exact ⟨fun _ => Or.inl (by omega), fun _ out hout => by cases hout⟩
    · have hcap' : ¬cap < 9 + userid.str.length := by omega
      simp only [if_neg hcap, Except.ok.injEq, forall_eq', hread, hcap', reduceCtorEq, false_or,
        Option.mem_def, Option.some.injEq]
      cases hmark : socks4a && socks4aMarker ip4 with
      | true =>
        rw [Bool.and_eq_true] at hmark
        constructor
        · rintro ⟨dest, -, hall⟩
          cases hall []
        · rintro ⟨-, hno⟩
          exact absurd ((hno hmark.1).symm.trans hmark.2) Bool.false_ne_true
      | false =>
        have hno : socks4a = true → socks4aMarker ip4 = false := by
          rintro rfl
          exact hmark
        constructor
        · rintro ⟨dest, hdest, hall⟩
          have hdest' := hall []
          simp only [Bool.false_eq_true, if_false, Option.some.injEq, Prod.mk.injEq,
            SocksRequest.mk.injEq] at hdest'
          rw [← hdest'.1.2.1] at hdest
          exact ⟨(denotes_ip_iff hparse).1 hdest, hno⟩
        · rintro ⟨hplain, -⟩
          exact ⟨.ip ip4, (denotes_ip_iff hparse).2 hplain, fun tail => rfl⟩

/-- **A request names its destination.**  For SOCKS5 exactly where the buffer is too small, `parse_ipv4`
does not accept the host, or the host is written plainly; for SOCKS4 and SOCKS4a the host must, where it is
accepted, be no marker of SOCKS4a either.  Requests that name their destinations and are of the same bytes
have the same destination, port and user id. -/
theorem socks_names_iff (cap cap' : ℕ) (host host' : CStr) (port port' : PmxPort) (socks4a : Bool)
    (userid userid' : CStr) :
    (Socks5Names cap host port ↔ cap < 10 ∨ parseIpv4 host = none ∨ Plain host.str) ∧
    (Socks4Names cap host port socks4a userid ↔
      cap < 9 + userid.str.length ∨ parseIpv4 host = none ∨
        (Plain host.str ∧ (socks4a = true → NoMarker host))) ∧
    (∀ out, Socks5Names cap host port → Socks5Names cap' host' port' →
      pmxSocks5BuildConnect cap host port = .ok out → pmxSocks5BuildConnect cap' host' port' = .ok out →
      port = port' ∧ ∃ dest, Denotes host.str dest ∧ Denotes host'.str dest) ∧
    (∀ out, Socks4Names cap host port socks4a userid → Socks4Names cap' host' port' socks4a userid' →
      pmxSocks4BuildConnect cap host port socks4a userid.str = .ok out →
      pmxSocks4BuildConnect cap' host' port' socks4a userid'.str = .ok out →
      port = port' ∧ userid.str = userid'.str ∧ ∃ dest, Denotes host.str dest ∧ Denotes host'.str dest) := by
  refine ⟨socks5Names_iff cap host port, socks4Names_iff cap host port socks4a userid, ?_, ?_⟩
  · intro out h h' hout hout'
    obtain ⟨dest, hdest, hread⟩ := h out hout
    obtain ⟨dest', hdest', hread'⟩ := h' out hout'
    have heq := (hread []).symm.trans (hread' [])
    simp only [Option.some.injEq, Prod.mk.injEq, SocksRequest.mk.injEq] at heq
    obtain ⟨⟨-, rfl, hport, -⟩, -⟩ := heq
    exact ⟨UInt16.toNat_inj.1 hport, dest, hdest, hdest'⟩
  · intro out h h' hout hout'
    obtain ⟨dest, hdest, hread⟩ := h out hout
    obtain ⟨dest', hdest', hread'⟩ := h' out hout'
    have heq := (hread []).symm.trans (hread' [])
    simp only [Option.some.injEq, Prod.mk.injEq, SocksRequest.mk.injEq] at heq
    obtain ⟨⟨-, rfl, hport, huser⟩, -⟩ := heq
    exact ⟨UInt16.toNat_inj.1 hport, huser, dest, hdest, hdest'⟩

/-- A host name with a sign in front, and the address it is sent as. -/
def signedHost : CStr := (strlcpy 16 (bytes "+1.2.3.4")).toCStr

def bareHost : CStr := (strlcpy 16 (bytes "1.2.3.4")).toCStr

/-- An address SOCKS4a keeps for itself. -/
def markerHost : CStr := (strlcpy 16 (bytes "0.0.0.1")).toCStr

/-- `+1.2.3.4` is no literal and goes as the address `1.2.3.4`; `0.0.0.1` over SOCKS4a is no request. -/
theorem signedHost_not_named :
    ¬(∀ cap host port, Socks5Names cap host port) ∧
      ¬(∀ cap host port socks4a userid, Socks4Names cap host port socks4a userid) ∧
      pmxSocks5BuildConnect 512 signedHost 443 = pmxSocks5BuildConnect 512 bareHost 443 ∧
      Denotes bareHost.str (.ip [1, 2, 3, 4]) ∧ ¬Denotes signedHost.str (.ip [1, 2, 3, 4]) ∧
      ¬Socks4Names 512 markerHost 443 true signedHost := by
  have hsigned : ¬Plain signedHost.str := by
    intro hplain
    have hplus := hplain.1 43 (by decide)
    exact absurd hplus (by decide)
  have haccepted : parseIpv4 signedHost = some [1, 2, 3, 4] := by decide
  have hbare : Denotes bareHost.str (.ip [1, 2, 3, 4]) := by
    have hdigit : ∀ c : UInt8, isDigit c = true → digitsVal [c] ≤ 255 → Octet [c] := by
      intro c hc hle
      refine ⟨List.cons_ne_nil c [], Nat.le_of_lt (by simp), fun d hd => ?_, hle⟩
      rw [List.mem_singleton.1 hd]
      exact hc
    exact ⟨[49], [50], [51], [52], hdigit _ rfl (by decide), hdigit _ rfl (by decide),
      hdigit _ rfl (by decide), hdigit _ rfl (by decide), by decide, by decide⟩
  have hmarker : ¬Socks4Names 512 markerHost 443 true signedHost := by
    rw [socks4Names_iff]
    rintro (hcap | hnone | ⟨-, hno⟩)
    · exact absurd hcap (by decide)
    · exact absurd hnone (by decide)
    · exact absurd (hno rfl) (by decide)
  refine ⟨fun hall => ?_, fun hall => hmarker (hall _ _ _ _ _), by decide, hbare, ?_, hmarker⟩
  · rcases (socks5Names_iff 512 signedHost 443).1 (hall _ _ _) with hcap | hnone | hplain
    · exact absurd hcap (by decide)
    · rw [haccepted] at hnone
      cases hnone
    · exact hsigned hplain
  · exact fun hdenotes => hsigned (IsLiteral.plain hdenotes)

end ProxiMight
