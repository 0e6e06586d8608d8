import ProxiMight.ProxyHandshake

/-!
# Where the HTTP handshake leaves the stream

The handshake answers as soon as the receives so far hold the status code, or gives up after eight of
them.  So what it has consumed by then is wherever the stream happened to be cut.

* **`httpHandshake_exact_iff`** — which cuts leave the tunnel as it is.
-/

namespace ProxiMight

open CString Segments

/-- The end of a response head. -/
def crlfCrlf : List UInt8 := [13, 10, 13, 10]

/-- A status line up to its code, and what follows. -/
def headBytes (version digits rest : List UInt8) : List UInt8 :=
  bytes "HTTP/" ++ version ++ space :: (digits ++ rest)

/-- A complete response head: a status line with a code of three digits, and the headers up to the first
blank line, in less than 1023 bytes. -/
structure ResponseHead where
  version : List UInt8
  digits : List UInt8
  rest : List UInt8
  version_space : space ∉ version
  digits_length : digits.length = 3
  digits_isDigit : ∀ c ∈ digits, isDigit c = true
  ends : crlfCrlf <:+ rest
  first : ¬crlfCrlf <:+: (headBytes version digits rest).dropLast
  short : (headBytes version digits rest).length < httpReplyCap

namespace ResponseHead

variable (h : ResponseHead)

/-- The head as it is sent. -/
def text : List UInt8 := headBytes h.version h.digits h.rest

/-- What the code in the head means. -/
def status : PmxStatus := statusOfCode (digitsVal h.digits)

/-- How many bytes the parser needs to find the code. -/
def ready : ℕ := max 12 (h.version.length + 9)

theorem length_text : h.text.length = h.version.length + 9 + h.rest.length := by
  rw [text, headBytes, List.length_append, List.length_append, List.length_cons, List.length_append,
    h.digits_length]
  show 5 + h.version.length + (3 + h.rest.length + 1) = _
  omega

theorem ready_le : h.ready ≤ h.text.length := by
  have hrest : 4 ≤ h.rest.length := h.ends.length_le
  rw [h.length_text, ready]
  omega

theorem ready_le_stream (tunnel : List UInt8) : h.ready ≤ (h.text ++ tunnel).length := by
  have hready := h.ready_le
  rw [List.length_append]
  omega

theorem ready_pos : 0 < h.ready := by
  rw [ready]
  omega

theorem text_short : h.text.length < 1023 := h.short

end ResponseHead

/-! ### Reading the status line -/

theorem statusOfCode_ne_errParse (code : ℕ) : statusOfCode code ≠ .errParse := by
  rw [statusOfCode]
  split_ifs
  · decide
  · decide
  · decide

theorem statusOfCode_ne_errProxyHandshake (code : ℕ) : statusOfCode code ≠ .errProxyHandshake := by
  rw [statusOfCode]
  split_ifs
  · decide
  · decide
  · decide

theorem noSpace_before (h : ResponseHead) : ∀ c ∈ bytes "HTTP/" ++ h.version, (c != space) = true := by
  intro c hc
  rw [bne_iff_ne]
  rintro rfl
  rcases List.mem_append.1 hc with hc | hc
  · revert hc
    decide
  · exact h.version_space hc

theorem statusCode_digits {digits : List UInt8} (hlen : digits.length = 3)
    (hdigits : ∀ c ∈ digits, isDigit c = true) (more : List UInt8) :
    statusCode (digits ++ more) = some (digitsVal digits) := by
  have hrun : 3 ≤ ((digits ++ more).takeWhile isDigit).length := by
    rw [List.takeWhile_append_of_pos hdigits, List.length_append]
    omega
  rw [statusCode, if_pos hrun, ← hlen, List.take_left]

section Parse

variable (h : ResponseHead) (tunnel : List UInt8)

/-- The stream at the first space. -/
theorem stream_eq : h.text ++ tunnel =
    (bytes "HTTP/" ++ h.version) ++ space :: (h.digits ++ (h.rest ++ tunnel)) := by
  simp only [ResponseHead.text, headBytes, List.append_assoc, List.cons_append]

theorem length_beforeSpace : (bytes "HTTP/" ++ h.version).length = h.version.length + 5 := by
  rw [List.length_append, Nat.add_comm]
  rfl

/-- What the parser finds from the first space on, in the first `n` bytes. -/
theorem afterVersion_take (n : ℕ) :
    ((h.text ++ tunnel).take n).dropWhile (· != space) =
      (space :: (h.digits ++ (h.rest ++ tunnel))).take (n - (h.version.length + 5)) := by
  rw [stream_eq, List.take_append, length_beforeSpace]
  by_cases hn : h.version.length + 5 ≤ n
  · rw [List.take_of_length_le (by rw [length_beforeSpace]; exact hn),
      List.dropWhile_append_of_pos (noSpace_before h)]
    cases hm : n - (h.version.length + 5) with
    | zero => rfl
    | succ m =>
      rw [List.take_succ_cons, List.dropWhile_cons]
      rfl
  · rw [show n - (h.version.length + 5) = 0 from by omega, List.take_zero, List.append_nil,
      List.dropWhile_eq_nil_iff]
    intro c hc
    exact noSpace_before h c (List.mem_of_mem_take hc)

/-- Before the code is complete the parser waits for more. -/
theorem parseConnectReply_early {n : ℕ} (hn : n < h.ready) :
    (pmxHttpParseConnectReply ((h.text ++ tunnel).take n)).1 = .errParse := by
  rw [pmxHttpParseConnectReply]
  by_cases hshort : ((h.text ++ tunnel).take n).length < 12
  · rw [if_pos hshort]
  rw [if_neg hshort]
  by_cases hfive : ((h.text ++ tunnel).take n).take 5 ≠ bytes "HTTP/"
  · rw [if_pos hfive]
  rw [if_neg hfive, afterVersion_take]
  have h12 : 12 ≤ n := by
    rw [List.length_take] at hshort
    omega
  have hfew : ((space :: (h.digits ++ (h.rest ++ tunnel))).take
      (n - (h.version.length + 5))).length < 4 := by
    rw [ResponseHead.ready] at hn
    rw [List.length_take]
    omega
  dsimp only
  rw [if_pos hfew]

/-- Once the code is there, what follows does not change the answer. -/
theorem parseConnectReply_ready {n : ℕ} (hn : h.ready ≤ n) :
    (pmxHttpParseConnectReply ((h.text ++ tunnel).take n)).1 = h.status := by
  have hready := h.ready_le
  rw [ResponseHead.ready] at hn
  have hlong : ¬((h.text ++ tunnel).take n).length < 12 := by
    rw [ResponseHead.ready] at hready
    rw [List.length_take, List.length_append]
    omega
  have hfive : ((h.text ++ tunnel).take n).take 5 = bytes "HTTP/" := by
    rw [List.take_take, show min 5 n = 5 from by omega, stream_eq, List.append_assoc]
    rfl
  obtain ⟨m, hm⟩ : ∃ m, n - (h.version.length + 5) = m + 4 :=
    ⟨n - (h.version.length + 5) - 4, by omega⟩
  have hafter : ((h.text ++ tunnel).take n).dropWhile (· != space) =
      space :: (h.digits ++ (h.rest ++ tunnel).take m) := by
    rw [afterVersion_take, hm, List.take_succ_cons, List.take_append,
      List.take_of_length_le (by rw [h.digits_length]; omega), h.digits_length]
    rfl
  rw [pmxHttpParseConnectReply, if_neg hlong, if_neg (by rw [hfive]; exact fun hne => hne rfl),
    hafter]
  have hfour : ¬(space :: (h.digits ++ (h.rest ++ tunnel).take m)).length < 4 := by
    rw [List.length_cons, List.length_append, h.digits_length]
    omega
  simp only [if_neg hfour, List.drop_succ_cons, List.drop_zero,
    statusCode_digits h.digits_length h.digits_isDigit]
  rfl

end Parse

/-! ### The loop -/

/-- What was received so far is the front of the stream. -/
theorem parse_prefix {h : ResponseHead} {tunnel resp : List UInt8} (hresp : resp <+: h.text ++ tunnel) :
    (pmxHttpParseConnectReply resp).1 = if resp.length < h.ready then .errParse else h.status := by
  rw [List.prefix_iff_eq_take.1 hresp, List.length_take, Nat.min_eq_left hresp.length_le]
  split_ifs with hlt
  · exact parseConnectReply_early h tunnel hlt
  · exact parseConnectReply_ready h tunnel (Nat.not_lt.1 hlt)

theorem pmxRecvSome_cons {w : Wire} {seg : List UInt8} {rest : List (List UInt8)} {cap : ℕ}
    (harr : w.arriving = seg :: rest) (hseg : seg ≠ []) (hcap : 0 < cap) :
    pmxRecvSome w cap =
      (.ok (seg.take cap), { w with arriving := (receive cap (seg :: rest)).2 }) := by
  rw [pmxRecvSome, harr]
  dsimp only
  rw [if_neg (by simp [hseg, Nat.ne_of_gt hcap])]
  rfl

/-- A round that receives less than the code goes on with it. -/
theorem httpReplyLoop_early {h : ResponseHead} {tunnel resp seg : List UInt8}
    {rest : List (List UInt8)} {w : Wire} (attempts : ℕ) (harr : w.arriving = seg :: rest)
    (hseg : seg ≠ []) (hflat : resp ++ w.arriving.flatten = h.text ++ tunnel)
    (hearly : (resp ++ seg).length < h.ready) :
    httpReplyLoop (attempts + 1) resp w
      = httpReplyLoop attempts (resp ++ seg) { w with arriving := rest } := by
  have hcap : h.ready < httpReplyCap := Nat.lt_of_le_of_lt h.ready_le h.text_short
  have hpos := List.length_pos_of_ne_nil hseg
  have hlen : (resp ++ seg).length = resp.length + seg.length := List.length_append
  have hfits : seg.length ≤ httpReplyCap - resp.length := by omega
  have hfront : resp ++ seg <+: h.text ++ tunnel := by
    rw [← hflat, harr, List.flatten_cons, ← List.append_assoc]
    exact List.prefix_append _ _
  have hparse := parse_prefix hfront
  rw [if_pos hearly] at hparse
  rw [httpReplyLoop, pmxRecvSome_cons harr hseg (by omega), receive_of_le hfits,
    List.take_of_length_le hfits]
  dsimp only
  rw [hparse, if_neg (fun hne => hne rfl), if_neg (by omega)]

/-- The round that completes the code answers. -/
theorem httpReplyLoop_answers {h : ResponseHead} {tunnel resp last : List UInt8}
    {post : List (List UInt8)} {w : Wire} (attempts : ℕ) (harr : w.arriving = last :: post)
    (hlast : last ≠ []) (hflat : resp ++ w.arriving.flatten = h.text ++ tunnel)
    (hbefore : resp.length < h.ready) (hreach : h.ready ≤ (resp ++ last).length) :
    httpReplyLoop (attempts + 1) resp w = (h.status, { w with
      arriving := (receive (httpReplyCap - resp.length) (last :: post)).2 }) := by
  have hcap : h.ready < httpReplyCap := Nat.lt_of_le_of_lt h.ready_le h.text_short
  have hfront : resp ++ last.take (httpReplyCap - resp.length) <+: h.text ++ tunnel := by
    rw [← hflat, harr, List.flatten_cons]
    exact (List.prefix_append_right_inj _).2
      ((List.take_prefix _ _).trans (List.prefix_append _ _))
  have hlong : ¬(resp ++ last.take (httpReplyCap - resp.length)).length < h.ready := by
    rw [List.length_append] at hreach ⊢
    rw [List.length_take]
    omega
  have hstatus : h.status ≠ .errParse := statusOfCode_ne_errParse _
  have hparse := parse_prefix hfront
  rw [if_neg hlong] at hparse
  rw [httpReplyLoop, pmxRecvSome_cons harr hlast (by omega)]
  dsimp only
  rw [hparse, if_pos hstatus]

/-- The loop answers with the receive that completes the code, if it gets that far. -/
theorem httpReplyLoop_reach {h : ResponseHead} {tunnel last : List UInt8} {post : List (List UInt8)} :
    ∀ (pre : List (List UInt8)) (attempts : ℕ) (resp : List UInt8) (w : Wire),
      w.arriving = pre ++ last :: post → (∀ seg ∈ w.arriving, seg ≠ []) →
      resp ++ w.arriving.flatten = h.text ++ tunnel →
      (resp ++ pre.flatten).length < h.ready →
      h.ready ≤ (resp ++ (pre ++ [last]).flatten).length →
      (pre.length < attempts →
        httpReplyLoop attempts resp w = (h.status, { w with
          arriving := (receive (httpReplyCap - (resp ++ pre.flatten).length) (last :: post)).2 })) ∧
      (attempts ≤ pre.length → (httpReplyLoop attempts resp w).1 = .errProxyHandshake) := by
  intro pre
  induction pre with
  | nil =>
    intro attempts resp w harr hne hflat hbefore hreach
    rw [List.nil_append] at harr
    simp only [List.flatten_nil, List.append_nil, List.nil_append, List.flatten_cons] at hbefore hreach ⊢
    have hlast : last ≠ [] := hne last (by rw [harr]; exact List.mem_cons_self)
    cases attempts with
    | zero => exact ⟨fun hlt => absurd hlt (Nat.not_lt_zero _), fun _ => rfl⟩
    | succ attempts =>
      exact ⟨fun _ => httpReplyLoop_answers attempts harr hlast hflat hbefore hreach,
        fun hle => absurd hle (Nat.not_succ_le_zero _)⟩
  | cons seg pre ih =>
    intro attempts resp w harr hne hflat hbefore hreach
    rw [List.cons_append] at harr
    cases attempts with
    | zero => exact ⟨fun hlt => absurd hlt (Nat.not_lt_zero _), fun _ => rfl⟩
    | succ attempts =>
      have hseg : seg ≠ [] := hne seg (by rw [harr]; exact List.mem_cons_self)
      have hassoc : resp ++ (seg :: pre).flatten = resp ++ seg ++ pre.flatten := by
        rw [List.flatten_cons, List.append_assoc]
      have hearly : (resp ++ seg).length < h.ready := by
        rw [hassoc, List.length_append] at hbefore
        omega
      have hrest := ih attempts (resp ++ seg) { w with arriving := pre ++ last :: post } rfl
        (fun seg' hmem => hne seg' (by rw [harr]; exact List.mem_cons_of_mem seg hmem))
        (by rw [← hflat, harr, List.flatten_cons, List.append_assoc])
        (by rw [← hassoc]; exact hbefore)
        (by rw [List.cons_append, List.flatten_cons, ← List.append_assoc] at hreach; exact hreach)
      rw [httpReplyLoop_early attempts harr hseg hflat hearly, hassoc, List.length_cons]
      exact ⟨fun hlt => hrest.1 (Nat.lt_of_succ_lt_succ hlt),
        fun hle => hrest.2 (Nat.le_of_succ_le_succ hle)⟩

/-! ### Cuts -/

/-- A way to cut a stream into receives, none of them empty. -/
structure Cut (stream : List UInt8) where
  segs : List (List UInt8)
  flatten_segs : segs.flatten = stream
  ne_nil : ∀ seg ∈ segs, seg ≠ []

/-- The receive that completes the status code is among the first eight, and, where the code means
success, ends where the head ends. -/
def AnswersAtHead (h : ResponseHead) (segs : List (List UInt8)) : Prop :=
  ∃ pre last post, Reach h.ready segs pre last post ∧ pre.length < 8 ∧
    (h.status = .ok → (pre ++ [last]).flatten.length = h.text.length)

/-- The request fits its buffer and the socket takes it. -/
def RequestSent (p : PmxProxy) (host : CStr) (port : PmxPort) (takes : Option ℕ) : Prop :=
  ∃ request, httpRequest p host port = .ok request ∧ ∀ room ∈ takes, request.length ≤ room

/-- A request that cannot be built is an invalid argument. -/
theorem httpRequest_error {p : PmxProxy} {host : CStr} {port : PmxPort} {st : PmxStatus}
    (h : httpRequest p host port = .error st) : st = .errInvalidArg := by
  have hbase : ∀ input cap st, pmxBase64Encode input cap = .error st → st = .errInvalidArg := by
    intro input cap st h
    rw [pmxBase64Encode] at h
    split_ifs at h
    exact (Except.error.inj h).symm
  have hauth : ∀ user pass st, authHeader user pass = .error st → st = .errInvalidArg := by
    intro user pass st h
    cases user with
    | none => cases h
    | some user =>
      simp only [authHeader] at h
      split_ifs at h with hempty hlong
      · exact (Except.error.inj h).symm
      · split at h
        · next hb => exact hbase _ _ _ (hb.trans h)
        · cases h
  rw [httpRequest, pmxHttpBuildConnect] at h
  split at h
  · next ha => exact hauth _ _ _ (ha.trans h)
  · dsimp only at h
    split_ifs at h
    exact (Except.error.inj h).symm

/-- A handshake whose request does not go out fails, whatever the server sends. -/
theorem httpHandshake_unsent {p : PmxProxy} {host : CStr} {port : PmxPort} {takes : Option ℕ}
    (h : ¬RequestSent p host port takes) :
    ∃ st, st ≠ .ok ∧ ∀ arriving ending,
      (httpHandshake p host port (wireOpen arriving ending takes)).1 = st := by
  cases hreq : httpRequest p host port with
  | error st =>
    refine ⟨st, by rw [httpRequest_error hreq]; decide, fun arriving ending => ?_⟩
    rw [httpHandshake, hreq]
    rfl
  | ok request =>
    obtain ⟨room, htakes, hlt⟩ : ∃ room, takes = some room ∧ room < request.length := by
      by_contra hnone
      refine h ⟨request, hreq, fun room hmem => Nat.not_lt.1 fun hlt => ?_⟩
      exact hnone ⟨room, hmem, hlt⟩
    refine ⟨.errNet, by decide, fun arriving ending => ?_⟩
    rw [httpHandshake, hreq, building, sending, pmxSendAll_of_no_room (by exact htakes) hlt]
    rfl

/-- A request that goes out leaves the handshake to the loop. -/
theorem httpHandshake_sent {p : PmxProxy} {host : CStr} {port : PmxPort} {takes : Option ℕ}
    (h : RequestSent p host port takes) :
    ∃ takes' sent', ∀ arriving ending,
      httpHandshake p host port (wireOpen arriving ending takes)
        = httpReplyLoop 8 [] ⟨arriving, ending, takes', sent'⟩ := by
  obtain ⟨request, hreq, hroom⟩ := h
  refine ⟨takes.map (· - request.length), [] ++ request, fun arriving ending => ?_⟩
  rw [httpHandshake, hreq, building, sending, pmxSendAll_of_room (by exact hroom)]
  rfl

/-- What the loop leaves of the stream is the tunnel exactly when the answering receive ends where the
head ends. -/
theorem rest_eq_tunnel_iff {h : ResponseHead} {tunnel last : List UInt8} {pre post : List (List UInt8)}
    (hflat : (pre ++ last :: post).flatten = h.text ++ tunnel)
    (hbefore : pre.flatten.length < h.ready) :
    (receive (httpReplyCap - pre.flatten.length) (last :: post)).2.flatten = tunnel ↔
      (pre ++ [last]).flatten.length = h.text.length := by
  have hready := h.ready_le
  have hshort := h.text_short
  have hrecv := receive_flatten (httpReplyCap - pre.flatten.length) (last :: post)
  have htaken : (receive (httpReplyCap - pre.flatten.length) (last :: post)).1
      = last.take (httpReplyCap - pre.flatten.length) := rfl
  rw [htaken] at hrecv
  have hwhole : (pre.flatten ++ last.take (httpReplyCap - pre.flatten.length)) ++
      (receive (httpReplyCap - pre.flatten.length) (last :: post)).2.flatten = h.text ++ tunnel := by
    rw [List.append_assoc, hrecv, ← List.flatten_append, hflat]
  have hlen : (pre.flatten ++ last.take (httpReplyCap - pre.flatten.length)).length = h.text.length ↔
      (pre ++ [last]).flatten.length = h.text.length := by
    rw [List.flatten_append, List.length_append, List.length_append, List.length_take,
      show [last].flatten = last from by simp, httpReplyCap]
    omega
  rw [← hlen]
  constructor
  · intro htunnel
    rw [htunnel] at hwhole
    rw [List.append_cancel_right hwhole]
  · intro hcount
    exact (List.append_inj hwhole hcount).2

/-- A stream in one piece holds the status code at once. -/
theorem httpReplyLoop_onePiece (h : ResponseHead) (tunnel : List UInt8) (ending : PmxStatus)
    (takes : Option ℕ) (sent : List UInt8) :
    (httpReplyLoop 8 [] ⟨[h.text ++ tunnel], ending, takes, sent⟩).1 = h.status := by
  have hpos := h.ready_pos
  have hlong := h.ready_le_stream tunnel
  have hne : h.text ++ tunnel ≠ [] := by
    intro hnil
    rw [hnil, List.length_nil] at hlong
    omega
  have hflat : [] ++ ([h.text ++ tunnel] : List (List UInt8)).flatten = h.text ++ tunnel := by
    simp
  rw [(httpReplyLoop_reach [] 8 [] ⟨[h.text ++ tunnel], ending, takes, sent⟩ rfl
    (by simpa using hne) hflat (by simpa using hpos) (by simpa using hlong)).1 (by decide)]

/-- A loop on a cut stream: the answer and what is left, by which segment reaches the status code. -/
theorem httpReplyLoop_exact_iff (h : ResponseHead) {tunnel : List UInt8} (cut : Cut (h.text ++ tunnel))
    (ending : PmxStatus) (takes : Option ℕ) (sent : List UInt8) :
    ((httpReplyLoop 8 [] ⟨cut.segs, ending, takes, sent⟩).1 = h.status ∧
      ((httpReplyLoop 8 [] ⟨cut.segs, ending, takes, sent⟩).1 = .ok →
        (httpReplyLoop 8 [] ⟨cut.segs, ending, takes, sent⟩).2.arriving.flatten = tunnel)) ↔
      AnswersAtHead h cut.segs := by
  obtain ⟨pre, last, post, hreach⟩ := exists_reach h.ready_pos cut.segs
    (by rw [cut.flatten_segs]; exact h.ready_le_stream tunnel)
  obtain ⟨hfast, hslow⟩ := httpReplyLoop_reach pre 8 [] ⟨cut.segs, ending, takes, sent⟩ hreach.split
    cut.ne_nil cut.flatten_segs hreach.before hreach.reached
  rw [List.nil_append] at hfast
  have hflat : (pre ++ last :: post).flatten = h.text ++ tunnel := by
    rw [← hreach.split, cut.flatten_segs]
  have hrest := rest_eq_tunnel_iff hflat hreach.before
  by_cases hcount : pre.length < 8
  · rw [hfast hcount]
    constructor
    · rintro ⟨-, htunnel⟩
      exact ⟨pre, last, post, hreach, hcount, fun hok => hrest.1 (htunnel hok)⟩
    · rintro ⟨pre', last', post', hreach', -, hend⟩
      obtain ⟨rfl, rfl, rfl⟩ := hreach.unique hreach'
      exact ⟨rfl, fun hok => hrest.2 (hend hok)⟩
  · rw [hslow (Nat.not_lt.1 hcount)]
    constructor
    · rintro ⟨hsame, -⟩
      exact absurd hsame.symm (statusOfCode_ne_errProxyHandshake _)
    · rintro ⟨pre', last', post', hreach', hcount', -⟩
      obtain ⟨rfl, -, -⟩ := hreach.unique hreach'
      exact absurd hcount' hcount

/-- **Which cuts leave the tunnel as it is.**  Whatever follows a response head, and however the stream
is cut, the handshake returns what it returns for the stream in one piece and, on success, leaves the
tunnel, exactly when the request does not go out or the answering receive ends with the head. -/
theorem httpHandshake_exact_iff (p : PmxProxy) (host : CStr) (port : PmxPort) (h : ResponseHead)
    (tunnel : List UInt8) (cut : Cut (h.text ++ tunnel)) (ending : PmxStatus) (takes : Option ℕ) :
    ((httpHandshake p host port (wireOpen cut.segs ending takes)).1
        = (httpHandshake p host port (wireOpen [h.text ++ tunnel] ending takes)).1 ∧
      ((httpHandshake p host port (wireOpen cut.segs ending takes)).1 = .ok →
        (httpHandshake p host port (wireOpen cut.segs ending takes)).2.arriving.flatten = tunnel)) ↔
      (RequestSent p host port takes → AnswersAtHead h cut.segs) := by
  by_cases hsent : RequestSent p host port takes
  · obtain ⟨takes', sent', hloop⟩ := httpHandshake_sent hsent
    rw [forall_prop_of_true hsent, hloop, hloop, httpReplyLoop_onePiece]
    exact httpReplyLoop_exact_iff h cut ending takes' sent'
  · obtain ⟨st, hst, hunsent⟩ := httpHandshake_unsent hsent
    rw [hunsent, hunsent]
    exact ⟨fun _ h => absurd h hsent, fun _ => ⟨rfl, fun h => absurd h hst⟩⟩

/-! ### Cuts that spoil the stream -/

/-- The shortest answer of a proxy that agrees. -/
def okHead : ResponseHead where
  version := bytes "1.1"
  digits := bytes "200"
  rest := bytes " OK\r\n\r\n"
  version_space := by decide
  digits_length := by decide
  digits_isDigit := List.all_eq_true.1 (by decide)
  ends := ⟨bytes " OK", by decide⟩
  first := by decide +kernel
  short := by decide +kernel

/-- An HTTP proxy is asked for `example.com:443`, and answers with these segments. -/
def okRun (segs : List (List UInt8)) : PmxStatus × Wire :=
  httpHandshake { pmxProxyInit with type := .http } (strlcpy 16 (bytes "example.com")).toCStr 443
    (wireOpen segs .errTimeout none)

/-- The answer and one byte of the tunnel, in one receive. -/
def onePiece : Cut (okHead.text ++ bytes "x") where
  segs := [okHead.text ++ bytes "x"]
  flatten_segs := by decide
  ne_nil := by decide

/-- Cut behind the status code. -/
def codeFirst : Cut (okHead.text ++ bytes "x") where
  segs := [bytes "HTTP/1.1 200", bytes " OK\r\n\r\nx"]
  flatten_segs := by decide
  ne_nil := by decide

/-- Cut into single bytes. -/
def byteByByte : Cut (okHead.text ++ bytes "x") where
  segs := (okHead.text ++ bytes "x").map fun c => [c]
  flatten_segs := by decide
  ne_nil := by decide

/-- In one piece the byte of the tunnel is swallowed, behind the code the rest of the head is left, and
byte by byte the handshake fails. -/
theorem okRun_depends_on_cut :
    ((okRun onePiece.segs).1 = .ok ∧ (okRun onePiece.segs).2.arriving.flatten = []) ∧
    ((okRun codeFirst.segs).1 = .ok ∧
      (okRun codeFirst.segs).2.arriving.flatten = bytes " OK\r\n\r\nx") ∧
    (okRun byteByByte.segs).1 = .errProxyHandshake ∧
    ¬∀ cut : Cut (okHead.text ++ bytes "x"), (okRun cut.segs).1 = (okRun onePiece.segs).1 ∧
      ((okRun cut.segs).1 = .ok → (okRun cut.segs).2.arriving.flatten = bytes "x") := by
  have hone : (okRun onePiece.segs).1 = .ok ∧ (okRun onePiece.segs).2.arriving.flatten = [] := by
    decide +kernel
  refine ⟨hone, by decide +kernel, by decide +kernel, ?_⟩
  intro hall
  have hkept := (hall onePiece).2 hone.1
  rw [hone.2] at hkept
  exact absurd hkept (by decide)

end ProxiMight
