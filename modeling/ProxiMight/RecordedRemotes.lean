import ProxiMight.EndpointPorts
import ProxiMight.InlineBlocks

/-!
# Which remotes are recorded (`pmx_vpn_parse_openvpn`, `pmx_vpn_parse_wireguard`)

A record has room for eight endpoints.  Those of a WireGuard config are the first eight that its peers name.
Those of an OpenVPN config are the first eight `remote` lines that the parser reads, and these are not always
the lines outside the inline blocks: a body line `</ca` ends the skipping of `<ca>`, and a line `<foo`
without its `>` begins to skip what is in no block.

* **`recordedRemotes_iff`** — WireGuard endpoints are the first eight; OpenVPN endpoints are recorded of the
  first eight `remote` lines outside the blocks exactly when, up to there, every `remote` line stands in the
  body of a block just when a tag is being skipped.
-/

namespace ProxiMight

open CString TextLines Words

/-! ### WireGuard -/

/-- The value is `host:port` or `[host]:port`, with a host and the number of a port. -/
def ValidEndpoint (val : List UInt8) : Prop :=
  ∃ host port n, EndpointForm val host port ∧ host ≠ [] ∧ writtenNumber port = some n ∧ 1 ≤ n ∧ n ≤ 65535

theorem wgRemote_isSome_iff (val : List UInt8) : (wgRemote val).isSome = true ↔ ValidEndpoint val := by
  have hcut : ∀ host : List UInt8, host.take (pmxMaxHost - 1) = [] ↔ host = [] := by
    intro host
    rw [List.take_eq_nil_iff]
    exact or_iff_right (by decide)
  rw [wgRemote]
  constructor
  · intro h
    obtain ⟨e, he⟩ := Option.isSome_iff_exists.1 h
    obtain ⟨r, hparse, hr⟩ := Option.bind_eq_some_iff.1 he
    obtain ⟨host, port, n, hform, hhost, hn, hlow, hhigh, -⟩ :=
      (parseHostport_eq_some_iff val pmxMaxHost r).1 hparse
    split_ifs at hr with hnil
    rw [hhost, hcut] at hnil
    exact ⟨host, port, n, hform, hnil, hn, hlow, hhigh⟩
  · rintro ⟨host, port, n, hform, hne, hn, hlow, hhigh⟩
    have hread : ((UInt16.ofNat n.toNat).toNat : ℤ) = n := by
      have hsize : UInt16.size = 65536 := rfl
      rw [UInt16.toNat_ofNat_of_lt' (by omega)]
      omega
    have hparse := (parseHostport_eq_some_iff val pmxMaxHost
      (host.take (pmxMaxHost - 1), UInt16.ofNat n.toNat)).2
      ⟨host, port, n, hform, rfl, hn, hlow, hhigh, hread⟩
    rw [hparse, Option.bind_some, if_neg (fun h => hne ((hcut host).1 h))]
    rfl

instance (val : List UInt8) : Decidable (ValidEndpoint val) :=
  decidable_of_iff _ (wgRemote_isSome_iff val)

/-- The remotes of a WireGuard config. -/
def validEndpoints (text : CStr) : List (List UInt8) :=
  (peerValues wholeLine (bytes "Endpoint") .none (configLines text)).filter fun val =>
    decide (ValidEndpoint val)

/-- The endpoint is the value: its host as it is written, its port, UDP. -/
def EndpointOf (val : List UInt8) (e : PmxVpnEndpoint) : Prop :=
  ∃ port, EndpointForm val e.host.str port ∧ writtenNumber port = some (e.port.toNat : ℤ) ∧ e.udp = true

/-- The endpoints of a config that is accepted are its first eight remotes, and the flag tells of more. -/
def WgRemotesKept (text : CStr) : Prop :=
  (pmxVpnParseWireguard text).2 = .ok →
    List.Forall₂ EndpointOf ((validEndpoints text).take pmxMaxVpnEndpoints)
        (pmxVpnParseWireguard text).1.endpoints ∧
      ((pmxVpnParseWireguard text).1.endpointsTruncated = true ↔
        pmxMaxVpnEndpoints < (validEndpoints text).length)

/-- Lines that fit the buffer are read as they are written. -/
theorem peerValues_of_short (name : List UInt8) {ls : List (List UInt8)}
    (h : ∀ raw ∈ ls, raw.length < wgLineSize) :
    ∀ sec, peerValues wgBuf name sec ls = peerValues wholeLine name sec ls := by
  induction ls with
  | nil => exact fun _ => rfl
  | cons raw ls ih =>
    intro sec
    have hbuf : wgBuf raw = wholeLine raw := by
      rw [wgBuf, List.take_of_length_le (Nat.le_sub_one_of_lt (h raw List.mem_cons_self)), wholeLine]
    rw [peerValues, peerValues, hbuf, ih fun l hl => h l (List.mem_cons_of_mem _ hl)]

theorem trim_subset (s : List UInt8) : trim s ⊆ s :=
  fun _ hc => (List.dropWhile_suffix _).subset ((trim_isPrefix s).subset hc)

theorem mem_of_mem_peerValues {name : List UInt8} {ls : List (List UInt8)} {val : List UInt8} {c : UInt8}
    (hc : c ∈ val) : ∀ sec, val ∈ peerValues wholeLine name sec ls → ∃ raw ∈ ls, c ∈ raw := by
  induction ls with
  | nil => exact fun _ h => absurd h List.not_mem_nil
  | cons raw ls ih =>
    intro sec h
    rw [peerValues, List.mem_append, Option.mem_toList] at h
    rcases h with h | h
    · obtain rfl := peerValue_eq_some h
      have hline := (List.dropWhile_suffix _).subset ((List.drop_suffix 1 _).subset (trim_subset _ hc))
      exact ⟨raw, List.mem_cons_self, (List.takeWhile_prefix _).subset (trim_subset _ hline)⟩
    · obtain ⟨l, hl, hcl⟩ := ih _ h
      exact ⟨l, List.mem_cons_of_mem _ hl, hcl⟩

/-- The host is a part of the value. -/
theorem EndpointForm.host_subset {val host port : List UInt8} (h : EndpointForm val host port) :
    host ⊆ val ∧ host.length ≤ val.length := by
  rcases h with ⟨rfl, -⟩ | ⟨rfl, -⟩
  · exact ⟨List.subset_append_left _ _, by simp⟩
  · refine ⟨fun c hc => List.mem_cons_of_mem _ (List.mem_append_left _ hc), ?_⟩
    simp only [List.length_cons, List.length_append]
    omega

/-- **One value**: what is recorded of it. -/
theorem endpointOf_wgRemote {val : List UInt8} {e : PmxVpnEndpoint} (h : wgRemote val = some e)
    (hnul : nul ∉ val) (hfits : ∀ host port, EndpointForm val host port → host.length < pmxMaxHost) :
    EndpointOf val e := by
  obtain ⟨r, hparse, hr⟩ := Option.bind_eq_some_iff.1 h
  split_ifs at hr
  obtain rfl := Option.some.inj hr
  obtain ⟨host, port, n, hform, hhost, hn, -, -, hport⟩ :=
    (parseHostport_eq_some_iff val pmxMaxHost r).1 hparse
  have hstr : (strlcpy pmxMaxHost r.1).str = host := by
    rw [hhost, strlcpy_take]
    exact strlcpy_of_fits (fun hmem => hnul (hform.host_subset.1 hmem))
      (Nat.le_pred_of_lt (hfits host port hform))
  refine ⟨port, ?_, ?_, rfl⟩
  · show EndpointForm val (strlcpy pmxMaxHost r.1).str port
    rw [hstr]
    exact hform
  · rw [hn, ← hport]

/-- Each element that is kept, with what it was turned into. -/
theorem forall₂_filterMap {α β : Type} (f : α → Option β) (l : List α) :
    List.Forall₂ (fun a b => f a = some b) (l.filter fun a => (f a).isSome) (l.filterMap f) := by
  induction l with
  | nil => exact .nil
  | cons a l ih =>
    cases hfa : f a with
    | none => rwa [List.filter_cons_of_neg (by rw [hfa]; exact Bool.false_ne_true),
        List.filterMap_cons_none hfa]
    | some b =>
      rw [List.filter_cons_of_pos (by rw [hfa]; rfl), List.filterMap_cons_some hfa]
      exact .cons hfa ih

theorem wgRemotesKept {text : CStr} (hlines : ∀ raw ∈ configLines text, raw.length < wgLineSize)
    (hhosts : ∀ val ∈ validEndpoints text, ∀ host port, EndpointForm val host port →
      host.length < pmxMaxHost) : WgRemotesKept text := by
  intro _
  have hvals := peerValues_of_short (bytes "Endpoint") hlines .none
  have hvalid : (peerValues wholeLine (bytes "Endpoint") .none (configLines text)).filter
      (fun val => (wgRemote val).isSome) = validEndpoints text := by
    rw [validEndpoints]
    refine List.filter_congr fun val _ => ?_
    rw [Bool.eq_iff_iff, decide_eq_true_iff]
    exact wgRemote_isSome_iff val
  have hnul : ∀ val ∈ validEndpoints text, nul ∉ val := by
    intro val hval hmem
    obtain ⟨raw, hraw, hnulraw⟩ := mem_of_mem_peerValues hmem .none (List.mem_of_mem_filter hval)
    exact nul_notMem_configLines hraw hnulraw
  have hkept := forall₂_filterMap wgRemote (peerValues wholeLine (bytes "Endpoint") .none (configLines text))
  rw [hvalid, ← hvals] at hkept
  obtain ⟨hendpoints, htruncated, -⟩ := parseWireguard_remotes text
  constructor
  · rw [hendpoints]
    have hfirst : ∀ val ∈ (validEndpoints text).take pmxMaxVpnEndpoints,
        nul ∉ val ∧ ∀ host port, EndpointForm val host port → host.length < pmxMaxHost := fun val hval =>
      ⟨hnul val (List.mem_of_mem_take hval), hhosts val (List.mem_of_mem_take hval)⟩
    have hboth := (List.forall₂_and_left _ _).2 ⟨hfirst, List.forall₂_take pmxMaxVpnEndpoints hkept⟩
    exact hboth.imp fun val e hval => endpointOf_wgRemote hval.2 hval.1.1 hval.1.2
  · rw [htruncated, decide_eq_true_iff, hkept.length_eq]
    exact Iff.rfl

/-! ### OpenVPN -/

/-- The host that a `remote` line names, outside comments. -/
def remoteHost (raw : List UInt8) : Option (List UInt8) :=
  match words isSpace (stripComment raw) with
  | name :: host :: _ => if ciEq name (bytes "remote") = true then some host else none
  | _ => none

/-- The `remote` lines outside the inline blocks: where each stands, counted from `i`, and its host. -/
def remotesOutside : ℕ → Option (List UInt8) → List (List UInt8) → List (ℕ × List UInt8)
  | _, _, [] => []
  | i, block, raw :: rest =>
    (if block = none then ((remoteHost raw).map (i, ·)).toList else []) ++
      remotesOutside (i + 1) (blockStep block raw) rest

/-- The remotes of an OpenVPN config. -/
def validRemotes (text : CStr) : List (ℕ × List UInt8) := remotesOutside 0 none (configLines text)

/-- Where the lines stand of which the parser records an endpoint. -/
def recordedAt : ℕ → OvpnState → List (List UInt8) → List ℕ
  | _, _, [] => []
  | i, st, raw :: rest =>
    (if st.out.endpoints.length < (ovpnLine st raw).out.endpoints.length then [i] else []) ++
      recordedAt (i + 1) (ovpnLine st raw) rest

/-- The endpoints of a config that is accepted are recorded of its first eight remotes, each with the host
that is written there, and the flag tells of more. -/
def OvpnRemotesKept (text : CStr) : Prop :=
  (pmxVpnParseOpenvpn text).2 = .ok →
    recordedAt 0 ovpnInit (configLines text) = ((validRemotes text).take pmxMaxVpnEndpoints).map Prod.fst ∧
      (pmxVpnParseOpenvpn text).1.endpoints.map (fun e => e.host.str) =
        ((validRemotes text).take pmxMaxVpnEndpoints).map Prod.snd ∧
      ((pmxVpnParseOpenvpn text).1.endpointsTruncated = true ↔
        pmxMaxVpnEndpoints < (validRemotes text).length)

/-- A `remote` line follows while no tag is being skipped. -/
def readsRemote : CBuf ovpnTagSize → List (List UInt8) → Bool
  | _, [] => false
  | skip, raw :: rest =>
    ((remoteHost raw).isSome && skip.isEmpty) || readsRemote (tagStep skip raw) rest

/-- A `remote` line follows outside the inline blocks. -/
def namesRemote : Option (List UInt8) → List (List UInt8) → Bool
  | _, [] => false
  | block, raw :: rest =>
    ((remoteHost raw).isSome && decide (block = none)) || namesRemote (blockStep block raw) rest

/-- Up to the `n`-th remote, at every `remote` line a tag is being skipped exactly if the line stands in the
body of a block; and behind it a `remote` line is read exactly if one stands outside the blocks. -/
def InStep : ℕ → CBuf ovpnTagSize → Option (List UInt8) → List (List UInt8) → Prop
  | 0, skip, block, ls => readsRemote skip ls = namesRemote block ls
  | _ + 1, _, _, [] => True
  | n + 1, skip, block, raw :: rest =>
    if (remoteHost raw).isSome then
      (skip.isEmpty = true ↔ block = none) ∧
        InStep (if block = none then n else n + 1) (tagStep skip raw) (blockStep block raw) rest
    else InStep (n + 1) (tagStep skip raw) (blockStep block raw) rest

instance decidableInStep : ∀ (n : ℕ) (skip : CBuf ovpnTagSize) (block : Option (List UInt8))
    (ls : List (List UInt8)), Decidable (InStep n skip block ls)
  | 0, skip, block, [] => inferInstanceAs (Decidable (readsRemote skip [] = namesRemote block []))
  | 0, skip, block, raw :: rest =>
    inferInstanceAs (Decidable (readsRemote skip (raw :: rest) = namesRemote block (raw :: rest)))
  | _ + 1, _, _, [] => inferInstanceAs (Decidable True)
  | n + 1, skip, block, raw :: rest =>
    have := decidableInStep (if block = none then n else n + 1) (tagStep skip raw) (blockStep block raw) rest
    have := decidableInStep (n + 1) (tagStep skip raw) (blockStep block raw) rest
    inferInstanceAs (Decidable (if (remoteHost raw).isSome then _ ∧ _ else _))

/-! ### The lines that are read -/

/-- The `remote` lines that are read while no tag is being skipped. -/
def remotesRead : ℕ → CBuf ovpnTagSize → List (List UInt8) → List (ℕ × List UInt8)
  | _, _, [] => []
  | i, skip, raw :: rest =>
    (if skip.isEmpty = true then ((remoteHost raw).map (i, ·)).toList else []) ++
      remotesRead (i + 1) (tagStep skip raw) rest

/-- The lists begin with the same `n` elements, and both have more or neither. -/
def AgreeUpTo {α : Type} (n : ℕ) (l l' : List α) : Prop :=
  l.take n = l'.take n ∧ (n < l.length ↔ n < l'.length)

theorem agreeUpTo_cons {α : Type} (n : ℕ) (a : α) (l l' : List α) :
    AgreeUpTo (n + 1) (a :: l) (a :: l') ↔ AgreeUpTo n l l' := by
  rw [AgreeUpTo, AgreeUpTo, List.take_succ_cons, List.take_succ_cons, List.cons.injEq,
    and_iff_right rfl, List.length_cons, List.length_cons, Nat.succ_lt_succ_iff, Nat.succ_lt_succ_iff]

/-- Lists of which one begins with what the other does not have do not agree. -/
theorem not_agreeUpTo_of_notMem {α : Type} {n : ℕ} {a : α} {l l' : List α} (h : a ∉ l') :
    ¬AgreeUpTo (n + 1) (a :: l) l' ∧ ¬AgreeUpTo (n + 1) l' (a :: l) := by
  have hne : (a :: l).take (n + 1) ≠ l'.take (n + 1) := by
    intro heq
    rw [List.take_succ_cons] at heq
    exact h (List.mem_of_mem_take (heq ▸ List.mem_cons_self))
  exact ⟨fun hagree => hne hagree.1, fun hagree => hne hagree.1.symm⟩

theorem readsRemote_iff (ls : List (List UInt8)) :
    ∀ i skip, readsRemote skip ls = true ↔ 0 < (remotesRead i skip ls).length := by
  induction ls with
  | nil => exact fun _ _ => iff_of_false Bool.false_ne_true (Nat.lt_irrefl 0)
  | cons raw ls ih =>
    intro i skip
    rw [readsRemote, remotesRead, Bool.or_eq_true, ih (i + 1), List.length_append]
    cases remoteHost raw with
    | none => simp
    | some host =>
      by_cases hskip : skip.isEmpty = true
      · simp [hskip]
      · simp [hskip]

theorem namesRemote_iff (ls : List (List UInt8)) :
    ∀ i block, namesRemote block ls = true ↔ 0 < (remotesOutside i block ls).length := by
  induction ls with
  | nil => exact fun _ _ => iff_of_false Bool.false_ne_true (Nat.lt_irrefl 0)
  | cons raw ls ih =>
    intro i block
    rw [namesRemote, remotesOutside, Bool.or_eq_true, ih (i + 1), List.length_append]
    cases remoteHost raw with
    | none => simp
    | some host =>
      by_cases hblock : block = none
      · simp [hblock]
      · simp [hblock]

theorem le_of_mem_remotesRead (ls : List (List UInt8)) :
    ∀ {i skip p}, p ∈ remotesRead i skip ls → i ≤ p.1 := by
  induction ls with
  | nil => intro i skip p hp; cases hp
  | cons raw ls ih =>
    intro i skip p hp
    rw [remotesRead, List.mem_append] at hp
    rcases hp with hp | hp
    · split_ifs at hp
      · obtain ⟨host, -, rfl⟩ := Option.map_eq_some_iff.1 (Option.mem_toList.1 hp)
        exact le_rfl
      · cases hp
    · exact Nat.le_of_succ_le (ih hp)

theorem le_of_mem_remotesOutside (ls : List (List UInt8)) :
    ∀ {i block p}, p ∈ remotesOutside i block ls → i ≤ p.1 := by
  induction ls with
  | nil => intro i block p hp; cases hp
  | cons raw ls ih =>
    intro i block p hp
    rw [remotesOutside, List.mem_append] at hp
    rcases hp with hp | hp
    · split_ifs at hp
      · obtain ⟨host, -, rfl⟩ := Option.map_eq_some_iff.1 (Option.mem_toList.1 hp)
        exact le_rfl
      · cases hp
    · exact Nat.le_of_succ_le (ih hp)

/-- A line in front of all of a list is not among them, told by its position. -/
theorem notMem_map_of_later {γ : Type} {f : ℕ × List UInt8 → γ} (hf : ∀ p q, f p = f q → p.1 = q.1) {i : ℕ}
    {l : List (ℕ × List UInt8)} (hlater : ∀ p ∈ l, i + 1 ≤ p.1) (host : List UInt8) :
    f (i, host) ∉ l.map f := by
  intro hmem
  obtain ⟨p, hp, heq⟩ := List.mem_map.1 hmem
  have hle := hlater p hp
  rw [hf p (i, host) heq] at hle
  exact Nat.not_succ_le_self i hle

/-- **In step**, and only then, the lines that are read are those outside the blocks; `f` is what is looked at
of each, its place at least. -/
theorem agreeUpTo_iff_inStep {γ : Type} (f : ℕ × List UInt8 → γ) (hf : ∀ p q, f p = f q → p.1 = q.1)
    (ls : List (List UInt8)) :
    ∀ n i skip block, AgreeUpTo n ((remotesRead i skip ls).map f) ((remotesOutside i block ls).map f) ↔
      InStep n skip block ls := by
  have hzero : ∀ ls i skip block, AgreeUpTo 0 ((remotesRead i skip ls).map f)
      ((remotesOutside i block ls).map f) ↔ InStep 0 skip block ls := by
    intro ls i skip block
    rw [AgreeUpTo, InStep.eq_1, List.take_zero, List.take_zero, and_iff_right rfl, List.length_map,
      List.length_map, ← readsRemote_iff, ← namesRemote_iff]
    exact Bool.eq_iff_iff.symm
  induction ls with
  | nil =>
    intro n i skip block
    cases n with
    | zero => exact hzero [] i skip block
    | succ n => exact iff_of_true ⟨rfl, Iff.rfl⟩ trivial
  | cons raw ls ih =>
    intro n i skip block
    cases n with
    | zero => exact hzero (raw :: ls) i skip block
    | succ n =>
      rw [InStep, remotesRead, remotesOutside]
      cases hhost : remoteHost raw with
      | none =>
        simpa using ih (n + 1) (i + 1) (tagStep skip raw) (blockStep block raw)
      | some host =>
        -- a line that only one of the two lists has is the first of that one
        have hread : f (i, host) ∉ (remotesRead (i + 1) (tagStep skip raw) ls).map f :=
          notMem_map_of_later hf (fun _ hp => le_of_mem_remotesRead ls hp) host
        have houtside : f (i, host) ∉ (remotesOutside (i + 1) (blockStep block raw) ls).map f :=
          notMem_map_of_later hf (fun _ hp => le_of_mem_remotesOutside ls hp) host
        rw [Option.isSome_some, if_pos rfl, Option.map_some, Option.toList_some]
        by_cases hskip : skip.isEmpty = true
        · by_cases hblock : block = none
          · rw [if_pos hskip, if_pos hblock, if_pos hblock, and_iff_right (iff_of_true hskip hblock)]
            exact (agreeUpTo_cons n _ _ _).trans (ih n (i + 1) _ _)
          · rw [if_pos hskip, if_neg hblock]
            exact iff_of_false (not_agreeUpTo_of_notMem houtside).1 fun h => hblock (h.1.1 hskip)
        · by_cases hblock : block = none
          · rw [if_neg hskip, if_pos hblock]
            exact iff_of_false (not_agreeUpTo_of_notMem hread).2 fun h => hskip (h.1.2 hblock)
          · rw [if_neg hskip, if_neg hblock, if_neg hblock, and_iff_right (iff_of_false hskip hblock)]
            exact ih (n + 1) (i + 1) _ _

/-- The item of a line that fits the buffer. -/
theorem lineItem_host {raw : List UInt8} (h : raw.length < ovpnLineSize) :
    (lineItem raw).remoteOf.map OvpnRemote.host = remoteHost raw := by
  rw [lineItem, lineWords, List.take_of_length_le (Nat.le_sub_one_of_lt h), remoteHost]
  rcases words isSpace (stripComment raw) with - | ⟨name, - | ⟨host, more⟩⟩
  · rfl
  · rfl
  · dsimp only
    rw [ovpnItem]
    split_ifs <;> rfl

theorem remoteLines_host {ls : List (List UInt8)} (h : ∀ raw ∈ ls, raw.length < ovpnLineSize) :
    (remoteLines (ls.map lineItem)).map OvpnRemote.host = ls.filterMap remoteHost := by
  rw [remoteLines, List.filterMap_map, List.map_filterMap]
  exact List.filterMap_congr fun raw hraw => lineItem_host (h raw hraw)

theorem nul_notMem_remoteHost {raw host : List UInt8} (hnul : nul ∉ raw) (h : remoteHost raw = some host) :
    nul ∉ host := by
  rw [remoteHost] at h
  split at h
  · next name word more hwords =>
    split_ifs at h
    obtain rfl := Option.some.inj h
    have hmem : word ∈ words isSpace (stripComment raw) := by
      rw [hwords]
      exact List.mem_cons_of_mem _ List.mem_cons_self
    exact fun hc => hnul ((List.takeWhile_prefix _).subset ((mem_words _ word hmem).2 nul hc).2)
  · cases h

/-- A line is recorded if it is read, names a remote and finds a place. -/
theorem ovpnLine_endpoints_length (st : OvpnState) {raw : List UInt8} (h : raw.length < ovpnLineSize) :
    (ovpnLine st raw).out.endpoints.length =
      if st.skippingTag.isEmpty = true ∧ (remoteHost raw).isSome = true ∧
        st.out.endpoints.length < pmxMaxVpnEndpoints then st.out.endpoints.length + 1
      else st.out.endpoints.length := by
  have hseen := congrArg (fun v : OvpnSeen => v.listed.1.length) (ovpnLine_seen st raw)
  refine Eq.trans (show _ = (ovpnLine st raw).seen.listed.1.length from rfl) (hseen.trans ?_)
  rw [← lineItem_host h]
  by_cases hskip : st.skippingTag.isEmpty = true
  · rw [if_pos hskip]
    cases lineItem raw with
    | remote host port transport =>
      show (SlotTable.pushCapped pmxMaxVpnEndpoints st.out.listed _).1.length = _
      rw [SlotTable.pushCapped]
      by_cases hfull : st.out.listed.1.length ≥ pmxMaxVpnEndpoints
      · rw [if_pos hfull, if_neg fun hroom => Nat.not_lt.2 hfull hroom.2.2]
        rfl
      · rw [if_neg hfull, if_pos ⟨hskip, rfl, Nat.not_le.1 hfull⟩]
        exact List.length_append
    | _ => exact (if_neg fun hroom => by cases hroom.2.1).symm
  · rw [if_neg hskip, if_neg fun hroom => hskip hroom.1]
    rfl

theorem recordedAt_eq {ls : List (List UInt8)} (h : ∀ raw ∈ ls, raw.length < ovpnLineSize) :
    ∀ i st, recordedAt i st ls = ((remotesRead i st.skippingTag ls).take
      (pmxMaxVpnEndpoints - st.out.endpoints.length)).map Prod.fst := by
  induction ls with
  | nil =>
    intro i st
    rw [remotesRead, List.take_nil]
    rfl
  | cons raw ls ih =>
    intro i st
    have hlen := ovpnLine_endpoints_length st (h raw List.mem_cons_self)
    rw [recordedAt, ih (fun l hl => h l (List.mem_cons_of_mem _ hl)), remotesRead, ovpnLine_skippingTag]
    by_cases hread : st.skippingTag.isEmpty = true ∧ (remoteHost raw).isSome = true
    · obtain ⟨host, hhost⟩ := Option.isSome_iff_exists.1 hread.2
      rw [if_pos hread.1, hhost, Option.map_some, Option.toList_some, List.singleton_append]
      by_cases hroom : st.out.endpoints.length < pmxMaxVpnEndpoints
      · rw [if_pos ⟨hread.1, hread.2, hroom⟩] at hlen
        rw [hlen, if_pos (Nat.lt_succ_self _), ← Nat.succ_pred_eq_of_pos (Nat.sub_pos_of_lt hroom),
          List.take_succ_cons, Nat.sub_succ]
        rfl
      · rw [if_neg fun h => hroom h.2.2] at hlen
        rw [hlen, if_neg (Nat.lt_irrefl _), Nat.sub_eq_zero_of_le (Nat.not_lt.1 hroom), List.take_zero,
          List.take_zero]
        rfl
    · rw [if_neg fun h => hread ⟨h.1, h.2.1⟩] at hlen
      have hnone :
          (if st.skippingTag.isEmpty = true then ((remoteHost raw).map (i, ·)).toList else []) = [] := by
        split_ifs with hskip
        · rw [Option.not_isSome_iff_eq_none.1 fun h => hread ⟨hskip, h⟩]
          rfl
        · rfl
      rw [hlen, if_neg (Nat.lt_irrefl _), hnone]
      rfl

theorem remotesRead_hosts (ls : List (List UInt8)) :
    ∀ i skip, (remotesRead i skip ls).map Prod.snd = (unskipped skip ls).filterMap remoteHost := by
  induction ls with
  | nil => exact fun _ _ => rfl
  | cons raw ls ih =>
    intro i skip
    rw [remotesRead, unskipped, List.map_append, ih]
    split_ifs
    · cases hhost : remoteHost raw with
      | none => rw [List.filterMap_cons_none hhost]; rfl
      | some host => rw [List.filterMap_cons_some hhost]; rfl
    · rfl

/-- **What an OpenVPN record holds**: the first eight remotes that are read, and whether there are more. -/
theorem parseOpenvpn_hosts {text : CStr} (hlines : ∀ raw ∈ configLines text, raw.length < ovpnLineSize) :
    (pmxVpnParseOpenvpn text).1.endpoints.map (fun e => e.host.str) =
        ((remotesRead 0 .empty (configLines text)).take pmxMaxVpnEndpoints).map
          (fun p => p.2.take (pmxMaxHost - 1)) ∧
      ((pmxVpnParseOpenvpn text).1.endpointsTruncated = true ↔
        pmxMaxVpnEndpoints < (remotesRead 0 .empty (configLines text)).length) ∧
      ((pmxVpnParseOpenvpn text).2 = .ok ↔ remotesRead 0 .empty (configLines text) ≠ []) := by
  have hsub := unskipped_sublist (configLines text) .empty
  have hnames : (remoteLines (ovpnItems text)).map OvpnRemote.host =
      (remotesRead 0 .empty (configLines text)).map Prod.snd := by
    rw [remotesRead_hosts]
    exact remoteLines_host fun raw hraw => hlines raw (hsub.subset hraw)
  have hcount := congrArg List.length hnames
  rw [List.length_map, List.length_map] at hcount
  have hkept : ∀ r ∈ remoteLines (ovpnItems text),
      (strlcpy pmxMaxHost r.host).str = r.host.take (pmxMaxHost - 1) := by
    intro r hr
    have hmem := List.mem_map_of_mem (f := OvpnRemote.host) hr
    rw [hnames, remotesRead_hosts] at hmem
    obtain ⟨raw, hraw, hname⟩ := List.mem_filterMap.1 hmem
    show (cstr r.host).take (pmxMaxHost - 1) = r.host.take (pmxMaxHost - 1)
    rw [cstr_of_notMem (nul_notMem_remoteHost (nul_notMem_configLines (hsub.subset hraw)) hname)]
  refine ⟨?_, ?_, ?_⟩
  · have hhosts := congrArg (List.map fun x : CBuf pmxMaxHost × PmxPort => x.1.str)
      (parseOpenvpn_hostPorts text)
    rw [List.map_map, List.map_map] at hhosts
    have hread := congrArg (List.map (List.take (pmxMaxHost - 1))) hnames
    rw [List.map_map, List.map_map] at hread
    rw [List.map_take]
    refine hhosts.trans ?_
    rw [List.map_take]
    refine congrArg (List.take pmxMaxVpnEndpoints) (Eq.trans ?_ hread)
    exact List.map_congr_left hkept
  · rw [(parseOpenvpn_remotes text).2.1, decide_eq_true_iff, remotesFrom_length, hcount]
  · rw [parseOpenvpn_ok_iff, ← List.length_pos_iff, hcount, List.length_pos_iff]

theorem ovpnRemotesKept_iff {text : CStr} (hlines : ∀ raw ∈ configLines text, raw.length < ovpnLineSize)
    (hhosts : ∀ p ∈ validRemotes text, p.2.length < pmxMaxHost) :
    OvpnRemotesKept text ↔ readsRemote .empty (configLines text) = false ∨
      InStep pmxMaxVpnEndpoints .empty none (configLines text) := by
  obtain ⟨hrecorded, htruncated, hok⟩ := parseOpenvpn_hosts hlines
  have hat : recordedAt 0 ovpnInit (configLines text) =
      ((remotesRead 0 .empty (configLines text)).take pmxMaxVpnEndpoints).map Prod.fst :=
    recordedAt_eq hlines 0 ovpnInit
  have hreads : readsRemote .empty (configLines text) = false ↔
      remotesRead 0 .empty (configLines text) = [] := by
    rw [← Bool.not_eq_true, readsRemote_iff (configLines text) 0, List.length_pos_iff, not_not]
  rw [OvpnRemotesKept, hrecorded, htruncated, hok, hat, hreads]
  by_cases hnil : remotesRead 0 .empty (configLines text) = []
  · exact iff_of_true (fun h => absurd hnil h) (Or.inl hnil)
  rw [imp_iff_right hnil, or_iff_right hnil]
  constructor
  · rintro ⟨hplaces, -, hmore⟩
    refine (agreeUpTo_iff_inStep Prod.fst (fun _ _ h => h) (configLines text) pmxMaxVpnEndpoints
      0 _ _).1 ⟨?_, ?_⟩
    · rw [← List.map_take, hplaces, List.map_take]
      rfl
    · rw [List.length_map, List.length_map]
      exact hmore
  · intro hstep
    obtain ⟨hsame, hmore⟩ := (agreeUpTo_iff_inStep id (fun _ _ h => congrArg Prod.fst h)
      (configLines text) pmxMaxVpnEndpoints 0 _ _).2 hstep
    rw [List.map_id, List.map_id] at hsame hmore
    rw [hsame]
    refine ⟨rfl, List.map_congr_left fun p hp => ?_, hmore⟩
    exact List.take_of_length_le (Nat.le_sub_one_of_lt (hhosts p (List.mem_of_mem_take hp)))

/-- **Which remotes are recorded.**  For every text of lines shorter than 1024 bytes whose remotes have hosts of
at most 255 bytes: the endpoints of a WireGuard config are the first eight that its peers name.  Those of an
OpenVPN config are recorded of the first eight `remote` lines outside its inline blocks exactly when no `remote`
line is read at all or, up to the eighth of these lines, a tag is being skipped at each `remote` line just in the
body of a block, and behind it one is read just if one stands outside the blocks.  The flag tells of more. -/
theorem recordedRemotes_iff (text : CStr) (hlines : ∀ raw ∈ configLines text, raw.length < 1024) :
    ((∀ val ∈ validEndpoints text, ∀ host port, EndpointForm val host port → host.length ≤ 255) →
        WgRemotesKept text) ∧
      ((∀ p ∈ validRemotes text, p.2.length ≤ 255) → (OvpnRemotesKept text ↔
        readsRemote .empty (configLines text) = false ∨
          InStep pmxMaxVpnEndpoints .empty none (configLines text))) :=
  ⟨fun hhosts => wgRemotesKept hlines fun val hval host port hform =>
      Nat.lt_succ_of_le (hhosts val hval host port hform),
    fun hhosts => ovpnRemotesKept_iff hlines fun p hp => Nat.lt_succ_of_le (hhosts p hp)⟩

/-- A peer with an endpoint, a remote, and a block with a line like one. -/
def blockedRemoteText : CStr :=
  ⟨bytes "[Peer]\nEndpoint = [fd00::1]:51820\nremote a 1194 # main\n<ca>\nremote no\n</ca>\n", by decide⟩

theorem recordedRemotes_blocked : WgRemotesKept blockedRemoteText ∧ OvpnRemotesKept blockedRemoteText := by
  have hlines : ∀ raw ∈ configLines blockedRemoteText, raw.length < 1024 := by decide +kernel
  have hvals : ∀ val ∈ validEndpoints blockedRemoteText, val.length ≤ 255 := by decide +kernel
  have hhosts : ∀ p ∈ validRemotes blockedRemoteText, p.2.length ≤ 255 := by decide +kernel
  have hstep : InStep pmxMaxVpnEndpoints .empty none (configLines blockedRemoteText) := by decide +kernel
  have h := recordedRemotes_iff blockedRemoteText hlines
  exact ⟨h.1 fun val hval host port hform => hform.host_subset.2.trans (hvals val hval),
    (h.2 hhosts).2 (Or.inr hstep)⟩

/-- A remote behind a line without its `>`. -/
def strayTagText : CStr := ⟨bytes "remote a\n<foo\nremote b\n", by decide⟩

/-- The body of a block gives an endpoint, and a remote outside all blocks gives none, nor is that flagged. -/
theorem not_ovpnRemotesKept :
    (validRemotes caInjectedText = [(1, bytes "real")] ∧
      recordedAt 0 ovpnInit (configLines caInjectedText) = [1, 4] ∧
      (pmxVpnParseOpenvpn caInjectedText).1.endpoints.map (fun e => e.host.str) =
        [bytes "real", bytes "evil"] ∧ ¬OvpnRemotesKept caInjectedText) ∧
      validRemotes strayTagText = [(0, bytes "a"), (2, bytes "b")] ∧
        recordedAt 0 ovpnInit (configLines strayTagText) = [0] ∧
          (pmxVpnParseOpenvpn strayTagText).1.endpointsTruncated = false ∧ ¬OvpnRemotesKept strayTagText := by
  have hinjected : validRemotes caInjectedText = [(1, bytes "real")] ∧
      recordedAt 0 ovpnInit (configLines caInjectedText) = [1, 4] ∧
      (pmxVpnParseOpenvpn caInjectedText).1.endpoints.map (fun e => e.host.str) =
        [bytes "real", bytes "evil"] ∧ (pmxVpnParseOpenvpn caInjectedText).2 = .ok := by decide +kernel
  have hlost : validRemotes strayTagText = [(0, bytes "a"), (2, bytes "b")] ∧
      recordedAt 0 ovpnInit (configLines strayTagText) = [0] ∧
        (pmxVpnParseOpenvpn strayTagText).1.endpointsTruncated = false ∧
          (pmxVpnParseOpenvpn strayTagText).2 = .ok := by decide +kernel
  refine ⟨⟨hinjected.1, hinjected.2.1, hinjected.2.2.1, fun h => ?_⟩, hlost.1, hlost.2.1, hlost.2.2.1,
    fun h => ?_⟩
  · have hplaces := (h hinjected.2.2.2).1
    rw [hinjected.1, hinjected.2.1] at hplaces
    exact absurd hplaces (by decide)
  · have hplaces := (h hlost.2.2.2).1
    rw [hlost.1, hlost.2.1] at hplaces
    exact absurd hplaces (by decide)

end ProxiMight
