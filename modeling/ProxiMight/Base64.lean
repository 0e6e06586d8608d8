import ProxiMight.ConnectRequest

/-!
# Base64 as it is written into a buffer (`pmx_base64_encode`)

The encoder computes what it needs, refuses a buffer without room, and then writes character by character.
Here the buffer is memory: a write or a read outside of an array is a fault, and memory may go on behind
the capacity the caller names.

* **`encodeInto_eq`** — the code on memory does what `pmxBase64Encode` says.
* **`encodeInto_exact`** — at every length and capacity: no fault, success exactly when there is room, and
  a text that decodes to the input.
-/

namespace ProxiMight

open CString

/-! ### The code on memory -/

/-- `out`, and `o`. -/
abbrev OutCursor := List UInt8 × ℕ

/-- `out[o++] = c`. -/
def putByte (s : OutCursor) (c : UInt8) : Option OutCursor :=
  if s.2 < s.1.length then some (s.1.set s.2 c, s.2 + 1) else none

/-- `out[o++] = B64[k & 0x3F]`. -/
def putSextet (s : OutCursor) (k : UInt32) : Option OutCursor :=
  (b64Alphabet[(k &&& 0x3F).toNat]?).bind (putByte s)

/-- The loop over groups of three bytes. -/
def encodeLoop (input : List UInt8) (inLen i : ℕ) (s : OutCursor) : Option (ℕ × OutCursor) :=
  if i + 3 ≤ inLen then do
    let a ← input[i]?
    let b ← input[i + 1]?
    let c ← input[i + 2]?
    let n := (a.toUInt32 <<< 16) ||| (b.toUInt32 <<< 8) ||| c.toUInt32
    let s ← putSextet s (n >>> 18)
    let s ← putSextet s (n >>> 12)
    let s ← putSextet s (n >>> 6)
    let s ← putSextet s n
    encodeLoop input inLen (i + 3) s
  else some (i, s)
termination_by inLen - i

/-- The one or two bytes that are left. -/
def encodeTail (input : List UInt8) (inLen i : ℕ) (s : OutCursor) : Option OutCursor :=
  let rem := inLen - i
  if rem = 1 then do
    let a ← input[i]?
    let n := a.toUInt32 <<< 16
    let s ← putSextet s (n >>> 18)
    let s ← putSextet s (n >>> 12)
    let s ← putByte s 61
    putByte s 61
  else if rem = 2 then do
    let a ← input[i]?
    let b ← input[i + 1]?
    let n := (a.toUInt32 <<< 16) ||| (b.toUInt32 <<< 8)
    let s ← putSextet s (n >>> 18)
    let s ← putSextet s (n >>> 12)
    let s ← putSextet s (n >>> 6)
    putByte s 61
  else some s

/-- `pmx_base64_encode`, with `none` for a NULL pointer: the status, `out` and `*out_len` afterwards. -/
def encodeInto (input : Option (List UInt8)) (inLen : ℕ) (out : Option (List UInt8)) (outCap : ℕ)
    (outLen : Option ℕ) : Option (PmxStatus × Option (List UInt8) × Option ℕ) :=
  match out with
  | none => some (.errInvalidArg, none, outLen)
  | some buf =>
    if input.isNone ∧ 0 < inLen then some (.errInvalidArg, some buf, outLen)
    else
      let need := (inLen + 2) / 3 * 4
      if outCap < need + 1 then some (.errInvalidArg, some buf, outLen)
      else do
        let loop ← encodeLoop (input.getD []) inLen 0 (buf, 0)
        let s ← encodeTail (input.getD []) inLen loop.1 loop.2
        let closed ← putByte s nul
        some (.ok, some closed.1, outLen.map fun _ => s.2)

/-! ### One character -/

theorem and_mask (n : ℕ) : n &&& 63 = n % 64 := Nat.and_two_pow_sub_one_eq_mod n 6

/-- The index is in the table, whatever is shifted in. -/
theorem putSextet_eq (s : OutCursor) (k : UInt32) : putSextet s k = putByte s (b64Char k.toNat) := by
  have hindex : (k &&& 0x3F).toNat = k.toNat % 64 := by
    rw [UInt32.toNat_and]
    exact and_mask k.toNat
  have hlen : b64Alphabet.length = 64 := by decide
  have hlt : k.toNat % 64 < b64Alphabet.length := by
    rw [hlen]
    exact Nat.mod_lt _ (by decide)
  rw [putSextet, hindex, List.getElem?_eq_getElem hlt, Option.bind_some, b64Char,
    List.getD_eq_getElem?_getD, List.getElem?_eq_getElem hlt, Option.getD_some]

theorem toNat_shiftRight (n : UInt32) {k : UInt32} (hk : k.toNat < 32) :
    (n >>> k).toNat = n.toNat / 2 ^ k.toNat := by
  rw [UInt32.toNat_shiftRight, Nat.mod_eq_of_lt hk, Nat.shiftRight_eq_div_pow]

/-- Three bytes side by side. -/
theorem toNat_packed (a b c : UInt8) :
    ((a.toUInt32 <<< 16) ||| (b.toUInt32 <<< 8) ||| c.toUInt32).toNat
      = a.toNat * 2 ^ 16 + b.toNat * 2 ^ 8 + c.toNat := by
  have ha := a.toNat_lt
  have hb := b.toNat_lt
  have hc := c.toNat_lt
  have hhigh : (a.toUInt32 <<< 16).toNat = a.toNat * 2 ^ 16 := by
    rw [UInt32.toNat_shiftLeft, UInt8.toNat_toUInt32, Nat.shiftLeft_eq]
    exact Nat.mod_eq_of_lt (show a.toNat * 2 ^ 16 < 2 ^ 32 by omega)
  have hmid : (b.toUInt32 <<< 8).toNat = b.toNat * 2 ^ 8 := by
    rw [UInt32.toNat_shiftLeft, UInt8.toNat_toUInt32, Nat.shiftLeft_eq]
    exact Nat.mod_eq_of_lt (show b.toNat * 2 ^ 8 < 2 ^ 32 by omega)
  rw [UInt32.toNat_or, UInt32.toNat_or, hhigh, hmid, UInt8.toNat_toUInt32, ← Nat.shiftLeft_eq,
    ← Nat.shiftLeft_add_eq_or_of_lt (show b.toNat * 2 ^ 8 < 2 ^ 16 by omega), Nat.shiftLeft_eq]
  have hlow : a.toNat * 2 ^ 16 + b.toNat * 2 ^ 8 = (a.toNat * 2 ^ 8 + b.toNat) * 2 ^ 8 := by omega
  rw [hlow, ← Nat.shiftLeft_eq, Nat.shiftLeft_add_eq_or_of_lt (show c.toNat < 2 ^ 8 by omega)]

/-- A sextet of a packed group, as the text has it. -/
theorem putSextet_packed (s : OutCursor) (a b c : UInt8) {k : UInt32} (hk : k.toNat < 32) :
    putSextet s (((a.toUInt32 <<< 16) ||| (b.toUInt32 <<< 8) ||| c.toUInt32) >>> k)
      = putByte s (b64Char ((a.toNat * 2 ^ 16 + b.toNat * 2 ^ 8 + c.toNat) / 2 ^ k.toNat)) := by
  rw [putSextet_eq, toNat_shiftRight _ hk, toNat_packed]

/-- Two bytes stand where three would, and so does one. -/
theorem putSextet_two (s : OutCursor) (a b : UInt8) {k : UInt32} (hk : k.toNat < 32) :
    putSextet s (((a.toUInt32 <<< 16) ||| (b.toUInt32 <<< 8)) >>> k)
      = putByte s (b64Char ((a.toNat * 2 ^ 16 + b.toNat * 2 ^ 8) / 2 ^ k.toNat)) := by
  have hpacked := putSextet_packed s a b 0 hk
  rwa [show (0 : UInt8).toUInt32 = 0 from rfl, UInt32.or_zero, UInt8.toNat_zero, Nat.add_zero] at hpacked

theorem putSextet_one (s : OutCursor) (a : UInt8) {k : UInt32} (hk : k.toNat < 32) :
    putSextet s ((a.toUInt32 <<< 16) >>> k) = putByte s (b64Char (a.toNat * 2 ^ 16 / 2 ^ k.toNat)) := by
  have htwo := putSextet_two s a 0 hk
  rwa [show (0 : UInt8).toUInt32 <<< 8 = (0 : UInt32) from rfl, UInt32.or_zero, UInt8.toNat_zero,
    Nat.zero_mul, Nat.add_zero] at htwo

/-! ### A text, character by character -/

/-- Characters written one after the other. -/
def puts (s : OutCursor) (text : List UInt8) : Option OutCursor := text.foldlM putByte s

@[simp] theorem puts_nil (s : OutCursor) : puts s [] = some s := rfl

theorem puts_cons (s : OutCursor) (c : UInt8) (text : List UInt8) :
    puts s (c :: text) = (putByte s c).bind fun s => puts s text := rfl

theorem puts_append (s : OutCursor) (t u : List UInt8) :
    puts s (t ++ u) = (puts s t).bind fun s => puts s u := List.foldlM_append

theorem putByte_end (before rest : List UInt8) (o c : UInt8) :
    putByte (before ++ o :: rest, before.length) c
      = some (before ++ c :: rest, before.length + 1) := by
  have hlt : before.length < (before ++ o :: rest).length := by
    rw [List.length_append, List.length_cons]
    omega
  rw [putByte, if_pos hlt, List.set_append_right _ _ (Nat.le_refl _), Nat.sub_self,
    List.set_cons_zero]

/-- A text that fits replaces what stood in its place. -/
theorem puts_of_fits (before old rest text : List UInt8) (h : old.length = text.length) :
    puts (before ++ (old ++ rest), before.length) text
      = some (before ++ (text ++ rest), before.length + text.length) := by
  induction text generalizing before old with
  | nil =>
    rw [List.length_nil, List.length_eq_zero_iff] at h
    rw [h]
    rfl
  | cons c text ih =>
    obtain ⟨o, old, rfl⟩ := List.exists_cons_of_length_eq_add_one h
    have hold : old.length = text.length := Nat.succ.inj h
    have htext := ih (before ++ [c]) old hold
    rw [List.append_assoc, List.singleton_append, List.length_append, List.length_singleton] at htext
    rw [puts_cons, List.cons_append, putByte_end, Option.bind_some, htext, List.append_assoc,
      List.singleton_append, List.cons_append, List.length_cons, Nat.add_assoc, Nat.add_comm 1]

/-! ### The loop and what is left -/

/-- Reading where a suffix begins. -/
theorem getElem?_of_drop {input t : List UInt8} {i : ℕ} (h : input.drop i = t) (j : ℕ) :
    input[i + j]? = t[j]? := by
  rw [← h, List.getElem?_drop]

/-- One turn of the loop writes one group of the text. -/
theorem encodeLoop_group {input : List UInt8} {i : ℕ} (hi : i + 3 ≤ input.length) {a b c : UInt8}
    {rest : List UInt8} (ht : input.drop i = a :: b :: c :: rest) (s : OutCursor) :
    encodeLoop input input.length i s
      = (puts s ((base64Text (a :: b :: c :: rest)).take 4)).bind
          (encodeLoop input input.length (i + 3)) := by
  have ha : input[i]? = some a := getElem?_of_drop ht 0
  have hb : input[i + 1]? = some b := getElem?_of_drop ht 1
  have hc : input[i + 2]? = some c := getElem?_of_drop ht 2
  -- the last character is not shifted
  have hlast : ∀ s, putSextet s ((a.toUInt32 <<< 16) ||| (b.toUInt32 <<< 8) ||| c.toUInt32)
      = putByte s (b64Char (a.toNat * 2 ^ 16 + b.toNat * 2 ^ 8 + c.toNat)) := by
    intro s
    rw [putSextet_eq, toNat_packed]
  rw [encodeLoop, if_pos hi, ha, hb, hc]
  simp only [Option.bind_eq_bind, Option.bind_some, hlast,
    putSextet_packed _ a b c (show (18 : UInt32).toNat < 32 by decide),
    putSextet_packed _ a b c (show (12 : UInt32).toNat < 32 by decide),
    putSextet_packed _ a b c (show (6 : UInt32).toNat < 32 by decide)]
  simp only [base64Text, List.take_succ_cons, List.take_zero, puts_cons, Option.bind_assoc]
  rfl

/-- From `i` on, the code writes the text of what is left there. -/
theorem encode_from (input t : List UInt8) (i : ℕ) (s : OutCursor) (hi : i ≤ input.length)
    (ht : input.drop i = t) :
    ((encodeLoop input input.length i s).bind fun loop => encodeTail input input.length loop.1 loop.2)
      = puts s (base64Text t) := by
  have hlen : input.length - i = t.length := by rw [← ht, List.length_drop]
  induction t using base64Text.induct generalizing i s with
  | case1 a b c rest ih =>
    simp only [List.length_cons] at hlen
    have hsplit : base64Text (a :: b :: c :: rest)
        = (base64Text (a :: b :: c :: rest)).take 4 ++ base64Text rest := rfl
    have hrest : input.drop (i + 3) = rest := by
      rw [← List.drop_drop, ht]
      rfl
    rw [encodeLoop_group (by omega) ht, hsplit, puts_append, Option.bind_assoc]
    refine congrArg ((puts s _).bind ·) (funext fun s' => ?_)
    exact ih (i + 3) s' (by omega) hrest (by omega)
  | case2 a b =>
    have ha : input[i]? = some a := getElem?_of_drop ht 0
    have hb : input[i + 1]? = some b := getElem?_of_drop ht 1
    have hrem : input.length - i = 2 := hlen
    rw [encodeLoop, if_neg (by omega), Option.bind_some, encodeTail]
    dsimp only
    rw [if_neg (by omega), if_pos hrem, ha, hb]
    simp only [Option.bind_eq_bind, Option.bind_some,
      putSextet_two _ a b (show (18 : UInt32).toNat < 32 by decide),
      putSextet_two _ a b (show (12 : UInt32).toNat < 32 by decide),
      putSextet_two _ a b (show (6 : UInt32).toNat < 32 by decide)]
    simp only [base64Text, puts_cons, puts_nil, Option.bind_fun_some]
    rfl
  | case3 a =>
    have ha : input[i]? = some a := getElem?_of_drop ht 0
    have hrem : input.length - i = 1 := hlen
    rw [encodeLoop, if_neg (by omega), Option.bind_some, encodeTail]
    dsimp only
    rw [if_pos hrem, ha]
    simp only [Option.bind_eq_bind, Option.bind_some,
      putSextet_one _ a (show (18 : UInt32).toNat < 32 by decide),
      putSextet_one _ a (show (12 : UInt32).toNat < 32 by decide)]
    simp only [base64Text, puts_cons, puts_nil, Option.bind_fun_some]
    rfl
  | case4 =>
    have hrem : input.length - i = 0 := hlen
    rw [encodeLoop, if_neg (by omega), Option.bind_some, encodeTail, hrem]
    rfl

/-! ### The whole call -/

/-- The text of some bytes: its length, its alphabet and its padding, and what it stands for. -/
structure IsBase64 (input text : List UInt8) : Prop where
  length : text.length = 4 * ((input.length + 2) / 3)
  padded : ∃ body, text = body ++ List.replicate ((3 - input.length % 3) % 3) 61 ∧
    ∀ c ∈ body, c ∈ b64Alphabet
  decodes : base64Decode text = some input

theorem b64Char_mem (n : ℕ) : b64Char n ∈ b64Alphabet := by
  have hall : ∀ k : Fin 64, b64Alphabet.getD k 0 ∈ b64Alphabet := by decide +kernel
  exact hall ⟨n % 64, Nat.mod_lt _ (by decide)⟩

/-- The padding stands at the end, and says what the last group has. -/
theorem base64Text_padded (s : List UInt8) :
    ∃ body, base64Text s = body ++ List.replicate ((3 - s.length % 3) % 3) 61 ∧
      ∀ c ∈ body, c ∈ b64Alphabet := by
  induction s using base64Text.induct with
  | case1 a b c rest ih =>
    obtain ⟨body, htext, halphabet⟩ := ih
    have hmod : (a :: b :: c :: rest).length % 3 = rest.length % 3 := by
      simp only [List.length_cons]
      omega
    refine ⟨(base64Text (a :: b :: c :: rest)).take 4 ++ body, ?_, ?_⟩
    · rw [hmod, List.append_assoc, ← htext]
      rfl
    · simp only [base64Text, List.take_succ_cons, List.take_zero, List.cons_append, List.nil_append,
        List.forall_mem_cons]
      exact ⟨b64Char_mem _, b64Char_mem _, b64Char_mem _, b64Char_mem _, halphabet⟩
  | case2 a b =>
    refine ⟨(base64Text [a, b]).take 3, rfl, ?_⟩
    simp only [base64Text, List.take_succ_cons, List.take_zero, List.forall_mem_cons]
    exact ⟨b64Char_mem _, b64Char_mem _, b64Char_mem _, fun _ h => absurd h List.not_mem_nil⟩
  | case3 a =>
    refine ⟨(base64Text [a]).take 2, rfl, ?_⟩
    simp only [base64Text, List.take_succ_cons, List.take_zero, List.forall_mem_cons]
    exact ⟨b64Char_mem _, b64Char_mem _, fun _ h => absurd h List.not_mem_nil⟩
  | case4 => exact ⟨[], rfl, fun _ h => absurd h List.not_mem_nil⟩

theorem isBase64_base64Text (s : List UInt8) : IsBase64 s (base64Text s) :=
  ⟨by rw [base64Text_length, Nat.mul_comm], base64Text_padded s, base64Decode_base64Text s⟩

/-- The terminator is in no text. -/
theorem IsBase64.nul_notMem {input text : List UInt8} (h : IsBase64 input text) : nul ∉ text := by
  obtain ⟨body, rfl, halphabet⟩ := h.padded
  intro hmem
  rcases List.mem_append.mp hmem with hbody | hpad
  · exact absurd (halphabet nul hbody) (by decide)
  · exact absurd (List.eq_of_mem_replicate hpad) (by decide)

/-- What a call leaves behind, with `beyond` behind the capacity. -/
def afterEncode (out beyond : List UInt8) (outLen : Option ℕ) :
    Except PmxStatus (List UInt8) → PmxStatus × Option (List UInt8) × Option ℕ
  | .error st => (st, some (out ++ beyond), outLen)
  | .ok text =>
    (.ok, some (text ++ nul :: out.drop (text.length + 1) ++ beyond), outLen.map fun _ => text.length)

/-- Where there is room, the text takes the place of as many bytes, and more bytes are behind it. -/
theorem encode_written {input out : List UInt8} (beyond : List UInt8)
    (hroom : (base64Text input).length < out.length) :
    ∃ o, ((encodeLoop input input.length 0 (out ++ beyond, 0)).bind fun loop =>
      encodeTail input input.length loop.1 loop.2)
        = some (base64Text input ++ o :: (out.drop ((base64Text input).length + 1) ++ beyond),
            (base64Text input).length) := by
  have hcells : out ++ beyond = [] ++ (out.take (base64Text input).length ++
      (out[(base64Text input).length] :: (out.drop ((base64Text input).length + 1) ++ beyond))) := by
    rw [List.nil_append, ← List.cons_append, List.getElem_cons_drop, ← List.append_assoc,
      List.take_append_drop]
  have htaken : (out.take (base64Text input).length).length = (base64Text input).length := by
    rw [List.length_take]
    omega
  have htext := puts_of_fits [] _ (out[(base64Text input).length] ::
    (out.drop ((base64Text input).length + 1) ++ beyond)) _ htaken
  rw [List.nil_append, List.length_nil, Nat.zero_add] at htext
  rw [encode_from input input 0 _ (Nat.zero_le _) rfl, hcells]
  exact ⟨_, htext⟩

/-- **The code on memory does what `pmxBase64Encode` says.** -/
theorem encodeInto_eq (input out beyond : List UInt8) (outLen : Option ℕ) :
    encodeInto (some input) input.length (some (out ++ beyond)) out.length outLen
      = some (afterEncode out beyond outLen (pmxBase64Encode input out.length)) := by
  have hlen := base64Text_length input
  have hnull : ¬ ((some input).isNone ∧ 0 < input.length) := fun h => Bool.false_ne_true h.1
  rw [encodeInto, pmxBase64Encode]
  dsimp only
  rw [if_neg hnull]
  split_ifs with hsmall
  · rfl
  · obtain ⟨o, hwritten⟩ := encode_written beyond
      (show (base64Text input).length < out.length by omega)
    simp only [Option.bind_eq_bind, Option.getD_some]
    rw [← Option.bind_assoc, hwritten, Option.bind_some, putByte_end, Option.bind_some, afterEncode,
      List.append_assoc, List.cons_append]

/-- **Base64 is exact at every length.** -/
theorem encodeInto_exact (input out beyond : List UInt8) (outLen : Option ℕ) :
    ∃ st out' outLen',
      encodeInto (some input) input.length (some (out ++ beyond)) out.length outLen
          = some (st, some (out' ++ beyond), outLen') ∧
        out'.length = out.length ∧
        (st = .ok ↔ 4 * ((input.length + 2) / 3) + 1 ≤ out.length) ∧
        (st ≠ .ok → out' = out ∧ outLen' = outLen) ∧
        (st = .ok → ∃ text, out' = text ++ nul :: out.drop (text.length + 1) ∧ cstr out' = text ∧
          IsBase64 input text ∧ outLen' = outLen.map fun _ => text.length) := by
  have htext := isBase64_base64Text input
  rw [encodeInto_eq, pmxBase64Encode]
  split_ifs with hsmall
  · exact ⟨.errInvalidArg, out, outLen, rfl, rfl, ⟨nofun, fun hroom => by omega⟩,
      fun _ => ⟨rfl, rfl⟩, nofun⟩
  · have hroom : 4 * ((input.length + 2) / 3) + 1 ≤ out.length := by omega
    refine ⟨.ok, _, _, rfl, ?_, ⟨fun _ => hroom, fun _ => rfl⟩, fun hne => absurd rfl hne,
      fun _ => ⟨_, rfl, cstr_append_nul htext.nul_notMem _, htext, rfl⟩⟩
    have hlen := htext.length
    rw [List.length_append, List.length_cons, List.length_drop]
    omega

end ProxiMight
