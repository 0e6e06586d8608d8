import Mathlib.Data.Fintype.BigOperators
import Mathlib.Data.Fintype.Pi
import ProxiMight.OpenVpn

/-!
# Inline blocks of an OpenVPN config

A line `<tag>`, with any tag but `connection`, opens a block, and the block runs to the first later line
that starts with `</tag>`.  Its body is data and should not influence what is parsed.  The parser takes
less for the end of a block: the closing `>` may be missing, and only the first 63 bytes of a tag count.

The body is out of reach exactly where the parser skips a tag that no trimmed line can end without its
`>`: one that ends in white space.

* **`bodies_harmless_iff`** — what is parsed does not depend on the bodies of the blocks exactly when
  every block is opened so.
-/

namespace ProxiMight

open CString TextLines

/-! ### Blocks -/

/-- The tag of the block a line opens: its trimmed text starts with `<tag>`. -/
def blockTag (raw : List UInt8) : Option (List UInt8) :=
  match trim raw with
  | [] => none
  | c :: rest =>
    if c = 60 ∧ gt ∈ rest ∧ rest.head? ≠ some 47 ∧ rest.takeWhile (· != gt) ≠ bytes "connection" then
      some (rest.takeWhile (· != gt))
    else none

/-- The text `</tag>`. -/
def closingTag (tag : List UInt8) : List UInt8 := bytes "</" ++ tag ++ [gt]

/-- The line closes the block `tag`: its trimmed text starts with `</tag>`. -/
def closesBlock (tag raw : List UInt8) : Bool := (closingTag tag).isPrefixOf (trim raw)

/-- The block in which the next line stands. -/
def blockStep (block : Option (List UInt8)) (raw : List UInt8) : Option (List UInt8) :=
  match block with
  | none => blockTag raw
  | some tag => if closesBlock tag raw then none else some tag

/-- The lines that are not in the body of a block. -/
def outline : Option (List UInt8) → List (List UInt8) → List (List UInt8)
  | _, [] => []
  | none, raw :: rest => raw :: outline (blockTag raw) rest
  | some tag, raw :: rest =>
    if closesBlock tag raw then raw :: outline none rest else outline (some tag) rest

/-- The two texts differ only in the bodies of blocks. -/
def SameOutline (text text' : CStr) : Prop :=
  hasBom text.str = hasBom text'.str ∧
    outline none (configLines text) = outline none (configLines text')

instance (text text' : CStr) : Decidable (SameOutline text text') := inferInstanceAs (Decidable (_ ∧ _))

/-- The parser skips exactly the block's tag, all of it fits its buffer with room for the `>`, and it ends
in white space. -/
def Seals (skip : CBuf ovpnTagSize) (tag : List UInt8) : Prop :=
  skip.str = tag ∧ tag.length < ovpnTagSize - 1 ∧ (tag.getLast?.any isSpace) = true

instance (skip : CBuf ovpnTagSize) (tag : List UInt8) : Decidable (Seals skip tag) :=
  inferInstanceAs (Decidable (_ ∧ _))

/-- Every block is opened so that the parser's tag seals it.  Bodies are not looked at. -/
def Sealed : CBuf ovpnTagSize → Option (List UInt8) → List (List UInt8) → Prop
  | _, _, [] => True
  | skip, none, raw :: rest =>
    (∀ tag ∈ blockTag raw, Seals (tagStep skip raw) tag) ∧
      Sealed (tagStep skip raw) (blockTag raw) rest
  | skip, some tag, raw :: rest =>
    if closesBlock tag raw then Sealed (tagStep skip raw) none rest else Sealed skip (some tag) rest

instance decidableSealed : ∀ (skip : CBuf ovpnTagSize) (block : Option (List UInt8))
    (ls : List (List UInt8)), Decidable (Sealed skip block ls)
  | _, none, [] => inferInstanceAs (Decidable True)
  | _, some _, [] => inferInstanceAs (Decidable True)
  | skip, none, raw :: rest =>
    have := decidableSealed (tagStep skip raw) (blockTag raw) rest
    inferInstanceAs (Decidable (_ ∧ _))
  | skip, some tag, raw :: rest =>
    have := decidableSealed (tagStep skip raw) none rest
    have := decidableSealed skip (some tag) rest
    inferInstanceAs (Decidable (if closesBlock tag raw then _ else _))

theorem blockTag_spec {raw tag : List UInt8} (h : blockTag raw = some tag) : gt ∉ tag := by
  unfold blockTag at h
  split at h
  · cases h
  · split_ifs at h
    obtain rfl := Option.some.inj h
    intro hmem
    have hkept := List.mem_takeWhile_imp hmem
    simp at hkept

/-! ### Tags and closing lines -/

theorem tagOf_str (s : List UInt8) :
    (tagOf s).str = ((cstr s).take (ovpnTagSize - 1)).takeWhile (· != gt) := by
  rw [tagOf]
  apply strlcpy_of_fits
  · intro h
    exact (strlcpy ovpnTagSize s).nul_notMem_str ((List.takeWhile_prefix _).subset h)
  · exact Nat.le_trans (List.takeWhile_prefix _).length_le (strlcpy ovpnTagSize s).length_str_le

/-- A tag with room to spare is the whole text, or is followed by a `>`. -/
theorem tagOf_cases {s tag : List UInt8} (hnul : nul ∉ s) (htag : (tagOf s).str = tag)
    (hroom : tag.length < ovpnTagSize - 1) : s = tag ∨ tag ++ [gt] <+: s := by
  rw [tagOf_str, cstr_of_notMem hnul] at htag
  have hsplit := List.takeWhile_append_dropWhile (p := (· != gt)) (l := s.take (ovpnTagSize - 1))
  rw [htag] at hsplit
  cases hd : (s.take (ovpnTagSize - 1)).dropWhile (· != gt) with
  | nil =>
    rw [hd, List.append_nil] at hsplit
    have hlen := congrArg List.length hsplit
    rw [List.length_take] at hlen
    rw [List.take_of_length_le (by omega)] at hsplit
    exact Or.inl hsplit.symm
  | cons d rest =>
    have hgt : d = gt := by
      have hnot := List.head_dropWhile_not (· != gt) (l := s.take (ovpnTagSize - 1))
        (by rw [hd]; exact List.cons_ne_nil d rest)
      simpa [hd] using hnot
    rw [hd, hgt] at hsplit
    have hpre : tag ++ [gt] <+: s.take (ovpnTagSize - 1) :=
      ⟨rest, by rw [List.append_assoc, List.singleton_append, hsplit]⟩
    exact Or.inr (hpre.trans (List.take_prefix _ s))

theorem isCloseLine_iff (line : List UInt8) :
    isCloseLine line = true ↔ bytes "</" ++ line.drop 2 = line := by
  have hbytes : bytes "</" = [60, 47] := by decide
  rw [hbytes]
  match line with
  | [] => simp [isCloseLine]
  | [c] => simp [isCloseLine]
  | c :: d :: rest =>
    constructor
    · intro h
      rw [isCloseLine, Bool.and_eq_true, beq_iff_eq, beq_iff_eq] at h
      rw [h.1, h.2]
      rfl
    · intro h
      obtain ⟨rfl, htail⟩ := List.cons.inj h
      obtain ⟨rfl, -⟩ := List.cons.inj htail
      rfl

/-- **The body of a sealed block is skipped**: a line that does not close it changes nothing. -/
theorem tagStep_of_seals {skip : CBuf ovpnTagSize} {tag raw : List UInt8} (h : Seals skip tag)
    (hnul : nul ∉ raw) (hbody : closesBlock tag raw = false) :
    skip.isEmpty = false ∧ endsSkip skip (lineBuf raw) = false := by
  obtain ⟨hskip, hroom, hspace⟩ := h
  obtain ⟨c, hlast, hc⟩ : ∃ c, tag.getLast? = some c ∧ isSpace c = true := by
    cases hl : tag.getLast? with
    | none => rw [hl] at hspace; cases hspace
    | some c => exact ⟨c, rfl, by rw [hl] at hspace; exact hspace⟩
  have hne : tag ≠ [] := by
    rintro rfl
    cases hlast
  refine ⟨by rw [CBuf.isEmpty, hskip, List.isEmpty_eq_false_iff]; exact hne, ?_⟩
  by_contra hends
  rw [Bool.not_eq_false, endsSkip, Bool.and_eq_true, beq_iff_eq, hskip] at hends
  have hline := (isCloseLine_iff _).1 hends.1
  have hnul' : nul ∉ (lineBuf raw).drop 2 := by
    intro hmem
    have hpre := (trim_isPrefix _).subset ((List.drop_suffix 2 _).subset hmem)
    exact hnul ((List.take_prefix _ raw).subset ((List.dropWhile_suffix _).subset hpre))
  rcases tagOf_cases hnul' hends.2 hroom with hwhole | hpre
  · -- without its `>` the line would end in the white space the tag ends in
    have hend : (lineBuf raw).getLast? = some c := by
      rw [← hline, hwhole, List.getLast?_append, hlast, Option.some_or]
    rw [isSpace_getLast_trim hend] at hc
    cases hc
  · have hclosing : closingTag tag <+: (raw.take (ovpnLineSize - 1)).dropWhile isSpace := by
      refine List.IsPrefix.trans ?_ (trim_isPrefix _)
      show closingTag tag <+: lineBuf raw
      rw [closingTag, List.append_assoc, ← hline]
      exact (List.prefix_append_right_inj _).2 hpre
    have htrim : closingTag tag <+: trim raw :=
      prefix_trim (by decide) (hclosing.trans (dropWhile_take_isPrefix isSpace raw _))
    rw [closesBlock, List.isPrefixOf_iff_prefix.2 htrim] at hbody
    cases hbody

/-! ### Bodies of sealed blocks are out of reach -/

/-- The parser comes out of the lines as it comes out of those outside the blocks. -/
theorem foldl_outline (ls : List (List UInt8)) (hnul : ∀ l ∈ ls, nul ∉ l) :
    ∀ (st : OvpnState) (block : Option (List UInt8)),
      (∀ tag ∈ block, Seals st.skippingTag tag) → Sealed st.skippingTag block ls →
      ls.foldl ovpnLine st = (outline block ls).foldl ovpnLine st := by
  induction ls with
  | nil => intro st block _ _; cases block <;> rfl
  | cons raw rest ih =>
    intro st block hblock hsealed
    have ih' := ih fun l hl => hnul l (List.mem_cons_of_mem _ hl)
    cases block with
    | none =>
      rw [outline, List.foldl_cons, List.foldl_cons]
      rw [Sealed] at hsealed
      apply ih' (ovpnLine st raw) (blockTag raw)
      · rw [ovpnLine_skippingTag]
        exact hsealed.1
      · rw [ovpnLine_skippingTag]
        exact hsealed.2
    | some tag =>
      rw [outline]
      rw [Sealed] at hsealed
      cases hclose : closesBlock tag raw with
      | true =>
        rw [hclose, if_pos rfl] at hsealed
        rw [if_pos rfl, List.foldl_cons, List.foldl_cons]
        apply ih' (ovpnLine st raw) none
        · intro tag' htag'
          cases htag'
        · rw [ovpnLine_skippingTag]
          exact hsealed
      | false =>
        rw [hclose, if_neg Bool.false_ne_true] at hsealed
        obtain ⟨hskip, hends⟩ := tagStep_of_seals (hblock tag rfl) (hnul raw List.mem_cons_self) hclose
        rw [if_neg Bool.false_ne_true, List.foldl_cons, ovpnLine_of_skipping hskip, hends,
          if_neg Bool.false_ne_true]
        exact ih' st (some tag) hblock hsealed

/-- Only the lines outside the blocks decide whether they are sealed. -/
theorem sealed_outline (ls : List (List UInt8)) :
    ∀ (skip : CBuf ovpnTagSize) (block : Option (List UInt8)),
      Sealed skip block ls ↔ Sealed skip block (outline block ls) := by
  induction ls with
  | nil => intro skip block; cases block <;> exact Iff.rfl
  | cons raw rest ih =>
    intro skip block
    cases block with
    | none =>
      rw [outline, Sealed, Sealed]
      exact and_congr_right fun _ => ih _ _
    | some tag =>
      rw [outline, Sealed]
      cases hclose : closesBlock tag raw with
      | true =>
        rw [if_pos rfl, if_pos rfl, Sealed, hclose, if_pos rfl]
        exact ih _ _
      | false =>
        rw [if_neg Bool.false_ne_true, if_neg Bool.false_ne_true]
        exact ih _ _

theorem skipBom_suffix (text : List UInt8) : skipBom text <:+ text := by
  rw [skipBom]
  split_ifs
  · exact List.drop_suffix 3 text
  · exact List.suffix_rfl

theorem nul_notMem_configLines {text : CStr} {l : List UInt8} (h : l ∈ configLines text) :
    nul ∉ l := by
  intro hnul
  exact text.2 ((skipBom_suffix text.str).subset ((mem_lines l h).2 nul hnul))

/-- **Where the blocks are sealed, bodies do no harm.** -/
theorem parse_eq_of_sealed {text text' : CStr} (hsame : SameOutline text text')
    (hsealed : Sealed .empty none (configLines text)) :
    pmxVpnParseOpenvpn text' = pmxVpnParseOpenvpn text := by
  have hsealed' : Sealed .empty none (configLines text') := by
    rw [sealed_outline, ← hsame.2, ← sealed_outline]
    exact hsealed
  have hout : ∀ t : CStr, Sealed .empty none (configLines t) →
      (configLines t).foldl ovpnLine ovpnInit = (outline none (configLines t)).foldl ovpnLine ovpnInit :=
    fun t ht => foldl_outline _ (fun l hl => nul_notMem_configLines hl) ovpnInit none
      (fun tag htag => by cases htag) ht
  rw [pmxVpnParseOpenvpn, pmxVpnParseOpenvpn, hout text hsealed, hout text' hsealed', hsame.2]

/-! ### Lines that break out of a block -/

/-- What the parser's tag never holds. -/
def CleanTag (skip : CBuf ovpnTagSize) : Prop := gt ∉ skip.str ∧ newline ∉ skip.str

theorem cleanTag_tagOf {s : List UInt8} (h : newline ∉ s) : CleanTag (tagOf s) := by
  rw [CleanTag, tagOf_str]
  constructor
  · intro hmem
    have hkept := List.mem_takeWhile_imp hmem
    simp at hkept
  · intro hmem
    have htake := (List.takeWhile_prefix _).subset hmem
    exact h ((List.takeWhile_prefix _).subset ((List.take_prefix _ _).subset htake))

theorem CleanTag.step {skip : CBuf ovpnTagSize} (h : CleanTag skip) {raw : List UInt8}
    (hraw : newline ∉ raw) : CleanTag (tagStep skip raw) := by
  have hline : newline ∉ (lineBuf raw).drop 1 := by
    intro hmem
    have hpre := (trim_isPrefix _).subset ((List.drop_suffix 1 _).subset hmem)
    exact hraw ((List.take_prefix _ raw).subset ((List.dropWhile_suffix _).subset hpre))
  rw [tagStep]
  split_ifs
  · exact ⟨List.not_mem_nil, List.not_mem_nil⟩
  · exact h
  · exact cleanTag_tagOf hline
  · exact h

/-- A line that can stand in the body of the block `tag`. -/
structure BodyLine (tag raw : List UInt8) : Prop where
  nul_notMem : nul ∉ raw
  newline_notMem : newline ∉ raw
  open_ : closesBlock tag raw = false

/-- Only a line that starts with `</` closes a block. -/
theorem isCloseLine_of_closesBlock {tag raw : List UInt8} (h : closesBlock tag raw = true) :
    isCloseLine (trim raw) = true := by
  obtain ⟨rest, hrest⟩ := List.isPrefixOf_iff_prefix.1 h
  rw [← hrest]
  rfl

/-- A short line without white space at its ends is what the parser sees. -/
theorem lineBuf_of_short {raw : List UInt8} (hlen : raw.length ≤ ovpnLineSize - 1)
    (htrim : trim raw = raw) : lineBuf raw = raw := by
  rw [lineBuf, List.take_of_length_le hlen, htrim]

/-- A line `</` and more that does not end in white space. -/
theorem trim_closeLine {s : List UInt8} (hne : s ≠ [])
    (hlast : ∀ c, s.getLast? = some c → isSpace c = false) : trim (bytes "</" ++ s) = bytes "</" ++ s := by
  apply trim_of_ends
  · intro c hc
    obtain rfl : (60 : UInt8) = c := Option.some.inj hc
    decide
  · intro c hc
    rw [List.getLast?_append_of_ne_nil _ hne] at hc
    exact hlast c hc

/-- A line `</s` whose tag buffer holds the tag being skipped ends the skipping. -/
theorem endsSkip_closeLine {skip : CBuf ovpnTagSize} {s : List UInt8} (hnul : nul ∉ s) (hne : s ≠ [])
    (hlast : ∀ c, s.getLast? = some c → isSpace c = false) (hlen : s.length ≤ ovpnTagSize)
    (htag : (s.take (ovpnTagSize - 1)).takeWhile (· != gt) = skip.str) :
    endsSkip skip (lineBuf (bytes "</" ++ s)) = true := by
  have hbuf : lineBuf (bytes "</" ++ s) = bytes "</" ++ s := by
    apply lineBuf_of_short _ (trim_closeLine hne hlast)
    rw [List.length_append]
    show 2 + s.length ≤ 1024 - 1
    have : ovpnTagSize = 64 := rfl
    omega
  have hdrop : (bytes "</" ++ s).drop 2 = s := rfl
  rw [hbuf, endsSkip, hdrop, Bool.and_eq_true, beq_iff_eq]
  refine ⟨rfl, ?_⟩
  rw [tagOf_str, cstr_of_notMem hnul, htag]

/-- Where `>` stands tells where the tags end. -/
theorem tag_eq_of_isPrefix {tag s : List UInt8} (htag : gt ∉ tag) (hs : gt ∉ s)
    (h : tag ++ [gt] <+: s ++ [gt]) : tag = s := by
  have hcut : ∀ t : List UInt8, gt ∉ t → ∀ rest, (t ++ gt :: rest).takeWhile (· != gt) = t := by
    intro t ht rest
    rw [List.takeWhile_append_of_pos]
    · simp
    · intro c hc
      rw [bne_iff_ne]
      rintro rfl
      exact ht hc
  obtain ⟨rest, hrest⟩ := h
  rw [List.append_assoc] at hrest
  rw [← hcut tag htag rest, ← hcut s hs []]
  exact congrArg _ hrest

theorem bodyLine_closeLine {tag s : List UInt8} (hnul : nul ∉ s) (hnewline : newline ∉ s)
    (hne : s ≠ []) (hlast : ∀ c, s.getLast? = some c → isSpace c = false)
    (hno : ¬tag ++ [gt] <+: s) : BodyLine tag (bytes "</" ++ s) where
  nul_notMem := by
    rw [List.mem_append, not_or]
    exact ⟨by decide, hnul⟩
  newline_notMem := by
    rw [List.mem_append, not_or]
    exact ⟨by decide, hnewline⟩
  open_ := by
    rw [← Bool.not_eq_true, closesBlock, trim_closeLine hne hlast, closingTag,
      List.isPrefixOf_iff_prefix, List.append_assoc, List.prefix_append_right_inj]
    exact hno

/-- A line `</`, the tag being skipped and one byte more. -/
theorem exists_endsSkip_concat {skip : CBuf ovpnTagSize} {tag : List UInt8} {b : UInt8}
    (hclean : CleanTag skip) (hb : isSpace b = false) (hnul : b ≠ nul) (hnewline : b ≠ newline)
    (htag : ((skip.str ++ [b]).take (ovpnTagSize - 1)).takeWhile (· != gt) = skip.str)
    (hno : ¬tag ++ [gt] <+: skip.str ++ [b]) :
    ∃ raw, BodyLine tag raw ∧ endsSkip skip (lineBuf raw) = true := by
  have hnot : ∀ d : UInt8, b ≠ d → d ∉ skip.str → d ∉ skip.str ++ [b] := by
    intro d hd hmem
    rw [List.mem_append, List.mem_singleton, not_or]
    exact ⟨hmem, hd.symm⟩
  have hne : skip.str ++ [b] ≠ [] := by simp
  have hlast : ∀ c, (skip.str ++ [b]).getLast? = some c → isSpace c = false := by
    intro c hc
    rw [List.getLast?_concat] at hc
    obtain rfl := Option.some.inj hc
    exact hb
  have hlen : (skip.str ++ [b]).length ≤ ovpnTagSize := by
    have hskip := skip.length_str_le
    have hsize : ovpnTagSize = 64 := rfl
    rw [List.length_append, List.length_singleton]
    omega
  have hnul' := hnot nul hnul skip.nul_notMem_str
  exact ⟨bytes "</" ++ (skip.str ++ [b]),
    bodyLine_closeLine hnul' (hnot newline hnewline hclean.2) hne hlast hno,
    endsSkip_closeLine hnul' hne hlast hlen htag⟩

/-- **A block that is not sealed can be broken out of**: some line ends the skipping and does not close
the block. -/
theorem exists_endsSkip {skip : CBuf ovpnTagSize} {tag : List UInt8} (hclean : CleanTag skip)
    (htag : gt ∉ tag) (hnot : ¬Seals skip tag) (hskip : skip.isEmpty = false) :
    ∃ raw, BodyLine tag raw ∧ endsSkip skip (lineBuf raw) = true := by
  have hlen := skip.length_str_le
  have hsize : ovpnTagSize = 64 := rfl
  have hkeep : skip.str.takeWhile (· != gt) = skip.str := by
    rw [List.takeWhile_eq_self_iff]
    intro c hc
    rw [bne_iff_ne]
    rintro rfl
    exact hclean.1 hc
  by_cases hfull : skip.str.length = ovpnTagSize - 1
  · -- a tag that fills the buffer: whatever follows it is cut off
    apply exists_endsSkip_concat (b := 120) hclean (by decide) (by decide) (by decide)
    · rw [List.take_append_of_le_length (by omega), List.take_of_length_le (by omega), hkeep]
    · intro hpre
      rcases List.mem_append.1 (hpre.subset (List.mem_append_right _ List.mem_cons_self)) with hgt | hgt
      · exact hclean.1 hgt
      · exact absurd (List.mem_singleton.1 hgt) (by decide)
  by_cases hspace : skip.str.getLast?.any isSpace = true
  · -- a tag that ends in white space needs the `>`, and is not the block's
    have hother : tag ≠ skip.str := by
      rintro rfl
      exact hnot ⟨rfl, by omega, hspace⟩
    apply exists_endsSkip_concat (b := gt) hclean (by decide) (by decide) (by decide)
    · have hfits : (skip.str ++ [gt]).length ≤ ovpnTagSize - 1 := by
        rw [List.length_append, List.length_singleton]
        omega
      rw [List.take_of_length_le hfits, List.takeWhile_append, hkeep]
      simp
    · exact fun hpre => hother (tag_eq_of_isPrefix htag hclean.1 hpre)
  · -- any other tag ends without its `>`
    have hne : skip.str ≠ [] := List.isEmpty_eq_false_iff.1 hskip
    have hlast : ∀ c, skip.str.getLast? = some c → isSpace c = false := by
      intro c hc
      rw [hc, Bool.not_eq_true] at hspace
      exact hspace
    refine ⟨bytes "</" ++ skip.str, ?_, ?_⟩
    · apply bodyLine_closeLine skip.nul_notMem_str hclean.2 hne hlast
      intro hpre
      exact hclean.1 (hpre.subset (List.mem_append_right _ List.mem_cons_self))
    · apply endsSkip_closeLine skip.nul_notMem_str hne hlast (by omega)
      rw [List.take_of_length_le (by omega), hkeep]

/-- The directive `auth` with a one-letter name. -/
def authLine (c : UInt8) : List UInt8 := bytes "auth " ++ [c]

theorem bodyLine_auth (tag : List UInt8) {c : UInt8} (hc : c = 97 ∨ c = 98) :
    BodyLine tag (authLine c) := by
  have hline : nul ∉ authLine c ∧ newline ∉ authLine c ∧ isCloseLine (trim (authLine c)) = false := by
    rcases hc with rfl | rfl <;> decide
  refine ⟨hline.1, hline.2.1, ?_⟩
  rw [← Bool.not_eq_true]
  intro h
  rw [isCloseLine_of_closesBlock h] at hline
  exact Bool.noConfusion hline.2.2

theorem ovpnLine_auth {st : OvpnState} (hst : st.skippingTag.isEmpty = true) {c : UInt8}
    (hc : c = 97 ∨ c = 98) :
    ovpnLine st (authLine c) = { st with out := { st.out with authDigest := strlcpy 64 [c] } } := by
  have hline : isOpenLine (lineBuf (authLine c)) = false ∧ isCloseLine (lineBuf (authLine c)) = false ∧
      tokenize 8 (trim (stripComment (lineBuf (authLine c)))) = [bytes "auth", [c]] := by
    rcases hc with rfl | rfl <;> decide
  rw [ovpnLine, hst, hline.1, hline.2.1, hline.2.2, ovpnDirective_auth]
  rfl

/-! ### A tag that is not closed again -/

/-- A tag of sixteen letters from `a` to `p`. -/
def letterTag (f : Fin 16 → Fin 16) : List UInt8 := List.ofFn fun i => UInt8.ofNat (97 + (f i).val)

theorem letterTag_injective : Function.Injective letterTag := by
  intro f g h
  funext i
  have hi : UInt8.ofNat (97 + (f i).val) = UInt8.ofNat (97 + (g i).val) :=
    congrFun (List.ofFn_injective h) i
  have hval := congrArg UInt8.toNat hi
  rw [UInt8.toNat_ofNat', UInt8.toNat_ofNat'] at hval
  apply Fin.ext
  omega

/-- **There are more tags than lines**: some tag is closed by none of them. -/
theorem exists_letterTag (xs : List (List UInt8)) (h : xs.length < 2 ^ 64) :
    ∃ f, letterTag f ∉ xs := by
  classical
  by_contra hall
  have hall' : ∀ f, letterTag f ∈ xs := by
    intro f
    by_contra hf
    exact hall ⟨f, hf⟩
  have hcard : Fintype.card (Fin 16 → Fin 16) ≤ xs.length := by
    refine Nat.le_trans ?_ (List.toFinset_card_le xs)
    apply Finset.card_le_card_of_injOn letterTag
    · exact fun f _ => List.mem_toFinset.2 (hall' f)
    · exact letterTag_injective.injOn
  rw [Fintype.card_fun, Fintype.card_fin] at hcard
  have hpow : 16 ^ 16 = 2 ^ 64 := by decide
  rw [hpow] at hcard
  exact absurd hcard (Nat.not_le_of_gt h)

theorem letterTag_letters (f : Fin 16 → Fin 16) :
    (letterTag f).length = 16 ∧ ∀ c ∈ letterTag f, 97 ≤ c.toNat ∧ c.toNat ≤ 112 := by
  refine ⟨List.length_ofFn, ?_⟩
  intro c hc
  obtain ⟨i, rfl⟩ := List.mem_ofFn.1 hc
  rw [UInt8.toNat_ofNat']
  omega

/-- A letter is none of the characters that mean something to the parser. -/
theorem letterTag_notMem (f : Fin 16 → Fin 16) {b : UInt8} (hb : b.toNat < 97) : b ∉ letterTag f := by
  intro h
  have hletter := ((letterTag_letters f).2 b h).1
  omega

theorem isSpace_letter {c : UInt8} (hc : 97 ≤ c.toNat) : isSpace c = false := by
  have h32 : c ≠ 32 := by rintro rfl; exact absurd hc (by decide)
  have h13 : ¬c ≤ 13 := by rw [UInt8.le_iff_toNat_le]; exact fun h => absurd (Nat.le_trans hc h) (by decide)
  simp [isSpace, h32, h13]

/-- The opening line of a block with such a tag. -/
theorem letterTag_openLine (f : Fin 16 → Fin 16) :
    trim (60 :: letterTag f) = 60 :: letterTag f ∧ isCloseLine (60 :: letterTag f) = false ∧
      (tagOf (letterTag f)).str = letterTag f := by
  obtain ⟨hlen, hletters⟩ := letterTag_letters f
  have hne : letterTag f ≠ [] := by
    intro hnil
    rw [hnil] at hlen
    cases hlen
  refine ⟨?_, ?_, ?_⟩
  · apply trim_of_ends
    · intro c hc
      obtain rfl : (60 : UInt8) = c := Option.some.inj hc
      decide
    · intro c hc
      rw [List.getLast?_cons_of_ne_nil hne] at hc
      exact isSpace_letter (hletters c (List.mem_of_getLast? hc)).1
  · cases hl : letterTag f with
    | nil => exact absurd hl hne
    | cons d rest =>
      have hd : d ≠ 47 := by
        rintro rfl
        exact letterTag_notMem f (b := 47) (by decide) (by rw [hl]; exact List.mem_cons_self)
      simp [isCloseLine, hd]
  · rw [tagOf_str, cstr_of_notMem (letterTag_notMem f (by decide)),
      List.take_of_length_le (by rw [hlen]; decide), List.takeWhile_eq_self_iff]
    intro c hc
    rw [bne_iff_ne]
    rintro rfl
    exact letterTag_notMem f (b := gt) (by decide) hc

/-- Lines that do not end the skipping change nothing. -/
theorem foldl_skipping {st : OvpnState} (hst : st.skippingTag.isEmpty = false) (post : List (List UInt8))
    (hpost : ∀ l ∈ post, endsSkip st.skippingTag (lineBuf l) = false) :
    post.foldl ovpnLine st = st := by
  induction post with
  | nil => rfl
  | cons l post ih =>
    rw [List.foldl_cons, ovpnLine_of_skipping hst, hpost l List.mem_cons_self,
      if_neg Bool.false_ne_true]
    exact ih fun l' hl' => hpost l' (List.mem_cons_of_mem _ hl')

/-- **The rest of a text can be swallowed**: some line opens a block that none of it closes. -/
theorem exists_swallow (st : OvpnState) (hst : st.skippingTag.isEmpty = true) (tag : List UInt8)
    (post : List (List UInt8)) (hpost : post.length < 2 ^ 64) :
    ∃ raw, BodyLine tag raw ∧
      ((raw :: post).foldl ovpnLine st).out.authDigest = st.out.authDigest := by
  obtain ⟨f, hf⟩ := exists_letterTag (post.map fun l => (tagOf ((lineBuf l).drop 2)).str)
    (by rw [List.length_map]; exact hpost)
  obtain ⟨htrim, hclose, htag⟩ := letterTag_openLine f
  have hlen := (letterTag_letters f).1
  have hbuf : lineBuf (60 :: letterTag f) = 60 :: letterTag f := by
    apply lineBuf_of_short _ htrim
    rw [List.length_cons, hlen]
    decide
  refine ⟨60 :: letterTag f, ⟨?_, ?_, ?_⟩, ?_⟩
  · rw [List.mem_cons, not_or]
    exact ⟨by decide, letterTag_notMem f (by decide)⟩
  · rw [List.mem_cons, not_or]
    exact ⟨by decide, letterTag_notMem f (by decide)⟩
  · rw [← Bool.not_eq_true]
    intro h
    have hcl := isCloseLine_of_closesBlock h
    rw [htrim, hclose] at hcl
    cases hcl
  · have hcont : isParsedContainerTag (tagOf (letterTag f)).str = false := by
      rw [htag, isParsedContainerTag, beq_eq_false_iff_ne]
      intro heq
      rw [heq] at hlen
      exact absurd hlen (by decide)
    have hline : ovpnLine st (60 :: letterTag f) = openTag st (tagOf (letterTag f)) := by
      rw [ovpnLine, hst, hbuf]
      simp only [Bool.not_true, Bool.false_eq_true, if_false, isOpenLine, hclose]
      rfl
    have hskip : (openTag st (tagOf (letterTag f))).skippingTag = tagOf (letterTag f) := by
      rw [openTag, hcont]
      rfl
    have hauth : (openTag st (tagOf (letterTag f))).out.authDigest = st.out.authDigest := by
      rw [openTag, hcont, if_neg Bool.false_ne_true]
      split_ifs <;> rfl
    rw [List.foldl_cons, hline, foldl_skipping, hauth]
    · rw [hskip, CBuf.isEmpty, htag, List.isEmpty_eq_false_iff]
      intro hnil
      rw [hnil] at hlen
      cases hlen
    · intro l hl
      rw [hskip, endsSkip, htag, Bool.and_eq_false_iff]
      refine Or.inr (beq_eq_false_iff_ne.2 fun heq => hf ?_)
      rw [← heq]
      exact List.mem_map_of_mem hl

/-- **An injection.**  In the body of a block that is not sealed, some lines make the parser come out of
the text with the digest they choose. -/
theorem exists_injection {st : OvpnState} {tag : List UInt8} (hclean : CleanTag st.skippingTag)
    (htag : gt ∉ tag) (hnot : ¬Seals st.skippingTag tag) (post : List (List UInt8))
    (hpost : post.length < 2 ^ 64) {c : UInt8} (hc : c = 97 ∨ c = 98) :
    ∃ inj : List (List UInt8), (∀ raw ∈ inj, BodyLine tag raw) ∧
      ((inj ++ post).foldl ovpnLine st).out.authDigest = strlcpy 64 [c] := by
  have hfree : ∀ st : OvpnState, st.skippingTag.isEmpty = true → ∃ inj : List (List UInt8),
      (∀ raw ∈ inj, BodyLine tag raw) ∧
        ((inj ++ post).foldl ovpnLine st).out.authDigest = strlcpy 64 [c] := by
    intro st hst
    have hauth := ovpnLine_auth hst hc
    obtain ⟨raw, hbody, hparse⟩ := exists_swallow (ovpnLine st (authLine c)) (by rw [hauth]; exact hst)
      tag post hpost
    refine ⟨[authLine c, raw], ?_, ?_⟩
    · intro raw' hraw'
      rcases List.mem_cons.1 hraw' with rfl | hraw'
      · exact bodyLine_auth tag hc
      · rw [List.mem_singleton.1 hraw']
        exact hbody
    · rw [List.cons_append, List.cons_append, List.nil_append, List.foldl_cons, hparse, hauth]
  cases hskip : st.skippingTag.isEmpty with
  | true => exact hfree st hskip
  | false =>
    obtain ⟨raw, hbody, hends⟩ := exists_endsSkip hclean htag hnot hskip
    obtain ⟨inj, hinj, hparse⟩ := hfree { st with skippingTag := .empty } rfl
    refine ⟨raw :: inj, ?_, ?_⟩
    · intro raw' hraw'
      rcases List.mem_cons.1 hraw' with rfl | hraw'
      · exact hbody
      · exact hinj raw' hraw'
    · rw [List.cons_append, List.foldl_cons, ovpnLine_of_skipping hskip, hends, if_pos rfl]
      exact hparse

/-! ### The exact condition -/

theorem outline_append (pre rest : List (List UInt8)) :
    ∀ block : Option (List UInt8),
      outline block (pre ++ rest) = outline block pre ++ outline (pre.foldl blockStep block) rest := by
  induction pre with
  | nil => intro block; cases block <;> rfl
  | cons raw pre ih =>
    intro block
    cases block with
    | none => rw [List.cons_append, outline, outline, ih, List.cons_append]; rfl
    | some tag =>
      rw [List.cons_append, outline, outline, List.foldl_cons, blockStep]
      cases closesBlock tag raw with
      | true => rw [if_pos rfl, if_pos rfl, if_pos rfl, ih, List.cons_append]
      | false =>
        rw [if_neg Bool.false_ne_true, if_neg Bool.false_ne_true, if_neg Bool.false_ne_true, ih]

/-- Lines of a body are not in the outline. -/
theorem outline_body {tag : List UInt8} (body post : List (List UInt8))
    (hbody : ∀ raw ∈ body, BodyLine tag raw) :
    outline (some tag) (body ++ post) = outline (some tag) post := by
  induction body with
  | nil => rfl
  | cons raw body ih =>
    rw [List.cons_append, outline, (hbody raw List.mem_cons_self).open_, if_neg Bool.false_ne_true]
    exact ih fun raw' hraw' => hbody raw' (List.mem_cons_of_mem _ hraw')

/-- Where the blocks are not all sealed, there is a first one that is not. -/
theorem exists_unsealed (ls : List (List UInt8)) (hls : ∀ l ∈ ls, nul ∉ l ∧ newline ∉ l) :
    ∀ (st : OvpnState) (block : Option (List UInt8)), CleanTag st.skippingTag →
      (∀ tag ∈ block, Seals st.skippingTag tag) → ¬Sealed st.skippingTag block ls →
      ∃ pre raw post tag, ls = pre ++ raw :: post ∧ pre.foldl blockStep block = none ∧
        blockTag raw = some tag ∧ CleanTag ((pre ++ [raw]).foldl ovpnLine st).skippingTag ∧
        ¬Seals ((pre ++ [raw]).foldl ovpnLine st).skippingTag tag := by
  induction ls with
  | nil =>
    intro st block _ _ hnot
    cases block <;> exact absurd trivial hnot
  | cons raw rest ih =>
    intro st block hclean hblock hnot
    have hraw := hls raw List.mem_cons_self
    have hstep : (ovpnLine st raw).skippingTag = tagStep st.skippingTag raw :=
      ovpnLine_skippingTag st raw
    have hclean' : CleanTag (ovpnLine st raw).skippingTag := by
      rw [hstep]
      exact hclean.step hraw.2
    have hnext : ∀ (st' : OvpnState) (block' : Option (List UInt8)), ovpnLine st raw = st' →
        blockStep block raw = block' → CleanTag st'.skippingTag →
        (∀ tag ∈ block', Seals st'.skippingTag tag) → ¬Sealed st'.skippingTag block' rest →
        ∃ pre raw' post tag, raw :: rest = pre ++ raw' :: post ∧ pre.foldl blockStep block = none ∧
          blockTag raw' = some tag ∧ CleanTag ((pre ++ [raw']).foldl ovpnLine st).skippingTag ∧
          ¬Seals ((pre ++ [raw']).foldl ovpnLine st).skippingTag tag := by
      rintro st' block' rfl rfl hc hb hn
      obtain ⟨pre, raw', post, tag, rfl, hpre, htag, hcl, hseal⟩ :=
        ih (fun l hl => hls l (List.mem_cons_of_mem _ hl)) _ _ hc hb hn
      exact ⟨raw :: pre, raw', post, tag, rfl, hpre, htag, hcl, hseal⟩
    cases block with
    | none =>
      rw [Sealed, not_and_or] at hnot
      by_cases hfirst : ∀ tag ∈ blockTag raw, Seals (tagStep st.skippingTag raw) tag
      · have hrest := hnot.resolve_left (not_not_intro hfirst)
        apply hnext (ovpnLine st raw) (blockTag raw) rfl rfl hclean'
        · rw [hstep]
          exact hfirst
        · rw [hstep]
          exact hrest
      · obtain ⟨tag, htag, hseal⟩ : ∃ tag, blockTag raw = some tag ∧
            ¬Seals (tagStep st.skippingTag raw) tag := by
          by_contra hno
          exact hfirst fun tag htag => by_contra fun hseal => hno ⟨tag, htag, hseal⟩
        refine ⟨[], raw, rest, tag, rfl, rfl, htag, hclean', ?_⟩
        show ¬Seals (ovpnLine st raw).skippingTag tag
        rw [hstep]
        exact hseal
    | some tag =>
      rw [Sealed] at hnot
      cases hclose : closesBlock tag raw with
      | true =>
        rw [hclose, if_pos rfl] at hnot
        apply hnext (ovpnLine st raw) none rfl (by rw [blockStep, hclose]; rfl) hclean'
        · intro tag' htag'
          cases htag'
        · rw [hstep]
          exact hnot
      | false =>
        rw [hclose, if_neg Bool.false_ne_true] at hnot
        obtain ⟨hskip, hends⟩ := tagStep_of_seals (hblock tag rfl) hraw.1 hclose
        apply hnext st (some tag) _ (by rw [blockStep, hclose]; rfl) hclean hblock hnot
        rw [ovpnLine_of_skipping hskip, hends, if_neg Bool.false_ne_true]

/-- **Any lines can follow the first**: a text with the given lines, and with a byte order mark where
`text` has one. -/
theorem exists_text (text : CStr) {ls : List (List UInt8)} (hne : configLines text ≠ [])
    (hhead : ls.head? = (configLines text).head?) (hls : ∀ l ∈ ls, nul ∉ l ∧ newline ∉ l) :
    ∃ text' : CStr, hasBom text.str = hasBom text'.str ∧ configLines text' = ls := by
  have hnul : nul ∉ unlines ls := by
    intro h
    obtain ⟨l, hl, hmem⟩ := List.mem_flatMap.1 h
    rcases List.mem_append.1 hmem with hmem | hmem
    · exact (hls l hl).1 hmem
    · exact absurd (List.mem_singleton.1 hmem) (by decide)
  have hlines : lines (unlines ls) = ls := lines_unlines fun l hl => (hls l hl).2
  cases hbom : hasBom text.str with
  | true =>
    have hbom' : hasBom (byteOrderMark ++ unlines ls) = true :=
      List.isPrefixOf_iff_prefix.2 (List.prefix_append _ _)
    refine ⟨⟨byteOrderMark ++ unlines ls, ?_⟩, hbom'.symm, ?_⟩
    · rw [List.mem_append, not_or]
      exact ⟨by decide, hnul⟩
    · show lines (skipBom (byteOrderMark ++ unlines ls)) = ls
      rw [skipBom, if_pos hbom']
      exact hlines
  | false =>
    -- without a mark, the first line tells that there is none
    have hlines₀ : configLines text = lines text.str := by
      rw [configLines, skipBom, hbom, if_neg Bool.false_ne_true]
    have hfirst : firstLine (unlines ls) = firstLine text.str := by
      rw [hlines₀] at hne hhead
      have htext : text.str ≠ [] := by
        intro hnil
        rw [hnil, lines_nil] at hne
        exact hne rfl
      have hnew : unlines ls ≠ [] := by
        intro hnil
        rw [← hlines, hnil, lines_nil, lines_of_ne_nil htext] at hhead
        cases hhead
      rw [← hlines, lines_of_ne_nil hnew, lines_of_ne_nil htext] at hhead
      exact Option.some.inj hhead
    have hbom' : hasBom (unlines ls) = false := by
      rw [← Bool.not_eq_true] at hbom ⊢
      intro h
      have hpre := (isPrefix_iff_firstLine (by decide) _).1 (List.isPrefixOf_iff_prefix.1 h)
      rw [hfirst] at hpre
      exact hbom (List.isPrefixOf_iff_prefix.2 ((isPrefix_iff_firstLine (by decide) _).2 hpre))
    refine ⟨⟨unlines ls, hnul⟩, hbom'.symm, ?_⟩
    show lines (skipBom (unlines ls)) = ls
    rw [skipBom, hbom', if_neg Bool.false_ne_true]
    exact hlines

/-- A block that is not sealed lets a text come out with the digest chosen in its body. -/
theorem exists_text_of_unsealed {text : CStr} (hlen : text.str.length < 2 ^ 64)
    (hnot : ¬Sealed .empty none (configLines text)) {c : UInt8} (hc : c = 97 ∨ c = 98) :
    ∃ text' : CStr, SameOutline text text' ∧
      (pmxVpnParseOpenvpn text').1.authDigest = strlcpy 64 [c] := by
  have hls : ∀ l ∈ configLines text, nul ∉ l ∧ newline ∉ l :=
    fun l hl => ⟨nul_notMem_configLines hl, (mem_lines l hl).1⟩
  obtain ⟨pre, raw, post, tag, heq, hpre, htag, hclean, hseal⟩ :=
    exists_unsealed (configLines text) hls ovpnInit none ⟨List.not_mem_nil, List.not_mem_nil⟩
      (fun tag htag => by cases htag) hnot
  have hpost : post.length < 2 ^ 64 := by
    have hle := length_lines_le (skipBom text.str)
    have hskip := (skipBom_suffix text.str).length_le
    have htotal : (lines (skipBom text.str)).length = pre.length + (post.length + 1) := by
      rw [show lines (skipBom text.str) = pre ++ raw :: post from heq, List.length_append,
        List.length_cons]
    omega
  obtain ⟨inj, hinj, hparse⟩ :=
    exists_injection hclean (blockTag_spec htag) hseal post hpost hc
  rw [heq] at hls
  have hne : configLines text ≠ [] := by
    rw [heq]
    exact List.append_ne_nil_of_right_ne_nil _ (List.cons_ne_nil _ _)
  have hhead : (pre ++ raw :: (inj ++ post)).head? = (configLines text).head? := by
    rw [heq]
    cases pre <;> rfl
  have hgood : ∀ l ∈ pre ++ raw :: (inj ++ post), nul ∉ l ∧ newline ∉ l := by
    intro l hl
    rcases List.mem_append.1 hl with hl | hl
    · exact hls l (List.mem_append_left _ hl)
    · rcases List.mem_cons.1 hl with rfl | hl
      · exact hls l (List.mem_append_right _ List.mem_cons_self)
      · rcases List.mem_append.1 hl with hl | hl
        · exact ⟨(hinj l hl).nul_notMem, (hinj l hl).newline_notMem⟩
        · exact hls l (List.mem_append_right _ (List.mem_cons_of_mem _ hl))
  obtain ⟨text', hbom, hconfig⟩ := exists_text text hne hhead hgood
  refine ⟨text', ⟨hbom, ?_⟩, ?_⟩
  · rw [hconfig, heq, outline_append, outline_append, hpre, outline, outline, htag,
      outline_body inj post hinj]
  · show ((configLines text').foldl ovpnLine ovpnInit).out.authDigest = _
    rw [hconfig, ← hparse, ← List.foldl_append, List.append_assoc, List.singleton_append]

/-- **Bodies are harmless exactly where every block is sealed.** -/
theorem bodies_harmless_iff (text : CStr) (hlen : text.str.length < 2 ^ 64) :
    (∀ text' : CStr, SameOutline text text' → pmxVpnParseOpenvpn text' = pmxVpnParseOpenvpn text) ↔
      Sealed .empty none (configLines text) := by
  constructor
  · intro h
    by_contra hnot
    obtain ⟨text₁, hsame₁, hdigest₁⟩ := exists_text_of_unsealed hlen hnot (Or.inl rfl)
    obtain ⟨text₂, hsame₂, hdigest₂⟩ := exists_text_of_unsealed hlen hnot (Or.inr rfl)
    rw [h text₁ hsame₁] at hdigest₁
    rw [h text₂ hsame₂, hdigest₁] at hdigest₂
    exact absurd hdigest₂ (by decide)
  · intro hsealed text' hsame
    exact parse_eq_of_sealed hsame hsealed

/-- A block whose tag ends in a blank. -/
def blankTagText : CStr := ⟨bytes "remote real 1194\n<ca >\nAAAA\n</ca >\n", by decide⟩

/-- Another body, with a line `</ca` and a directive after it. -/
def blankTagInjectedText : CStr :=
  ⟨bytes "remote real 1194\n<ca >\n</ca\nremote evil 443\n</ca >\n", by decide⟩

theorem bodies_harmless_blankTag :
    pmxVpnParseOpenvpn blankTagInjectedText = pmxVpnParseOpenvpn blankTagText :=
  (bodies_harmless_iff blankTagText (by decide)).2 (by decide +kernel) blankTagInjectedText
    (by decide +kernel)

/-- A certificate inline, as every config has it. -/
def caText : CStr := ⟨bytes "client\nremote real 1194\n<ca>\nAAAA\n</ca>\n", by decide⟩

/-- The same body in its place. -/
def caInjectedText : CStr :=
  ⟨bytes "client\nremote real 1194\n<ca>\n</ca\nremote evil 443\n</ca>\n", by decide⟩

/-- The two texts differ in a body only, and one of them yields another endpoint. -/
theorem bodies_not_harmless_ca :
    SameOutline caText caInjectedText ∧
      pmxVpnParseOpenvpn caInjectedText ≠ pmxVpnParseOpenvpn caText ∧
      ⟨strlcpy pmxMaxHost (bytes "evil"), 443, true⟩ ∈ (pmxVpnParseOpenvpn caInjectedText).1.endpoints := by
  decide +kernel

end ProxiMight
