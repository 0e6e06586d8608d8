import ProxiMight.ProfileFile
import ProxiMight.ProfileRoundTrip

/-!
# Sealed profiles

A sealed profile is a container: a magic, a version, the length of the payload, the payload.  What is cut
off at the end shows in the length, down to a file that has no room for the header; such a file is taken
for plain text, and what is left of the magic is no JSON.

* **`sealed_lossless`** — a container is loaded as the profile it was made of, and no proper front of it
  is loaded at all.
-/

namespace ProxiMight

open CString Files

/-! ### The header -/

theorem putU32le_length (n : ℕ) : (putU32le n).length = 4 := rfl

theorem getU32le_putU32le {n : ℕ} (h : n ≤ 0xFFFFFFFF) (rest : List UInt8) :
    getU32le (putU32le n ++ rest) = n := by
  show (UInt8.ofNat n).toNat + (UInt8.ofNat (n / 2 ^ 8)).toNat * 2 ^ 8 +
    (UInt8.ofNat (n / 2 ^ 16)).toNat * 2 ^ 16 + (UInt8.ofNat (n / 2 ^ 24)).toNat * 2 ^ 24 = n
  simp only [UInt8.toNat_ofNat']
  omega

theorem sealContainer_length (sealed : List UInt8) :
    (sealContainer sealed).length = pmxSealHeader + sealed.length := by
  simp only [sealContainer, List.length_append, putU32le_length]
  rfl

/-- Magic, version and length, and what is left of the payload. -/
theorem sealContainer_take {sealed : List UInt8} {n : ℕ} (h : pmxSealHeader ≤ n) :
    (sealContainer sealed).take n =
      pmxSealMagic ++ (putU32le pmxSealVersion ++ (putU32le sealed.length ++
        sealed.take (n - pmxSealHeader))) := by
  have hheader : (pmxSealMagic ++ putU32le pmxSealVersion ++ putU32le sealed.length).length
      = pmxSealHeader := rfl
  rw [sealContainer, List.take_append, hheader, List.take_of_length_le (by rw [hheader]; exact h)]
  simp only [List.append_assoc]

/-- What the loader reads off a file that starts with the magic and the version. -/
theorem sealed_header {len : ℕ} (hlen : len ≤ 0xFFFFFFFF) (rest : List UInt8) :
    let buf := pmxSealMagic ++ (putU32le pmxSealVersion ++ (putU32le len ++ rest))
    looksSealed buf = true ∧ getU32le (buf.drop 8) = pmxSealVersion ∧ getU32le (buf.drop 12) = len ∧
      buf.drop pmxSealHeader = rest ∧ buf.length - pmxSealHeader = rest.length := by
  intro buf
  refine ⟨?_, rfl, getU32le_putU32le hlen rest, rfl, ?_⟩
  · rw [looksSealed, Bool.and_eq_true, decide_eq_true_eq, beq_iff_eq]
    exact ⟨Nat.le_add_left 16 rest.length, rfl⟩
  · exact Nat.add_sub_cancel rest.length 16

/-! ### Texts that are no JSON -/

/-- The bytes a JSON value can start with. -/
def jsonStarts : List UInt8 := bytes "\x7b[\"-0123456789tfn"

/-- The text starts like a JSON value, after a byte order mark and blanks. -/
def startsValue (text : List UInt8) : Bool :=
  let text := if text.take 3 = [0xEF, 0xBB, 0xBF] then text.drop 3 else text
  (text.dropWhile fun c => decide (c ≤ 32)).head?.any fun c => jsonStarts.contains c

/-- cJSON takes no text that does not start like a JSON value. -/
def RejectsOthers (C : CJson) : Prop := ∀ text : CStr, startsValue text.str = false → C.parse text = none

/-- The front of an array that holds a string, read as a string. -/
theorem cstr_take {s : List UInt8} (h : nul ∉ s) (rest : List UInt8) (n : ℕ) :
    cstr ((s ++ nul :: rest).take n) = s.take n := by
  by_cases hn : n ≤ s.length
  · rw [List.take_append_of_le_length hn]
    exact cstr_of_notMem fun hmem => h (List.mem_of_mem_take hmem)
  · obtain ⟨k, rfl⟩ := Nat.exists_eq_add_of_lt (Nat.lt_of_not_le hn)
    rw [List.take_append, List.take_of_length_le (by omega),
      show s.length + k + 1 - s.length = k + 1 by omega, List.take_succ_cons, cstr_append_nul h]

/-- What is left of the magic is no JSON, nor is an empty file. -/
theorem startsValue_magic (n : ℕ) : startsValue ((bytes "PMXSEAL").take n) = false := by
  cases n with
  | zero => rfl
  | succ n => rfl

theorem textOf_take_container (sealed : List UInt8) (n : ℕ) :
    (textOf ((sealContainer sealed).take n)).str = (bytes "PMXSEAL").take n := by
  show cstr ((sealContainer sealed).take n) = _
  rw [sealContainer, pmxSealMagic, List.append_assoc, List.append_assoc, List.append_assoc]
  exact cstr_take (by decide) _ n

/-! ### Loading -/

/-- The file is read to its end. -/
def ReadOutcome.Whole (o : ReadOutcome) (len : ℕ) : Prop :=
  o.opened = true ∧ o.told = true ∧ o.allocOk = true ∧ len ≤ o.read

/-- A profile that was loaded from a file knows its path. -/
def loadedFrom (path : CStr) (r : PmxProfile × PmxStatus) : PmxProfile × PmxStatus :=
  if r.2 = .ok then ({ r.1 with path := strlcpy pmxMaxPath path.str }, .ok) else r

/-- **A container is loaded as the text it was made of.** -/
theorem load_container {env : LoadEnv} (havailable : env.save.protect.available = true)
    (hplain : env.plainOk = true) {fs : Disk} {path : CStr} {sealed : List UInt8} {json : CStr}
    (hfile : fs path = some (sealContainer sealed)) (hread : env.read.Whole (sealContainer sealed).length)
    (hlen : sealed.length ≤ 0xFFFFFFFF) (hunseal : env.save.protect.protectUnseal sealed = .ok json.str)
    (pf : PmxProfile) :
    pmxProfileLoad env fs pf path =
      (let r := loadedFrom path (pmxProfileFromJson env.save.cjson env.alloc pf json)
      (r.1, fs, r.2)) := by
  obtain ⟨hopen, htold, halloc, hall⟩ := hread
  have hbuf : readWholeFile fs path env.read = .ok (sealContainer sealed) := by
    rw [readWholeFile, hfile]
    simp only [hopen, htold, halloc, Bool.not_true, Bool.false_eq_true, if_false]
    rw [List.take_of_length_le hall]
  have hshape : sealContainer sealed =
      pmxSealMagic ++ (putU32le pmxSealVersion ++ (putU32le sealed.length ++ sealed)) := by
    simp only [sealContainer, List.append_assoc]
  have htext : textOf json.str = json := Subtype.ext (cstr_of_notMem json.2)
  obtain ⟨hlook, hversion, hplen, hpayload, hroom⟩ := sealed_header hlen sealed
  rw [← hshape] at hlook hversion hplen hpayload hroom
  rw [pmxProfileLoad, hbuf]
  simp only [hlook, if_true]
  rw [loadSealed]
  simp only [hversion, hplen, hroom, hpayload, havailable, List.take_length, hunseal, hplain, htext,
    ne_eq, not_true_eq_false, gt_iff_lt, lt_irrefl, or_self, if_false, Bool.not_true,
    Bool.false_eq_true, if_true, loadedFrom]

/-- **A container that was cut off is not loaded.** -/
theorem load_truncated {env : LoadEnv} (hC : RejectsOthers env.save.cjson) {sealed : List UInt8}
    (hlen : sealed.length ≤ 0xFFFFFFFF) {n : ℕ} (hn : n < (sealContainer sealed).length) {fs : Disk}
    {path : CStr} (hfile : fs path = some ((sealContainer sealed).take n)) (pf : PmxProfile) :
    ∃ st, st ≠ .ok ∧ pmxProfileLoad env fs pf path = (pf, fs, st) := by
  rw [pmxProfileLoad, readWholeFile, hfile]
  cases env.read.opened with
  | false => exact ⟨.errIo, by decide, rfl⟩
  | true =>
    cases env.read.told with
    | false => exact ⟨.errIo, by decide, rfl⟩
    | true =>
      cases env.read.allocOk with
      | false => exact ⟨.errNoMemory, by decide, rfl⟩
      | true =>
        refine ⟨.errParse, by decide, ?_⟩
        -- what is read of the front is a front
        simp only [Bool.not_true, Bool.false_eq_true, if_false, List.take_take]
        have hm : min env.read.read n < (sealContainer sealed).length :=
          lt_of_le_of_lt (Nat.min_le_right _ _) hn
        generalize min env.read.read n = m at hm
        by_cases hheader : pmxSealHeader ≤ m
        · rw [sealContainer_length] at hm
          have hshort : (sealed.take (m - pmxSealHeader)).length < sealed.length := by
            rw [List.length_take]
            omega
          obtain ⟨hlook, hversion, hplen, -, hroom⟩ :=
            sealed_header hlen (sealed.take (m - pmxSealHeader))
          rw [sealContainer_take hheader]
          simp only [hlook, if_true]
          rw [loadSealed]
          simp only [hversion, hplen, hroom, gt_iff_lt, hshort, or_true, if_true]
        · have hlook : looksSealed ((sealContainer sealed).take m) = false := by
            rw [looksSealed, Bool.and_eq_false_iff, decide_eq_false_iff_not]
            refine Or.inl fun hlong => hheader (hlong.trans ?_)
            exact List.length_take_le m _
          have hparse : env.save.cjson.parse (textOf ((sealContainer sealed).take m)) = none :=
            hC _ (by rw [textOf_take_container]; exact startsValue_magic m)
          simp only [hlook, Bool.false_eq_true, if_false]
          rw [pmxProfileFromJson, hparse]
          rfl

/-! ### Saving and loading -/

/-- What a save that succeeds where there is a provider wrote. -/
theorem pmxProfileSave_ok {env : SaveEnv} (havailable : env.protect.available = true) {fs fs' : Disk}
    {pf : PmxProfile} {path : CStr} (h : pmxProfileSave env fs pf path = (fs', .ok)) :
    ∃ json sealed, pmxProfileToJson env.cjson pf = .ok json ∧
      env.protect.protectSeal json.str = .ok sealed ∧ sealed.length ≤ 0xFFFFFFFF ∧
      writeFileAtomic fs path (sealContainer sealed) (env.write _) = (fs', .ok) := by
  rw [pmxProfileSave] at h
  cases hjson : pmxProfileToJson env.cjson pf with
  | error st =>
    rw [hjson] at h
    obtain rfl := (Prod.mk.inj h).2
    rw [pmxProfileToJson] at hjson
    split at hjson
    · cases hjson
    · cases hjson
  | ok json =>
    rw [hjson] at h
    simp only [havailable, if_true] at h
    cases hseal : env.protect.protectSeal json.str with
    | error st =>
      rw [hseal] at h
      obtain rfl := (Prod.mk.inj h).2
      rcases env.protect.seal_error _ _ hseal with hst | hst | hst | hst
      all_goals cases hst
    | ok sealed =>
      rw [hseal] at h
      dsimp only at h
      split_ifs at h with hlong hok
      · cases (Prod.mk.inj h).2
      · exact ⟨json, sealed, rfl, hseal, Nat.le_of_not_lt hlong, h⟩
      · cases (Prod.mk.inj h).2

/-- A write that succeeds and loses nothing when the stream is flushed and closed leaves the bytes. -/
theorem writeFileAtomic_ok_content {fs fs' : Disk} {path : CStr} {data : List UInt8}
    {o : WriteOutcome data.length} (h : writeFileAtomic fs path data o = (fs', .ok))
    (hflush : o.flushed = true) (hclose : o.closed = true) : fs' path = some data := by
  by_cases hopen : o.opened = true
  · have hok : o.written = data.length ∧ o.renamed = true :=
      (writeFileAtomic_ok_iff hopen).1 (congrArg Prod.snd h)
    have hkept := o.kept_all hok.1 hflush hclose
    rw [writeFileAtomic_opened fs path hopen] at h
    simp only [hok.1, hok.2, ne_eq, not_true_eq_false, if_false, if_true] at h
    rw [← (Prod.mk.inj h).1, rename_write, hkept, List.take_length]
  · rw [writeFileAtomic, if_neg hopen] at h
    cases (Prod.mk.inj h).2

/-- **Sealed storage is lossless, and no truncation is loaded.**  A profile that was saved is in a
container.  A file with that container is loaded as the text of the profile is read, and a file with a
proper front of it, however short, is refused and leaves the profile that was passed in alone. -/
theorem sealed_lossless {env : LoadEnv} (havailable : env.save.protect.available = true)
    (hround : ∀ plain sealed, env.save.protect.protectSeal plain = .ok sealed →
      env.save.protect.protectUnseal sealed = .ok plain)
    (hC : RejectsOthers env.save.cjson) {fs fs' : Disk} {pf : PmxProfile} {path : CStr}
    (hsave : pmxProfileSave env.save fs pf path = (fs', .ok)) :
    ∃ json container, pmxProfileToJson env.save.cjson pf = .ok json ∧
      ((env.save.write container.length).flushed = true →
        (env.save.write container.length).closed = true → fs' path = some container) ∧
      (env.plainOk = true → env.read.Whole container.length →
        ∀ (disk : Disk) (file : CStr) (pf₀ : PmxProfile), disk file = some container →
          pmxProfileLoad env disk pf₀ file =
            (let r := loadedFrom file (pmxProfileFromJson env.save.cjson env.alloc pf₀ json)
            (r.1, disk, r.2))) ∧
      ∀ n < container.length, ∀ (disk : Disk) (file : CStr) (pf₀ : PmxProfile),
        disk file = some (container.take n) →
          ∃ st, st ≠ .ok ∧ pmxProfileLoad env disk pf₀ file = (pf₀, disk, st) := by
  obtain ⟨json, sealed, hjson, hseal, hlen, hwrite⟩ := pmxProfileSave_ok havailable hsave
  refine ⟨json, sealContainer sealed, hjson, ?_, ?_, ?_⟩
  · intro hflush hclose
    exact writeFileAtomic_ok_content hwrite hflush hclose
  · intro hplain hread disk file pf₀ hfile
    exact load_container havailable hplain hfile hread hlen (hround _ _ hseal) pf₀
  · intro n hn disk file pf₀ hfile
    exact load_truncated hC hlen hn hfile pf₀

/-- A provider that seals every byte on its own. -/
def maskProtect : PmxProtect where
  available := true
  protectSeal := fun plain => .ok (plain.map (· ^^^ 0x5A))
  protectUnseal := fun sealed => .ok (sealed.map (· ^^^ 0x5A))
  seal_error := fun _ _ h => by cases h

theorem maskProtect_round (plain sealed : List UInt8) (h : maskProtect.protectSeal plain = .ok sealed) :
    maskProtect.protectUnseal sealed = .ok plain := by
  obtain rfl := Except.ok.inj h
  show Except.ok ((plain.map (· ^^^ 0x5A)).map (· ^^^ 0x5A)) = Except.ok plain
  rw [List.map_map]
  have hid : ((· ^^^ 0x5A) ∘ (· ^^^ 0x5A) : UInt8 → UInt8) = id := by
    funext b
    show b ^^^ 0x5A ^^^ 0x5A = b
    rw [UInt8.xor_assoc, UInt8.xor_self, UInt8.xor_zero]
  rw [hid, List.map_id]

/-- Everything the operating system is asked for works. -/
noncomputable def sealEnv : LoadEnv where
  read := ⟨true, true, true, 65536⟩
  plainOk := true
  alloc := .unlimited
  save :=
    { cjson := authCJson
      protect := maskProtect
      containerOk := true
      write := fun len => ⟨true, len, true, true, len, true, true, le_rfl, le_rfl, fun _ _ _ => rfl⟩ }

theorem authCJson_rejects : RejectsOthers authCJson := by
  intro text htext
  have hauth : startsValue authText.str = true := by decide +kernel
  refine if_neg fun heq => ?_
  rw [heq, hauth] at htext
  cases htext

theorem bytes_length_le {cs : List Char} {n : ℕ} (h : cs.length ≤ n) :
    (bytes (String.ofList cs)).length ≤ n := by
  rw [bytes, List.length_map, String.toList_ofList]
  exact h

theorem flatMap_bytes_length_le {lines : List String} {n : ℕ} (h : ∀ s ∈ lines, (bytes s).length ≤ n) :
    (lines.flatMap bytes).length ≤ lines.length * n := by
  induction lines with
  | nil => exact Nat.zero_le _
  | cons s lines ih =>
    have hs := h s List.mem_cons_self
    have hrest := ih fun s' hs' => h s' (List.mem_cons_of_mem _ hs')
    rw [List.flatMap_cons, List.length_append, List.length_cons, Nat.succ_mul]
    omega

theorem authText_short : authText.str.length ≤ 0xFFFFFFFF := by
  refine (List.takeWhile_sublist _).length_le.trans
    ((flatMap_bytes_length_le (n := 100) ?_).trans (by decide))
  simp only [List.forall_mem_cons, List.not_mem_nil, false_implies, implies_true, and_true]
  repeat' apply And.intro
  all_goals exact bytes_length_le (by decide)

theorem sealed_lossless_auth :
    ∃ (json : CStr) (container : List UInt8), pmxProfileToJson authCJson authProfile = .ok json ∧
      ∀ n < container.length, ∀ (disk : Disk) (file : CStr) (pf₀ : PmxProfile),
        disk file = some (container.take n) →
          ∃ st, st ≠ .ok ∧ pmxProfileLoad sealEnv disk pf₀ file = (pf₀, disk, st) := by
  have hjson : pmxProfileToJson authCJson authProfile = .ok authText := by
    rw [pmxProfileToJson, authCJson]
    simp only [if_pos]
  have hseal : ∀ plain, sealEnv.save.protect.protectSeal plain
      = .ok (plain.map (· ^^^ 0x5A)) := fun _ => rfl
  have hshort : ¬(authText.str.map (· ^^^ 0x5A)).length > 0xFFFFFFFF := by
    rw [List.length_map]
    exact not_lt_of_ge authText_short
  have hsave : ∃ fs', pmxProfileSave sealEnv.save (fun _ => none) authProfile
      (strlcpy pmxMaxPath (bytes "profile.pmx")).toCStr = (fs', .ok) := by
    rw [pmxProfileSave, show sealEnv.save.cjson = authCJson from rfl, hjson]
    dsimp only
    rw [if_pos (show sealEnv.save.protect.available = true from rfl), hseal]
    dsimp only
    rw [if_neg hshort, if_pos (show sealEnv.save.containerOk = true from rfl)]
    generalize authText.str.map (· ^^^ 0x5A) = sealed
    exact ⟨_, Prod.ext rfl ((writeFileAtomic_ok_iff rfl).2 ⟨rfl, rfl⟩)⟩
  obtain ⟨fs', hsave⟩ := hsave
  obtain ⟨json, container, hprint, -, -, htruncated⟩ := sealed_lossless
    (show sealEnv.save.protect.available = true from rfl) maskProtect_round authCJson_rejects hsave
  exact ⟨json, container, hprint, htruncated⟩

end ProxiMight
