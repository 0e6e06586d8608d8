import ProxiMight.AtomicWrite
import ProxiMight.Engine
import ProxiMight.ProfileJson

/-!
# Profile files (`pmx_profile.c`, file I/O; `pmx_engine.c`)

A profile is saved sealed where the platform has a provider for protection at rest, else as plain text.
Loading reads the whole file, opens what is sealed, and seals a file that was plain.

* **`pmxProfileLoad_errIo_iff`** — a load returns `PMX_ERR_IO` exactly when it gets no file to read.
-/

namespace ProxiMight

open CString

/-! ### Protection at rest -/

/-- `pmx_protect.c`: the provider of the platform, and the statuses its calls end with. -/
structure PmxProtect where
  available : Bool
  protectSeal : List UInt8 → Except PmxStatus (List UInt8)
  protectUnseal : List UInt8 → Except PmxStatus (List UInt8)
  seal_error : ∀ plain st, protectSeal plain = .error st →
    st = .errInvalidArg ∨ st = .errUnsupported ∨ st = .errCrypto ∨ st = .errNoMemory

/-- A platform without a provider. -/
def pmxProtectNone : PmxProtect where
  available := false
  protectSeal := fun _ => .error .errUnsupported
  protectUnseal := fun _ => .error .errUnsupported
  seal_error := by
    intro plain st h
    cases h
    exact Or.inr (Or.inl rfl)

/-- `PMX_SEAL_MAGIC`. -/
def pmxSealMagic : List UInt8 := bytes "PMXSEAL" ++ [nul]

/-- `PMX_SEAL_HEADER`. -/
def pmxSealHeader : ℕ := 16

/-- `PMX_SEAL_VERSION`. -/
def pmxSealVersion : ℕ := 1

/-- `put_u32le`. -/
def putU32le (v : ℕ) : List UInt8 :=
  [UInt8.ofNat v, UInt8.ofNat (v / 2 ^ 8), UInt8.ofNat (v / 2 ^ 16), UInt8.ofNat (v / 2 ^ 24)]

/-- `get_u32le` of the first four bytes. -/
def getU32le : List UInt8 → ℕ
  | b0 :: b1 :: b2 :: b3 :: _ => b0.toNat + b1.toNat * 2 ^ 8 + b2.toNat * 2 ^ 16 + b3.toNat * 2 ^ 24
  | _ => 0

def looksSealed (buf : List UInt8) : Bool :=
  decide (buf.length ≥ pmxSealHeader) && buf.take pmxSealMagic.length == pmxSealMagic

/-- The container: magic, version, length of the payload, payload. -/
def sealContainer (sealed : List UInt8) : List UInt8 :=
  pmxSealMagic ++ putU32le pmxSealVersion ++ putU32le sealed.length ++ sealed

/-! ### Saving -/

/-- What a save meets: cJSON, the provider, the memory for the container, and what the C library does
when so many bytes are written. -/
structure SaveEnv where
  cjson : CJson
  protect : PmxProtect
  containerOk : Bool
  write : ∀ len, WriteOutcome len

def pmxProfileSave (env : SaveEnv) (fs : Disk) (pf : PmxProfile) (path : CStr) : Disk × PmxStatus :=
  match pmxProfileToJson env.cjson pf with
  | .error st => (fs, st)
  | .ok json =>
    if env.protect.available then
      match env.protect.protectSeal json.str with
      | .error st => (fs, st)
      | .ok sealed =>
        if sealed.length > 0xFFFFFFFF then (fs, .errIo)
        else if env.containerOk then
          writeFileAtomic fs path (sealContainer sealed) (env.write _)
        else (fs, .errNoMemory)
    else writeFileAtomic fs path json.str (env.write _)

/-! ### Loading -/

/-- What the C library does when a file that exists is read: whether it can be opened, whether its size
can be told, whether there is memory for it, and how many bytes are read. -/
structure ReadOutcome where
  opened : Bool
  told : Bool
  allocOk : Bool
  read : ℕ

def readWholeFile (fs : Disk) (path : CStr) (o : ReadOutcome) : Except PmxStatus (List UInt8) :=
  match fs path with
  | none => .error .errIo
  | some data =>
    if !o.opened then .error .errIo
    else if !o.told then .error .errIo
    else if !o.allocOk then .error .errNoMemory
    else .ok (data.take o.read)

/-- What a load meets; the save is the one that seals a plain file. -/
structure LoadEnv where
  read : ReadOutcome
  plainOk : Bool
  alloc : JsonAlloc
  save : SaveEnv

/-- Bytes with a terminator after them, read as a string. -/
def textOf (data : List UInt8) : CStr := ⟨cstr data, nul_notMem_cstr data⟩

/-- The part of `pmx_profile_load` for a file that starts with the magic. -/
def loadSealed (env : LoadEnv) (pf : PmxProfile) (path : CStr) (buf : List UInt8) :
    PmxProfile × PmxStatus :=
  let plen := getU32le (buf.drop 12)
  if getU32le (buf.drop 8) ≠ pmxSealVersion ∨ plen > buf.length - pmxSealHeader then (pf, .errParse)
  else if !env.save.protect.available then (pf, .errUnsupported)
  else
    match env.save.protect.protectUnseal ((buf.drop pmxSealHeader).take plen) with
    | .error _ => (pf, .errCrypto)
    | .ok plain =>
      if env.plainOk then
        let r := pmxProfileFromJson env.save.cjson env.alloc pf (textOf plain)
        if r.2 = .ok then ({ r.1 with path := strlcpy pmxMaxPath path.str }, .ok) else r
      else (pf, .errNoMemory)

def pmxProfileLoad (env : LoadEnv) (fs : Disk) (pf : PmxProfile) (path : CStr) :
    PmxProfile × Disk × PmxStatus :=
  match readWholeFile fs path env.read with
  | .error st => (pf, fs, st)
  | .ok buf =>
    if looksSealed buf then
      let r := loadSealed env pf path buf
      (r.1, fs, r.2)
    else
      let r := pmxProfileFromJson env.save.cjson env.alloc pf (textOf buf)
      if r.2 ≠ .ok then (r.1, fs, r.2)
      else
        let pf := { r.1 with path := strlcpy pmxMaxPath path.str }
        -- whether the plain file could be sealed does not matter to the load
        if env.save.protect.available then (pf, (pmxProfileSave env.save fs pf path).1, .ok)
        else (pf, fs, .ok)

/-! ### The statuses -/

/-- The file is there, it can be opened, and its size can be told. -/
def Readable (fs : Disk) (path : CStr) (o : ReadOutcome) : Prop :=
  fs path ≠ none ∧ o.opened = true ∧ o.told = true

instance (fs : Disk) (path : CStr) (o : ReadOutcome) : Decidable (Readable fs path o) :=
  inferInstanceAs (Decidable (_ ∧ _))

theorem pmxProfileFromJson_status (C : CJson) (alloc : JsonAlloc) (pf : PmxProfile) (json : CStr) :
    (pmxProfileFromJson C alloc pf json).2 = .ok ∨
      (pmxProfileFromJson C alloc pf json).2 = .errParse := by
  rw [pmxProfileFromJson]
  split
  · exact Or.inr rfl
  · split_ifs
    · exact Or.inr rfl
    · exact Or.inl rfl

theorem loadSealed_ne_errIo (env : LoadEnv) (pf : PmxProfile) (path : CStr) (buf : List UInt8) :
    (loadSealed env pf path buf).2 ≠ .errIo := by
  simp only [loadSealed]
  by_cases hheader : getU32le (buf.drop 8) ≠ pmxSealVersion ∨
      getU32le (buf.drop 12) > buf.length - pmxSealHeader
  · rw [if_pos hheader]
    exact fun h => PmxStatus.noConfusion h
  rw [if_neg hheader]
  by_cases havailable : (!env.save.protect.available) = true
  · rw [if_pos havailable]
    exact fun h => PmxStatus.noConfusion h
  rw [if_neg havailable]
  cases env.save.protect.protectUnseal
      ((buf.drop pmxSealHeader).take (getU32le (buf.drop 12))) with
  | error st => exact fun h => PmxStatus.noConfusion h
  | ok plain =>
    dsimp only
    by_cases hplain : env.plainOk = true
    · rw [if_pos hplain]
      rcases pmxProfileFromJson_status env.save.cjson env.alloc pf (textOf plain) with hok | hparse
      · rw [if_pos hok]
        exact fun h => PmxStatus.noConfusion h
      · rw [if_neg (by rw [hparse]; decide), hparse]
        exact fun h => PmxStatus.noConfusion h
    · rw [if_neg hplain]
      exact fun h => PmxStatus.noConfusion h

/-- **A load returns `PMX_ERR_IO` exactly when it gets no file to read**, also where there is one. -/
theorem pmxProfileLoad_errIo_iff (env : LoadEnv) (fs : Disk) (pf : PmxProfile) (path : CStr) :
    (pmxProfileLoad env fs pf path).2.2 = .errIo ↔ ¬Readable fs path env.read := by
  rw [pmxProfileLoad, readWholeFile, Readable]
  cases hfile : fs path with
  | none => simp
  | some data =>
    cases hopen : env.read.opened with
    | false => simp
    | true =>
      cases htold : env.read.told with
      | false => simp
      | true =>
        cases env.read.allocOk with
        | false => simp
        | true =>
          have hsealed := loadSealed_ne_errIo env pf path (data.take env.read.read)
          have hplain := pmxProfileFromJson_status env.save.cjson env.alloc pf
            (textOf (data.take env.read.read))
          simp only [Bool.not_true, Bool.false_eq_true, if_false, ne_eq, reduceCtorEq,
            not_false_eq_true, and_self, not_true_eq_false, iff_false]
          split_ifs with hlook hst
          · exact hsealed
          · decide
          · decide
          · rw [hplain.resolve_left hst]
            decide

/-- What a save that reaches the disk ends with. -/
theorem writeFileAtomic_status (fs : Disk) (path : CStr) (data : List UInt8)
    (o : WriteOutcome data.length) :
    (writeFileAtomic fs path data o).2 = .ok ∨ (writeFileAtomic fs path data o).2 = .errIo := by
  simp only [writeFileAtomic]
  split_ifs
  all_goals simp

/-- No save ends with the status of one that is refused. -/
theorem pmxProfileSave_ne_errState (env : SaveEnv) (fs : Disk) (pf : PmxProfile) (path : CStr) :
    (pmxProfileSave env fs pf path).2 ≠ .errState := by
  have hwrite : ∀ data, (writeFileAtomic fs path data (env.write data.length)).2 ≠ .errState := by
    intro data
    rcases writeFileAtomic_status fs path data (env.write data.length) with h | h
    · rw [h]
      decide
    · rw [h]
      decide
  rw [pmxProfileSave, pmxProfileToJson]
  cases env.cjson.print (profileTree pf) with
  | none => exact fun h => PmxStatus.noConfusion h
  | some json =>
    dsimp only
    by_cases havailable : env.protect.available = true
    · rw [if_pos havailable]
      cases hseal : env.protect.protectSeal json.str with
      | error st =>
        rcases env.protect.seal_error _ _ hseal with rfl | rfl | rfl | rfl
        all_goals exact fun h => PmxStatus.noConfusion h
      | ok sealed =>
        dsimp only
        split_ifs
        · exact fun h => PmxStatus.noConfusion h
        · exact hwrite _
        · exact fun h => PmxStatus.noConfusion h
    · rw [if_neg havailable]
      exact hwrite _

end ProxiMight
