import ProxiMight.ProfileFile
import ProxiMight.Runs

/-!
# The lock on saving (`pmx_engine_load_profile`, `pmx_engine_save_profile`)

An engine that could not read a profile must not save over it.  The engine keeps one flag: a load that
fails with anything but `PMX_ERR_IO` sets it, any other load of a stopped engine clears it.  A session is
an engine over a disk that other programs write as well, with the record of its load attempts.

* **`saves_refused_iff`** — what is refused is what the last load of the stopped engine, of whatever
  path, opened and could not read.
-/

namespace ProxiMight

open CString

section Session

variable {φ β ω : Type} (F : PmxFirewall φ) (B : PmxBackend β ω)

/-- `pmx_engine_load_profile`, from the disk. -/
def pmxEngineLoadFile (e : PmxEngine φ β) (fs : Disk) (path : CStr) (env : LoadEnv)
    (allocOk : Fin 4 → Bool) : PmxEngine φ β × Disk × PmxStatus :=
  if e.running then (e, fs, .errState)
  else
    let r := pmxProfileLoad env fs pmxProfileInit path
    let l := pmxEngineLoadProfile F e (if r.2.2 = .ok then .ok r.1 else .error r.2.2) allocOk
    (l.1, r.2.1, l.2)

def pmxEngineSaveProfile (e : PmxEngine φ β) (fs : Disk) (path : CStr) (env : SaveEnv) :
    PmxEngine φ β × Disk × PmxStatus :=
  if e.profileLocked then (e, fs, .errState)
  else
    let r := pmxProfileSave env fs e.profile path
    (if r.2 = .ok then { e with profile := { e.profile with path := strlcpy pmxMaxPath path.str } }
      else e, r.1, r.2)

/-- A call of `pmx_engine_load_profile`: whether the engine was stopped, whether there was a file to
read, and what the call returned. -/
structure LoadAttempt where
  path : CStr
  stopped : Bool
  readable : Bool
  status : PmxStatus

/-- An engine, the disk, and the load attempts made so far, the last one first. -/
structure Session (φ β : Type) where
  engine : PmxEngine φ β
  disk : Disk
  attempts : List LoadAttempt

def sessionCreate (pf : PmxProfile) (fw : Option φ) (backend : β) (allocOk : Fin 4 → Bool)
    (fs : Disk) : Session φ β :=
  ⟨pmxEngineCreate B pf fw backend allocOk, fs, []⟩

/-- What happens in a session: loads and saves of any path, changes to the disk by other programs, edits
of the profile, and the start and stop of the engine. -/
inductive SessionOp (β ω : Type)
  | load (path : CStr) (env : LoadEnv) (allocOk : Fin 4 → Bool)
  | save (path : CStr) (env : SaveEnv)
  | files (fs : Disk)
  | edit (pf : PmxProfile)
  | start (os : ω) (stack : ℕ → List UInt8)
  | stop

def sessionStep (s : Session φ β) : SessionOp β ω → Session φ β
  | .load path env allocOk =>
    let r := pmxEngineLoadFile F s.engine s.disk path env allocOk
    { engine := r.1
      disk := r.2.1
      attempts :=
        { path := path
          stopped := !s.engine.running
          readable := decide (Readable s.disk path env.read)
          status := r.2.2 } :: s.attempts }
  | .save path env =>
    let r := pmxEngineSaveProfile s.engine s.disk path env
    { s with engine := r.1, disk := r.2.1 }
  | .files fs => { s with disk := fs }
  | .edit pf => { s with engine := { s.engine with profile := pf } }
  | .start os stack => { s with engine := (pmxEngineStart F B s.engine os stack).1 }
  | .stop => { s with engine := (pmxEngineStop F B s.engine).1 }

end Session

variable {φ β ω : Type} {F : PmxFirewall φ} {B : PmxBackend β ω}

/-- The last attempt to load that path. -/
def Session.lastAttempt (s : Session φ β) (path : CStr) : Option LoadAttempt :=
  s.attempts.find? fun a => a.path == path

/-- The last attempt, of whatever path, that found the engine stopped. -/
def Session.lastStopped (s : Session φ β) : Option LoadAttempt := s.attempts.find? (·.stopped)

/-- There is a file at the path, and the last attempt to load it failed. -/
def MustRefuse (s : Session φ β) (path : CStr) : Prop :=
  s.disk path ≠ none ∧ ∃ a ∈ s.lastAttempt path, a.status ≠ .ok

instance (s : Session φ β) (path : CStr) : Decidable (MustRefuse s path) :=
  inferInstanceAs (Decidable (_ ∧ _))

/-- A save that must be refused is, and leaves the file as it was. -/
def SaveRefused (s : Session φ β) : SessionOp β ω → Prop
  | .save path env =>
    MustRefuse s path →
      (pmxEngineSaveProfile s.engine s.disk path env).2.2 = .errState ∧
      (pmxEngineSaveProfile s.engine s.disk path env).2.1 path = s.disk path
  | _ => True

/-- The last load of the stopped engine got a file and could not read it. -/
def LastLoadBroken (s : Session φ β) : Prop :=
  ∃ a ∈ s.lastStopped, a.readable = true ∧ a.status ≠ .ok

instance (s : Session φ β) : Decidable (LastLoadBroken s) :=
  inferInstanceAs (Decidable (∃ a ∈ s.lastStopped, a.readable = true ∧ a.status ≠ .ok))

/-- A save that must be refused comes while the last load of the stopped engine, of whatever path, is
one that got a file and could not read it. -/
def LockHolds (s : Session φ β) : SessionOp β ω → Prop
  | .save path _ => MustRefuse s path → LastLoadBroken s
  | _ => True

instance (s : Session φ β) : ∀ op : SessionOp β ω, Decidable (SaveRefused s op)
  | .save path _ => inferInstanceAs (Decidable (MustRefuse s path → _ ∧ _))
  | .load _ _ _ | .files _ | .edit _ | .start _ _ | .stop => isTrue trivial

/-! ### The flag -/

theorem pmxEngineStart_profileLocked (e : PmxEngine φ β) (os : ω) (stack : ℕ → List UInt8) :
    (pmxEngineStart F B e os stack).1.profileLocked = e.profileLocked := by
  have harm : ∀ e : PmxEngine φ β, (engineArm F B e stack).profileLocked = e.profileLocked := by
    intro e
    simp only [engineArm, rebuildAllowlist, pushAllowlist]
    split_ifs
    · rfl
    · rfl
  rw [pmxEngineStart]
  by_cases hrun : e.running = true
  · rw [if_pos hrun]
  · rw [if_neg hrun]
    dsimp only
    split_ifs
    · rfl
    · rw [harm]
      rfl

theorem pmxEngineStop_profileLocked (e : PmxEngine φ β) :
    (pmxEngineStop F B e).1.profileLocked = e.profileLocked := by
  rw [pmxEngineStop]
  split_ifs
  · rfl
  · rfl

theorem pmxEngineSaveProfile_profileLocked (e : PmxEngine φ β) (fs : Disk) (path : CStr)
    (env : SaveEnv) :
    (pmxEngineSaveProfile e fs path env).1.profileLocked = e.profileLocked := by
  rw [pmxEngineSaveProfile]
  split_ifs with hlocked
  · rfl
  · dsimp only
    split_ifs
    · rfl
    · rfl

/-- A running engine does not load. -/
theorem pmxEngineLoadFile_running {e : PmxEngine φ β} (hrun : e.running = true) (fs : Disk)
    (path : CStr) (env : LoadEnv) (allocOk : Fin 4 → Bool) :
    pmxEngineLoadFile F e fs path env allocOk = (e, fs, .errState) := by
  rw [pmxEngineLoadFile, if_pos hrun]

/-- A stopped engine is locked by a load that got a file and could not read it, and unlocked by any
other. -/
theorem pmxEngineLoadFile_stopped {e : PmxEngine φ β} (hstop : e.running = false) (fs : Disk)
    (path : CStr) (env : LoadEnv) (allocOk : Fin 4 → Bool) :
    (pmxEngineLoadFile F e fs path env allocOk).1.profileLocked = true ↔
      Readable fs path env.read ∧ (pmxEngineLoadFile F e fs path env allocOk).2.2 ≠ .ok := by
  have hio := pmxProfileLoad_errIo_iff env fs pmxProfileInit path
  have hne : ¬ e.running = true := by rw [hstop]; exact Bool.false_ne_true
  have herror : ∀ st, pmxEngineLoadProfile F e (.error st) allocOk
      = ({ e with profileLocked := decide (st ≠ .errIo) }, st) := by
    intro st
    rw [pmxEngineLoadProfile, if_neg hne]
  rw [pmxEngineLoadFile, if_neg hne]
  dsimp only
  by_cases hok : (pmxProfileLoad env fs pmxProfileInit path).2.2 = .ok
  · rw [if_pos hok, pmxEngineLoadProfile, if_neg hne]
    exact ⟨fun h => absurd h Bool.false_ne_true, fun h => absurd rfl h.2⟩
  · rw [if_neg hok, herror]
    dsimp only
    rw [decide_eq_true_eq]
    exact ⟨fun h => ⟨not_not.1 (mt hio.2 h), hok⟩, fun h => mt hio.1 (not_not.2 h.1)⟩

/-! ### The invariant -/

/-- The flag says what the last load of the stopped engine was like. -/
def LockInv (s : Session φ β) : Prop := s.engine.profileLocked = true ↔ LastLoadBroken s

theorem LockInv.step {s : Session φ β} (h : LockInv s) (op : SessionOp β ω) :
    LockInv (sessionStep F B s op) := by
  cases op with
  | load path env allocOk =>
    cases hrun : s.engine.running with
    | true =>
      simpa [LockInv, LastLoadBroken, Session.lastStopped, sessionStep, hrun,
        pmxEngineLoadFile_running hrun] using h
    | false =>
      simp [LockInv, LastLoadBroken, Session.lastStopped, sessionStep, hrun,
        pmxEngineLoadFile_stopped hrun]
  | save path env =>
    show (pmxEngineSaveProfile s.engine s.disk path env).1.profileLocked = true ↔ _
    rw [pmxEngineSaveProfile_profileLocked]
    exact h
  | files fs => exact h
  | edit pf => exact h
  | start os stack =>
    show (pmxEngineStart F B s.engine os stack).1.profileLocked = true ↔ _
    rw [pmxEngineStart_profileLocked]
    exact h
  | stop =>
    show (pmxEngineStop F B s.engine).1.profileLocked = true ↔ _
    rw [pmxEngineStop_profileLocked]
    exact h

theorem LockInv.create (pf : PmxProfile) (fw : Option φ) (backend : β) (allocOk : Fin 4 → Bool)
    (fs : Disk) : LockInv (sessionCreate B pf fw backend allocOk fs) := by
  have hnone : ¬LastLoadBroken (sessionCreate B pf fw backend allocOk fs) := by
    rintro ⟨a, ha, -⟩
    cases ha
  exact ⟨fun h => absurd h Bool.false_ne_true, fun h => absurd h hnone⟩

/-- A save is refused exactly when the engine is locked. -/
theorem LockInv.saveRefused_iff {s : Session φ β} (h : LockInv s) (op : SessionOp β ω) :
    SaveRefused s op ↔ LockHolds s op := by
  cases op with
  | save path env =>
    refine imp_congr_right fun _ => ?_
    have hlock : s.engine.profileLocked = true ↔ LastLoadBroken s := h
    rw [← hlock, pmxEngineSaveProfile]
    by_cases hlocked : s.engine.profileLocked = true
    · rw [if_pos hlocked]
      exact ⟨fun _ => hlocked, fun _ => ⟨rfl, rfl⟩⟩
    · rw [if_neg hlocked]
      exact ⟨fun hst => absurd hst.1 (pmxProfileSave_ne_errState _ _ _ _), fun h => absurd h hlocked⟩
  | _ => exact Iff.rfl

/-- **What is refused.**  In a run of a new engine every save that must be refused is, exactly when each
of them comes after a last load that got its file and could not read it. -/
theorem saves_refused_iff (F : PmxFirewall φ) (B : PmxBackend β ω) (pf : PmxProfile)
    (fw : Option φ) (backend : β) (allocOk : Fin 4 → Bool) (fs : Disk) (ops : List (SessionOp β ω)) :
    Runs.EachStep (sessionStep F B) SaveRefused (sessionCreate B pf fw backend allocOk fs) ops ↔
      Runs.EachStep (sessionStep F B) LockHolds (sessionCreate B pf fw backend allocOk fs) ops :=
  Runs.eachStep_congr LockInv (fun _ op h => h.step op) (fun _ op h => h.saveRefused_iff op) ops _
    (LockInv.create pf fw backend allocOk fs)

/-! ### Saves that go through -/

/-- A write that succeeds. -/
def cleanWrite (len : ℕ) : WriteOutcome len where
  opened := true
  written := len
  flushed := true
  closed := true
  kept := len
  removed := true
  renamed := true
  written_le := Nat.le_refl len
  kept_le := Nat.le_refl len
  kept_all := fun _ _ _ => rfl

/-- A save as plain text. -/
def plainSave : SaveEnv where
  cjson := printingCJson
  protect := pmxProtectNone
  containerOk := true
  write := cleanWrite

/-- A load of a file that is no JSON; `opened` is whether it can be opened. -/
def failingLoad (opened : Bool) : LoadEnv where
  read := ⟨opened, true, true, 1024⟩
  plainOk := true
  alloc := ⟨fun _ => true, fun _ => true, fun _ => true, fun _ => true⟩
  save := plainSave

def userPath : CStr := textOf (bytes "user.pmx")

/-- A session of a new engine over the stubs, with one file on the disk. -/
def userSession : Session StubFw StubImpl :=
  sessionCreate pmxBackendStub pmxProfileInit (some stubFwCreate) stubImplCreate (fun _ => true)
    (Files.write (fun _ => none) userPath (bytes "old"))

/-- A file that another program holds open cannot be opened, and is overwritten. -/
def busyFile : List (SessionOp StubImpl Bool) :=
  [.load userPath (failingLoad false) fun _ => true, .save userPath plainSave]

/-- A file that is no profile locks the engine, and the load of a path without a file unlocks it. -/
def otherPath : List (SessionOp StubImpl Bool) :=
  [.load userPath (failingLoad true) fun _ => true,
    .load (textOf (bytes "other.pmx")) (failingLoad true) fun _ => true,
    .save userPath plainSave]

/-- In both runs the file that could not be read is overwritten, with the profile of a new session. -/
theorem unread_overwritten :
    let step := sessionStep pmxFirewallStub pmxBackendStub
    let written := printValue 0 (profileTree pmxProfileInit)
    (¬Runs.EachStep step SaveRefused userSession busyFile ∧
      (Runs.runFrom step userSession busyFile).disk userPath = some written) ∧
    (¬Runs.EachStep step SaveRefused userSession otherPath ∧
      (Runs.runFrom step userSession otherPath).disk userPath = some written) := by
  decide +kernel

end ProxiMight
