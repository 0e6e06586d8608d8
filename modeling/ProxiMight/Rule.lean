import ProxiMight.Types
import ProxiMight.CString

/-!
# Proxification rules and their matching (`pmx_rule.c`)

A rule matches a query when each of its non-empty criteria does.  The loops walk the pattern as the C
code does; each of them ends because what is left to read shrinks, and the glob matcher, which goes back
to its last `*`, because it does so each time from a later place in the text.
-/

namespace ProxiMight

open CString

/-- `pmx_action`; a profile file may carry any other integer. -/
inductive PmxAction
  | direct
  | proxy
  | block
  | other (raw : Undeclared 2)
  deriving DecidableEq

/-- `pmx_target_kind`; a profile file may carry any other integer. -/
inductive PmxTargetKind
  | none
  | proxy
  | chain
  | other (raw : Undeclared 2)
  deriving DecidableEq

/-- `pmx_rule`. -/
structure PmxRule where
  id : PmxId
  name : CBuf pmxMaxName
  enabled : Bool
  appPattern : CBuf pmxMaxPattern
  hostPattern : CBuf pmxMaxPattern
  portSpec : CBuf pmxMaxPortspec
  action : PmxAction
  targetKind : PmxTargetKind
  targetId : PmxId
  deriving DecidableEq

/-- `pmx_conn_query`; `none` is a NULL string. -/
structure PmxConnQuery where
  appName : Option CStr
  appPath : Option CStr
  host : Option CStr
  port : PmxPort
  deriving DecidableEq

def pmxRuleInit : PmxRule where
  id := pmxIdNone
  name := strlcpy pmxMaxName (bytes "New rule")
  enabled := true
  appPattern := .empty
  hostPattern := .empty
  portSpec := .empty
  action := .direct
  targetKind := .none
  targetId := pmxIdNone

/-- `lower_c(a) == lower_c(b)` or, case-sensitively, `a == b`. -/
def ceq (a b : UInt8) (ci : Bool) : Bool := if ci then toLower a == toLower b else a == b

/-- The loop of `pmx_glob_match`: `p` indexes the pattern, `t = starT + k` the text, and `starP`,
`starT` are where the last `*` stood and how much of the text it has been given. -/
def globLoop (pattern text : List UInt8) (ci : Bool) (starP : Option ℕ) (p starT k : ℕ) : Bool :=
  match ht : text[starT + k]? with
  | none => ((pattern.drop p).dropWhile (· == 42)).isEmpty
  | some c =>
    match _hp : pattern[p]? with
    | none =>
      match starP with
      | some sp => globLoop pattern text ci (some sp) (sp + 1) (starT + 1) 0
      | none => false
    | some b =>
      if b = 42 then globLoop pattern text ci (some p) (p + 1) (starT + k) 0
      else if b = 63 || ceq b c ci then globLoop pattern text ci starP (p + 1) starT (k + 1)
      else
        match starP with
        | some sp => globLoop pattern text ci (some sp) (sp + 1) (starT + 1) 0
        | none => false
termination_by
  (text.length - starT) * (text.length + pattern.length + 1) + (text.length - (starT + k)) +
    (pattern.length - p)
decreasing_by
  all_goals
    have hlt : starT + k < text.length := (List.getElem?_eq_some_iff.1 ht).1
  · have hback : (text.length - (starT + 1) + 1) * (text.length + pattern.length + 1)
        = (text.length - starT) * (text.length + pattern.length + 1) := by
      congr 1; omega
    rw [Nat.add_mul, Nat.one_mul] at hback
    omega
  · have hp' := (List.getElem?_eq_some_iff.1 _hp).1
    have hfwd := Nat.mul_le_mul_right (text.length + pattern.length + 1)
      (show text.length - (starT + k) ≤ text.length - starT from by omega)
    omega
  · have hp' := (List.getElem?_eq_some_iff.1 _hp).1
    omega
  · have hback : (text.length - (starT + 1) + 1) * (text.length + pattern.length + 1)
        = (text.length - starT) * (text.length + pattern.length + 1) := by
      congr 1; omega
    rw [Nat.add_mul, Nat.one_mul] at hback
    omega

def pmxGlobMatch (pattern text : List UInt8) (ci : Bool) : Bool :=
  globLoop pattern text ci none 0 0 0

/-- The loop of `pmx_glob_list_match`, from `start` on. -/
def globListLoop (text : List UInt8) (ci : Bool) : List UInt8 → Bool
  | [] => false
  | c :: start =>
    let seg := (c :: start).takeWhile (· != 59)
    let pat := trim seg
    -- an empty segment matches nothing
    if !pat.isEmpty && pmxGlobMatch (pat.take (pmxMaxPattern - 1)) text ci then true
    else globListLoop text ci (((c :: start).dropWhile (· != 59)).drop 1)
termination_by start => start.length
decreasing_by
  have hlen := (List.dropWhile_sublist (l := c :: start) (· != 59)).length_le
  rw [List.length_drop, List.length_cons] at *
  omega

def pmxGlobListMatch (list : List UInt8) (text : Option CStr) (ci : Bool) : Bool :=
  if list.isEmpty then true
  else globListLoop ((text.map CStr.str).getD []) ci list

/-- What follows the number `a` in a port spec: the other end of its range, and the rest of the spec.
Spaces are tolerated around the dash, and a dash with no number behind it is passed over. -/
def portRangeEnd (a : ℤ) (s : List UInt8) : ℤ × List UInt8 :=
  match s.dropWhile (· == 32) with
  | [] => (a, [])
  | c :: rest =>
    if c = 45 then
      let s₂ := rest.dropWhile (· == 32)
      if (strtol s₂).2 = s₂ then (a, s₂) else strtol s₂
    else (a, c :: rest)

theorem portRangeEnd_length_le (a : ℤ) (s : List UInt8) :
    (portRangeEnd a s).2.length ≤ s.length := by
  have hs := (List.dropWhile_sublist (l := s) (· == 32)).length_le
  rw [portRangeEnd]
  split
  · exact Nat.zero_le _
  · next c rest hc =>
    have hrest := (List.dropWhile_sublist (l := rest) (· == 32)).length_le
    have hnum := strtol_length_le (rest.dropWhile (· == 32))
    rw [hc, List.length_cons] at hs
    dsimp only
    split_ifs
    · show (rest.dropWhile (· == 32)).length ≤ s.length
      omega
    · omega
    · show (c :: rest).length ≤ s.length
      rw [List.length_cons]
      omega

/-- The loop of `pmx_port_spec_match`, from `s` on. -/
def portSpecLoop (port : PmxPort) (s : List UInt8) : Bool :=
  match _hs : s.dropWhile fun c => c == 32 || c == 44 with
  | [] => false
  | c :: rest =>
    let a := strtol (c :: rest)
    if _hend : a.2 = c :: rest then portSpecLoop port rest
    else
      let b := portRangeEnd a.1 a.2
      let lo := if a.1 > b.1 then b.1 else a.1
      let hi := if a.1 > b.1 then a.1 else b.1
      if lo ≤ port.toNat ∧ port.toNat ≤ hi then true
      else portSpecLoop port b.2
termination_by s.length
decreasing_by
  all_goals
    have hle := (List.dropWhile_sublist (l := s) fun c => c == 32 || c == 44).length_le
    rw [_hs, List.length_cons] at hle
  · omega
  · have hnum := strtol_length_lt _hend
    have hrange := portRangeEnd_length_le (strtol (c :: rest)).1 (strtol (c :: rest)).2
    rw [List.length_cons] at hnum
    omega

def pmxPortSpecMatch (spec : List UInt8) (port : PmxPort) : Bool :=
  if spec.isEmpty then true else portSpecLoop port spec

/-- No port has this number. -/
def noPort (v : ℤ) : Bool := decide (v < 0) || decide (v > 65535)

/-- The validation of what follows a number: the rest of the spec after the other end of a range, `none`
where a dash is not followed by a port number. -/
def portRangeCheck (s : List UInt8) : Option (List UInt8) :=
  match s.dropWhile (· == 32) with
  | [] => some []
  | c :: rest =>
    if c = 45 then
      let s₂ := rest.dropWhile (· == 32)
      if (strtol s₂).2 = s₂ || noPort (strtol s₂).1 then none else some (strtol s₂).2
    else some (c :: rest)

theorem portRangeCheck_length_le {s s' : List UInt8} (h : portRangeCheck s = some s') :
    s'.length ≤ s.length := by
  have hs := (List.dropWhile_sublist (l := s) (· == 32)).length_le
  rw [portRangeCheck] at h
  split at h
  · obtain rfl := Option.some.inj h
    exact Nat.zero_le _
  · next c rest hc =>
    have hrest := (List.dropWhile_sublist (l := rest) (· == 32)).length_le
    have hnum := strtol_length_le (rest.dropWhile (· == 32))
    rw [hc] at hs
    rw [List.length_cons] at hs
    dsimp only at h
    split_ifs at h
    · obtain rfl := Option.some.inj h
      omega
    · obtain rfl := Option.some.inj h
      exact hs

/-- The loop of `pmx_port_spec_validate`, from `s` on. -/
def portSpecValidateLoop (sawNumber : Bool) (s : List UInt8) : PmxStatus :=
  match _hs : s.dropWhile fun c => c == 32 || c == 44 with
  | [] => if sawNumber then .ok else .errParse
  | c :: rest =>
    let a := strtol (c :: rest)
    if _hend : a.2 = c :: rest || noPort a.1 then .errParse
    else
      match _hb : portRangeCheck a.2 with
      | none => .errParse
      | some s' =>
        match _hs' : s'.dropWhile (· == 32) with
        | [] => .ok
        | d :: rest' => if d = 44 then portSpecValidateLoop true (d :: rest') else .errParse
termination_by s.length
decreasing_by
  have hle := (List.dropWhile_sublist (l := s) fun c => c == 32 || c == 44).length_le
  rw [Bool.or_eq_true, not_or, decide_eq_true_eq] at _hend
  have hnum := strtol_length_lt _hend.1
  have hrange : s'.length ≤ (strtol (c :: rest)).2.length := portRangeCheck_length_le _hb
  have hle' := (List.dropWhile_sublist (l := s') (· == 32)).length_le
  rw [_hs, List.length_cons] at hle
  rw [List.length_cons] at hnum
  rw [_hs'] at hle'
  omega

def pmxPortSpecValidate (spec : List UInt8) : PmxStatus :=
  if spec.isEmpty then .ok else portSpecValidateLoop false spec

/-- Ignores `enabled`. -/
def pmxRuleMatches (r : PmxRule) (q : PmxConnQuery) : Bool :=
  if !r.appPattern.isEmpty &&
      !(pmxGlobListMatch r.appPattern.str q.appName true ||
        pmxGlobListMatch r.appPattern.str q.appPath true) then false
  else if !r.hostPattern.isEmpty && !pmxGlobListMatch r.hostPattern.str q.host true then false
  else if !r.portSpec.isEmpty && !pmxPortSpecMatch r.portSpec.str q.port then false
  else true

end ProxiMight
