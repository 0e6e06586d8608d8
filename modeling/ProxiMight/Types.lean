import Mathlib.Data.Int.Notation
import Mathlib.Data.List.Basic
import Mathlib.Tactic.Common

/-!
# Common types: status codes, limits, ports and ids (`pmx_types.h`, `pmx_error.h`)
-/

namespace ProxiMight

/-- `pmx_port`. -/
abbrev PmxPort := UInt16

/-- `pmx_id`: a stable object id, 0 is `PMX_ID_NONE`. -/
abbrev PmxId := UInt64

/-- `PMX_ID_NONE`. -/
def pmxIdNone : PmxId := 0

/-- `pmx_status`. -/
inductive PmxStatus
  | ok
  | errInvalidArg
  | errNoMemory
  | errState
  | errUnsupported
  | errNotFound
  | errExists
  | errIo
  | errParse
  | errCrypto
  | errNet
  | errTimeout
  | errConnRefused
  | errDns
  | errProxyHandshake
  | errProxyAuth
  | errProxyRefused
  | errBackend
  | errFirewall
  | errPermission
  deriving DecidableEq, Repr

/-- An integer that is no value of an enumeration declared from `0` to `top`. -/
structure Undeclared (top : ℤ) where
  raw : ℤ
  undeclared : raw < 0 ∨ top < raw
  deriving DecidableEq

/-! ### Limits -/

def pmxMaxLabel : ℕ := 64
def pmxMaxName : ℕ := 96
def pmxMaxHost : ℕ := 256
def pmxMaxUser : ℕ := 128
def pmxMaxPass : ℕ := 256
def pmxMaxPath : ℕ := 1024
def pmxMaxPattern : ℕ := 512
def pmxMaxPortspec : ℕ := 128
def pmxMaxMsg : ℕ := 192
def pmxMaxIp : ℕ := 64
def pmxMaxChainHops : ℕ := 8

end ProxiMight
