import ProxiMight.Resolve

/-!
# Redirection backends (`pmx_backend.h`)

A backend is a record of operations on a state of its own.  What the operating system answers while it
starts is an argument of `start`.
-/

namespace ProxiMight

open CString

/-- `pmx_flow`. -/
structure PmxFlow where
  flowId : ℕ
  appName : CBuf pmxMaxName
  appPath : CBuf pmxMaxPath
  pid : UInt32
  dstHost : CBuf pmxMaxHost
  dstPort : PmxPort
  udp : Bool
  createdMs : ℕ
  deriving DecidableEq

/-- The query a flow is resolved by. -/
def PmxFlow.query (f : PmxFlow) : PmxConnQuery where
  appName := some f.appName.toCStr
  appPath := some f.appPath.toCStr
  host := some f.dstHost.toCStr
  port := f.dstPort

/-- `pmx_backend_caps`. -/
structure PmxBackendCaps where
  perApp : Bool
  canBlock : Bool
  killswitch : Bool
  real : Bool
  hostNames : Bool
  deriving DecidableEq

/-- `pmx_backend_config`. -/
structure PmxBackendConfig where
  demoTraffic : Bool
  demoIntervalMs : ℤ
  blockWhenCannotProxy : Bool
  deriving DecidableEq

def pmxBackendConfigDefaults : PmxBackendConfig where
  demoTraffic := true
  demoIntervalMs := 1500
  blockWhenCannotProxy := true

/-- `pmx_backend`, by its operations on the state `β` of the object; `ω` is what the operating system
answers during a start.  `applyDecision` may be NULL. -/
structure PmxBackend (β ω : Type) where
  name : List UInt8
  caps : PmxBackendCaps
  start : ω → β → PmxBackendConfig → β × PmxStatus
  stop : β → β × PmxStatus
  applyDecision : Option (β → PmxFlow → PmxDecision → β × PmxStatus)

/-- `stub_impl`; the demo thread only reports flows. -/
structure StubImpl where
  running : Bool
  intervalMs : ℤ
  demoThread : Bool
  deriving DecidableEq

/-- `stub_start`; the operating system answers whether a thread could be started. -/
def stubStart (threadOk : Bool) (im : StubImpl) (cfg : PmxBackendConfig) : StubImpl × PmxStatus :=
  if im.running then (im, .ok)
  else
    ({ running := true
       intervalMs := if cfg.demoIntervalMs > 0 then cfg.demoIntervalMs else 1500
       demoThread := im.demoThread || (cfg.demoTraffic && threadOk) }, .ok)

def stubStop (im : StubImpl) : StubImpl × PmxStatus :=
  ({ im with running := false, demoThread := false }, .ok)

/-- `pmx_backend_stub_create`, the operations. -/
def pmxBackendStub : PmxBackend StubImpl Bool where
  name := bytes "stub"
  caps := ⟨false, false, false, false, true⟩
  start := stubStart
  stop := stubStop
  applyDecision := some fun im _ _ => (im, .ok)

/-- `pmx_backend_stub_create`, the object. -/
def stubImplCreate : StubImpl := ⟨false, 1500, false⟩

end ProxiMight
