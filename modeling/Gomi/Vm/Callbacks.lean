import Gomi.Vm.Sync

/-!
# The callbacks of an installer on a virtual machine

`internal/infra/pxehttp/install_complete.go`, `windows.go` and `windows_state.go`, for a
token that belongs to a virtual machine. A token that belongs to none is looked up among
the machines next; that branch is `Gomi.pxeInstallComplete` and `Gomi.pxeWindowsState`.
-/

namespace Gomi.Vm

open Go

/-- The configuration of the boot server, as far as virtual machines depend on it. -/
structure Server where
  /-- Whether it knows the OS images. -/
  osImages : Bool := true
  deriving DecidableEq

/-- The bodies of responses. -/
inductive Body where
  | empty
  | error (text : String)
  | status (text : String)
  /-- The answer to a completed installation. -/
  | completed (status : String) (v : VirtualMachine)
  deriving DecidableEq

/-- A response. -/
structure Response where
  status : ℕ
  body : Body := .empty
  deriving DecidableEq

/-- `c.JSON(status, jsonError(text))`. -/
def Response.failed (status : ℕ) (text : String) : Response := { status, body := .error text }

variable (s : Server)

/-- `findVirtualMachineByProvisionToken`. -/
def findVirtualMachineByProvisionToken (token : String) :
    Prog Res (Except Err (Option VirtualMachine)) := do
  let normalized := trimSpace token
  if normalized = "" then return .ok none
  else
  match ← Client.list with
  | .error e => return .error e
  | .ok items =>
    return .ok (items.find? fun v => trimSpace v.provisioning.completionToken = normalized)

/-- `ApplyInstallCompleteReport`. -/
def VirtualMachine.applyInstallCompleteReport (v : VirtualMachine) (r : InstallCompleteReport) :
    VirtualMachine :=
  if r.ip = "" then v else { v with ipAddresses := [r.ip] }

/-! ### The completion of an installation -/

/-- `virtualMachineIsDebian`. -/
def virtualMachineIsDebian (v : VirtualMachine) : Prog Res Bool := do
  if !s.osImages ∨ trimSpace v.osImageRef = "" then return false
  else
  match ← Client.ask (.osImage (trimSpace v.osImageRef)) with
  | .error _ => return false
  | .ok img => return equalFold (trimSpace img.osFamily) "debian"

/-- The address that is probed: of the report, of the record, or one that was observed. -/
def probeAddress (v : VirtualMachine) (report : InstallCompleteReport) : String :=
  ([trimSpace report.ip, trimSpace v.staticIP] ++ v.ipAddresses.map trimSpace).find? (· ≠ "")
    |>.getD ""

/-- `ensureVirtualMachineSSHReachable`. -/
def ensureVirtualMachineSSHReachable (v : VirtualMachine) (report : InstallCompleteReport) :
    Prog Res (Except Err Unit) := do
  let debian ← virtualMachineIsDebian s v
  if !debian then return .ok ()
  else
  let ip := probeAddress v report
  if ip = "" then
    return .error (.msg "debian install-complete is waiting for a reported SSH address")
  else
  match ← Client.ask (.sshProbe ip) with
  | .error e =>
    return .error (.msg ("debian install-complete is waiting for SSH on " ++ ip ++ ": " ++ e.text))
  | .ok _ => return .ok ()

/-- The record of a completed installation. -/
def VirtualMachine.completed (v : VirtualMachine) (source : String) (report : InstallCompleteReport)
    (now : Time) : VirtualMachine :=
  { v.applyInstallCompleteReport report with
    provisioning := { v.provisioning with
      active := false, completedAt := some now, lastSignalAt := some now
      completionSource := source }
    lastError := "", updatedAt := now
    phase := if v.phase = .provisioning then .running else v.phase }

/-- `PXEInstallComplete`, for a virtual machine; no body is the empty request. -/
def pxeInstallComplete (token type : String) (body : Option InstallCompleteReq) :
    Prog Res Response := do
  match body with
  | none => return .failed 400 "invalid body"
  | some req =>
  let token := if trimSpace token = "" then trimSpace req.token else trimSpace token
  let source := if trimSpace type = "" then trimSpace req.type else trimSpace type
  let report : InstallCompleteReport :=
    { ip := trimSpace req.report.ip, mac := trimSpace req.report.mac
      hostname := trimSpace req.report.hostname }
  if token = "" then return .failed 400 "token is required"
  else
  match ← findVirtualMachineByProvisionToken token with
  | .error e => return .failed 500 e.text
  | .ok none => return .failed 404 "provisioning token not found"
  | .ok (some v) =>
  if v.isWindows then
    return .failed 409 "Windows requires the attempt-scoped Windows state callback"
  else
  if trimSpace v.provisioning.completionToken ≠ token then
    return .failed 404 "provisioning token not found"
  else
  if !v.provisioning.active then
    if v.provisioning.completedAt = none then
      return .failed 409 "provisioning token is expired"
    else return { status := 200, body := .completed "already-finalized" v }
  else
  match ← ensureVirtualMachineSSHReachable s v report with
  | .error e => return .failed 409 e.text
  | .ok _ =>
  let now ← Client.now
  let updated := v.completed (normalizeCompletionSource source) report now
  match ← Client.updateExisting updated with
  | .error e => return .failed 500 e.text
  | .ok false => return .failed 409 "vm record was deleted"
  | .ok true => return { status := 200, body := .completed "ok" updated }

/-! ### The stages of a Windows installation -/

/-- `PrimaryMAC`. -/
def VirtualMachine.primaryMAC (v : VirtualMachine) : String :=
  ((v.network.map (·.mac) ++ v.networkInterfaces.map (·.mac)).map
    fun mac => toLower (trimSpace mac)).find? (· ≠ "") |>.getD ""

/-- `windowsTarget`: the virtual machine of a Windows callback, or `none` if the token is not one
of a Windows virtual machine. -/
def windowsTarget (token attemptID : String) :
    Prog Res (Except Response (Option VirtualMachine)) := do
  if token = "" ∨ attemptID = "" then
    return .error (.failed 400 "token and attempt_id are required")
  else
  match ← findVirtualMachineByProvisionToken token with
  | .error e => return .error (.failed 500 e.text)
  | .ok none => return .ok none
  | .ok (some v) =>
  if !v.isWindows then return .ok none
  else
  if v.provisioning.attemptID ≠ attemptID then
    return .error (.failed 409 "provisioning attempt mismatch")
  else
  let now ← Client.now
  if v.provisioning.completedAt = none ∧ v.provisioning.deadlineAt.any (· < now) then
    return .error (.failed 410 "Windows provisioning attempt expired")
  else
  if !s.osImages then return .error (.failed 500 "OS image service unavailable")
  else
  match ← Client.ask (.osImage v.osImageRef) with
  | .error e => return .error (.failed 500 e.text)
  | .ok img =>
  if (!img.manifest.any (·.windows)) ∨ !isWindowsFamily img.osFamily then
    return .error (.failed 409 "Windows image metadata unavailable")
  else return .ok (some v)

/-- The checks of a stage. -/
def checkStage (v : VirtualMachine) (stage : WindowsStage) (req : WindowsStateReq) :
    Except Response Unit :=
  match stage with
  | .installStarted =>
    if v.provisioning.windowsInstallStarted then
      .error (.failed 409
        "Windows installation was already claimed; start a new deployment attempt")
    else .ok ()
  | .complete =>
    if !v.provisioning.imageApplied then .error (.failed 409 "Windows image has not been applied")
    else if !isDeploymentAddress req.ip ∨ normalizeMAC req.mac ≠ normalizeMAC v.primaryMAC then
      .error (.failed 400 "completion requires deployment NIC IPv4 address and matching MAC")
    else if trimSpace req.hostname = "" then
      .error (.failed 400 "completion requires Windows hostname")
    else .ok ()
  | .imageApplied =>
    if !v.provisioning.windowsInstallStarted then
      .error (.failed 409 "Windows disk installation has not started")
    else .ok ()
  | .failed => .ok ()

/-- The record after a stage. -/
def VirtualMachine.afterStage (v : VirtualMachine) (stage : WindowsStage)
    (report : InstallCompleteReport) (now : Time) : VirtualMachine :=
  let p := { v.provisioning with lastSignalAt := some now }
  let v := { v with updatedAt := now }
  match stage with
  | .installStarted => { v with provisioning := { p with windowsInstallStarted := true } }
  | .imageApplied => { v with provisioning := { p with imageApplied := true } }
  | .failed =>
    { v with
      provisioning := { p with active := false }, phase := .error
      lastError := "Windows deployment failed; inspect the WinPE console" }
  | .complete =>
    { v.applyInstallCompleteReport report with
      provisioning := { p with
        active := false, completedAt := some now, completionSource := "windows" }
      phase := .running, lastError := "" }

/-- `PXEWindowsState`, for a virtual machine. -/
def pxeWindowsState (token attemptID : String) (body : Option WindowsStateReq) :
    Prog Res Response := do
  match ← windowsTarget s token attemptID with
  | .error r => return r
  | .ok none => return .failed 404 "Windows provisioning token not found"
  | .ok (some v) =>
  match body with
  | none => return .failed 400 "invalid Windows state body"
  | some req =>
  match req.stage with
  | none => return .failed 400 "unsupported Windows stage"
  | some stage =>
  if !v.provisioning.active then
    if v.provisioning.completedAt.isSome ∧ stage = .complete then
      return { status := 200, body := .status "already-finalized" }
    else return .failed 409 "Windows provisioning is inactive"
  else
  match checkStage v stage req with
  | .error r => return r
  | .ok _ =>
  let now ← Client.now
  let report : InstallCompleteReport :=
    { ip := trimSpace req.ip, mac := normalizeMAC req.mac, hostname := trimSpace req.hostname }
  match ← Client.updateProvisioningAttempt v (v.afterStage stage report now) with
  | .error e => return .failed 500 e.text
  | .ok false => return .failed 409 "Windows VM attempt changed; retry the callback"
  | .ok true => return { status := 200, body := .status "ok" }

end Gomi.Vm
