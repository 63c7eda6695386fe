import Gomi.Pxe.Callbacks

/-!
# The state callback of a Windows installer

`internal/infra/pxehttp/windows.go` and `windows_state.go`. A Windows machine reports its
stages by a callback of its own, and unlike the callbacks of `Gomi.Pxe.Callbacks` this
one compares the record it found with the stored one when it writes.
-/

namespace Gomi

open Go

variable (lib : Lib) (s : Server)

/-- The machine of a Windows callback, with its provisioning record; a virtual machine is
`none`. -/
def windowsTarget (token attemptID : String) :
    Prog Res (Except Response (Option (Machine × ProvisionProgress))) := do
  if token = "" ∨ attemptID = "" then
    return .error (.failed 400 "token and attempt_id are required")
  else
  match ← Client.ask (.windowsVirtualMachineOfToken token) with
  | .error e => return .error (.failed 500 e.text)
  | .ok true => return .ok none
  | .ok false =>
  match ← findMachineByProvisionToken token with
  | .error e => return .error (.failed 500 e.text)
  | .ok none => return .error (.failed 404 "Windows provisioning token not found")
  | .ok (some m) =>
  match m.provision with
  | none => return .error (.failed 404 "Windows provisioning token not found")
  | some p =>
  if !m.isWindows then return .error (.failed 404 "Windows provisioning token not found") else
  if p.attemptID ≠ attemptID then return .error (.failed 409 "provisioning attempt mismatch") else
  let now ← Client.now
  if p.completedAt.isNone ∧ p.deadlineAt.any (· < now) then
    return .error (.failed 410 "Windows provisioning attempt expired")
  else
  if !s.osImages then return .error (.failed 500 "OS image service unavailable") else
  match ← Client.ask (.osImage m.osPreset.imageRef) with
  | .error e => return .error (.failed 500 e.text)
  | .ok img =>
  if (!img.manifest.any (·.windows)) ∨ !isWindowsFamily img.osFamily then
    return .error (.failed 409 "Windows image metadata unavailable")
  else return .ok (some (m, p))

/-- The stages of a Windows installation. -/
inductive WindowsStage where
  | installStarted
  | imageApplied
  | complete
  | failed
  deriving DecidableEq

/-- The body of a Windows callback; a stage of another name is `none`. -/
structure WindowsStateReq where
  stage : Option WindowsStage := none
  ip : String := ""
  mac : String := ""
  hostname : String := ""
  deriving DecidableEq

/-- Whether an address can be that of a deployed machine: an IPv4 address that is not a
loopback, link-local, unspecified or multicast address. -/
def isDeploymentAddress (ip : String) : Bool :=
  match parseIP (trimSpace ip) with
  | some [0, 0, 0, 0, 0, 0xffff, a, b] =>
    a / 256 ≠ 127 ∧ a ≠ 0xa9fe ∧ ¬(a = 0 ∧ b = 0) ∧ a / 4096 ≠ 14
  | _ => false

/-- The record after a stage. -/
def Machine.afterStage (m : Machine) (p : ProvisionProgress) (stage : WindowsStage)
    (report : InstallCompleteReport) (now : Time) : Machine :=
  let p := { p with lastSignalAt := some now }
  let m := { m with updatedAt := now }
  match stage with
  | .installStarted =>
    { m with provision := some { p with
      artifacts := p.artifacts.insert "windowsInstallStarted" "true"
      message := "Windows installation started; interrupted deployment requires an explicit " ++
        "new attempt" } }
  | .imageApplied =>
    { m with provision := some { p.appliedAt lib now with
      message := "Windows image applied; waiting for reboot and interactive Windows initial " ++
        "setup" } }
  | .failed =>
    let reason := "Windows deployment failed; inspect the WinPE console"
    { m with
      provision := some { p with
        active := false, finishedAt := some now, failureReason := reason, message := reason }
      phase := .error
      lastError := reason }
  | .complete =>
    { m with
      provision := some { p with
        active := false, completedAt := some now, finishedAt := some now
        completionSource := "windows"
        message := "Windows initial setup completed; activation is managed manually in Windows" }
      phase := .ready
      lastError := "" }.applyInstallCompleteReport report

/-- The checks of a stage. -/
def checkStage (m : Machine) (p : ProvisionProgress) (stage : WindowsStage)
    (req : WindowsStateReq) : Except Response Unit :=
  let started := p.artifacts["windowsInstallStarted"]? = some "true"
  match stage with
  | .installStarted =>
    if started then
      .error (.failed 409
        "Windows installation was already claimed; start a new deployment attempt")
    else .ok ()
  | .complete =>
    if !machineImageApplied m then .error (.failed 409 "Windows image has not been applied")
    else if !isDeploymentAddress req.ip ∨ normalizeMAC req.mac ≠ normalizeMAC m.mac then
      .error (.failed 400 "completion requires deployment NIC IPv4 address and matching MAC")
    else if trimSpace req.hostname = "" then
      .error (.failed 400 "completion requires Windows hostname")
    else .ok ()
  | .imageApplied =>
    if !started then .error (.failed 409 "Windows disk installation has not started") else .ok ()
  | .failed => .ok ()

/-- `PXEWindowsState`. -/
def pxeWindowsState (token attemptID : String) (body : Option WindowsStateReq) :
    Prog Res Response := do
  match ← windowsTarget s token attemptID with
  | .error r => return r
  | .ok none => return { status := 200 }
  | .ok (some (m, p)) =>
  match body with
  | none => return .failed 400 "invalid Windows state body"
  | some req =>
  match req.stage with
  | none => return .failed 400 "unsupported Windows stage"
  | some stage =>
  if !p.active then
    if p.completedAt.isSome ∧ stage = .complete then
      return { status := 200, body := .status "already-finalized" }
    else return .failed 409 "Windows provisioning is inactive"
  else
  match checkStage m p stage req with
  | .error r => return r
  | .ok _ =>
  let now ← Client.now
  let report : InstallCompleteReport :=
    { ip := trimSpace req.ip, mac := normalizeMAC req.mac, hostname := trimSpace req.hostname }
  match ← Client.updateProvisioningAttempt m (m.afterStage lib p stage report now) with
  | .error e => return .failed 500 e.text
  | .ok false => return .failed 409 "Windows Machine attempt changed; retry the callback"
  | .ok true => return { status := 200, body := .status "ok" }

end Gomi
