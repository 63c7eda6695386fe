import Gomi.Api.Server

/-!
# The handlers of ordinary machines

`internal/infra/api/machine.go`, `machine_redeploy.go` and `machine_power.go`, with the
methods of `machine.Service` that they call: a redeployment, and changes of the power
and network settings. Each reads the record of the machine, changes it and writes the
whole record back.

The texts of a request that the source trims and compares with fixed texts are decoded in
its record. Audit records are left out, and so is the power cycle that a redeployment
starts in the background: what it writes is `Gomi.recordMachinePowerAction`.
-/

namespace Gomi

open Go

variable (lib : Lib) (s : Server)

/-! ### Power -/

/-- The text of `next`, or that of `current` if it is empty. -/
def orText (next current : String) : String := if trimSpace next = "" then current else next

/-- `mergePowerConfigDefaults`. -/
def mergePowerConfigDefaults (current next : PowerConfig) : PowerConfig :=
  if current.type ≠ next.type then next
  else match next.type with
    | .wol => match current.wol, next.wol with
      | some c, some n =>
        let wol : WoLConfig :=
          { wakeMAC := orText n.wakeMAC c.wakeMAC
            broadcastIP := orText n.broadcastIP c.broadcastIP
            port := if n.port = 0 then c.port else n.port
            shutdownTarget := orText n.shutdownTarget c.shutdownTarget
            shutdownUDPPort := if n.shutdownUDPPort = 0 then c.shutdownUDPPort else n.shutdownUDPPort
            hmacSecret := orText n.hmacSecret c.hmacSecret
            token := orText n.token c.token
            tokenTTLSeconds := if n.tokenTTLSeconds = 0 then c.tokenTTLSeconds else n.tokenTTLSeconds }
        { next with wol := some wol }
      | _, _ => next
    | .ipmi => match current.ipmi, next.ipmi with
      | some c, some n => { next with ipmi := some { n with password := orText n.password c.password } }
      | _, _ => next
    | .webhook => match current.webhook, next.webhook with
      | some c, some n =>
        let webhook : WebhookConfig :=
          { n with headers := n.headers.or c.headers, bodyExtras := n.bodyExtras.or c.bodyExtras }
        { next with webhook := some webhook }
      | _, _ => next
    | _ => next

/-- `recordMachinePowerAction`. -/
def recordMachinePowerAction (name : String) (action : PowerAction) (lastError : Option String) :
    Prog Res Unit := do
  let now ← Client.now
  let _ ← Client.updatePowerActionStatus name action lastError now
  return ()

/-- `runPowerAction`. -/
def runPowerAction (name : String) (action : PowerAction) : Prog Res Response := do
  match ← Client.getMachine name with
  | .error .notFound => return .failed 404 "not found"
  | .error e => return .failed 500 e.text
  | .ok m =>
  match ← fillWoLDefaults m.power with
  | .error e => return .failed 500 e.text
  | .ok power =>
  match validatePowerConfig power with
  | .error e => return .failed 400 e.text
  | .ok _ =>
  match ← Client.ask (.executePower { m with power } action) with
  | .error e =>
    recordMachinePowerAction name action (some e.text)
    return .failed 502 e.text
  | .ok _ =>
    recordMachinePowerAction name action (some "")
    return { status := 200, body := .status "ok" }

/-! ### Settings -/

/-- `Service.UpdateSettings`. -/
def updateSettings (name : String) (power : PowerConfig) : Prog Res (Except Err Machine) := do
  match ← Client.getMachine name with
  | .error e => return .error e
  | .ok m =>
  match ← fillWoLDefaults power with
  | .error e => return .error e
  | .ok power =>
  let now ← Client.now
  match ← Client.upsert { m with power, updatedAt := now } with
  | .error e => return .error e
  | .ok _ => return .ok { m with power, updatedAt := now }

/-- `UpdateMachineSettings`. -/
def updateMachineSettings (name : String) (body : Option PowerConfig) : Prog Res Response := do
  match body with
  | none => return .failed 400 "invalid body"
  | some next =>
  match ← Client.getMachine name with
  | .error .notFound => return .failed 404 "not found"
  | .error e => return .failed 500 e.text
  | .ok current =>
  match ← fillWoLDefaults (mergePowerConfigDefaults current.power next) with
  | .error e => return .failed 500 e.text
  | .ok power =>
  match validatePowerConfig power with
  | .error e => return .failed 400 e.text
  | .ok _ =>
  match ← updateSettings name power with
  | .error .notFound => return .failed 404 "not found"
  | .error e => return .failed 500 e.text
  | .ok m => return { status := 200, body := .machine m }

/-- The body of a change of network settings. -/
structure NetworkReq where
  ip : String := ""
  ipAssignment : IPAssignmentMode := .unset
  subnetRef : String := ""
  domain : String := ""
  deriving DecidableEq

/-- `Service.UpdateNetwork`. -/
def updateNetwork (name ip : String) (ipAssignment : IPAssignmentMode) (subnetRef : String)
    (network : NetworkConfig) : Prog Res (Except Err Machine) := do
  match ← Client.getMachine name with
  | .error e => return .error e
  | .ok m =>
  if ipAssignment ≠ .unset ∧ ipAssignment ≠ m.ipAssignment then
    return .error (.msg
      "ipAssignment cannot be changed via network update; use redeploy instead")
  else
  let now ← Client.now
  match ← Client.upsert { m with ip, subnetRef, network, updatedAt := now } with
  | .error e => return .error e
  | .ok _ => return .ok { m with ip, subnetRef, network, updatedAt := now }

/-- Whether a subnet reference, if there is one, is that of a subnet. -/
def subnetKnown (ref : String) : Prog Res Bool := do
  if ref = "" then return true else
  match ← Client.ask (.subnet ref) with
  | .error _ => return false
  | .ok _ => return true

/-- The modes that a request may ask for. -/
def IPAssignmentMode.known (mode : IPAssignmentMode) : Bool :=
  mode = .unset ∨ mode = .dhcp ∨ mode = .static

/-- `UpdateMachineNetwork`. -/
def updateMachineNetwork (name : String) (body : Option NetworkReq) : Prog Res Response := do
  match body with
  | none => return .failed 400 "invalid body"
  | some req =>
  if !req.ipAssignment.known then return .failed 400 "ipAssignment must be 'dhcp' or 'static'" else
  if !(← subnetKnown (resourceID "subnets" req.subnetRef)) then
    return .failed 400 "referenced subnetRef not found"
  else
  match ← updateNetwork name req.ip req.ipAssignment (resourceID "subnets" req.subnetRef)
    { domain := req.domain } with
  | .error .notFound => return .failed 404 "not found"
  | .error e => return .failed 500 e.text
  | .ok m => return { status := 200, body := .machine m }

/-! ### Redeployment -/

/-- `redeployReq`. -/
structure RedeployReq where
  confirm : String := ""
  hostname : Option String := none
  mac : Option String := none
  arch : Option String := none
  firmware : Option Firmware := none
  power : Option PowerConfig := none
  /-- `osPreset.imageRef`. -/
  imageRef : Option String := none
  targetDisk : Option String := none
  /-- `network.domain`. -/
  domain : Option String := none
  cloudInitRef : Option String := none
  cloudInitRefs : Option (List String) := none
  subnetRef : Option String := none
  ipAssignment : Option IPAssignmentMode := none
  ip : Option String := none
  role : Option Role := none
  bridgeName : Option String := none
  sshKeyRefs : Option (List String) := none
  loginUser : Option LoginUserSpec := none
  deriving DecidableEq

/-- `normalizeMachineRedeployRequestRefs`. -/
def RedeployReq.normalizeRefs (req : RedeployReq) : RedeployReq :=
  { req with
    imageRef := req.imageRef.map (resourceID "osImages")
    cloudInitRef := req.cloudInitRef.map (resourceID "cloudInitTemplates")
    cloudInitRefs := req.cloudInitRefs.map (resourceIDs "cloudInitTemplates")
    subnetRef := req.subnetRef.map (resourceID "subnets")
    sshKeyRefs := req.sshKeyRefs.map (resourceIDs "sshKeys") }

/-- Whether a request asks for any change. -/
def RedeployReq.changes (req : RedeployReq) : Bool := req ≠ { confirm := req.confirm }

/-- `resolveOSPreset`, for an image reference that is not empty. -/
def resolveOSPreset (preset : OSPreset) (ref : String) : Prog Res (Except Err OSPreset) := do
  if !s.osImages then return .error (.msg "os image service not available") else
  match ← Client.ask (.osImage ref) with
  | .error .notFound => return .error (.msg ("referenced os image not found: " ++ ref))
  | .error e => return .error e
  | .ok img =>
  match ← (if isWindowsFamily img.osFamily then Client.ask (.validateOSImage img)
    else pure (.ok ()) : Prog Res (Except Err Unit)) with
  | .error e => return .error e
  | .ok _ =>
  if isWindowsFamily img.osFamily ∧ !img.ready then
    return .error (.msg "Windows OS image assets are not ready")
  else
  if !supportsDeploymentTarget img .baremetal then
    return .error (.msg ("referenced os image " ++ ref ++ " does not support bare-metal deployment"))
  else
  return .ok { preset with imageRef := ref, family := img.osFamily, version := img.osVersion }

/-- The power configuration of a redeployment, filled in and checked. -/
def redeployPower (current : PowerConfig) :
    Option PowerConfig → Prog Res (Except Response (Option PowerConfig))
  | none => return .ok none
  | some next => do
    match ← fillWoLDefaults (mergePowerConfigDefaults current next) with
    | .error e => return .error (.failed 500 e.text)
    | .ok power =>
    match validatePowerConfig power with
    | .error e => return .error (.failed 400 e.text)
    | .ok _ => return .ok (some power)

/-- The OS preset of a redeployment. -/
def redeployPreset (current : OSPreset) (imageRef : Option String) :
    Prog Res (Except Response OSPreset) := do
  if trimSpace (imageRef.getD "") = "" then return .ok current else
  match ← resolveOSPreset s current (trimSpace (imageRef.getD "")) with
  | .error e => return .error (.failed 400 e.text)
  | .ok preset => return .ok preset

/-- The check of the role of a redeployment: a machine that becomes a hypervisor needs a free
name. -/
def redeployRole (name : String) (current : Role) : Option Role → Prog Res (Except Response Unit)
  | none => return .ok ()
  | some role => do
    if role ≠ .default ∧ role ≠ .hypervisor then
      return .error (.failed 400 "role must be '' or 'hypervisor'")
    else
    if role = .hypervisor ∧ current ≠ .hypervisor then
      match ← Client.ask (.hypervisor name) with
      | .ok _ => return .error (.failed 409 ("hypervisor " ++ quote name ++ " already exists"))
      | .error .notFound => return .ok ()
      | .error e => return .error (.failed 500 e.text)
    else return .ok ()

/-- The name of the bridge of a redeployment. -/
def RedeployReq.bridge (req : RedeployReq) : Option String :=
  let given := (req.bridgeName.map trimSpace).getD ""
  if req.role = some .hypervisor then some (if given = "" then "br0" else given)
  else req.bridgeName.map trimSpace

/-- The options of a redeployment; a request without a change has none. -/
def redeployOptions (name : String) (current : Machine) (req : RedeployReq) :
    Prog Res (Except Response (Option ReinstallOptions)) := do
  if !req.changes then return .ok none else
  match ← redeployPower current.power req.power with
  | .error r => return .error r
  | .ok power =>
  match ← redeployPreset s current.osPreset req.imageRef with
  | .error r => return .error r
  | .ok osPreset =>
  if !(← subnetKnown (trimSpace (req.subnetRef.getD ""))) then
    return .error (.failed 400 "referenced subnetRef not found")
  else
  if req.ipAssignment.any fun mode => !mode.known then
    return .error (.failed 400 "ipAssignment must be 'dhcp' or 'static'")
  else
  match ← redeployRole name current.role req.role with
  | .error r => return .error r
  | .ok _ =>
  return .ok (some
    { hostname := req.hostname, mac := req.mac, arch := req.arch, firmware := req.firmware, power
      osPreset := some osPreset, targetDisk := req.targetDisk
      network := req.domain.map fun domain => { domain }
      cloudInitRef := req.cloudInitRef, cloudInitRefs := req.cloudInitRefs
      subnetRef := req.subnetRef.map trimSpace, ipAssignment := req.ipAssignment, ip := req.ip
      role := req.role, bridgeName := req.bridge, sshKeyRefs := req.sshKeyRefs
      loginUser := req.loginUser })

/-- `Service.Reinstall`. -/
def reinstall (name actor : String) (opts : Option ReinstallOptions) :
    Prog Res (Except Err Machine) := do
  match ← Client.getMachine name with
  | .error e => return .error e
  | .ok m =>
  match ← prepareReinstall m actor opts s.provisionTimeout with
  | .error e => return .error e
  | .ok m =>
  match ← Client.upsert m with
  | .error e => return .error e
  | .ok _ => return .ok m

/-- The record with a registration token for a hypervisor. -/
def Machine.withHypervisorToken (m : Machine) (token expiresAt : String) : Machine :=
  { m with provision := m.provision.map fun p =>
      { p with
        artifacts := (p.artifacts.insert "hypervisorRegistrationToken" token).insert
          "hypervisorRegistrationTokenExpiresAt" expiresAt } }

/-- The end of a redeployment: `attachHypervisorRegistrationToken`, and a second write if there is
a token. -/
def attachHypervisorRegistrationToken (m : Machine) : Prog Res Response := do
  if m.role ≠ .hypervisor ∨ m.provision.isNone ∨ !s.hypervisors then
    return { status := 202, body := .machine m }
  else
  match ← Client.ask .createHypervisorToken with
  | .error e => return .failed 500 ("create hypervisor registration token: " ++ e.text)
  | .ok (token, expiresAt) =>
  match ← Client.upsert (m.withHypervisorToken token (lib.formatRFC3339 expiresAt)) with
  | .error e => return .failed 500 e.text
  | .ok _ =>
    return { status := 202
             body := .machine (m.withHypervisorToken token (lib.formatRFC3339 expiresAt)) }

/-- `RedeployMachine`. A request without a body has the default one. -/
def redeployMachine (name actor : String) (body : Option RedeployReq) : Prog Res Response := do
  match body with
  | none => return .failed 400 "invalid body"
  | some req =>
  let req := req.normalizeRefs
  if trimSpace req.confirm ≠ "" ∧ trimSpace req.confirm ≠ name then
    return .failed 400 "confirm must match machine name"
  else
  match ← Client.getMachine name with
  | .error .notFound => return .failed 404 "not found"
  | .error e => return .failed 500 e.text
  | .ok current =>
  match ← redeployOptions s name current req with
  | .error r => return r
  | .ok opts =>
  match ← reinstall s name actor opts with
  | .error .notFound => return .failed 404 "not found"
  | .error e => return .failed 400 e.text
  | .ok m => attachHypervisorRegistrationToken lib s m

/-- `ReinstallMachine`. -/
def reinstallMachine (name actor : String) (body : Option RedeployReq) : Prog Res Response :=
  redeployMachine lib s name actor body

end Gomi
