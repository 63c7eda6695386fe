import Gomi.Api.Redeploy

/-!
# Creation and deletion of machines

`internal/infra/api/machine.go` and `Service.CreateExclusive`. A machine is created with
an active attempt whose id and token are drawn by the request, and inserted only if its
name is free; a machine is deleted after the hypervisors that are linked to it.

A body of a creation is either a request with a section `machine` or, as older clients
send it, the record of a machine. Hypervisors have a store of their own: the list of
those that are linked to a machine and the cascade that deletes them are questions of
`Gomi.Query`. Audit records are left out.
-/

namespace Gomi

open Go

variable (lib : Lib) (s : Server)

/-! ### Requests -/

/-- `machineSpecRequest`. -/
structure MachineSpecReq where
  hostname : String := ""
  mac : String := ""
  ip : String := ""
  arch : String := ""
  firmware : Firmware := .other ""
  power : PowerConfig := {}
  network : NetworkConfig := {}
  osPreset : OSPreset := {}
  targetDisk : String := ""
  cloudInitRef : String := ""
  cloudInitRefs : List String := []
  ipAssignment : IPAssignmentMode := .unset
  subnetRef : String := ""
  role : Role := .default
  bridgeName : String := ""
  sshKeyRefs : List String := []
  loginUser : Option LoginUserSpec := none
  deriving DecidableEq

/-- `normalizeMachineRequestRefs`. -/
def Machine.normalizeRequestRefs (m : Machine) : Machine :=
  { m with
    name := resourceID "machines" m.name
    osPreset := { m.osPreset with imageRef := resourceID "osImages" m.osPreset.imageRef }
    cloudInitRef := resourceID "cloudInitTemplates" m.cloudInitRef
    cloudInitRefs := resourceIDs "cloudInitTemplates" m.cloudInitRefs
    subnetRef := resourceID "subnets" m.subnetRef
    sshKeyRefs := resourceIDs "sshKeys" m.sshKeyRefs }

/-- `toMachine`. -/
def MachineSpecReq.toMachine (r : MachineSpecReq) (id : String) : Machine :=
  Machine.normalizeRequestRefs
    { name := id, hostname := r.hostname, mac := r.mac, ip := r.ip, arch := r.arch
      firmware := r.firmware, power := r.power, network := r.network, osPreset := r.osPreset
      targetDisk := r.targetDisk, cloudInitRef := r.cloudInitRef, cloudInitRefs := r.cloudInitRefs
      ipAssignment := r.ipAssignment, subnetRef := r.subnetRef, role := r.role
      bridgeName := r.bridgeName, sshKeyRefs := r.sshKeyRefs, loginUser := r.loginUser }

/-- The body of a creation. -/
inductive CreateMachineReq where
  /-- `createMachineRequest` with a section `machine`. -/
  | spec (machineID : String) (machine : MachineSpecReq)
  /-- The record of a machine. -/
  | record (m : Machine)
  deriving DecidableEq

/-- `bindCreateMachine`, with the parameter `machineId` of the query. -/
def bindCreateMachine (machineID : String) : Option CreateMachineReq → Option Machine
  | none => none
  | some (.spec bodyID spec) =>
    let id := if trimSpace machineID = "" then trimSpace bodyID else trimSpace machineID
    if id = "" then none else some (spec.toMachine (resourceID "machines" id))
  | some (.record m) => some m.normalizeRequestRefs

/-! ### Creation -/

/-- The OS preset of a machine that is created. -/
def createPreset (preset : OSPreset) : Prog Res (Except Err OSPreset) := do
  if trimSpace preset.imageRef = "" then return .ok preset else
  match ← resolveOSPreset s preset (trimSpace preset.imageRef) with
  | .error e => return .error e
  | .ok resolved => return .ok { resolved with imageRef := preset.imageRef }

/-- The role of a machine that is created: a hypervisor gets a bridge and needs a free name. -/
def createRole (m : Machine) : Prog Res (Except Response Machine) := do
  if m.role ≠ .hypervisor then return .ok m else
  match ← Client.ask (.hypervisor m.name) with
  | .ok _ => return .error (.failed 409 ("hypervisor " ++ quote m.name ++ " already exists"))
  | .error _ =>
    return .ok { m with bridgeName := if m.bridgeName = "" then "br0" else m.bridgeName }

/-- The record with the provisioning record of its creation. -/
def Machine.withCreation (m : Machine) (token attemptID : String) (now timeout : Time) : Machine :=
  { m with
    phase := .provisioning
    provision := some
      { active := true, attemptID, startedAt := some now, deadlineAt := some (now + timeout),
        trigger := "create", completionToken := token } }

/-- `attachHypervisorRegistrationToken`, of a record that is not stored yet. -/
def createRegistrationToken (m : Machine) : Prog Res (Except Err Machine) := do
  if m.role ≠ .hypervisor ∨ m.provision.isNone ∨ !s.hypervisors then return .ok m else
  match ← Client.ask .createHypervisorToken with
  | .error e => return .error (.msg ("create hypervisor registration token: " ++ e.text))
  | .ok (token, expiresAt) =>
    return .ok (m.withHypervisorToken token (lib.formatRFC3339 expiresAt))

/-- `prepareForCreate`, after the power configuration was filled in. -/
def Machine.preparedForCreate (m : Machine) (now : Time) (power : PowerConfig) : Machine :=
  let refs := normalizeCloudInitRefs m.cloudInitRef m.cloudInitRefs
  { m with
    createdAt := now
    updatedAt := now
    phase := if m.phase = .unset then .ready else m.phase
    cloudInitRef := ""
    cloudInitRefs := refs
    power
    lastDeployedCloudInitRef := refs.headD m.lastDeployedCloudInitRef }

/-- `Service.CreateExclusive`. -/
def createExclusive (m : Machine) : Prog Res (Except Err Machine) := do
  let now ← Client.now
  match ← fillWoLDefaults m.power with
  | .error e => return .error e
  | .ok power =>
  let m := m.preparedForCreate now power
  match validateMachine m with
  | .error e => return .error e
  | .ok _ =>
  match ← Client.insertMachine { m with arch := canonicalArch m.arch } with
  | .error e => return .error e
  | .ok _ => return .ok { m with arch := canonicalArch m.arch }

/-- `invalidateHypervisorRegistrationToken`. -/
def invalidateHypervisorRegistrationToken (m : Machine) : Prog Res Unit := do
  let token := (m.provision.bind fun p => p.artifacts["hypervisorRegistrationToken"]?).getD ""
  if !s.hypervisors ∨ token = "" then return () else
  let _ ← Client.ask (.markTokenUsed token ("rejected-duplicate:" ++ m.name))
  return ()

/-- `CreateMachine`. -/
def Api.createMachine (machineID : String) (body : Option CreateMachineReq) : Prog Res Response := do
  match bindCreateMachine machineID body with
  | none => return .failed 400 "invalid body"
  | some m =>
  match ← createPreset s m.osPreset with
  | .error e => return .failed 400 e.text
  | .ok osPreset =>
  match ← createRole { m with osPreset } with
  | .error r => return r
  | .ok m =>
  match ← fillWoLDefaults m.power with
  | .error e => return .failed 500 e.text
  | .ok power =>
  match validatePowerConfig power with
  | .error e => return .failed 400 e.text
  | .ok _ =>
  match ← generateProvisioningToken with
  | .error _ => return .failed 500 "failed to issue provisioning token"
  | .ok token =>
  match ← generateProvisioningAttemptID with
  | .error _ => return .failed 500 "failed to issue provisioning attempt id"
  | .ok attemptID =>
  let now ← Client.now
  match ← createRegistrationToken lib s
    ({ m with power }.withCreation token attemptID now s.provisionTimeout) with
  | .error e => return .failed 500 e.text
  | .ok m =>
  match ← createExclusive m with
  | .error .alreadyExists =>
    -- the losing request leaves no valid credential behind
    invalidateHypervisorRegistrationToken s m
    return .failed 409 ("machine already exists: " ++ m.name)
  | .error e => return .failed 400 e.text
  | .ok created => return { status := 201, body := .machine created }

/-! ### Deletion -/

/-- The hypervisors that are deleted with a machine, if the user may delete them. -/
def linkedHypervisors (name : String) (admin : Bool) : Prog Res (Except Response (List String)) := do
  if !s.hypervisors then return .ok [] else
  match ← Client.ask (.hypervisorsOfMachine name) with
  | .error e => return .error (.failed 500 e.text)
  | .ok linked =>
    if linked ≠ [] ∧ !admin then
      return .error (.failed 403
        "machine has linked hypervisor records; admin access required for cascading delete")
    else return .ok linked

/-- `DeleteMachine`. -/
def Api.deleteMachine (name : String) (admin : Bool) : Prog Res Response := do
  match ← Client.getMachine name with
  | .error .notFound => return .failed 404 "not found"
  | .error e => return .failed 500 e.text
  | .ok _ =>
  match ← linkedHypervisors s name admin with
  | .error r => return r
  | .ok linked =>
  match ← Client.ask (.cascadeHypervisors name linked) with
  | .error e => return .failed 500 e.text
  | .ok _ =>
  match ← Client.deleteMachine name with
  | .error .notFound => return .failed 404 "not found"
  | .error e => return .failed 500 e.text
  | .ok _ => return { status := 204 }

end Gomi
