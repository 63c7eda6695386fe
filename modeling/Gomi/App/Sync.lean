import Gomi.Pxe.Windows

/-!
# The loops of the server

`internal/app/sync.go` and `windows_sync.go`. One round of the provisioning sync loop lists
the machines and goes through that list. A machine whose deadline has passed is timed
out; a machine that is being provisioned gets its artifacts. Each record that is written
is the record of the list, however long ago that was read; only a Windows machine is
written by compare-and-swap.

The loops that poll power states and DHCP leases also go through a list, but they write
single columns of a row.
-/

namespace Gomi

open Go

variable (s : Server)

/-- Whether the deadline of an active attempt has passed. -/
def ProvisionProgress.overdue (p : ProvisionProgress) (now : Time) : Bool :=
  p.active ∧ p.deadlineAt.any (· < now)

/-- `syncWindowsProvisioningState`. -/
def syncWindowsProvisioningState (m : Machine) : Prog Res Unit := do
  let now ← Client.now
  match m.provision with
  | none => return ()
  | some p =>
  if !p.overdue now then return () else
  let _ ← Client.updateProvisioningAttempt m (m.timedOut p now)
  return ()

/-- The end of a round for one machine: the artifacts of a machine that is being
provisioned. -/
def syncArtifacts (m : Machine) : Prog Res Unit := do
  if m.phase ≠ .provisioning ∨ m.provision.any (·.finishedAt.isSome) then return () else
  let installCfg ← Client.ask (.linuxCloudInit m)
  let now ← Client.now
  let _ ← Client.upsert (syncState m (buildArtifacts m s.bootHTTPBaseURL installCfg) now)
  return ()

/-- One machine of a round of `syncProvisioningStates`. -/
def syncMachine (m : Machine) : Prog Res Unit := do
  if equalFold (trimSpace m.osPreset.family) "windows" then syncWindowsProvisioningState m else
  match m.provision with
  | none => syncArtifacts s m
  | some p =>
  let now ← Client.now
  if p.overdue now then
    let updatedAt ← Client.now
    let _ ← Client.upsert (m.timedOut p updatedAt)
    return ()
  else syncArtifacts s m

/-- The machines of a round, one after the other. -/
def syncMachines : List Machine → Prog Res Unit
  | [] => return ()
  | m :: ms => do
    syncMachine s m
    syncMachines ms

/-- `syncProvisioningStates`: one round. -/
def syncProvisioningStates : Prog Res Unit := do
  match ← Client.listMachines with
  | .error _ => return ()
  | .ok machines => syncMachines s machines

/-! ### Power states and leases -/

/-- One machine of a round of `pollPowerStates`. -/
def pollPowerState (m : Machine) : Prog Res Unit := do
  match ← Client.ask (.checkPower m) with
  | .error _ => return ()
  | .ok state =>
  if state = m.powerState then return () else
  let now ← Client.now
  let _ ← Client.updatePowerStateStatus m.name state now now
  return ()

/-- `pollPowerStates`: one round. -/
def pollPowerStates : Prog Res Unit := do
  match ← Client.listMachines with
  | .error _ => return ()
  | .ok machines => machines.forM pollPowerState

/-- `UpdateDynamicIPAddress`. -/
def updateDynamicIPAddress (name expectedMAC ip : String) (updatedAt : Time) :
    Prog Res (Except Err Unit) := do
  match ← Client.updateDynamicIP name expectedMAC ip updatedAt with
  | .error e => return .error e
  | .ok true => return .ok ()
  | .ok false => return (← Client.getMachine name).map fun _ => ()

/-- One machine of a round of `syncLeaseIPs`, with the leases by MAC address; of several leases the
last one counts. -/
def syncLeaseIP (leases : List (String × String)) (m : Machine) : Prog Res Unit := do
  if m.ipAssignment = .static then return () else
  match leases.reverse.find? fun lease => toLower lease.1 = toLower m.mac with
  | none => return ()
  | some (_, ip) =>
  if ip = "" ∨ m.ip = ip then return () else
  let now ← Client.now
  let _ ← updateDynamicIPAddress m.name m.mac ip now
  return ()

/-- `syncLeaseIPs`: one round. -/
def syncLeaseIPs : Prog Res Unit := do
  match ← Client.listMachines with
  | .error _ => return ()
  | .ok machines =>
  match ← Client.ask .leases with
  | .error _ => return ()
  | .ok leases => machines.forM (syncLeaseIP leases)

end Gomi
