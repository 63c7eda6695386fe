import Gomi.Vm.System
import Gomi.Vm.Spec

/-!
# The service of virtual machines

`internal/vm/service.go`. A method of the service reads the record, changes it and writes
it back with `UpdateExisting`, which overwrites the row whatever it holds by then; only a
Windows machine is written back by a compare-and-swap, and only by `UpdateDeployStatus`.

What a method writes is a function of the record it read (`Gomi.Vm.VirtualMachine.withStatus`,
`Gomi.Vm.VirtualMachine.rearmed`, …), apart from the program that reads and writes.
-/

namespace Gomi.Vm

open Go

/-! ### Single operations -/

namespace Client

/-- `VMStore.Upsert`. -/
abbrev upsert (v : VirtualMachine) : Prog Res (Except Err Unit) := .perform (Op.upsert v)

/-- `VMStore.UpdateExisting`, which is what `writeExisting` calls. -/
abbrev updateExisting (v : VirtualMachine) : Prog Res (Except Err Bool) :=
  .perform (Op.updateExisting v)

/-- `VMStore.UpdateProvisioningAttempt`. -/
abbrev updateProvisioningAttempt (before after : VirtualMachine) : Prog Res (Except Err Bool) :=
  .perform (Op.updateProvisioningAttempt before after)

/-- `VMStore.Get`. -/
abbrev get (name : String) : Prog Res (Except Err VirtualMachine) := .perform (Op.get name)

/-- `VMStore.List`. -/
abbrev list : Prog Res (Except Err (List VirtualMachine)) := .perform Op.list

/-- `HypervisorStore.Upsert`. -/
abbrev upsertHypervisor (h : Hypervisor) : Prog Res (Except Err Unit) :=
  .perform (Op.upsertHypervisor h)

/-- `HypervisorStore.Get`. -/
abbrev getHypervisor (name : String) : Prog Res (Except Err Hypervisor) :=
  .perform (Op.getHypervisor name)

/-- `HypervisorStore.List`. -/
abbrev listHypervisors : Prog Res (Except Err (List Hypervisor)) := .perform Op.listHypervisors

/-- `time.Now().UTC()`. -/
abbrev now : Prog Res Time := .perform Op.now

/-- A question to another part of the system. -/
abbrev ask (q : Query) : Prog Res (Answer q) := .perform (Op.ask q)

end Client

/-! ### The service -/

/-- The end of the service's methods: the record is written back if its row still exists. -/
def writeBack (v : VirtualMachine) : Prog Res (Except Err VirtualMachine) := do
  match ← Client.updateExisting v with
  | .error e => return .error e
  | .ok false => return .error .notFound
  | .ok true => return .ok v

/-- The record in another phase. -/
def VirtualMachine.withStatus (v : VirtualMachine) (phase : Phase) (lastAction lastErr : String)
    (now : Time) : VirtualMachine :=
  { v with phase, lastPowerAction := lastAction, lastError := lastErr, updatedAt := now }

/-- `UpdateStatus`. -/
def updateStatus (name : String) (phase : Phase) (lastAction lastErr : String) :
    Prog Res (Except Err VirtualMachine) := do
  match ← Client.get name with
  | .error e => return .error e
  | .ok v =>
  let now ← Client.now
  writeBack (v.withStatus phase lastAction lastErr now)

/-- The windows that `UpdateDeployStatus` leaves alone: another deploy's, a completed one, and one
that was ended for good. -/
def deployOver (v : VirtualMachine) (p : ProvisioningStatus) : Bool :=
  let removedAfterObservation : Bool := v.phase == .missing &&
    match v.provisioning.domainObservedAt, v.missingSince with
    | some observed, some since => observed < since
    | _, _ => false
  v.provisioning.completionToken ≠ p.completionToken ∨ v.provisioning.completedAt.isSome ∨
    (!v.provisioning.active ∧ (removedAfterObservation ∨ v.phase = .error))

/-- The later of two deadlines, of the record and of the snapshot. -/
def laterDeadline (stored snapshot : Option Time) : Option Time :=
  match stored, snapshot with
  | some t, some t' => if t > t' then some t else some t'
  | some t, none => some t
  | none, _ => snapshot

/-- The snapshot of a deploy, joined with what was stored of its window since. -/
def ProvisioningStatus.restoring (p stored : ProvisioningStatus) : ProvisioningStatus :=
  { p with
    domainObservedAt := p.domainObservedAt <|> stored.domainObservedAt
    deadlineAt := laterDeadline stored.deadlineAt p.deadlineAt
    windowsInstallStarted := p.windowsInstallStarted || stored.windowsInstallStarted
    imageApplied := p.imageApplied || stored.imageApplied }

/-- The record with its window armed again. -/
def VirtualMachine.rearmed (v : VirtualMachine) (phase : Phase) (lastAction : String)
    (p : ProvisioningStatus) (now : Time) : VirtualMachine :=
  { v with
    missingSince := none, phase, lastPowerAction := lastAction, lastError := ""
    provisioning := p.restoring v.provisioning, updatedAt := now }

/-- `UpdateDeployStatus`. -/
def updateDeployStatus (name : String) (phase : Phase) (lastAction : String)
    (p : ProvisioningStatus) : Prog Res (Except Err VirtualMachine) := do
  match ← Client.get name with
  | .error e => return .error e
  | .ok v =>
  if deployOver v p then return .ok v else
  let now ← Client.now
  let next := v.rearmed phase lastAction p now
  if v.isWindows then
    match ← Client.updateProvisioningAttempt v next with
    | .error e => return .error e
    | .ok false => Client.get name
    | .ok true => return .ok next
  else writeBack next

/-- `IsProvisioningTimedOut`. -/
def isProvisioningTimedOut (p : ProvisioningStatus) (now : Time) : Bool :=
  p.active ∧ p.completedAt = none ∧ p.deadlineAt.any (· < now)

/-- `vmDeployInFlight`. -/
def vmDeployInFlight (v : VirtualMachine) (now : Time) : Bool :=
  v.provisioning.active ∧ !isProvisioningTimedOut v.provisioning now ∧
    v.provisioning.domainObservedAt = none

/-- The record of a virtual machine whose domain is absent. -/
def VirtualMachine.markedMissing (v : VirtualMachine) (since : Option Time)
    (lastAction lastErr : String) (now : Time) : VirtualMachine :=
  { v with
    missingSince := since, phase := .missing, lastPowerAction := lastAction, lastError := lastErr
    provisioning := { v.provisioning with active := false }
    ipAddresses := [], networkInterfaces := [], updatedAt := now }

/-- When the domain was found to be absent: now, or when it was first, if it still is. -/
def stampMissing (v : VirtualMachine) : Prog Res (Option Time) := do
  if v.phase ≠ .missing ∨ v.missingSince = none then
    let now ← Client.now
    return some now
  else return v.missingSince

/-- `MarkMissing`. -/
def markMissing (name lastAction lastErr : String) : Prog Res (Except Err VirtualMachine) := do
  match ← Client.get name with
  | .error e => return .error e
  | .ok v =>
  let now ← Client.now
  if vmDeployInFlight v now then return .ok v else
  let since ← stampMissing v
  let now ← Client.now
  writeBack (v.markedMissing since lastAction lastErr now)

/-- The record of a failed deploy. -/
def VirtualMachine.deployFailed (v : VirtualMachine) (lastAction lastErr : String) (now : Time) :
    VirtualMachine :=
  { v with
    phase := .error, lastPowerAction := lastAction, lastError := lastErr
    provisioning := { v.provisioning with
      active := v.provisioning.active && v.provisioning.completedAt.isSome }
    updatedAt := now }

/-- `FailDeploy`. -/
def failDeploy (name lastAction lastErr completionToken : String) :
    Prog Res (Except Err VirtualMachine) := do
  match ← Client.get name with
  | .error e => return .error e
  | .ok v =>
  if v.provisioning.completionToken ≠ completionToken then return .ok v else
  let now ← Client.now
  writeBack (v.deployFailed lastAction lastErr now)

end Gomi.Vm
