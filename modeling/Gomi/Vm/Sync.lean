import Gomi.Vm.Deploy

/-!
# The runtime sync

`internal/vm/runtime_sync.go`. A pass of the loop lists the virtual machines and the
hypervisors, and then asks the host of every virtual machine for the state of its domain.
Each of these queries runs in a goroutine of its own, which the pass leaves behind when it
takes too long, and which then writes its result whenever it is done. So a pass is not one
client but one for each virtual machine (`Gomi.Vm.runtimeSync`): they list the same records
at the same time, and go on independently. The status of a hypervisor, which the pass
updates when all of its virtual machines are through, is a client of its own as well
(`Gomi.Vm.updateHypervisorStatus`).
-/

namespace Gomi.Vm

open Go

/-! ### What the sync writes -/

/-- `MapVMPhaseFromDomainState`. -/
def mapVMPhaseFromDomainState (state : DomainState) (current : Phase) (p : ProvisioningStatus) :
    Phase :=
  if p.active ∧ p.completedAt = none then
    if state = .crashed then .error else .provisioning
  else match state with
    | .running => .running
    | .shutoff => .stopped
    | .paused => .stopped
    | .crashed => .error
    | .unknown => current

/-- `bootstrapNetworkStatusesFromVM`. -/
def bootstrapNetworkStatuses (v : VirtualMachine) : List NetworkInterfaceStatus :=
  if v.network ≠ [] then
    v.network.map fun nic => { name := nic.name, mac := toLower (trimSpace nic.mac) }
  else v.networkInterfaces.map fun nic => { name := nic.name, mac := toLower (trimSpace nic.mac) }

/-- `prependUniqueIP`. -/
def prependUniqueIP (primary : String) (ips : List String) : List String :=
  let normalized := trimSpace primary
  if normalized = "" then ips
  else normalized :: (ips.map trimSpace).filter fun ip => ip ≠ "" ∧ ip ≠ normalized

/-- The address that was leased to a MAC address. -/
def leaseOf (leases : List (String × String)) (rawMAC : String) : String :=
  let mac := toLower (trimSpace rawMAC)
  if mac = "" then "" else trimSpace ((leases.lookup mac).getD "")

/-- `MergeRuntimeLeaseIPs`. -/
def mergeRuntimeLeaseIPs (v : VirtualMachine) (statuses : List NetworkInterfaceStatus)
    (ips : List String) (leases : List (String × String)) :
    List NetworkInterfaceStatus × List String :=
  if leases = [] then (statuses, ips)
  else
    let statuses := if statuses = [] then bootstrapNetworkStatuses v else statuses
    let leased := (statuses.map fun s => leaseOf leases s.mac).filter (· ≠ "")
    (statuses.map fun s =>
        if leaseOf leases s.mac = "" then s
        else { s with ipAddresses := prependUniqueIP (leaseOf leases s.mac) s.ipAddresses },
      sortedTexts ((ips.map trimSpace).filter (· ≠ "") ++ leased))

/-- The record after its domain was found in a state: the phase, and the end of an attempt whose
deadline has passed. -/
def VirtualMachine.observed (v : VirtualMachine) (state : DomainState) (now : Time) :
    VirtualMachine :=
  let v' := if v.phase = .missing then { v with lastError := "", missingSince := none } else v
  let v' :=
    if isProvisioningTimedOut v.provisioning now then
      { v' with
        provisioning := { v.provisioning with active := false }, phase := .error
        lastError := "provisioning timed out waiting for install completion signal" }
    else { v' with phase := mapVMPhaseFromDomainState state v.phase v.provisioning }
  if v'.phase = .missing then { v' with phase := .stopped } else v'

/-- The record that the sync writes for a domain that exists. -/
def VirtualMachine.refreshed (v : VirtualMachine) (hv : Hypervisor) (state : DomainState)
    (interfaces : List InterfaceInfo) (leases : List (String × String)) (now : Time) :
    VirtualMachine :=
  let (statuses, ips) := convertRuntimeInterfaces interfaces
  let (statuses, ips) := mergeRuntimeLeaseIPs v statuses ips leases
  { v.observed state now with
    hypervisorName := hv.name, createdOnHost := hv.name, libvirtDomain := domainNameOf v
    ipAddresses := ips, networkInterfaces := statuses }

/-- The record that the sync writes for a domain that does not exist. -/
def VirtualMachine.vanished (v : VirtualMachine) (hv : Hypervisor) (since : Option Time) :
    VirtualMachine :=
  { v with
    phase := .missing
    lastError := "libvirt domain " ++ domainNameOf v ++ " not found on hypervisor " ++ hv.name
    hypervisorName := hv.name, libvirtDomain := domainNameOf v, ipAddresses := []
    networkInterfaces := [], provisioning := { v.provisioning with active := false }
    missingSince := since }

/-- `VMStatusChanged`. -/
def vmStatusChanged (before after : VirtualMachine) : Bool :=
  before.phase ≠ after.phase ∨ before.lastError ≠ after.lastError ∨
    before.missingSince ≠ after.missingSince ∨ before.hypervisorName ≠ after.hypervisorName ∨
    before.createdOnHost ≠ after.createdOnHost ∨ before.libvirtDomain ≠ after.libvirtDomain ∨
    before.ipAddresses ≠ after.ipAddresses ∨
    before.networkInterfaces ≠ after.networkInterfaces ∨ before.provisioning ≠ after.provisioning

/-! ### The sync of one virtual machine -/

/-- `persistSyncedVM`. -/
def persistSyncedVM (before updated : VirtualMachine) : Prog Res Unit := do
  if !vmStatusChanged before updated then return ()
  else
  let now ← Client.now
  if before.isWindows then
    match ← Client.updateProvisioningAttempt before { updated with updatedAt := now } with
    | .ok false =>
      let _ ← Client.get before.name
      return ()
    | _ => return ()
  else
    let _ ← Client.updateExisting { updated with updatedAt := now }
    return ()

/-- `syncWithExecutor`. -/
def syncWithExecutor (hv : Hypervisor) (v : VirtualMachine) (leases : List (String × String)) :
    Prog Res Unit := do
  match ← Client.ask (.domainInfo hv (domainNameOf v)) with
  | .error e =>
    if !e.noDomain then return ()
    else
    let now ← Client.now
    if vmDeployInFlight v now then return ()
    else
    let since ← stampMissing v
    persistSyncedVM v (v.vanished hv since)
  | .ok state =>
    match ← Client.ask (.domainInterfaces hv (domainNameOf v)) with
    | .error _ =>
      let now ← Client.now
      persistSyncedVM v (v.refreshed hv state [] leases now)
    | .ok interfaces =>
      let now ← Client.now
      persistSyncedVM v (v.refreshed hv state interfaces leases now)

/-- `defaultHypervisorRetryInterval`. -/
def retryInterval : Time := 30 * 10 ^ 9

/-- `skipUnreachableHypervisor`. -/
def skipUnreachableHypervisor (hv : Hypervisor) (now : Time) : Bool :=
  hv.phase = .unreachable ∧ trimSpace hv.lastError ≠ "" ∧ now - hv.updatedAt < retryInterval

/-- `SyncAll`, as far as one virtual machine is concerned. -/
def runtimeSync (name : String) : Prog Res Unit := do
  let leases ← Client.ask .leases
  match ← Client.list with
  | .error _ => return ()
  | .ok items =>
  match ← Client.listHypervisors with
  | .error _ => return ()
  | .ok hypervisors =>
  match items.find? (·.name = name) with
  | none => return ()
  | some v =>
  match hypervisors.find? (·.name = trimSpace v.hypervisorRef) with
  | none => return ()
  | some hv =>
  if trimSpace v.hypervisorRef = "" then return ()
  else
  let now ← Client.now
  if skipUnreachableHypervisor hv now then return ()
  else
  match ← Client.ask (.libvirt hv .connect) with
  | .error _ => return ()
  | .ok _ => syncWithExecutor hv v leases

/-! ### Hypervisors -/

/-- `hypervisor.Service.UpdateStatus`, with the arguments that the sync and the heartbeat of an
agent leave out as `none` or empty. -/
def updateHypervisorStatus (name : String) (phase : HypervisorPhase) (capacity : Option ResourceInfo)
    (used : Option ResourceUsage) (libvirtURI lastErr : String) :
    Prog Res (Except Err Hypervisor) := do
  match ← Client.getHypervisor name with
  | .error e => return .error e
  | .ok h =>
  let now ← Client.now
  let h : Hypervisor :=
    { h with
      phase, capacity := capacity <|> h.capacity, used := used <|> h.used
      libvirtURI := if libvirtURI ≠ "" then libvirtURI else h.libvirtURI
      lastError := lastErr, updatedAt := now }
  match ← Client.upsertHypervisor h with
  | .error e => return .error e
  | .ok _ => return .ok h

/-- `ValidateHypervisor`; a host name that does not resolve may not contain space. -/
def validateHypervisor (h : Hypervisor) : Prog Res (Except Err Unit) := do
  if trimSpace h.name = "" then return .error (.msg "name is required")
  else if trimSpace h.connection.host = "" then
    return .error (.msg "connection.host is required")
  else
  match h.connection.type with
  | .other text => return .error (.msg ("unsupported connection type: " ++ text))
  | _ =>
  if parseIP h.connection.host ≠ none then return .ok ()
  else
  let resolves ← Client.ask (.lookupHost h.connection.host)
  if !resolves ∧ h.connection.host.toList.any (fun c => c = ' ' ∨ c = '\t' ∨ c = '\n') then
    return .error (.msg ("invalid host: " ++ h.connection.host))
  else return .ok ()

/-- `hypervisor.Service.Create`. -/
def createHypervisor (h : Hypervisor) : Prog Res (Except Err Hypervisor) := do
  let now ← Client.now
  let h : Hypervisor :=
    { h with
      createdAt := now, updatedAt := now
      phase := if h.phase = .unset then .pending else h.phase
      connection := { h.connection with
        type := if h.connection.type = .unset then .tcp else h.connection.type } }
  match ← validateHypervisor h with
  | .error e => return .error e
  | .ok _ =>
  match ← Client.upsertHypervisor h with
  | .error e => return .error e
  | .ok _ => return .ok h

end Gomi.Vm
