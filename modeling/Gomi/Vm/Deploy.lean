import Gomi.Vm.Service

/-!
# The deployer and the migrator

`internal/vm/deploy.go` and `migrate.go`, and the removal of a domain in
`internal/infra/api/vm.go`. A deploy is a long sequence of libvirt steps on the host of a
hypervisor, with writes of the record in between; each is a method of `Gomi.Vm.Service` or
`markDomainDefined`, which is written in the same way. A migration ends with `Upsert`, which
inserts the row if it is gone. A removal ends the domain before its storage.
-/

namespace Gomi.Vm

open Go

/-! ### The deployer -/

/-- `resolveInstallType`. -/
def resolveInstallType (v : VirtualMachine) : InstallConfigType :=
  match v.installCfg with
  | none => .preseed
  | some cfg => if trimSpace cfg.type.text = "" then .preseed else cfg.type

/-- The record with the domain of its window defined: the window starts again. -/
def VirtualMachine.domainDefined (v : VirtualMachine) (now : Time) : VirtualMachine :=
  let deadlineAt := match v.provisioning.startedAt, v.provisioning.deadlineAt with
    | some started, some deadline => some (now + (deadline - started))
    | _, deadline => deadline
  { v with
    provisioning := { v.provisioning with domainObservedAt := some now, deadlineAt, active := true }
    updatedAt := now }

/-- The snapshot of a deploy, with what was stored of its window. -/
def VirtualMachine.withWindowOf (deployed v : VirtualMachine) : VirtualMachine :=
  { deployed with provisioning := { deployed.provisioning with
      domainObservedAt := v.provisioning.domainObservedAt
      deadlineAt := v.provisioning.deadlineAt } }

/-- `markDomainDefined`. -/
def markDomainDefined (deployed : VirtualMachine) : Prog Res VirtualMachine := do
  match ← Client.get deployed.name with
  | .error _ => return deployed
  | .ok v =>
  if v.provisioning.completionToken ≠ deployed.provisioning.completionToken then return deployed
  else
  if v.provisioning.completedAt = none ∧ v.provisioning.domainObservedAt = none then
    let now ← Client.now
    match ← Client.updateExisting (v.domainDefined now) with
    | .ok true => return deployed.withWindowOf (v.domainDefined now)
    | _ => return deployed
  else return deployed.withWindowOf v

/-- `updatePhaseOnError`: the record that the caller goes on with. -/
def updatePhaseOnError (created : VirtualMachine) (action text : String) :
    Prog Res VirtualMachine := do
  match ← failDeploy created.name action text created.provisioning.completionToken with
  | .ok updated => return updated
  | .error _ => return created

/-- The end of a deploy that failed. -/
def abortDeploy (created : VirtualMachine) (action what text : String) :
    Prog Res (VirtualMachine × Option String) := do
  let created ← updatePhaseOnError created action text
  return (created, some (what ++ ": " ++ text))

/-- The boot device of an installation. -/
def bootDevOf (type : InstallConfigType) : String := if type = .curtin then "hd" else "network"

/-- The disk of a new domain; an error has the action and what failed. -/
def deployVolume (hv : Hypervisor) (v : VirtualMachine) (type : InstallConfigType) :
    Prog Res (Except (String × String × String) Unit) := do
  if type = .curtin then
    match ← Client.ask (.cloudImageBacking hv v.osImageRef) with
    | .error e => return .error ("resolve-cloudimage", "resolve cloud image backing", e.text)
    | .ok (path, format) =>
    match ← Client.ask (.libvirt hv (.createOverlayVolume v.name v.resources.diskGB path format)) with
    | .error e => return .error ("create-overlay-volume", "create overlay volume", e.text)
    | .ok _ => return .ok ()
  else
    match ← Client.ask (.libvirt hv (.createVolume v.name v.resources.diskGB)) with
    | .error e => return .error ("create-volume", "create volume", e.text)
    | .ok _ => return .ok ()

/-- The seed of a domain; only a cloud image has one. -/
def deploySeed (hv : Hypervisor) (v : VirtualMachine) (type : InstallConfigType) (base : String) :
    Prog Res (Except Err String) := do
  if type = .curtin then Client.ask (.noCloudSeed hv v base) else return .ok ""

/-- Sorted texts without repetitions. -/
def sortedTexts (texts : List String) : List String := texts.dedup.insertionSort (· ≤ ·)

/-- `ConvertRuntimeInterfaces`. -/
def convertRuntimeInterfaces (interfaces : List InterfaceInfo) :
    List NetworkInterfaceStatus × List String :=
  let statuses := interfaces.map fun i =>
    { name := i.name, mac := toLower (trimSpace i.mac)
      ipAddresses := i.ipAddresses.insertionSort (· ≤ ·) : NetworkInterfaceStatus }
  (statuses.insertionSort fun a b => a.name < b.name ∨ a.name = b.name ∧ a.mac ≤ b.mac,
    sortedTexts ((interfaces.flatMap (·.ipAddresses)).filter fun ip => trimSpace ip ≠ ""))

/-- The snapshot of a deploy whose domain is defined, with its interfaces. -/
def observeDomain (hv : Hypervisor) (created : VirtualMachine) : Prog Res VirtualMachine := do
  let created := { created with libvirtDomain := created.name, createdOnHost := hv.name }
  match ← Client.ask (.domainInterfaces hv created.name) with
  | .error _ => return created
  | .ok interfaces =>
    let (statuses, ips) := convertRuntimeInterfaces interfaces
    return { created with networkInterfaces := statuses, ipAddresses := ips }

/-- The end of a deploy that went through: the record that the caller goes on with. -/
def finishDeploy (created : VirtualMachine) (phase : Phase) (lastAction : String) :
    Prog Res (VirtualMachine × Option String) := do
  match ← updateDeployStatus created.name phase lastAction created.provisioning with
  | .ok updated => return (updated, none)
  | .error _ => return (created, none)

/-- The start of a domain, and its boot device for the next time. -/
def startDeployed (hv : Hypervisor) (domain bootDev : String) :
    Prog Res (Except (String × String × String) Unit) := do
  match ← Client.ask (.libvirt hv (.startDomain domain)) with
  | .error e => return .error ("start", "start domain", e.text)
  | .ok _ =>
  if bootDev = "network" then
    match ← Client.ask (.libvirt hv (.setDomainBootDevice domain "hd")) with
    | .error e =>
      return .error ("set-boot-hd", "set domain " ++ domain ++ " boot device to hd", e.text)
    | .ok _ => return .ok ()
  else return .ok ()

/-- `Deploy`: the record that the caller goes on with, and the error. -/
def deploy (created : VirtualMachine) : Prog Res (VirtualMachine × Option String) := do
  match ← Client.getHypervisor created.hypervisorRef with
  | .error e =>
    abortDeploy created "resolve-hypervisor" ("resolve hypervisor " ++ created.hypervisorRef) e.text
  | .ok hv =>
  let type := resolveInstallType created
  match ← Client.ask (.pxeBaseURL hv type) with
  | .error e => abortDeploy created "resolve-pxe-base-url" "resolve pxe base url" e.text
  | .ok base =>
  match ← Client.ask (.libvirt hv .connect) with
  | .error e => abortDeploy created "define" "connect to hypervisor" e.text
  | .ok _ =>
  match ← deployVolume hv created type with
  | .error (action, what, text) => abortDeploy created action what text
  | .ok _ =>
  match ← deploySeed hv created type base with
  | .error e => abortDeploy created "prepare-nocloud-seed" "prepare nocloud seed" e.text
  | .ok seed =>
  match ← Client.ask (.libvirt hv
    (.defineDomain created created.name (bootDevOf type) base seed)) with
  | .error e => abortDeploy created "define" "define domain" e.text
  | .ok _ =>
  let created ← markDomainDefined created
  let created ← observeDomain hv created
  if created.phase ≠ .stopped then
    match ← startDeployed hv created.name (bootDevOf type) with
    | .error (action, what, text) => abortDeploy created action what text
    | .ok _ =>
      finishDeploy created .provisioning
        (if bootDevOf type = "hd" then "create+cloudimage" else "create+pxe")
  else finishDeploy created .creating "define"

/-- `strings.Contains`. -/
def contains (s sub : String) : Bool := s.toList.tails.any (sub.toList.isPrefixOf ·)

/-- `IsIgnorableDestroyError`, of an error. -/
def LibvirtErr.isIgnorable (e : LibvirtErr) : Bool :=
  let msg := toLower e.text
  contains msg "not running" || contains msg "domain is not running" || contains msg "not found" ||
    contains msg "lookup domain"

/-- The name of the domain of a record. -/
def domainNameOf (v : VirtualMachine) : String :=
  let domain := trimSpace v.libvirtDomain
  if domain = "" then v.name else domain

/-- The disk of a domain that is installed again: only a cloud image gets a new one. -/
def redeployVolume (hv : Hypervisor) (v : VirtualMachine) (type : InstallConfigType) :
    Prog Res (Except String Unit) := do
  if type = .curtin then
    match ← Client.ask (.cloudImageBacking hv v.osImageRef) with
    | .error e =>
      return .error ("resolve cloud image backing for " ++ domainNameOf v ++ ": " ++ e.text)
    | .ok (path, format) =>
    match ← Client.ask (.libvirt hv (.deleteVolume v.name)) with
    | .error e =>
      return .error ("delete existing volume " ++ v.name ++ " before cloudimage redeploy: " ++ e.text)
    | .ok _ =>
    match ← Client.ask (.libvirt hv (.createOverlayVolume v.name v.resources.diskGB path format)) with
    | .error e =>
      return .error ("create overlay volume " ++ v.name ++ " for cloudimage redeploy: " ++ e.text)
    | .ok _ => return .ok ()
  else return .ok ()

/-- The removal of the old domain. -/
def removeDomain (hv : Hypervisor) (domain : String) : Prog Res (Except String Unit) := do
  match ← Client.ask (.libvirt hv (.destroyDomain domain)) with
  | .error e =>
    if !e.isIgnorable then return .error ("stop domain " ++ domain ++ ": " ++ e.text)
    else undefine
  | .ok _ => undefine
where
  /-- The second half: the domain is undefined. -/
  undefine : Prog Res (Except String Unit) := do
    match ← Client.ask (.libvirt hv (.undefineDomain domain)) with
    | .error e =>
      if !e.isIgnorable then
        return .error ("undefine domain " ++ domain ++ " before pxe redeploy: " ++ e.text)
      else return .ok ()
    | .ok _ => return .ok ()

/-- `Redeploy`: the error. -/
def redeploy (v : VirtualMachine) : Prog Res (Except String Unit) := do
  match ← Client.getHypervisor v.hypervisorRef with
  | .error e => return .error ("resolve hypervisor " ++ v.hypervisorRef ++ ": " ++ e.text)
  | .ok hv =>
  let type := resolveInstallType v
  match ← Client.ask (.pxeBaseURL hv type) with
  | .error e => return .error ("resolve pxe base url for " ++ v.name ++ ": " ++ e.text)
  | .ok base =>
  match ← Client.ask (.libvirt hv .connect) with
  | .error e => return .error ("connect to hypervisor " ++ hv.name ++ ": " ++ e.text)
  | .ok _ =>
  match ← removeDomain hv (domainNameOf v) with
  | .error text => return .error text
  | .ok _ =>
  match ← redeployVolume hv v type with
  | .error text => return .error text
  | .ok _ =>
  match ← deploySeed hv v type base with
  | .error e => return .error ("prepare nocloud seed for " ++ domainNameOf v ++ ": " ++ e.text)
  | .ok seed =>
  match ← Client.ask (.libvirt hv
    (.defineDomain v (domainNameOf v) (bootDevOf type) base seed)) with
  | .error e =>
    return .error ("define domain " ++ domainNameOf v ++ " for pxe redeploy: " ++ e.text)
  | .ok _ =>
  let _ ← markDomainDefined v
  match ← startDeployed hv (domainNameOf v) (bootDevOf type) with
  | .error (action, what, text) =>
    -- the two errors of the start are worded differently here
    return .error ((if action = "start" then "start domain " ++ domainNameOf v else what) ++ ": " ++
      text)
  | .ok _ => return .ok ()

/-- The removal of a domain and its storage from a host; the first error is one before anything
was touched. -/
def teardownVMRuntime (hv : Hypervisor) (v : VirtualMachine) :
    Prog Res (Except (String × Bool) Unit) := do
  let domain := domainNameOf v
  match ← Client.ask (.libvirt hv .connect) with
  | .error e =>
    return .error ("connect to hypervisor " ++ hv.name ++ " for delete: " ++ e.text ++
      ": vm runtime teardown not attempted", true)
  | .ok _ =>
  let destroyed ← Client.ask (.libvirt hv (.destroyDomain domain))
  match failure destroyed with
  | some e => return .error ("stop domain " ++ domain ++ " before delete: " ++ e.text, false)
  | none =>
  let undefined ← Client.ask (.libvirt hv (.undefineDomain domain))
  match failure undefined with
  | some e => return .error ("undefine domain " ++ domain ++ " before delete: " ++ e.text, false)
  | none =>
  if v.phase = .missing ∧ absent destroyed ∧ absent undefined then return .ok ()
  else
  match ← Client.ask (.libvirt hv (.deleteVolume v.name)) with
  | .error e =>
    if e.noVolume then return .ok ()
    else return .error ("delete volume " ++ v.name ++ ": " ++ e.text, false)
  | .ok _ => return .ok ()
where
  /-- An error that stops the teardown. -/
  failure (r : Except LibvirtErr Unit) : Option LibvirtErr :=
    match r with
    | .error e => if e.isIgnorable ∨ e.noDomain then none else some e
    | .ok _ => none
  /-- Whether the domain was not found. -/
  absent (r : Except LibvirtErr Unit) : Bool :=
    match r with
    | .error e => e.noDomain
    | .ok _ => false

/-! ### The choice of a hypervisor -/

/-- The choice among weighted names: the first whose share covers the number that was picked, else
the last. -/
def pickWeighted (pick : ℤ) : List (String × ℤ) → ℤ → String → String
  | [], _, last => last
  | (name, weight) :: rest, sum, _ =>
    if pick < int64 (sum + weight) then name
    else pickWeighted pick rest (int64 (sum + weight)) name

/-- The sum of the weights; like every sum here it is one of 64 bits. -/
def totalWeight (candidates : List (String × ℤ)) : ℤ :=
  candidates.foldl (fun sum c => int64 (sum + c.2)) 0

/-- The names and the free memory of hypervisors that have some. -/
def weighted (hypervisors : List Hypervisor) : List (String × ℤ) :=
  (hypervisors.map fun h => (h.name, h.availableMemory)).filter fun c => c.2 > 0

/-- The hypervisors that are picked from: the ready ones, or all if none of these has free memory. -/
def candidates (hypervisors : List Hypervisor) : List (String × ℤ) :=
  let ready := weighted (hypervisors.filter fun h => h.phase = .ready)
  if ready = [] then weighted hypervisors else ready

/-- `SelectHypervisor`; none is the empty name. -/
def selectHypervisor (hypervisors : List Hypervisor) : Prog Res String := do
  if candidates hypervisors = [] then return ""
  else
    let pick ← Client.ask (.randomBelow (totalWeight (candidates hypervisors)))
    return pickWeighted pick (candidates hypervisors) 0 ""

/-! ### The migrator -/

/-- The record of a virtual machine that has moved. -/
def VirtualMachine.migrated (v : VirtualMachine) (target : String) (now : Time) :
    VirtualMachine :=
  { v with
    hypervisorRef := target, hypervisorName := target, createdOnHost := target, phase := .running
    lastPowerAction := "migrate", lastError := "", updatedAt := now }

/-- The target of a migration: the one that is asked for, else one that is picked. -/
def migrationTarget (source : Hypervisor) (target : String) : Prog Res (Except String String) := do
  if target ≠ "" then return .ok target
  else
  match ← Client.listHypervisors with
  | .error e => return .error ("list hypervisors: " ++ e.text)
  | .ok hypervisors =>
  match weighted (hypervisors.filter fun h => h.name ≠ source.name ∧ h.phase = .ready) with
  | [] => return .error "no suitable target hypervisors available for migration"
  | candidates =>
    let pick ← Client.ask (.randomBelow (totalWeight candidates))
    return .ok (pickWeighted pick candidates 0 "")

/-- The domain of a record, for a migration or a power action, which do not trim its name. -/
def untrimmedDomainOf (v : VirtualMachine) : String :=
  if v.libvirtDomain = "" then v.name else v.libvirtDomain

/-- The last part of `Migrate`, with the record as it was last known. -/
def moveDomain (source target : Hypervisor) (targetName : String) (v : VirtualMachine) :
    Prog Res (Except String VirtualMachine) := do
  match ← Client.ask (.libvirt source .connect) with
  | .error e =>
    let _ ← updateStatus v.name .error "migrate" ("connect to source: " ++ e.text)
    return .error ("connect to source hypervisor: " ++ e.text)
  | .ok _ =>
  match ← Client.ask (.libvirt source (.migrateDomain (untrimmedDomainOf v)
    ("qemu+tcp://" ++ target.connection.host ++ "/system"))) with
  | .error e =>
    let _ ← updateStatus v.name .error "migrate" e.text
    return .error ("migration failed: " ++ e.text)
  | .ok _ =>
  let now ← Client.now
  match ← Client.upsert (v.migrated targetName now) with
  | .error e => return .error ("update vm after migration: " ++ e.text)
  | .ok _ => return .ok (v.migrated targetName now)

/-- `Migrate`. -/
def migrate (v : VirtualMachine) (target : String) : Prog Res (Except String VirtualMachine) := do
  match ← Client.getHypervisor v.hypervisorRef with
  | .error e => return .error ("resolve source hypervisor: " ++ e.text)
  | .ok source =>
  match ← migrationTarget source target with
  | .error text => return .error text
  | .ok targetName =>
  if targetName = source.name then
    return .error "target hypervisor must be different from source"
  else
  match ← Client.getHypervisor targetName with
  | .error e => return .error ("resolve target hypervisor: " ++ e.text)
  | .ok targetHV =>
  match ← updateStatus v.name .migrating "migrate" "" with
  | .ok updated => moveDomain source targetHV targetName updated
  | .error _ => moveDomain source targetHV targetName v

end Gomi.Vm
