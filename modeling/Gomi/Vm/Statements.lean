import Gomi.Table
import Gomi.Vm.Types

/-!
# The tables of virtual machines and hypervisors, and their statements

`internal/infra/sql/vm_store.go`, `hypervisor_store.go` and `provisioning_attempt.go`.
The two tables are not tied by a foreign key: `virtual_machines.hypervisor_ref` is a
text. As in `Gomi.Store.Database` the JSON columns are the decoded records
(`Gomi.Vm.VMSpec`, `Gomi.Vm.VMStatus`), and as in `Gomi.Store.Statements` each statement is
a function from a database to its answer and the database it leaves.
-/

namespace Gomi.Vm

/-! ### Rows -/

/-- `vmSpecJSON`. -/
structure VMSpec where
  resources : ResourceSpec := {}
  osImageRef : String := ""
  cloudInitRef : String := ""
  cloudInitRefs : List String := []
  network : List NetworkInterface := []
  ipAssignment : IPAssignmentMode := .unset
  subnetRef : String := ""
  domain : String := ""
  installCfg : Option InstallConfig := none
  powerControlMethod : PowerControlMethod := .unset
  advancedOptions : Option AdvancedOptions := none
  sshKeyRefs : List String := []
  loginUser : Option LoginUserSpec := none
  deriving DecidableEq

/-- `vmStatusJSON`. -/
structure VMStatus where
  phase : Phase := .unset
  libvirtDomain : String := ""
  hypervisorName : String := ""
  ipAddresses : List String := []
  networkInterfaces : List NetworkInterfaceStatus := []
  provisioning : ProvisioningStatus := {}
  lastPowerAction : String := ""
  lastDeployedCloudInitRef : String := ""
  lastError : String := ""
  missingSince : Option Time := none
  createdOnHost : String := ""
  deriving DecidableEq

/-- A row of `virtual_machines`. -/
structure VMRow where
  hypervisorRef : String := ""
  spec : VMSpec := {}
  status : VMStatus := {}
  createdAt : Time := 0
  updatedAt : Time := 0

/-- `scanVMRow`. -/
@[simps name hypervisorRef provisioning] def VMRow.scan (name : String) (r : VMRow) : VirtualMachine :=
  { name, hypervisorRef := r.hypervisorRef, resources := r.spec.resources,
    osImageRef := r.spec.osImageRef, cloudInitRef := r.spec.cloudInitRef,
    cloudInitRefs := r.spec.cloudInitRefs, network := r.spec.network,
    ipAssignment := r.spec.ipAssignment, subnetRef := r.spec.subnetRef, domain := r.spec.domain,
    installCfg := r.spec.installCfg, powerControlMethod := r.spec.powerControlMethod,
    advancedOptions := r.spec.advancedOptions, sshKeyRefs := r.spec.sshKeyRefs,
    loginUser := r.spec.loginUser, phase := r.status.phase,
    libvirtDomain := r.status.libvirtDomain, hypervisorName := r.status.hypervisorName,
    ipAddresses := r.status.ipAddresses, networkInterfaces := r.status.networkInterfaces,
    provisioning := r.status.provisioning, lastPowerAction := r.status.lastPowerAction,
    lastDeployedCloudInitRef := r.status.lastDeployedCloudInitRef,
    lastError := r.status.lastError, missingSince := r.status.missingSince,
    createdOnHost := r.status.createdOnHost, createdAt := r.createdAt, updatedAt := r.updatedAt }

/-- `marshalVMColumns`, the spec. -/
def marshalSpec (v : VirtualMachine) : VMSpec :=
  { resources := v.resources, osImageRef := v.osImageRef, cloudInitRef := v.cloudInitRef,
    cloudInitRefs := v.cloudInitRefs, network := v.network, ipAssignment := v.ipAssignment,
    subnetRef := v.subnetRef, domain := v.domain, installCfg := v.installCfg,
    powerControlMethod := v.powerControlMethod, advancedOptions := v.advancedOptions,
    sshKeyRefs := v.sshKeyRefs, loginUser := v.loginUser }

/-- `marshalVMColumns`, the status. -/
def marshalStatus (v : VirtualMachine) : VMStatus :=
  { phase := v.phase, libvirtDomain := v.libvirtDomain, hypervisorName := v.hypervisorName,
    ipAddresses := v.ipAddresses, networkInterfaces := v.networkInterfaces,
    provisioning := v.provisioning, lastPowerAction := v.lastPowerAction,
    lastDeployedCloudInitRef := v.lastDeployedCloudInitRef, lastError := v.lastError,
    missingSince := v.missingSince, createdOnHost := v.createdOnHost }

/-- The row a full write of `v` leaves, with the given creation time: an insert takes it
from `v`, an update keeps the old one. -/
def VirtualMachine.toRow (v : VirtualMachine) (createdAt : Time) : VMRow :=
  { hypervisorRef := v.hypervisorRef, spec := marshalSpec v, status := marshalStatus v, createdAt,
    updatedAt := v.updatedAt }

@[simp] theorem VMRow.marshalStatus_scan (n : String) (r : VMRow) :
    marshalStatus (r.scan n) = r.status := rfl

/-! ### The two tables -/

/-- The content of the tables `virtual_machines` and `hypervisors`. A hypervisor's row is its
decoded record. -/
structure Database where
  vms : Table VMRow := ∅
  hypervisors : Table Hypervisor := ∅

/-- What a statement does: its answer, and the database it leaves. -/
abbrev Statement (α : Type) : Type := Database → Except Err α × Database

/-! ### Virtual machines -/

/-- `Upsert`: inserts the row, or overwrites all but its creation time. -/
def upsert (v : VirtualMachine) : Statement Unit := fun db =>
  let createdAt := (db.vms[v.name]?.map (·.createdAt)).getD v.createdAt
  (.ok (), { db with vms := db.vms.insert v.name (v.toRow createdAt) })

/-- `Insert`. -/
def insert (v : VirtualMachine) : Statement Unit := fun db =>
  if db.vms[v.name]?.isSome then (.error .alreadyExists, db)
  else (.ok (), { db with vms := db.vms.insert v.name (v.toRow v.createdAt) })

/-- `UpdateExisting`: whether there was a row to overwrite. -/
def updateExisting (v : VirtualMachine) : Statement Bool := fun db =>
  match db.vms[v.name]? with
  | some row => (.ok true, { db with vms := db.vms.insert v.name (v.toRow row.createdAt) })
  | none => (.ok false, db)

/-- `Get`. -/
def get (name : String) : Statement VirtualMachine := fun db =>
  match db.vms[name]? with
  | some row => (.ok (row.scan name), db)
  | none => (.error .notFound, db)

/-- `List`. -/
def list : Statement (List VirtualMachine) := fun db =>
  (.ok (db.vms.toList.map fun kv => kv.2.scan kv.1), db)

/-- `ListByHypervisor`. -/
def listByHypervisor (hypervisor : String) : Statement (List VirtualMachine) := fun db =>
  (.ok ((db.vms.toList.filter fun kv => kv.2.hypervisorRef = hypervisor).map
    fun kv => kv.2.scan kv.1), db)

/-- The conditional deletes: `DELETE … WHERE name = ? AND cond`, and whether a row went. -/
def deleteWhere (name : String) (cond : VMRow → Bool) : Statement Bool := fun db =>
  match db.vms[name]? with
  | some row =>
    if cond row then (.ok true, { db with vms := db.vms.erase name }) else (.ok false, db)
  | none => (.ok false, db)

/-- `DeleteCreatedToken`. -/
def deleteCreatedToken (name completionToken : String) : Statement Bool :=
  deleteWhere name fun row => row.status.provisioning.completionToken = completionToken

/-- `DeleteOwned`. -/
def deleteOwned (name hypervisorRef : String) : Statement Bool :=
  deleteWhere name fun row => row.hypervisorRef = hypervisorRef

/-- `Delete`. -/
def delete (name : String) : Statement Unit := fun db =>
  match db.vms[name]? with
  | some _ => (.ok (), { db with vms := db.vms.erase name })
  | none => (.error .notFound, db)

/-- Whether two records are of one name and of one installation attempt, as
`UpdateProvisioningAttempt` demands before it looks at the stored record. -/
def sameAttempt (before after : VirtualMachine) : Bool :=
  before.name = after.name ∧
    before.provisioning.completionToken = after.provisioning.completionToken ∧
    before.provisioning.attemptID = after.provisioning.attemptID

/-- `UpdateProvisioningAttempt`: a compare-and-swap of the status. -/
def updateProvisioningAttempt (before after : VirtualMachine) : Statement Bool := fun db =>
  if !sameAttempt before after then (.ok false, db)
  else match db.vms[before.name]? with
    | none => (.ok false, db)
    | some row =>
      if row.spec = marshalSpec before ∧ row.status = marshalStatus before ∧
          row.hypervisorRef = before.hypervisorRef then
        let next := { row with status := marshalStatus after, updatedAt := after.updatedAt }
        (.ok true, { db with vms := db.vms.insert before.name next })
      else (.ok false, db)

/-! ### Hypervisors -/

/-- `HypervisorStore.Upsert`. -/
def upsertHypervisor (h : Hypervisor) : Statement Unit := fun db =>
  let createdAt := (db.hypervisors[h.name]?.map (·.createdAt)).getD h.createdAt
  (.ok (), { db with hypervisors := db.hypervisors.insert h.name { h with createdAt } })

/-- `HypervisorStore.Get`. -/
def getHypervisor (name : String) : Statement Hypervisor := fun db =>
  match db.hypervisors[name]? with
  | some h => (.ok { h with name }, db)
  | none => (.error .notFound, db)

/-- `HypervisorStore.List`. -/
def listHypervisors : Statement (List Hypervisor) := fun db =>
  (.ok (db.hypervisors.toList.map fun kv => { kv.2 with name := kv.1 }), db)

/-- `HypervisorStore.Delete`. -/
def deleteHypervisor (name : String) : Statement Unit := fun db =>
  match db.hypervisors[name]? with
  | some _ => (.ok (), { db with hypervisors := db.hypervisors.erase name })
  | none => (.error .notFound, db)

end Gomi.Vm
