import Gomi.Go.Bytes
import Gomi.Machine.Types

/-!
# The virtual machine record

`internal/vm/types.go` and `internal/hypervisor/types.go`: what the server knows about a
virtual machine and about the hypervisor it runs on. The conventions are those of
`Gomi.Machine.Types`: a pointer is an `Option`, a field has Go's zero value as its
default, `nil` and empty slices are the same value, and an enumeration that a request can
leave has a last constructor `other`.

`Gomi.Vm` is the namespace of everything about virtual machines; the names of the
physical machine that have a counterpart here (`Gomi.Phase`, later `Gomi.Op`, `Gomi.World`,
`Gomi.step`) are shadowed in it.
-/

namespace Gomi.Vm

/-- `vm.Phase`; `unset` is the empty text. -/
inductive Phase where
  | unset
  | pending
  | creating
  | running
  | stopped
  | provisioning
  | error
  | deleting
  | migrating
  | missing
  | other (text : String)
  deriving DecidableEq

/-- `vm.DiskDriver`; `unset` is the empty text. -/
inductive DiskDriver where
  | unset
  | virtio
  | scsi
  | other (text : String)
  deriving DecidableEq

/-- `vm.CPUMode`; `unset` is the empty text. -/
inductive CPUMode where
  | unset
  | hostPassthrough
  | hostModel
  | maximum
  | other (text : String)
  deriving DecidableEq

/-- `vm.AdvancedOptions`. -/
structure AdvancedOptions where
  cpuPinning : Std.ExtTreeMap ℤ String compare := ∅
  ioThreads : ℤ := 0
  cpuMode : CPUMode := .unset
  diskDriver : DiskDriver := .unset
  diskFormat : String := ""
  netMultiqueue : ℤ := 0
  deriving DecidableEq

/-- `vm.PowerControlMethod`; `unset` is the empty text. -/
inductive PowerControlMethod where
  | unset
  | libvirt
  | other (text : String)
  deriving DecidableEq

/-- `vm.InstallConfigType`; a text with space around it is not the same type. -/
inductive InstallConfigType where
  | unset
  | windows
  | preseed
  | curtin
  | other (text : String)
  deriving DecidableEq

/-- The text of an installation type. -/
def InstallConfigType.text : InstallConfigType → String
  | .unset => ""
  | .windows => "windows"
  | .preseed => "preseed"
  | .curtin => "curtin"
  | .other text => text

/-- `vm.ResourceSpec`. -/
structure ResourceSpec where
  cpuCores : ℤ := 0
  memoryMB : ℤ := 0
  diskGB : ℤ := 0
  deriving DecidableEq

/-- `vm.NetworkInterface`. -/
structure NetworkInterface where
  name : String := ""
  mac : String := ""
  bridge : String := ""
  network : String := ""
  ipAddress : String := ""
  deriving DecidableEq

/-- `vm.InstallConfig`. -/
structure InstallConfig where
  type : InstallConfigType := .unset
  inline : String := ""
  deriving DecidableEq

/-- `vm.ProvisioningStatus`: one installation attempt of a virtual machine. -/
structure ProvisioningStatus where
  windowsInstallStarted : Bool := false
  attemptID : String := ""
  imageApplied : Bool := false
  active : Bool := false
  startedAt : Option Time := none
  deadlineAt : Option Time := none
  completedAt : Option Time := none
  completionToken : String := ""
  completionSource : String := ""
  lastSignalAt : Option Time := none
  domainObservedAt : Option Time := none
  deriving DecidableEq

/-- `vm.NetworkInterfaceStatus`. -/
structure NetworkInterfaceStatus where
  name : String := ""
  mac : String := ""
  ipAddresses : List String := []
  deriving DecidableEq

/-- `vm.VirtualMachine`. -/
structure VirtualMachine where
  name : String := ""
  hypervisorRef : String := ""
  resources : ResourceSpec := {}
  osImageRef : String := ""
  cloudInitRef : String := ""
  cloudInitRefs : List String := []
  network : List NetworkInterface := []
  ipAssignment : IPAssignmentMode := .unset
  subnetRef : String := ""
  domain : String := ""
  installCfg : Option InstallConfig := none
  powerControlMethod : PowerControlMethod := .unset
  advancedOptions : Option AdvancedOptions := none
  sshKeyRefs : List String := []
  loginUser : Option LoginUserSpec := none
  phase : Phase := .unset
  libvirtDomain : String := ""
  hypervisorName : String := ""
  ipAddresses : List String := []
  networkInterfaces : List NetworkInterfaceStatus := []
  provisioning : ProvisioningStatus := {}
  lastPowerAction : String := ""
  lastDeployedCloudInitRef : String := ""
  lastError : String := ""
  missingSince : Option Time := none
  createdOnHost : String := ""
  createdAt : Time := 0
  updatedAt : Time := 0
  deriving DecidableEq

/-- Whether a virtual machine is installed as a Windows machine: `PXEInstallType` is
`windows`, which is also how the stores' callers test it. -/
def VirtualMachine.isWindows (v : VirtualMachine) : Bool :=
  v.installCfg.any (·.type == .windows)

/-! ### Hypervisors -/

/-- `hypervisor.Phase`; `unset` is the empty text. -/
inductive HypervisorPhase where
  | unset
  | pending
  | registered
  | ready
  | notReady
  | unreachable
  | other (text : String)
  deriving DecidableEq

/-- `hypervisor.ConnectionType`; `unset` is the empty text. -/
inductive ConnectionType where
  | unset
  | ssh
  | tcp
  | other (text : String)
  deriving DecidableEq

/-- `hypervisor.ConnectionSpec`. -/
structure ConnectionSpec where
  type : ConnectionType := .unset
  host : String := ""
  port : ℤ := 0
  user : String := ""
  keyRef : String := ""
  hostKey : String := ""
  deriving DecidableEq

/-- `hypervisor.ResourceInfo`. -/
structure ResourceInfo where
  cpuCores : ℤ := 0
  memoryMB : ℤ := 0
  storageGB : ℤ := 0
  deriving DecidableEq

/-- `hypervisor.ResourceUsage`. -/
structure ResourceUsage where
  cpuUsedCores : ℤ := 0
  memoryUsedMB : ℤ := 0
  storageUsedGB : ℤ := 0
  deriving DecidableEq

/-- `hypervisor.Hypervisor`. -/
structure Hypervisor where
  name : String := ""
  connection : ConnectionSpec := {}
  labels : Labels := ∅
  machineRef : String := ""
  bridgeName : String := ""
  phase : HypervisorPhase := .unset
  capacity : Option ResourceInfo := none
  used : Option ResourceUsage := none
  vmCount : ℤ := 0
  libvirtURI : String := ""
  lastHeartbeat : Option Time := none
  lastError : String := ""
  createdAt : Time := 0
  updatedAt : Time := 0
  deriving DecidableEq

/-- `AvailableMemory`. -/
def Hypervisor.availableMemory (h : Hypervisor) : ℤ :=
  match h.capacity with
  | none => 0
  | some c => match h.used with
    | some u => Go.int64 (c.memoryMB - u.memoryUsedMB)
    | none => c.memoryMB

end Gomi.Vm
