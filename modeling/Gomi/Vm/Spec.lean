import Gomi.Pxe.Windows
import Gomi.Vm.Types

/-!
# The check of a virtual machine

`internal/vm/validate.go`: the checks before a record is stored, with their texts.
-/

namespace Gomi.Vm

open Go

/-! ### Texts of enumerations -/

/-- The text of a power control method. -/
def PowerControlMethod.text : PowerControlMethod → String
  | .unset => ""
  | .libvirt => "libvirt"
  | .other text => text

/-- The text of a disk driver. -/
def DiskDriver.text : DiskDriver → String
  | .unset => ""
  | .virtio => "virtio"
  | .scsi => "scsi"
  | .other text => text

/-- The text of a CPU mode. -/
def CPUMode.text : CPUMode → String
  | .unset => ""
  | .hostPassthrough => "host-passthrough"
  | .hostModel => "host-model"
  | .maximum => "maximum"
  | .other text => text

/-! ### Validation -/

/-- `validateAdvancedOptions`. The pinned CPUs are looked at in ascending order. -/
def validateAdvancedOptions (v : VirtualMachine) : Except Err Unit :=
  match v.advancedOptions with
  | none => .ok ()
  | some opts => do
    failIf (opts.ioThreads < 0)
      (.msg "advancedOptions.ioThreads must be non-negative")
    failIf (opts.netMultiqueue < 0)
      (.msg "advancedOptions.netMultiqueue must be non-negative")
    failIf (opts.diskDriver.text ≠ "" ∧ opts.diskDriver ≠ .virtio ∧ opts.diskDriver ≠ .scsi)
      (.msg ("unsupported advancedOptions.diskDriver: " ++ opts.diskDriver.text ++
        " (must be virtio or scsi)"))
    failIf (opts.cpuMode.text ≠ "" ∧ opts.cpuMode ≠ .hostPassthrough ∧ opts.cpuMode ≠ .hostModel ∧
        opts.cpuMode ≠ .maximum)
      (.msg ("unsupported advancedOptions.cpuMode: " ++ opts.cpuMode.text ++
        " (must be host-passthrough, host-model, or maximum)"))
    failIf (opts.diskFormat ≠ "" ∧ opts.diskFormat ≠ "qcow2")
      (.msg ("unsupported advancedOptions.diskFormat: " ++ opts.diskFormat ++ " (must be qcow2)"))
    match opts.cpuPinning.toList.find? fun kv => kv.1 < 0 ∨ kv.1 ≥ v.resources.cpuCores with
    | none => .ok ()
    | some (vcpu, _) =>
      .error (.msg ("advancedOptions.cpuPinning: vcpu " ++ toString vcpu ++
        " is out of range [0, " ++ toString v.resources.cpuCores ++ ")"))

/-- The check of the installation configuration. The type is compared without the space around
it. -/
def validateInstallConfig : Option InstallConfig → Except Err Unit
  | none => .ok ()
  | some cfg =>
    let cfgType := trimSpace cfg.type.text
    if cfgType ≠ "" ∧ cfgType ≠ "preseed" ∧ cfgType ≠ "curtin" ∧ cfgType ≠ "windows" then
      .error (.msg ("unsupported installConfig.type: " ++ cfgType))
    else if cfgType = "" ∧ trimSpace cfg.inline ≠ "" then
      .error (.msg "installConfig.type is required when installConfig.inline is set")
    else .ok ()

/-- `StaticIP`. -/
def VirtualMachine.staticIP (v : VirtualMachine) : String :=
  (v.network.head?.map (·.ipAddress)).getD ""

/-- `ValidateVirtualMachine`. -/
def validateVirtualMachine (v : VirtualMachine) : Except Err Unit := do
  failIf (trimSpace v.name = "")
    (.msg "name is required")
  failIf (v.resources.cpuCores ≤ 0)
    (.msg "resources.cpuCores must be positive")
  failIf (v.resources.memoryMB ≤ 0)
    (.msg "resources.memoryMB must be positive")
  failIf (v.resources.diskGB ≤ 0)
    (.msg "resources.diskGB must be positive")
  failIf (trimSpace v.osImageRef = "")
    (.msg "osImageRef is required")
  validateCloudInitRefs v.cloudInitRef v.cloudInitRefs
  failIf (v.powerControlMethod.text ≠ "" ∧ v.powerControlMethod ≠ .libvirt)
    (.msg ("unsupported powerControlMethod: " ++ v.powerControlMethod.text))
  validateAdvancedOptions v
  validateIPAssignment v.ipAssignment v.staticIP
  validateInstallConfig v.installCfg
  validateLoginUser v.loginUser

end Gomi.Vm
