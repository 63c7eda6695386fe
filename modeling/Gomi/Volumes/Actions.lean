import Gomi.Volumes.Storage

/-!
# What an action on a virtual machine asks of a host

Deploying, redeploying, migrating and deleting a virtual machine are long programs, but all that
the files of a host depend on is short: every operation on a volume carries the name of the
record the action was started with, the seed is that of a record of this name, and a backing
image is asked for only by a record that is installed from a cloud image, and it is the image of
the record. This is `Gomi.Volumes.OfRecord`, and `Gomi.Volumes.Action.vmProg_uses` says that it
holds of every operation of every action.

The records that an action goes on with are read again from the store on the way, by the name,
and have nothing to do with the volumes.
-/

namespace Gomi.Volumes

open Go Prog
open Vm (VirtualMachine Hypervisor InstallConfigType)

/-- The operation, if it is one on volumes, is on those of the record. -/
def OfRecord (v : VirtualMachine) : Vm.Op → Prop
  | .ask (.libvirt _ (.createVolume name _)) => name = v.name
  | .ask (.libvirt _ (.createOverlayVolume name ..)) => name = v.name
  | .ask (.libvirt _ (.deleteVolume name)) => name = v.name
  | .ask (.cloudImageBacking _ osImageRef) =>
    osImageRef = v.osImageRef ∧ Vm.resolveInstallType v = .curtin
  | .ask (.noCloudSeed _ u _) => u.name = v.name
  | _ => True

variable {v : VirtualMachine}
variable {u : VirtualMachine} {action name text domain target : String} {phase : Vm.Phase}
  {source : Hypervisor}

/-! ### The store -/

theorem writeBack_uses :
    Uses (OfRecord v) (fun _ => True) (Vm.writeBack u) := by
  refine .perform_bind trivial ?_
  rintro (e | _ | _) <;> exact .pure trivial

theorem updateStatus_uses :
    Uses (OfRecord v) (fun _ => True) (Vm.updateStatus name phase action text) := by
  refine .perform_bind trivial ?_
  rintro (e | u)
  · exact .pure trivial
  · exact .perform_bind trivial fun _ => writeBack_uses

theorem updateDeployStatus_uses {p : Vm.ProvisioningStatus} :
    Uses (OfRecord v) (fun _ => True) (Vm.updateDeployStatus name phase action p) := by
  refine .perform_bind trivial ?_
  rintro (e | u)
  · exact .pure trivial
  refine .ite (fun _ => .pure trivial) fun _ => .perform_bind trivial fun _ => ?_
  refine .ite (fun _ => ?_) fun _ => writeBack_uses
  refine .perform_bind trivial ?_
  rintro (e | _ | _)
  · exact .pure trivial
  · exact Uses.perform (o := Vm.Op.get name) trivial fun _ => trivial
  · exact .pure trivial

theorem failDeploy_uses {token : String} :
    Uses (OfRecord v) (fun _ => True) (Vm.failDeploy name action text token) := by
  refine .perform_bind trivial ?_
  rintro (e | u)
  · exact .pure trivial
  exact .ite (fun _ => .pure trivial) fun _ => .perform_bind trivial fun _ => writeBack_uses

theorem markDomainDefined_uses :
    Uses (OfRecord v) (fun _ => True) (Vm.markDomainDefined u) := by
  refine .perform_bind trivial ?_
  rintro (e | u)
  · exact .pure trivial
  refine .ite (fun _ => .pure trivial) fun _ => .ite (fun _ => ?_) fun _ => .pure trivial
  refine .perform_bind trivial fun now => .perform_bind trivial ?_
  rintro (e | _ | _) <;> exact .pure trivial

theorem abortDeploy_uses {what : String} :
    Uses (OfRecord v) (fun _ => True) (Vm.abortDeploy u action what text) := by
  refine Uses.bind (A := fun _ => True) ?_ fun _ _ => .pure trivial
  refine failDeploy_uses.bind ?_
  rintro (e | _) _ <;> exact .pure trivial

theorem finishDeploy_uses :
    Uses (OfRecord v) (fun _ => True) (Vm.finishDeploy u phase action) := by
  refine updateDeployStatus_uses.bind ?_
  rintro (e | _) _ <;> exact .pure trivial

/-! ### Domains -/

theorem observeDomain_uses (hv : Hypervisor) :
    Uses (OfRecord v) (fun _ => True) (Vm.observeDomain hv u) := by
  refine .perform_bind trivial ?_
  rintro (e | interfaces) <;> exact .pure trivial

theorem startDeployed_uses (hv : Hypervisor) {bootDev : String} :
    Uses (OfRecord v) (fun _ => True) (Vm.startDeployed hv domain bootDev) := by
  refine .perform_bind trivial ?_
  rintro (e | _)
  · exact .pure trivial
  refine .ite (fun _ => .perform_bind trivial fun r => ?_) fun _ => .pure trivial
  rcases r with e | _ <;> exact .pure trivial

theorem removeDomain_uses (hv : Hypervisor) :
    Uses (OfRecord v) (fun _ => True) (Vm.removeDomain hv domain) := by
  have hundefine : Uses (OfRecord v) (fun _ => True) (Vm.removeDomain.undefine hv domain) := by
    refine .perform_bind trivial ?_
    rintro (e | _)
    · exact .ite (fun _ => .pure trivial) fun _ => .pure trivial
    · exact .pure trivial
  refine .perform_bind trivial ?_
  rintro (e | _)
  · exact .ite (fun _ => .pure trivial) fun _ => hundefine
  · exact hundefine

/-! ### Volumes -/

theorem deployVolume_uses (hv : Hypervisor) :
    Uses (OfRecord v) (fun _ => True) (Vm.deployVolume hv v (Vm.resolveInstallType v)) := by
  refine .ite (fun htype => .perform_bind ⟨rfl, htype⟩ fun r => ?_) fun _ =>
    .perform_bind rfl fun r => ?_
  · rcases r with e | ⟨path, format⟩
    · exact .pure trivial
    refine .perform_bind rfl ?_
    rintro (e | _) <;> exact .pure trivial
  · rcases r with e | _ <;> exact .pure trivial

theorem deploySeed_uses (hv : Hypervisor) {type : InstallConfigType} {base : String} :
    Uses (OfRecord v) (fun _ => True) (Vm.deploySeed hv v type base) := by
  refine .ite (fun _ => ?_) fun _ => .pure trivial
  exact Uses.perform (o := Vm.Op.ask (.noCloudSeed hv v base)) rfl fun _ => trivial

theorem redeployVolume_uses (hv : Hypervisor) :
    Uses (OfRecord v) (fun _ => True) (Vm.redeployVolume hv v (Vm.resolveInstallType v)) := by
  refine .ite (fun htype => .perform_bind ⟨rfl, htype⟩ fun r => ?_) fun _ => .pure trivial
  rcases r with e | ⟨path, format⟩
  · exact .pure trivial
  refine .perform_bind rfl ?_
  rintro (e | _)
  · exact .pure trivial
  refine .perform_bind rfl ?_
  rintro (e | _) <;> exact .pure trivial

/-! ### Actions -/

theorem deploy_uses : Uses (OfRecord v) (fun _ => True) (Vm.deploy v) := by
  refine .perform_bind trivial ?_
  rintro (e | hv)
  · exact abortDeploy_uses
  refine .perform_bind trivial ?_
  rintro (e | base)
  · exact abortDeploy_uses
  refine .perform_bind trivial ?_
  rintro (e | _)
  · exact abortDeploy_uses
  refine (deployVolume_uses hv).bind ?_
  rintro (⟨action, what, text⟩ | _) _
  · exact abortDeploy_uses
  refine (deploySeed_uses hv).bind ?_
  rintro (e | seed) _
  · exact abortDeploy_uses
  refine .perform_bind trivial ?_
  rintro (e | _)
  · exact abortDeploy_uses
  refine markDomainDefined_uses.bind fun u _ => (observeDomain_uses hv).bind fun u _ => ?_
  refine .ite (fun _ => ?_) fun _ => finishDeploy_uses
  refine (startDeployed_uses hv).bind ?_
  rintro (⟨action, what, text⟩ | _) _
  · exact abortDeploy_uses
  · exact finishDeploy_uses

theorem redeploy_uses : Uses (OfRecord v) (fun _ => True) (Vm.redeploy v) := by
  refine .perform_bind trivial ?_
  rintro (e | hv)
  · exact .pure trivial
  refine .perform_bind trivial ?_
  rintro (e | base)
  · exact .pure trivial
  refine .perform_bind trivial ?_
  rintro (e | _)
  · exact .pure trivial
  refine (removeDomain_uses hv).bind ?_
  rintro (e | _) _
  · exact .pure trivial
  refine (redeployVolume_uses hv).bind ?_
  rintro (e | _) _
  · exact .pure trivial
  refine (deploySeed_uses hv).bind ?_
  rintro (e | seed) _
  · exact .pure trivial
  refine .perform_bind trivial ?_
  rintro (e | _)
  · exact .pure trivial
  refine markDomainDefined_uses.bind fun _ _ => (startDeployed_uses hv).bind ?_
  rintro (⟨action, what, text⟩ | _) _ <;> exact .pure trivial

theorem moveDomain_uses {target : Hypervisor} :
    Uses (OfRecord v) (fun _ => True) (Vm.moveDomain source target name u) := by
  refine .perform_bind trivial ?_
  rintro (e | _)
  · exact updateStatus_uses.bind fun _ _ => .pure trivial
  refine .perform_bind trivial ?_
  rintro (e | _)
  · exact updateStatus_uses.bind fun _ _ => .pure trivial
  refine .perform_bind trivial fun now => .perform_bind trivial ?_
  rintro (e | _) <;> exact .pure trivial

theorem migrationTarget_uses :
    Uses (OfRecord v) (fun _ => True) (Vm.migrationTarget source target) := by
  refine .ite (fun _ => .pure trivial) fun _ => .perform_bind trivial ?_
  rintro (e | hypervisors)
  · exact .pure trivial
  dsimp only
  split
  · exact .pure trivial
  · exact .perform_bind trivial fun _ => .pure trivial

theorem migrate_uses :
    Uses (OfRecord v) (fun _ => True) (Vm.migrate v target) := by
  refine .perform_bind trivial ?_
  rintro (e | source)
  · exact .pure trivial
  refine migrationTarget_uses.bind ?_
  rintro (e | name) _
  · exact .pure trivial
  refine .ite (fun _ => .pure trivial) fun _ => .perform_bind trivial ?_
  rintro (e | targetHV)
  · exact .pure trivial
  refine updateStatus_uses.bind ?_
  rintro (e | u) _ <;> exact moveDomain_uses

theorem teardown_uses (hv : Hypervisor) :
    Uses (OfRecord v) (fun _ => True) (Vm.teardownVMRuntime hv v) := by
  refine .perform_bind trivial ?_
  rintro (e | _)
  · exact .pure trivial
  refine .perform_bind trivial fun destroyed => ?_
  split
  · exact .pure trivial
  refine .perform_bind trivial fun undefined => ?_
  split
  · exact .pure trivial
  refine .ite (fun _ => .pure trivial) fun _ => .perform_bind rfl ?_
  rintro (e | _)
  · exact .ite (fun _ => .pure trivial) fun _ => .pure trivial
  · exact .pure trivial

/-- **Every operation of an action is on the volumes of its record.** -/
theorem Action.vmProg_uses (v : VirtualMachine) (a : Action) :
    Uses (OfRecord v) (fun _ => True) (a.vmProg v) := by
  cases a with
  | deploy => exact deploy_uses.bind fun _ _ => .pure trivial
  | redeploy => exact redeploy_uses.bind fun _ _ => .pure trivial
  | migrate target => exact migrate_uses.bind fun _ _ => .pure trivial
  | delete hv => exact (teardown_uses hv).bind fun _ _ => .pure trivial

end Gomi.Volumes
