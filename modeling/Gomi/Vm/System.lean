import Gomi.Interleaving.Run
import Gomi.Vm.Statements

/-!
# The system of virtual machines: its state, its operations and what they do

The counterpart of `Gomi.Store.System` for the tables of virtual machines and
hypervisors. The state is a `Gomi.Vm.World`, an operation (`Gomi.Vm.Op`) a statement of one
of the two stores, the clock, the random generator or a question (`Gomi.Vm.Query`) to
another part of the system; the largest of these parts is libvirt, on the host of a
hypervisor. The conventions are the same: a statement may fail without an effect, a client
that is not scheduled again has crashed, and no random buffer is drawn twice.
-/

namespace Gomi.Vm

/-- The state of the system. -/
structure World where
  /-- The database. -/
  db : Database := {}
  /-- The random buffers drawn so far. -/
  drawn : List (List UInt8) := []

/-! ### Libvirt -/

/-- An error of libvirt: its text, and the two codes that the code tells apart. -/
structure LibvirtErr where
  text : String := ""
  /-- `IsDomainNotFoundError`. -/
  noDomain : Bool := false
  /-- `IsVolumeNotFoundError`. -/
  noVolume : Bool := false
  deriving DecidableEq

/-- `libvirt.DomainState`. -/
inductive DomainState where
  | running
  | shutoff
  | paused
  | crashed
  | unknown
  deriving DecidableEq

/-- `libvirt.InterfaceInfo`. -/
structure InterfaceInfo where
  name : String := ""
  mac : String := ""
  ipAddresses : List String := []
  deriving DecidableEq

/-- What the server has libvirt do. A domain is defined from the record, the boot device and the
path of the seed. -/
inductive LibvirtOp where
  /-- `libvirt.NewExecutor`. -/
  | connect
  | createVolume (name : String) (sizeGB : ℤ)
  | createOverlayVolume (name : String) (sizeGB : ℤ) (backingPath backingFormat : String)
  | deleteVolume (name : String)
  | defineDomain (v : VirtualMachine) (domain bootDev pxeBaseURL seedPath : String)
  | startDomain (domain : String)
  | setDomainBootDevice (domain device : String)
  | destroyDomain (domain : String)
  | undefineDomain (domain : String)
  | migrateDomain (domain destURI : String)
  deriving DecidableEq

/-! ### Operations -/

/-- Questions to the parts of the system that are not modelled. -/
inductive Query where
  /-- `osimages.Get`. -/
  | osImage (ref : String)
  /-- `rand.Int64N`. -/
  | randomBelow (n : ℤ)
  /-- `resolvePXEBaseURL`. -/
  | pxeBaseURL (hv : Hypervisor) (type : InstallConfigType)
  /-- `prepareCloudImageBacking`: the path and the format of the backing image. -/
  | cloudImageBacking (hv : Hypervisor) (osImageRef : String)
  /-- `prepareNoCloudSeed`: the path of the seed. -/
  | noCloudSeed (hv : Hypervisor) (v : VirtualMachine) (pxeBaseURL : String)
  /-- An operation of libvirt on the host of a hypervisor. -/
  | libvirt (hv : Hypervisor) (op : LibvirtOp)
  /-- `DomainInfo`: the state of a domain. -/
  | domainInfo (hv : Hypervisor) (domain : String)
  /-- `DomainInterfaces`. -/
  | domainInterfaces (hv : Hypervisor) (domain : String)
  /-- `leaseIPsByMAC`: MAC addresses, normalised, and their IP addresses. -/
  | leases
  /-- Whether a host name resolves. -/
  | lookupHost (host : String)
  /-- The SSH probe of `ensureVirtualMachineSSHReachable`. -/
  | sshProbe (ip : String)
  deriving DecidableEq

/-- The answers to a question. -/
def Answer : Query → Type
  | .osImage _ => Except Err OSImage
  | .randomBelow _ => ℤ
  | .pxeBaseURL _ _ => Except Err String
  | .cloudImageBacking _ _ => Except Err (String × String)
  | .noCloudSeed .. => Except Err String
  | .libvirt _ _ => Except LibvirtErr Unit
  | .domainInfo _ _ => Except LibvirtErr DomainState
  | .domainInterfaces _ _ => Except LibvirtErr (List InterfaceInfo)
  | .leases => List (String × String)
  | .lookupHost _ => Bool
  | .sshProbe _ => Except Err Unit

/-- The operations of a handler. -/
inductive Op where
  /-- `VMStore.Upsert`. -/
  | upsert (v : VirtualMachine)
  /-- `VMStore.Insert`. -/
  | insert (v : VirtualMachine)
  /-- `VMStore.UpdateExisting`. -/
  | updateExisting (v : VirtualMachine)
  /-- `VMStore.UpdateProvisioningAttempt`. -/
  | updateProvisioningAttempt (before after : VirtualMachine)
  /-- `VMStore.Get`. -/
  | get (name : String)
  /-- `VMStore.List`. -/
  | list
  /-- `VMStore.ListByHypervisor`. -/
  | listByHypervisor (hypervisor : String)
  /-- `VMStore.DeleteCreatedToken`. -/
  | deleteCreatedToken (name completionToken : String)
  /-- `VMStore.DeleteOwned`. -/
  | deleteOwned (name hypervisorRef : String)
  /-- `VMStore.Delete`. -/
  | delete (name : String)
  /-- `HypervisorStore.Upsert`. -/
  | upsertHypervisor (h : Hypervisor)
  /-- `HypervisorStore.Get`. -/
  | getHypervisor (name : String)
  /-- `HypervisorStore.List`. -/
  | listHypervisors
  /-- `HypervisorStore.Delete`. -/
  | deleteHypervisor (name : String)
  /-- `time.Now`. -/
  | now
  /-- `rand.Read` into a buffer of the given length. -/
  | rand (n : ℕ)
  /-- A question to another part of the system. -/
  | ask (q : Query)
  deriving DecidableEq

/-- The replies to an operation. -/
def Res : Op → Type
  | .upsert _ | .insert _ | .delete _ | .upsertHypervisor _ | .deleteHypervisor _ => Except Err Unit
  | .updateExisting _ | .updateProvisioningAttempt .. => Except Err Bool
  | .deleteCreatedToken .. | .deleteOwned .. => Except Err Bool
  | .get _ => Except Err VirtualMachine
  | .list | .listByHypervisor _ => Except Err (List VirtualMachine)
  | .getHypervisor _ => Except Err Hypervisor
  | .listHypervisors => Except Err (List Hypervisor)
  | .now => Time
  | .rand _ => Except Err (List UInt8)
  | .ask q => Answer q

/-! ### Semantics -/

/-- The step of a statement: its answer, or a failure without an effect. -/
def World.execute {α : Type} [DecidableEq (Except Err α)] (w : World) (stmt : Statement α)
    (reply : Except Err α) : Option World :=
  if reply = (stmt w.db).1 then some { w with db := (stmt w.db).2 }
  else match reply with
    | .error (.msg _) => some w
    | _ => none

local instance lawfulBEq_buffer : LawfulBEq (List UInt8) := inferInstance

/-- The step of the random generator. -/
def World.draw (w : World) (n : ℕ) : Except Err (List UInt8) → Option World
  | .ok bytes =>
    if bytes.length = n ∧ bytes ∉ w.drawn then some { w with drawn := bytes :: w.drawn } else none
  | .error (.msg _) => some w
  | .error _ => none

/-- **The semantics of the operations**: the state after an operation was replied
to, if that reply is possible. -/
def step : (o : Op) → World → Res o → Option World
  | .upsert v, w, r => w.execute (upsert v) r
  | .insert v, w, r => w.execute (insert v) r
  | .updateExisting v, w, r => w.execute (updateExisting v) r
  | .updateProvisioningAttempt before after, w, r =>
    w.execute (updateProvisioningAttempt before after) r
  | .get name, w, r => w.execute (get name) r
  | .list, w, r => w.execute list r
  | .listByHypervisor hypervisor, w, r => w.execute (listByHypervisor hypervisor) r
  | .deleteCreatedToken name token, w, r => w.execute (deleteCreatedToken name token) r
  | .deleteOwned name ref, w, r => w.execute (deleteOwned name ref) r
  | .delete name, w, r => w.execute (delete name) r
  | .upsertHypervisor h, w, r => w.execute (upsertHypervisor h) r
  | .getHypervisor name, w, r => w.execute (getHypervisor name) r
  | .listHypervisors, w, r => w.execute listHypervisors r
  | .deleteHypervisor name, w, r => w.execute (deleteHypervisor name) r
  | .now, w, _ => some w
  | .rand n, w, r => w.draw n r
  | .ask _, w, _ => some w

/-! ### An undisturbed system -/

/-- Answers to questions: domains run, and the rest is as if there was nothing. -/
def Query.domainRuns : (q : Query) → Answer q
  | .osImage _ => .error .notFound
  | .randomBelow _ => (0 : ℤ)
  | .pxeBaseURL _ _ => .ok ""
  | .cloudImageBacking _ _ => .error .notFound
  | .noCloudSeed .. => .error .notFound
  | .libvirt _ _ => .ok ()
  | .domainInfo _ _ => .ok .running
  | .domainInterfaces _ _ => .ok []
  | .leases => []
  | .lookupHost _ => false
  | .sshProbe _ => .ok ()

/-- The replies of a system in which no statement fails, it is always the epoch, random
buffers count up, and questions are answered by `reply`. -/
def World.answer (reply : (q : Query) → Answer q) : (o : Op) → World → Res o
  | .upsert v, w => (upsert v w.db).1
  | .insert v, w => (insert v w.db).1
  | .updateExisting v, w => (updateExisting v w.db).1
  | .updateProvisioningAttempt before after, w => (updateProvisioningAttempt before after w.db).1
  | .get name, w => (get name w.db).1
  | .list, w => (list w.db).1
  | .listByHypervisor hypervisor, w => (listByHypervisor hypervisor w.db).1
  | .deleteCreatedToken name token, w => (deleteCreatedToken name token w.db).1
  | .deleteOwned name ref, w => (deleteOwned name ref w.db).1
  | .delete name, w => (delete name w.db).1
  | .upsertHypervisor h, w => (upsertHypervisor h w.db).1
  | .getHypervisor name, w => (getHypervisor name w.db).1
  | .listHypervisors, w => (listHypervisors w.db).1
  | .deleteHypervisor name, w => (deleteHypervisor name w.db).1
  | .now, _ => (0 : Time)
  | .rand n, w => .ok (List.replicate n (UInt8.ofNat w.drawn.length))
  | .ask q, _ => reply q

end Gomi.Vm
