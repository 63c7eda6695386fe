import Gomi.Interleaving.Run
import Gomi.Store.Statements

/-!
# The system: its state, its operations and what they do

The state of the server, as far as it survives a request, is a `Gomi.World`: the
database, and the random buffers drawn so far. An operation (`Gomi.Op`) is one
interaction of a handler with its surroundings –

* a statement of one of the two stores (`Gomi.Store.Statements`);
* the clock and the random generator;
* a question to another part of the system (`Gomi.Query`), which the model answers
  in every possible way.

`Gomi.step` is their semantics. Two conventions make the model cover failures:

* every store operation may also fail, with an error that is none of those the code
  tells apart, and then it has no effect;
* a crash after any operation is a client that is never scheduled again, which
  `Gomi.Run` allows at every point.

The random generator never returns a buffer that it returned before. This is the one
idealisation: attempt ids and completion tokens of 16 and 32 random bytes do not
collide.
-/

namespace Gomi

/-- The state of the system. -/
structure World where
  /-- The database. -/
  db : Database
  /-- The random buffers drawn so far. -/
  drawn : List (List UInt8) := []

/-! ### Operations -/

/-- Questions to the parts of the system that are not modelled. -/
inductive Query where
  /-- `osimages.Get`. -/
  | osImage (ref : String)
  /-- `cloudInits.Get`: the delivery mode of a template. -/
  | cloudInitTemplate (ref : String)
  /-- `subnets.Get`. -/
  | subnet (ref : String)
  /-- `hypervisors.Get`. -/
  | hypervisor (name : String)
  /-- `hypervisors.CreateToken`: a registration token and when it expires. -/
  | createHypervisorToken
  /-- `osimage.ValidateOSImage`. -/
  | validateOSImage (img : OSImage)
  /-- `powerExecutor.ConfigureBootOrder`. -/
  | configureBootOrder (m : Machine)
  /-- `powerExecutor.Execute`. -/
  | executePower (m : Machine) (action : PowerAction)
  /-- The SSH probe of `ensureMachineSSHReachable`. -/
  | sshProbe (ip : String)
  /-- `hwinfo.Upsert`, for an attempt. -/
  | saveHardwareInfo (machine attemptID : String)
  /-- `hwinfo.Get`: the attempt that reported the hardware. -/
  | hardwareInfo (machine : String)
  /-- `buildCurtinInstallConfig`. -/
  | curtinInstallConfig (m : Machine)
  /-- `buildDiskImageDeployResponse`. -/
  | diskImageDeploy (m : Machine) (img : OSImage)
  /-- `findVirtualMachineByProvisionToken`: whether there is one. -/
  | virtualMachineOfToken (token : String)
  /-- Whether `findVirtualMachineByProvisionToken` finds a Windows machine. -/
  | windowsVirtualMachineOfToken (token : String)
  /-- `findVirtualMachineByMAC`: whether there is one that is being provisioned. -/
  | virtualMachineOfMAC (mac : String)
  /-- The cloud-init document that is rendered for a machine. -/
  | userData (m : Machine)
  /-- `sshkeyStore.List`, rendered into the cloud-init text of a machine. -/
  | linuxCloudInit (m : Machine)
  /-- `hypervisors.MarkTokenUsed`. -/
  | markTokenUsed (token usedBy : String)
  /-- `hypervisors.ListByMachineRef`: the names of the hypervisors of a machine. -/
  | hypervisorsOfMachine (machine : String)
  /-- `cascadeDeleteMachineRecords`. -/
  | cascadeHypervisors (machine : String) (linked : List String)
  /-- `executor.CheckStatus`. -/
  | checkPower (m : Machine)
  /-- `leaseStore.List`: MAC addresses and their IP addresses. -/
  | leases
  deriving DecidableEq

/-- The answers to a question. -/
def Answer : Query → Type
  | .osImage _ => Except Err OSImage
  | .cloudInitTemplate _ => Except Err String
  | .subnet _ => Except Err Unit
  | .hypervisor _ => Except Err Unit
  | .createHypervisorToken => Except Err (String × Time)
  | .validateOSImage _ => Except Err Unit
  | .configureBootOrder _ => Except Err Unit
  | .executePower _ _ => Except Err Unit
  | .sshProbe _ => Except Err Unit
  | .saveHardwareInfo _ _ => Except Err Unit
  | .hardwareInfo _ => Except Err String
  | .curtinInstallConfig _ => Except Err String
  | .diskImageDeploy _ _ => Except Err Unit
  | .virtualMachineOfToken _ => Except Err Bool
  | .windowsVirtualMachineOfToken _ => Except Err Bool
  | .virtualMachineOfMAC _ => Except Err Bool
  | .userData _ => Except Err String
  | .linuxCloudInit _ => String
  | .markTokenUsed _ _ => Except Err Unit
  | .hypervisorsOfMachine _ => Except Err (List String)
  | .cascadeHypervisors _ _ => Except Err Unit
  | .checkPower _ => Except Err PowerState
  | .leases => Except Err (List (String × String))

/-- The operations of a handler. -/
inductive Op where
  /-- Bare-metal `Get`. -/
  | getHost (name : String)
  /-- `FindOwner`. -/
  | findOwner (owner : String)
  /-- The insert of `Register`. -/
  | insertHost (name pool publicKey targetDisk : String)
  /-- `UpdatePool`. -/
  | updatePool (name pool : String) (revision : ℤ)
  /-- `Unregister`. -/
  | unregister (name : String) (revision : ℤ)
  /-- The guarded update of `Acquire`. -/
  | claimFirst (pool owner : String)
  /-- `Transition`. -/
  | transition (h : Host) (next : HostState) (attempt : String)
  /-- `CompleteRelease`. -/
  | completeRelease (h : Host)
  /-- `CommitDeployment`. -/
  | commitDeployment (h : Host) (m : Machine)
  /-- `Upsert`. -/
  | upsert (m : Machine)
  /-- `Insert`. -/
  | insertMachine (m : Machine)
  /-- Machine `Get`. -/
  | getMachine (name : String)
  /-- Machine `List`. -/
  | listMachines
  /-- Machine `Delete`. -/
  | deleteMachine (name : String)
  /-- `UpdatePowerActionStatus`. -/
  | updatePowerActionStatus (name : String) (action : PowerAction) (lastError : Option String)
      (updatedAt : Time)
  /-- `UpdatePowerStateStatus`. -/
  | updatePowerStateStatus (name : String) (state : PowerState) (stateAt updatedAt : Time)
  /-- The update of `UpdateDynamicIPAddress`. -/
  | updateDynamicIP (name expectedMAC ip : String) (updatedAt : Time)
  /-- `UpdateProvisioningAttempt`. -/
  | updateProvisioningAttempt (before after : Machine)
  /-- `time.Now`. -/
  | now
  /-- `rand.Read` into a buffer of the given length. -/
  | rand (n : ℕ)
  /-- A question to another part of the system. -/
  | ask (q : Query)
  deriving DecidableEq

/-- The replies to an operation. -/
def Res : Op → Type
  | .getHost _ | .findOwner _ | .updatePool .. | .claimFirst .. | .transition .. => Except Err Host
  | .completeRelease _ | .commitDeployment .. => Except Err Host
  | .insertHost .. | .unregister .. | .upsert _ | .insertMachine _ => Except Err Unit
  | .deleteMachine _ | .updatePowerActionStatus .. | .updatePowerStateStatus .. => Except Err Unit
  | .getMachine _ => Except Err Machine
  | .listMachines => Except Err (List Machine)
  | .updateDynamicIP .. | .updateProvisioningAttempt .. => Except Err Bool
  | .now => Time
  | .rand _ => Except Err (List UInt8)
  | .ask q => Answer q

instance : (q : Query) → DecidableEq (Answer q)
  | .osImage _ => inferInstanceAs (DecidableEq (Except Err OSImage))
  | .subnet _ | .hypervisor _ | .validateOSImage _ | .configureBootOrder _ | .executePower _ _
  | .sshProbe _ | .saveHardwareInfo _ _ | .diskImageDeploy _ _ | .markTokenUsed _ _
  | .cascadeHypervisors _ _ => inferInstanceAs (DecidableEq (Except Err Unit))
  | .cloudInitTemplate _ | .hardwareInfo _ | .curtinInstallConfig _ | .userData _ =>
    inferInstanceAs (DecidableEq (Except Err String))
  | .createHypervisorToken => inferInstanceAs (DecidableEq (Except Err (String × Time)))
  | .virtualMachineOfToken _ | .windowsVirtualMachineOfToken _ | .virtualMachineOfMAC _ =>
    inferInstanceAs (DecidableEq (Except Err Bool))
  | .linuxCloudInit _ => inferInstanceAs (DecidableEq String)
  | .hypervisorsOfMachine _ => inferInstanceAs (DecidableEq (Except Err (List String)))
  | .checkPower _ => inferInstanceAs (DecidableEq (Except Err PowerState))
  | .leases => inferInstanceAs (DecidableEq (Except Err (List (String × String))))

instance : (o : Op) → DecidableEq (Res o)
  | .getHost _ | .findOwner _ | .updatePool .. | .claimFirst .. | .transition ..
  | .completeRelease _ | .commitDeployment .. => inferInstanceAs (DecidableEq (Except Err Host))
  | .insertHost .. | .unregister .. | .upsert _ | .insertMachine _ | .deleteMachine _
  | .updatePowerActionStatus .. | .updatePowerStateStatus .. =>
    inferInstanceAs (DecidableEq (Except Err Unit))
  | .getMachine _ => inferInstanceAs (DecidableEq (Except Err Machine))
  | .listMachines => inferInstanceAs (DecidableEq (Except Err (List Machine)))
  | .updateDynamicIP .. | .updateProvisioningAttempt .. =>
    inferInstanceAs (DecidableEq (Except Err Bool))
  | .now => inferInstanceAs (DecidableEq Time)
  | .rand _ => inferInstanceAs (DecidableEq (Except Err (List UInt8)))
  | .ask q => inferInstanceAs (DecidableEq (Answer q))

/-! ### Semantics -/

/-- The step of a statement: its answer, or a failure without an effect. -/
def World.execute {α : Type} [DecidableEq (Except Err α)] (w : World) (stmt : Statement α)
    (reply : Except Err α) : Option World :=
  if reply = (stmt w.db).1 then some { w with db := (stmt w.db).2 }
  else match reply with
    | .error (.msg _) => some w
    | _ => none

/-- The step of the random generator. -/
def World.draw (w : World) (n : ℕ) : Except Err (List UInt8) → Option World
  | .ok bytes =>
    if bytes.length = n ∧ bytes ∉ w.drawn then some { w with drawn := bytes :: w.drawn } else none
  | .error (.msg _) => some w
  | .error _ => none

variable (lib : Lib)

/-- **The semantics of the operations**: the state after an operation was replied
to, if that reply is possible. -/
def step : (o : Op) → World → Res o → Option World
  | .getHost name, w, r => w.execute (getHost name) r
  | .findOwner owner, w, r => w.execute (findOwner owner) r
  | .insertHost name pool publicKey targetDisk, w, r =>
    w.execute (insertHost name pool publicKey targetDisk) r
  | .updatePool name pool revision, w, r => w.execute (updatePool name pool revision) r
  | .unregister name revision, w, r => w.execute (unregister name revision) r
  | .claimFirst pool owner, w, r => w.execute (claimFirst pool owner) r
  | .transition h next attempt, w, r => w.execute (transition h next attempt) r
  | .completeRelease h, w, r => w.execute (completeRelease h) r
  | .commitDeployment h m, w, r => w.execute (commitDeployment lib h m) r
  | .upsert m, w, r => w.execute (upsert lib m) r
  | .insertMachine m, w, r => w.execute (insertMachine lib m) r
  | .getMachine name, w, r => w.execute (getMachine name) r
  | .listMachines, w, r => w.execute listMachines r
  | .deleteMachine name, w, r => w.execute (deleteMachine name) r
  | .updatePowerActionStatus name action lastError updatedAt, w, r =>
    w.execute (updatePowerActionStatus name action lastError updatedAt) r
  | .updatePowerStateStatus name state stateAt updatedAt, w, r =>
    w.execute (updatePowerStateStatus name state stateAt updatedAt) r
  | .updateDynamicIP name expectedMAC ip updatedAt, w, r =>
    w.execute (updateDynamicIP name expectedMAC ip updatedAt) r
  | .updateProvisioningAttempt before after, w, r =>
    w.execute (updateProvisioningAttempt lib before after) r
  | .now, w, _ => some w
  | .rand n, w, r => w.draw n r
  | .ask _, w, _ => some w

/-! ### An undisturbed system -/

/-- The replies of a system in which no statement fails, it is always the epoch, random
buffers count up, and questions are answered by `reply`. -/
def World.answer (reply : (q : Query) → Answer q) : (o : Op) → World → Res o
  | .getHost name, w => (getHost name w.db).1
  | .findOwner owner, w => (findOwner owner w.db).1
  | .insertHost name pool publicKey targetDisk, w =>
    (insertHost name pool publicKey targetDisk w.db).1
  | .updatePool name pool revision, w => (updatePool name pool revision w.db).1
  | .unregister name revision, w => (unregister name revision w.db).1
  | .claimFirst pool owner, w => (claimFirst pool owner w.db).1
  | .transition h next attempt, w => (transition h next attempt w.db).1
  | .completeRelease h, w => (completeRelease h w.db).1
  | .commitDeployment h m, w => (commitDeployment lib h m w.db).1
  | .upsert m, w => (upsert lib m w.db).1
  | .insertMachine m, w => (insertMachine lib m w.db).1
  | .getMachine name, w => (getMachine name w.db).1
  | .listMachines, w => (listMachines w.db).1
  | .deleteMachine name, w => (deleteMachine name w.db).1
  | .updatePowerActionStatus name action lastError updatedAt, w =>
    (updatePowerActionStatus name action lastError updatedAt w.db).1
  | .updatePowerStateStatus name state stateAt updatedAt, w =>
    (updatePowerStateStatus name state stateAt updatedAt w.db).1
  | .updateDynamicIP name expectedMAC ip updatedAt, w =>
    (updateDynamicIP name expectedMAC ip updatedAt w.db).1
  | .updateProvisioningAttempt before after, w =>
    (updateProvisioningAttempt lib before after w.db).1
  | .now, _ => (0 : Time)
  | .rand n, w => .ok (List.replicate n (UInt8.ofNat w.drawn.length))
  | .ask q, _ => reply q

/-- Answers to questions: nothing is found, everything else succeeds. -/
def Query.silent : (q : Query) → Answer q
  | .osImage _ => .error .notFound
  | .cloudInitTemplate _ => .error .notFound
  | .subnet _ => .error .notFound
  | .hypervisor _ => .error .notFound
  | .createHypervisorToken => .error (.msg "no tokens")
  | .validateOSImage _ => .ok ()
  | .configureBootOrder _ => .ok ()
  | .executePower _ _ => .ok ()
  | .sshProbe _ => .ok ()
  | .saveHardwareInfo _ _ => .ok ()
  | .hardwareInfo _ => .error .notFound
  | .curtinInstallConfig _ => .error (.msg "no image")
  | .diskImageDeploy _ _ => .ok ()
  | .virtualMachineOfToken _ => .ok false
  | .windowsVirtualMachineOfToken _ => .ok false
  | .virtualMachineOfMAC _ => .ok false
  | .userData _ => .ok ""
  | .linuxCloudInit _ => ""
  | .markTokenUsed _ _ => .ok ()
  | .hypervisorsOfMachine _ => .ok []
  | .cascadeHypervisors _ _ => .ok ()
  | .checkPower _ => .ok .running
  | .leases => .ok []

end Gomi
