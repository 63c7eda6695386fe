import Gomi.Store.System

/-!
# Clients of the stores

The operations of `Gomi.Op` as programs, and the store methods that are more than one
statement: `Register` inserts and reads back, `Acquire` looks the owner up, makes the
guarded update and, if that fails, looks the owner up again. Between any two of these
statements other clients may run.

`Gomi.StoreCall` is one call of a method of the bare-metal store, with any arguments;
`Gomi.StoreCall.prog` is the program that carries it out.
-/

namespace Gomi

/-! ### Single operations -/

namespace Client

/-- Bare-metal `Get`. -/
abbrev getHost (name : String) : Prog Res (Except Err Host) := .perform (Op.getHost name)

/-- `FindOwner`. -/
abbrev findOwner (owner : String) : Prog Res (Except Err Host) := .perform (Op.findOwner owner)

/-- The insert of `Register`. -/
abbrev insertHost (name pool publicKey targetDisk : String) : Prog Res (Except Err Unit) :=
  .perform (Op.insertHost name pool publicKey targetDisk)

/-- `UpdatePool`. -/
abbrev updatePool (name pool : String) (revision : ℤ) : Prog Res (Except Err Host) :=
  .perform (Op.updatePool name pool revision)

/-- `Unregister`. -/
abbrev unregister (name : String) (revision : ℤ) : Prog Res (Except Err Unit) :=
  .perform (Op.unregister name revision)

/-- The guarded update of `Acquire`. -/
abbrev claimFirst (pool owner : String) : Prog Res (Except Err Host) :=
  .perform (Op.claimFirst pool owner)

/-- `Transition`. -/
abbrev transition (h : Host) (next : HostState) (attempt : String) : Prog Res (Except Err Host) :=
  .perform (Op.transition h next attempt)

/-- `CompleteRelease`. -/
abbrev completeRelease (h : Host) : Prog Res (Except Err Host) := .perform (Op.completeRelease h)

/-- `CommitDeployment`. -/
abbrev commitDeployment (h : Host) (m : Machine) : Prog Res (Except Err Host) :=
  .perform (Op.commitDeployment h m)

/-- Machine `Get`. -/
abbrev getMachine (name : String) : Prog Res (Except Err Machine) := .perform (Op.getMachine name)

/-- Machine `List`. -/
abbrev listMachines : Prog Res (Except Err (List Machine)) := .perform Op.listMachines

/-- `Upsert`. -/
abbrev upsert (m : Machine) : Prog Res (Except Err Unit) := .perform (Op.upsert m)

/-- Machine `Insert`. -/
abbrev insertMachine (m : Machine) : Prog Res (Except Err Unit) := .perform (Op.insertMachine m)

/-- Machine `Delete`. -/
abbrev deleteMachine (name : String) : Prog Res (Except Err Unit) :=
  .perform (Op.deleteMachine name)

/-- `UpdatePowerStateStatus`. -/
abbrev updatePowerStateStatus (name : String) (state : PowerState) (stateAt updatedAt : Time) :
    Prog Res (Except Err Unit) :=
  .perform (Op.updatePowerStateStatus name state stateAt updatedAt)

/-- The update of `UpdateDynamicIPAddress`. -/
abbrev updateDynamicIP (name expectedMAC ip : String) (updatedAt : Time) :
    Prog Res (Except Err Bool) :=
  .perform (Op.updateDynamicIP name expectedMAC ip updatedAt)

/-- `UpdateProvisioningAttempt`. -/
abbrev updateProvisioningAttempt (before after : Machine) : Prog Res (Except Err Bool) :=
  .perform (Op.updateProvisioningAttempt before after)

/-- `UpdatePowerActionStatus`. -/
abbrev updatePowerActionStatus (name : String) (action : PowerAction) (lastError : Option String)
    (updatedAt : Time) : Prog Res (Except Err Unit) :=
  .perform (Op.updatePowerActionStatus name action lastError updatedAt)

/-- `time.Now().UTC()`. -/
abbrev now : Prog Res Time := .perform Op.now

/-- `rand.Read`. -/
abbrev rand (n : ℕ) : Prog Res (Except Err (List UInt8)) := .perform (Op.rand n)

/-- A question to another part of the system. -/
abbrev ask (q : Query) : Prog Res (Answer q) := .perform (Op.ask q)

end Client

/-! ### Methods of several statements -/

variable (lib : Lib)

/-- `Register`. -/
def register (name pool publicKey targetDisk : String) : Prog Res (Except Err Host) :=
  match validateRegistration name pool with
  | .error e => pure (.error e)
  | .ok _ =>
    if !isWholeDiskPath targetDisk then pure (.error .conflict)
    else match enrollmentFingerprint lib publicKey with
      | .error e => pure (.error e)
      | .ok _ => do
        match ← Client.insertHost name pool publicKey targetDisk with
        | .error e => pure (.error e)
        | .ok _ => match ← Client.getHost name with
          | .error e => pure (.error e)
          | .ok h =>
            if h.pool ≠ pool ∨ h.publicKey ≠ publicKey ∨ h.targetDisk ≠ targetDisk then
              pure (.error .conflict)
            else pure (.ok h)

/-- `Acquire`. -/
def acquire (pool owner : String) : Prog Res (Except Err Host) :=
  match validateAcquire pool owner with
  | .error e => pure (.error e)
  | .ok _ => do
    match ← Client.findOwner owner with
    | .ok h => pure (if h.pool ≠ pool then .error .conflict else .ok h)
    | .error .hostNotFound =>
      match ← Client.claimFirst pool owner with
      | .ok h => pure (.ok h)
      | .error e =>
        -- another request with this owner may have committed in between
        match ← Client.findOwner owner with
        | .ok existing => pure (if existing.pool ≠ pool then .error .conflict else .ok existing)
        | .error _ => pure (.error (if e = .hostNotFound then .capacity else e))
    | .error e => pure (.error e)

/-! ### Calls of the bare-metal store -/

/-- One call of a method of the bare-metal store that may write. -/
inductive StoreCall where
  | register (name pool publicKey targetDisk : String)
  | updatePool (name pool : String) (revision : ℤ)
  | acquire (pool owner : String)
  | transition (h : Host) (next : HostState) (attempt : String)
  | commitDeployment (h : Host) (m : Machine)
  | completeRelease (h : Host)
  | unregister (name : String) (revision : ℤ)

/-- The program of a call. It answers with the host the method returns, if it returns
one. -/
def StoreCall.prog : StoreCall → Prog Res (Except Err (Option Host))
  | .register name pool publicKey targetDisk => do
    return (← Gomi.register lib name pool publicKey targetDisk).map some
  | .updatePool name pool revision => do return (← Client.updatePool name pool revision).map some
  | .acquire pool owner => do return (← Gomi.acquire pool owner).map some
  | .transition h next attempt => do return (← Client.transition h next attempt).map some
  | .commitDeployment h m => do return (← Client.commitDeployment h m).map some
  | .completeRelease h => do return (← Client.completeRelease h).map some
  | .unregister name revision => do
    return (← Client.unregister name revision).map fun _ => (none : Option Host)

end Gomi
