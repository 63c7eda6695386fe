import Gomi.Api.Claims
import Gomi.Api.Guard
import Gomi.Api.Machines
import Gomi.App.Sync

/-!
# The requests of the system

`Gomi.Request` is what clients of the server, machines that are being installed and the
server's own loops ask it to do with machines and hosts; `Gomi.Request.prog` is the program
that does it. A round of a loop and the record of a power action are requests without an
answer. Two writers of machine records are not among them: the discovery of a machine that boots
(`HandlePXEBoot`), which has a system of its own in `Gomi.Discovery`, and the migration of power
policies when the server starts (`migratePowerPolicyRefToInline`), which ends before it serves.

A run of the system is a `Gomi.Run` of any pool of requests. A request that is never
scheduled again has crashed, so every statement about all runs covers crashes.
-/

namespace Gomi

/-- A request. -/
inductive Request where
  /-- `RegisterBareMetalHost`. -/
  | registerHost (name : String) (body : Option RegisterReq)
  /-- `UpdateBareMetalHostPool`. -/
  | updatePool (name : String) (body : Option (String × ℤ))
  /-- `UnregisterBareMetalHost`. -/
  | unregisterHost (name : String) (body : Option ℤ)
  /-- `AcquireBareMetalHost`. -/
  | acquire (body : Option (String × String))
  /-- `GetBareMetalClaim`. -/
  | getClaim (owner : String)
  /-- `DeployBareMetalClaim`. -/
  | deployClaim (actor owner : String) (body : Option DeployReq)
  /-- `DeleteBareMetalClaim`. -/
  | deleteClaim (actor owner : String)
  /-- `RetryBareMetalClaim`. -/
  | retryClaim (actor owner : String) (body : Option RetryReq)
  /-- `PXEDeployEvents`. -/
  | deployEvents (token attemptID source : String) (body : Option DeployEventReq)
  /-- `PXEInventory`. -/
  | inventory (token : String) (decodes : Bool)
  /-- `PXECurtinConfig`. -/
  | curtinConfig (token attemptID : String)
  /-- `PXEFile` and `PXEArtifact`. -/
  | file (token attemptID name message : String) (sent : Bool) (sizeBytes : ℤ)
  /-- `PXEBootScript`. -/
  | bootScript (mac : String)
  /-- `PXENocloudUserData`. -/
  | userData (mac : String)
  /-- `PXEInstallComplete`. -/
  | installComplete (token type : String) (body : Option InstallCompleteReq)
  /-- `PXEWindowsState`. -/
  | windowsState (token attemptID : String) (body : Option WindowsStateReq)
  /-- A round of `syncProvisioningStates`. -/
  | sync
  /-- A power action that is recorded in the background. -/
  | recordPower (name : String) (action : PowerAction) (lastError : Option String)
  /-- `POST /machines/*`. -/
  | machineMethod (wildcard actor : String) (body : Option RedeployReq)
  /-- `PATCH /machines/:name/settings`. -/
  | settings (name : String) (body : Option PowerConfig)
  /-- `PATCH /machines/:name/network`. -/
  | network (name : String) (body : Option NetworkReq)
  /-- `POST /machines`. -/
  | createMachine (machineID : String) (body : Option CreateMachineReq)
  /-- `DELETE /machines/:name`, by an administrator or another user. -/
  | deleteMachine (name : String) (admin : Bool)
  /-- A round of `pollPowerStates`. -/
  | pollPower
  /-- A round of `syncLeaseIPs`. -/
  | syncLeases

variable (lib : Lib) (s : Server)

/-- The program of a request. -/
def Request.prog : Request → Prog Res (Option Response)
  | .registerHost name body => do return some (← registerBareMetalHost lib s name body)
  | .updatePool name body => do return some (← updateBareMetalHostPool s name body)
  | .unregisterHost name body => do return some (← unregisterBareMetalHost s name body)
  | .acquire body => do return some (← acquireBareMetalHost s body)
  | .getClaim owner => do return some (← getBareMetalClaim s owner)
  | .deployClaim actor owner body => do return some (← deployBareMetalClaim lib s actor owner body)
  | .deleteClaim actor owner => do return some (← deleteBareMetalClaim lib s actor owner)
  | .retryClaim actor owner body => do return some (← retryBareMetalClaim s actor owner body)
  | .deployEvents token attemptID source body => do
    return some (← pxeDeployEvents lib s token attemptID source body)
  | .inventory token decodes => do return some (← pxeInventory s token decodes)
  | .curtinConfig token attemptID => do return some (← pxeCurtinConfig lib s token attemptID)
  | .file token attemptID name message sent sizeBytes => do
    return some (← serveProvisionedPXEFile token attemptID name message sent sizeBytes)
  | .bootScript mac => do return some (← pxeBootScript mac)
  | .userData mac => do return some (← pxeNocloudUserData lib s mac)
  | .installComplete token type body => do return some (← pxeInstallComplete lib s token type body)
  | .windowsState token attemptID body => do
    return some (← pxeWindowsState lib s token attemptID body)
  | .sync => do
    syncProvisioningStates s
    return none
  | .recordPower name action lastError => do
    recordMachinePowerAction name action lastError
    return none
  | .machineMethod wildcard actor body => do
    return some (← postMachineCustomMethod lib s wildcard actor body)
  | .settings name body => do
    return some (← protectAllocatedMachine s name "" (updateMachineSettings name body))
  | .network name body => do
    return some (← protectAllocatedMachine s name "" (updateMachineNetwork name body))
  | .createMachine machineID body => do return some (← Api.createMachine lib s machineID body)
  | .deleteMachine name admin => do
    return some (← protectAllocatedMachine s name "" (Api.deleteMachine s name admin))
  | .pollPower => do
    pollPowerStates
    return none
  | .syncLeases => do
    syncLeaseIPs
    return none

/-- **An event that reports an applied image** for the attempt `attempt` with the completion token
`token`: a deploy event `image_applied`, or the stage of that name of a Windows installer. -/
def Request.Reports (attempt token : String) : Request → Prop
  | .deployEvents token' attemptID _ (some req) =>
    Go.trimSpace token' = Go.trimSpace token ∧
      req.carried attemptID = Go.trimSpace attempt ∧ req.eventType = deployEventImageApplied
  | .windowsState token' attemptID (some req) =>
    Go.trimSpace token' = Go.trimSpace token ∧ attemptID = attempt ∧ req.stage = some .imageApplied
  | _ => False

end Gomi
