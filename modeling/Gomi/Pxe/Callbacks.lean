import Gomi.Pxe.Progress

/-!
# The callbacks of an installer

`internal/infra/pxehttp`: the requests that a machine makes while it is being installed,
as programs over the operations of the system. They share one shape. The machine is
looked up in a list by its completion token; a callback then reads the record again,
changes it and writes the whole record back (`Gomi.updateProvisionProgress`,
`Gomi.updateProvisionEvent`), or it changes the record it found in the list and writes
that one (`Gomi.pxeInstallComplete`). Only the Windows callback writes by
compare-and-swap.

Virtual machines have stores of their own. Where a request may be about one, the lookup
is a question of `Gomi.Query`, and a request that turns out to be about a virtual
machine ends there. Scripts, documents and files that are served are left out; what their requests
write is not.
-/

namespace Gomi

open Go

variable (lib : Lib) (s : Server)

/-! ### Looking a machine up -/

/-- `PXEInstallType() == "windows"`. -/
def Machine.isWindows (m : Machine) : Bool := isWindowsFamily m.osPreset.family

/-- Whether the completion token of a machine is `token`. -/
def Machine.hasToken (m : Machine) (token : String) : Bool :=
  m.provision.any fun p => trimSpace p.completionToken == trimSpace token

/-- `findMachineByProvisionToken`. -/
def findMachineByProvisionToken (token : String) : Prog Res (Except Err (Option Machine)) := do
  if trimSpace token = "" then return .ok none else
  match ← Client.listMachines with
  | .error e => return .error e
  | .ok items => return .ok (items.find? (·.hasToken token))

/-- `requireProvisioningMachine`: the machine, with its provisioning record. -/
def requireProvisioningMachine (token : String) :
    Prog Res (Except Err (Machine × ProvisionProgress)) := do
  match ← findMachineByProvisionToken token with
  | .error e => return .error e
  | .ok none => return .error .notFound
  | .ok (some target) =>
  match target.provision with
  | none => return .error .notFound
  | some p =>
  if !p.active ∨ target.isWindows then return .error .notFound else return .ok (target, p)

/-- The response to a failed lookup. -/
def lookupFailed (e : Err) : Response := .failed (if e = .notFound then 404 else 500) e.text

/-- `validateAttemptParam`. -/
def validateAttemptParam (p : ProvisionProgress) (attemptID : String) : Except Err Unit :=
  if trimSpace p.attemptID = "" then .error (.msg "provisioning attempt id is required")
  else if trimSpace attemptID = "" then .error (.msg "attempt_id is required")
  else if trimSpace attemptID ≠ trimSpace p.attemptID then
    .error (.msg "attempt_id does not match current provisioning attempt")
  else .ok ()

/-- `validateAttemptInventory`, with the attempt that reported the hardware. -/
def validateAttemptInventory (p : ProvisionProgress) (info : Option String) : Except Err Unit :=
  if trimSpace p.attemptID = "" then
    .error (.msg "hardware inventory for current attempt is required")
  else match info with
    | none => .error (.msg "hardware inventory for current attempt is required")
    | some attemptID =>
      if trimSpace attemptID ≠ trimSpace p.attemptID then
        .error (.msg "hardware inventory is stale or from a different attempt")
      else .ok ()

/-! ### Writing a record back -/

/-- `updateProvisionProgress`. -/
def updateProvisionProgress (name : String) (fn : Machine → Prog Res Machine) :
    Prog Res (Except Err Unit) := do
  match ← Client.getMachine name with
  | .error e => return .error e
  | .ok m =>
  let m ← fn m
  let now ← Client.now
  Client.upsert { m with updatedAt := now }

/-- Whether an event is accepted for a record: the attempt is active, or the event is the
restoration evidence of a sealed attempt. -/
def acceptsEvent (m : Machine) (p : ProvisionProgress) (eventType : String) : Bool :=
  p.active ∨ (eventType = deployEventImageApplied ∧ m.sealedBootstrap.any (·.owner ≠ ""))

/-- `updateProvisionEvent`. -/
def updateProvisionEvent (expected : Machine) (expectedProgress : ProvisionProgress)
    (eventType : String) (fn : Machine → ProvisionProgress → Prog Res Machine) :
    Prog Res (Except Err Unit) := do
  match ← Client.getMachine expected.name with
  | .error e => return .error e
  | .ok fresh =>
  match fresh.provision with
  | none => return .error (.msg "provisioning attempt changed")
  | some p =>
  if p.attemptID ≠ expectedProgress.attemptID ∨
      p.completionToken ≠ expectedProgress.completionToken then
    return .error (.msg "provisioning attempt changed")
  else
  if !acceptsEvent fresh p eventType then
    return .error (.msg "provisioning attempt is inactive")
  else
  let m ← fn fresh p
  let now ← Client.now
  Client.upsert { m with updatedAt := now }

/-- `configureBIOSBootOrder`: the message, with what became of the boot order. -/
def configureBIOSBootOrder (m : Machine) (baseMessage : String) : Prog Res String := do
  let baseMessage := if trimSpace baseMessage = "" then "provisioning state updated"
    else baseMessage
  if m.firmware = .bios ∧ s.powerExecutor ∧ m.power.type = .webhook ∧
      m.power.webhook.any fun c => trimSpace c.bootOrderURL ≠ "" then
    match ← Client.ask (.configureBootOrder m) with
    | .error _ => return baseMessage ++ "; BIOS boot order update failed"
    | .ok _ => return baseMessage ++ "; BIOS boot order updated"
  else return baseMessage

/-! ### Deploy events -/

/-- What a deploy event does to the record. -/
def applyDeployEvent (req : DeployEventReq) (eventType : String) (now : Time) (m : Machine)
    (p : ProvisionProgress) : Prog Res Machine := do
  let p := p.signalled lib req eventType now
  if eventType = "failed" then return m.failedBy p req now else
  if eventType = deployEventImageApplied then
    let p := p.appliedAt lib now
    let message ← configureBIOSBootOrder s { m with provision := some p }
      (eventMessage eventType (firstNonEmpty [req.message, req.description]))
    return { m with provision := some { p with message } }
  else return { m with provision := some p }

/-- `PXEDeployEvents`. The parameters of its query are texts; a body that does not decode is
`none`. -/
def pxeDeployEvents (token attemptID source : String) (body : Option DeployEventReq) :
    Prog Res Response := do
  if trimSpace token = "" then return .failed 400 "token is required" else
  match ← findMachineByProvisionToken (trimSpace token) with
  | .error e => return lookupFailed e
  | .ok none => return lookupFailed .notFound
  | .ok (some target) =>
  match target.provision with
  | none => return lookupFailed .notFound
  | some p =>
  if target.isWindows then return .failed 409 "Windows requires the Windows state callback" else
  match body with
  | none => return .failed 400 "invalid body"
  | some req =>
  let req := req.sourced source
  if req.eventType = "" then return .failed 400 "type is required" else
  if req.attemptID ≠ "" ∧ trimSpace attemptID ≠ "" ∧
      trimSpace req.attemptID ≠ trimSpace attemptID then
    return .failed 409 "attempt_id query and body mismatch"
  else
  match validateAttemptParam p (req.carried attemptID) with
  | .error e => return .failed 409 e.text
  | .ok _ =>
  if !acceptsEvent target p req.eventType then
    return .failed 409 "provisioning attempt is inactive"
  else
  let now ← Client.now
  match ← updateProvisionEvent target p req.eventType
    (applyDeployEvent lib s req req.eventType now) with
  | .error e => return .failed 500 e.text
  | .ok _ => return { status := 200, body := .status "ok" }

/-! ### Inventory -/

/-- The text of an image format. -/
def ImageFormat.text : ImageFormat → String
  | .unset => ""
  | .wim => "wim"
  | .qcow2 => "qcow2"
  | .iso => "iso"
  | .squashfs => "squashfs"
  | .other text => text

/-- The response to a stored inventory: how the machine is to be deployed. -/
def respondWithDeployment (target : Machine) (attemptID : String) : Prog Res Response := do
  let imageRef := trimSpace target.osPreset.imageRef
  if !s.osImages ∨ imageRef = "" then
    return { status := 200, body := .deployment attemptID "curtin" }
  else
  match ← Client.ask (.osImage imageRef) with
  | .error e =>
    return .failed 404 ("os image " ++ quote target.osPreset.imageRef ++ " not found: " ++ e.text)
  | .ok img =>
  if !supportsDeploymentTarget img .baremetal then
    return .failed 409 ("os image " ++ quote target.osPreset.imageRef ++
      " does not support bare-metal deployment")
  else
  if effectiveImageFormat img = .squashfs then
    return { status := 200, body := .deployment attemptID "curtin" }
  else
  if effectiveImageFormat img ≠ .qcow2 then
    return .failed 409 ("bare-metal deploy requires qcow2 or squashfs OS image, got " ++
      (effectiveImageFormat img).text)
  else
  match ← Client.ask (.diskImageDeploy target img) with
  | .error e => return .failed 409 e.text
  | .ok _ => return { status := 200, body := .deployment attemptID "disk-image" }

/-- What an inventory does to the record. The attempt id is that of the record the machine was
found by, not that of the record written. -/
def applyInventory (attemptID inventoryID : String) (timings : Time → List ProvisionTiming)
    (m : Machine) : Prog Res Machine := do
  let p := m.provision.getD {}
  let signalledAt ← Client.now
  let finished ← Client.now
  return { m with provision := some { p with
    attemptID, inventoryID
    lastSignalAt := some signalledAt
    message := "hardware inventory received"
    timings := appendProvisionTiming p.timings (timings finished) } }

/-- The timings of an inventory. -/
def inventoryTimings (requested decodeStarted decodeFinished storeStarted storeFinished : Time)
    (finished : Time) : List ProvisionTiming :=
  [serverTiming "server.inventory.decode" "read and decode hardware inventory" "success"
      decodeStarted decodeFinished 0,
    serverTiming "server.inventory.store" "store hardware inventory" "success"
      storeStarted storeFinished 0,
    serverTiming "server.inventory.total" "handle hardware inventory callback" "success"
      requested finished 0]

/-- `PXEInventory`; of the body only whether it decodes. -/
def pxeInventory (token : String) (decodes : Bool) : Prog Res Response := do
  let requested ← Client.now
  if trimSpace token = "" then return .failed 400 "token is required" else
  match ← requireProvisioningMachine (trimSpace token) with
  | .error e => return lookupFailed e
  | .ok (target, p) =>
  let attemptID := trimSpace p.attemptID
  if attemptID = "" then return .failed 409 "provisioning attempt id is required" else
  let decodeStarted ← Client.now
  if !decodes then return .failed 400 "invalid body" else
  let decodeFinished ← Client.now
  let storeStarted ← Client.now
  match ← (if s.hwinfo then Client.ask (.saveHardwareInfo target.name attemptID)
    else pure (.ok ()) : Prog Res (Except Err Unit)) with
  | .error e => return .failed 500 e.text
  | .ok _ =>
  let storeFinished ← Client.now
  match ← updateProvisionProgress target.name
    (applyInventory attemptID (target.name ++ "-hwinfo")
      (inventoryTimings requested decodeStarted decodeFinished storeStarted storeFinished)) with
  | .error e => return .failed 500 e.text
  | .ok _ => respondWithDeployment s target attemptID

/-! ### The curtin configuration -/

/-- What a configuration that could not be built does to the record. -/
def applyCurtinFailure (e : Err) (started finished : Time) (m : Machine) : Prog Res Machine :=
  return { m with provision := m.provision.map fun p =>
    { p with
      timings := appendProvisionTiming p.timings
        [serverTiming "server.curtin_config" ("generate curtin install config: " ++ e.text) "failure"
          started finished 0] } }

/-- What a generated configuration does to the record. -/
def applyCurtinConfig (attemptID config : String) (started finished : Time) (m : Machine) :
    Prog Res Machine := do
  let p := m.provision.getD {}
  let signalledAt ← Client.now
  return { m with provision := some { p with
    attemptID
    curtinConfig := lib.marshalText config
    message := "curtin config generated"
    lastSignalAt := some signalledAt
    timings := appendProvisionTiming p.timings
      [serverTiming "server.curtin_config" "generate curtin install config" "success"
        started finished 0] } }

/-- `PXECurtinConfig`. -/
def pxeCurtinConfig (token attemptID : String) : Prog Res Response := do
  if trimSpace token = "" then return .failed 400 "token is required" else
  match ← requireProvisioningMachine (trimSpace token) with
  | .error e => return lookupFailed e
  | .ok (target, p) =>
  match validateAttemptParam p (trimSpace attemptID) with
  | .error e => return .failed 409 e.text
  | .ok _ =>
  if !s.osImages then return .failed 500 "os image service not available" else
  let imageRef := trimSpace target.osPreset.imageRef
  if imageRef = "" then return .failed 400 "machine has no image reference" else
  match ← Client.ask (.osImage imageRef) with
  | .error e => return .failed 404 ("os image " ++ quote imageRef ++ " not found: " ++ e.text)
  | .ok _ =>
  match ← (if s.hwinfo then Client.ask (.hardwareInfo target.name)
    else pure (.error .notFound) : Prog Res (Except Err String)) with
  | info =>
  match validateAttemptInventory p info.toOption with
  | .error e => return .failed 409 e.text
  | .ok _ =>
  let started ← Client.now
  match ← Client.ask (.curtinInstallConfig target) with
  | .error e =>
    let finished ← Client.now
    let _ ← updateProvisionProgress target.name (applyCurtinFailure e started finished)
    return .failed 409 e.text
  | .ok config =>
  let finished ← Client.now
  let _ ← updateProvisionProgress target.name
    (applyCurtinConfig lib p.attemptID config started finished)
  return { status := 200, body := .text config }

/-! ### Files and boot scripts -/

/-- What a timing of a served file does to the record. -/
def applyTiming (now : Time) (timing : ProvisionTiming) (m : Machine) : Prog Res Machine :=
  let p := m.provision.getD {}
  return { m with provision := some { p with
    lastSignalAt := some now
    timings := appendProvisionTiming p.timings [timing] } }

/-- `appendProvisionTimingByToken`. -/
def appendProvisionTimingByToken (token attemptID : String) (timing : ProvisionTiming) :
    Prog Res Unit := do
  match ← requireProvisioningMachine token with
  | .error _ => return ()
  | .ok (target, p) =>
  match validateAttemptParam p attemptID with
  | .error _ => return ()
  | .ok _ =>
  let now ← Client.now
  let _ ← updateProvisionProgress target.name (applyTiming now timing)
  return ()

/-- `serveProvisionedPXEFile`, of a request that is not for a part of the file: whether the file was
sent, and its size. -/
def serveProvisionedPXEFile (token attemptID name message : String) (sent : Bool) (sizeBytes : ℤ) :
    Prog Res Response := do
  let response : Response := if sent then { status := 200 } else { status := 404 }
  if trimSpace token = "" ∨ trimSpace attemptID = "" then return response else
  let started ← Client.now
  let finished ← Client.now
  appendProvisionTimingByToken (trimSpace token) (trimSpace attemptID)
    (serverTiming name message (if sent then "success" else "failure") started finished sizeBytes)
  return response

/-- The hexadecimal digits of a text, in lower case. -/
def macToken (raw : String) : String :=
  String.ofList ((toLower (trimSpace raw)).toList.filter fun c =>
    isDigit c || ('a' ≤ c && c ≤ 'f'))

/-- Pairs of characters, separated by colons. -/
def joinPairs : List Char → List Char
  | a :: b :: c :: cs => a :: b :: ':' :: joinPairs (c :: cs)
  | cs => cs

/-- `normalizeMAC`. -/
def normalizeMAC (raw : String) : String :=
  let m := (toLower (trimSpace raw)).toList.map fun c => if c = '-' then ':' else c
  if m.count ':' = 5 then String.ofList m
  else
    let token := macToken (String.ofList m)
    if token.toList.length ≠ 12 then "" else String.ofList (joinPairs token.toList)

/-- `machineHasMAC`, for a MAC address as a request has it. -/
def machineHasMAC (rawMAC : String) (m : Machine) : Bool :=
  let candidate := normalizeMAC m.mac
  (normalizeMAC rawMAC ≠ "" ∧ candidate = normalizeMAC rawMAC) ∨
    (macToken rawMAC ≠ "" ∧ macToken candidate = macToken rawMAC)

/-- The machine that `resolvePXETarget` finds: one that is being installed, unless a virtual machine
is. -/
def resolvePXETarget (rawMAC : String) : Prog Res (Except Err (Option Machine)) := do
  if normalizeMAC rawMAC = "" ∧ macToken rawMAC = "" then return .ok none else
  match ← Client.ask (.virtualMachineOfMAC rawMAC) with
  | .error e => return .error e
  | .ok true => return .ok none
  | .ok false =>
  match ← Client.listMachines with
  | .error e => return .error e
  | .ok items =>
    return .ok ((items.find? (machineHasMAC rawMAC)).filter fun m => m.provision.any (·.active))

/-- What a marker does to the record: it is added to an active attempt that does not have it. -/
def applyMarker (timing : ProvisionTiming) (m : Machine) : Prog Res Machine :=
  return { m with provision := m.provision.map fun p =>
    if !p.active ∨ hasProvisionTiming p.timings timing.name then p
    else { p with timings := appendProvisionTiming p.timings [timing] } }

/-- `appendMachineTimingOnce`. -/
def appendMachineTimingOnce (m : Machine) (timing : ProvisionTiming) : Prog Res Unit := do
  if (!m.provision.any (·.active)) ∨ m.isWindows ∨
      (m.provision.any fun p => hasProvisionTiming p.timings timing.name) then return ()
  else
  let _ ← updateProvisionProgress m.name (applyMarker timing)
  return ()

/-- `recordPXEBootScriptMarker`. -/
def recordPXEBootScriptMarker (m : Machine) (installScript : Bool) : Prog Res Unit := do
  let now ← Client.now
  if installScript then
    appendMachineTimingOnce m
      (markerTiming "server.pxe.boot_script" "PXE boot script served (installer)" now)
  else if machineImageApplied m then
    appendMachineTimingOnce m
      (markerTiming "server.pxe.boot_script_local"
        "PXE boot script served (local boot after image apply)" now)
  else return ()

/-- `PXEBootScript`. The script of a Windows installer, which may fail to be rendered, is left out:
nothing is recorded of it. -/
def pxeBootScript (rawMAC : String) : Prog Res Response := do
  match ← resolvePXETarget rawMAC with
  | .error e => return .failed 500 e.text
  | .ok none => return { status := 200 }
  | .ok (some m) =>
  -- an image that is applied boots from the disk
  recordPXEBootScriptMarker m (!machineImageApplied m)
  return { status := 200 }

/-! ### Cloud-init documents -/

/-- The record with a registration token for a hypervisor. -/
def Machine.withRegistrationToken (m : Machine) (token expiresAt : String) (now : Time) : Machine :=
  let p := m.provision.getD {}
  { m with
    provision := some { p with
      artifacts := (p.artifacts.insert "hypervisorRegistrationToken" token).insert
        "hypervisorRegistrationTokenExpiresAt" expiresAt }
    updatedAt := now }

/-- `ensureHypervisorRegistrationToken`, of a machine that is a hypervisor. -/
def ensureHypervisorRegistrationToken (m : Machine) : Prog Res (Except Err String) := do
  let stored := trimSpace
    ((m.provision.bind fun p => p.artifacts["hypervisorRegistrationToken"]?).getD "")
  if stored ≠ "" then return .ok stored else
  if !s.hypervisors ∨ m.role ≠ .hypervisor then return .ok "" else
  match ← Client.ask .createHypervisorToken with
  | .error e => return .error (.msg ("create hypervisor registration token: " ++ e.text))
  | .ok (token, expiresAt) =>
  let now ← Client.now
  match ← Client.upsert (m.withRegistrationToken token (lib.formatRFC3339 expiresAt) now) with
  | .error e => return .error (.msg ("store hypervisor registration token: " ++ e.text))
  | .ok _ => return .ok token

/-- `PXENocloudUserData`. -/
def pxeNocloudUserData (rawMAC : String) : Prog Res Response := do
  match ← resolvePXETarget rawMAC with
  | .error e => return .failed 500 e.text
  | .ok none => return { status := 200 }
  | .ok (some m) =>
  if m.isWindows then return .failed 500 "Windows deployment does not support cloud-init" else
  match ← Client.ask (.userData m) with
  | .error e => return .failed 500 e.text
  | .ok document =>
  if m.role = .hypervisor then
    match ← ensureHypervisorRegistrationToken lib s m with
    | .error e => return .failed 500 e.text
    | .ok _ => return { status := 200, body := .text document }
  else return { status := 200, body := .text document }

/-! ### Completion -/

/-- The body of an install-complete request. -/
structure InstallCompleteReq where
  token : String := ""
  type : String := ""
  report : InstallCompleteReport := {}
  deriving DecidableEq

/-- `ensureMachineSSHReachable`. -/
def ensureMachineSSHReachable (m : Machine) (report : InstallCompleteReport) :
    Prog Res (Except Err Unit) := do
  if !equalFold (trimSpace m.osPreset.family) "debian" then return .ok () else
  let ip := if trimSpace report.ip = "" then trimSpace m.ip else trimSpace report.ip
  if ip = "" then
    return .error (.msg "debian install-complete is waiting for a reported SSH address")
  else
  match ← Client.ask (.sshProbe ip) with
  | .error e =>
    return .error (.msg ("debian install-complete is waiting for SSH on " ++ ip ++ ": " ++ e.text))
  | .ok _ => return .ok ()

/-- The end of `PXEInstallComplete`: the record that was found is completed and written. -/
def completeInstallation (m : Machine) (p : ProvisionProgress) (source : String)
    (report : InstallCompleteReport) : Prog Res Response := do
  let now ← Client.now
  let completed := m.completedBy p source report now
  let message ← configureBIOSBootOrder s completed "provisioning completed"
  let updated := completed.withCompletionTimings lib message source now
  match ← Client.upsert updated with
  | .error e => return .failed 500 e.text
  | .ok _ => return { status := 200, body := .machine updated }

/-- `PXEInstallComplete`. A request without a body has the default one. -/
def pxeInstallComplete (token type : String) (body : Option InstallCompleteReq) :
    Prog Res Response := do
  match body with
  | none => return .failed 400 "invalid body"
  | some req =>
  let token := if trimSpace token = "" then trimSpace req.token else trimSpace token
  let source := normalizeCompletionSource
    (if trimSpace type = "" then trimSpace req.type else trimSpace type)
  let report : InstallCompleteReport :=
    { ip := trimSpace req.report.ip, mac := trimSpace req.report.mac,
      hostname := trimSpace req.report.hostname }
  if token = "" then return .failed 400 "token is required" else
  match ← Client.ask (.virtualMachineOfToken token) with
  | .error e => return .failed 500 e.text
  | .ok true => return { status := 200 }
  | .ok false =>
  match ← findMachineByProvisionToken token with
  | .error e => return .failed 500 e.text
  | .ok none => return .failed 404 "provisioning token not found"
  | .ok (some m) =>
  if m.isWindows then
    return .failed 409 "Windows requires the attempt-scoped Windows state callback"
  else
  match m.provision with
  | none => return .failed 404 "provisioning token not found"
  | some p =>
  if !p.active then
    if p.completedAt.isNone then return .failed 409 "provisioning token is expired"
    else return { status := 200, body := .machine m }
  else
  match ← ensureMachineSSHReachable m report with
  | .error e => return .failed 409 e.text
  | .ok _ => completeInstallation lib s m p source report

end Gomi
