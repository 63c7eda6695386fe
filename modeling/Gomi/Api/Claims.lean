import Gomi.Api.Server

/-!
# The handlers of claims

`internal/infra/api/baremetal.go`, `baremetal_deploy.go`, `baremetal_retry.go` and
`baremetal_unregister.go`: enrollment of a host and the life of a claim. Each handler is
a program over the operations of the system, in the order in which the source issues
them; a request body that does not decode is `none`.

The records that a handler commits are functions of what it has read
(`Gomi.deployedMachine`, `Gomi.cleanedMachine`, `Gomi.retriedMachine`). Audit records and
the power cycle that follows a commit are left out: they write no machine record and no
host.
-/

namespace Gomi

open Go

variable (lib : Lib) (s : Server)

/-! ### Enrollment -/

/-- The body of a registration. -/
structure RegisterReq where
  pool : String := ""
  publicKey : String := ""
  targetDisk : String := ""
  deriving DecidableEq

/-- `RegisterBareMetalHost`. -/
def registerBareMetalHost (name : String) (body : Option RegisterReq) : Prog Res Response := do
  if !s.bareMetal then return { status := 503 } else
  match body with
  | none => return .failed 400 "invalid body"
  | some req =>
  match enrollmentFingerprint lib req.publicKey with
  | .error e => return .failed 400 e.text
  | .ok _ =>
  if !isWholeDiskPath req.targetDisk then
    return .failed 400 "targetDisk must identify the installation disk"
  else
  match validateRegistration name req.pool with
  | .error e => return .failed 400 e.text
  | .ok _ =>
  match ← Client.getHost name with
  | .ok existing =>
    if existing.pool ≠ req.pool ∨ existing.publicKey ≠ req.publicKey ∨
        existing.targetDisk ≠ req.targetDisk then return bareMetalError .conflict
    else return { status := 200, body := .host existing }
  | .error .hostNotFound =>
    match ← Client.getMachine name with
    | .error .notFound => return .failed 404 "machine not found"
    | .error _ => return .failed 500 "cannot read machine"
    | .ok m =>
    match validateHost m with
    | .error e => return .failed 400 e.text
    | .ok _ =>
    if m.provision.any (·.active) then return .failed 409 "machine is provisioning" else
    match ← register lib name req.pool req.publicKey req.targetDisk with
    | .error e => return bareMetalError e
    | .ok h => return { status := 200, body := .host h }
  | .error e => return bareMetalError e

/-- `UpdateBareMetalHostPool`, with the pool and the revision of its body. -/
def updateBareMetalHostPool (name : String) (body : Option (String × ℤ)) : Prog Res Response := do
  if !s.bareMetal then return { status := 503 } else
  match body with
  | none => return .failed 400 "invalid body"
  | some (pool, revision) =>
  if validateRegistration name pool ≠ .ok () ∨ revision ≤ 0 then
    return .failed 400 "pool and a positive revision are required"
  else
  match ← Client.updatePool name pool revision with
  | .error e => return bareMetalError e
  | .ok h => return { status := 200, body := .host h }

/-- `UnregisterBareMetalHost`, with the revision of its body. -/
def unregisterBareMetalHost (name : String) (body : Option ℤ) : Prog Res Response := do
  if !s.bareMetal then return { status := 503 } else
  match body with
  | none => return .failed 400 "a positive revision is required"
  | some revision =>
  if revision ≤ 0 then return .failed 400 "a positive revision is required" else
  match ← Client.getHost name with
  | .error .hostNotFound => return { status := 204 }
  | .error e => return bareMetalError e
  | .ok _ =>
  match ← Client.unregister name revision with
  | .error e => return bareMetalError e
  | .ok _ => return { status := 204 }

/-! ### Claims -/

/-- `AcquireBareMetalHost`, with the pool and the owner of its body. -/
def acquireBareMetalHost (body : Option (String × String)) : Prog Res Response := do
  if !s.bareMetal then return { status := 503 } else
  match body with
  | none => return .failed 400 "invalid body"
  | some (pool, owner) =>
  match validateAcquire pool owner with
  | .error e => return .failed 400 e.text
  | .ok _ =>
  match ← acquire pool owner with
  | .error e => return bareMetalError e
  | .ok h => return { status := 200, body := .host h }

/-- The end of `GetBareMetalClaim`: the host with the address of its machine. -/
def respondWithAddress (h : Host) : Prog Res Response := do
  match ← Client.getMachine h.name with
  | .error e => return bareMetalError e
  | .ok m => return { status := 200, body := .host { h with ipAddress := m.ip } }

/-- `GetBareMetalClaim`. It also moves the claim on: an installation that is confirmed makes the
host ready, a confirmed cleanup releases it, and a failure is recorded. -/
def getBareMetalClaim (owner : String) : Prog Res Response := do
  if !s.bareMetal then return { status := 503 } else
  match ← Client.findOwner owner with
  | .error e => return bareMetalError e
  | .ok h =>
  if h.state ≠ .deploying ∧ h.state ≠ .releasing then respondWithAddress h else
  match ← Client.getMachine h.name with
  | .error e => return bareMetalError e
  | .ok m =>
  match m.provision with
  | none => return bareMetalError .conflict
  | some p =>
  if p.attemptID ≠ h.attemptID then return bareMetalError .conflict else
  if !p.active ∧ p.completedAt.isSome ∧ m.phase = .ready then
    if h.state = .releasing then
      match ← Client.completeRelease h with
      | .error e => return bareMetalError e
      | .ok _ => return { status := 404 }
    else
    match ← Client.transition h .ready h.attemptID with
    | .error e => return bareMetalError e
    | .ok h' => respondWithAddress h'
  else if m.phase = .error then
    match ← Client.transition h .failed h.attemptID with
    | .error e => return bareMetalError e
    | .ok h' => respondWithAddress h'
  else respondWithAddress h

/-! ### Deployment -/

/-- The body of a deployment. -/
structure DeployReq where
  osImageRef : String := ""
  cloudInitRef : String := ""
  envelope : String := ""
  deriving DecidableEq

/-- The OS preset of an image. -/
def OSImage.preset (img : OSImage) : OSPreset :=
  { family := img.osFamily, version := img.osVersion, imageRef := img.name }

/-- The record that `DeployBareMetalClaim` prepares an installation of. -/
def deployedMachine (h : Host) (m : Machine) (img : OSImage) (cloudInitRef envelope : String) :
    Machine :=
  { m with
    targetDisk := h.targetDisk
    osPreset := img.preset
    cloudInitRef := ""
    cloudInitRefs := if cloudInitRef ≠ "" then [cloudInitRef] else []
    lastDeployedCloudInitRef := cloudInitRef
    sealedBootstrap := some
      { owner := h.owner, keyFingerprint := fingerprintOrEmpty lib h.publicKey, envelope } }

/-- Whether a deployment was asked for before, with the same values. -/
def sameDeployment (h : Host) (m : Machine) (cloudInitRef : String) (req : DeployReq) : Bool :=
  (h.state = .deploying ∨ h.state = .ready) ∧
    (m.sealedBootstrap.any fun b => b.owner = h.owner ∧ b.envelope = req.envelope) ∧
    m.osPreset.imageRef = req.osImageRef ∧
    resolveCloudInitRef m.lastDeployedCloudInitRef m.cloudInitRef m.cloudInitRefs = cloudInitRef

/-- The check of the cloud-init template of a deployment. -/
def checkTemplate (cloudInitRef : String) : Prog Res (Except Response Unit) := do
  if cloudInitRef = "" then return .ok () else
  if !s.cloudInits then return .error { status := 503 } else
  match ← Client.ask (.cloudInitTemplate cloudInitRef) with
  | .error .notFound => return .error (.failed 400 "ordinary cloud-init template not found")
  | .error _ => return .error (.failed 503 "cloud-init template lookup failed")
  | .ok deliveryMode =>
    if deliveryMode ≠ "" then
      return .error (.failed 400 "ordinary cloud-init template not found")
    else return .ok ()

/-- The last steps of a deployment: the attempt is prepared and committed. -/
def commitPrepared (actor : String) (h : Host) (m : Machine) : Prog Res Response := do
  match ← prepareReinstall m actor none s.provisionTimeout with
  | .error e => return .failed 400 e.text
  | .ok prepared =>
  match ← Client.commitDeployment h prepared with
  | .error e => return bareMetalError e
  | .ok h' => return { status := 202, body := .host h' }

/-- `DeployBareMetalClaim`. -/
def deployBareMetalClaim (actor owner : String) (body : Option DeployReq) : Prog Res Response := do
  if !s.bareMetal then return { status := 503 } else
  match ← Client.findOwner owner with
  | .error e => return bareMetalError e
  | .ok h =>
  match body with
  | none => return .failed 400 "invalid body"
  | some req =>
  match validateEnvelope lib req.envelope h with
  | .error e => return .failed 400 e.text
  | .ok _ =>
  match ← checkTemplate s (resourceID "cloudInitTemplates" req.cloudInitRef) with
  | .error r => return r
  | .ok _ =>
  match ← Client.getMachine h.name with
  | .error e => return bareMetalError e
  | .ok m =>
  if h.state ≠ .claimed then
    if sameDeployment h m (resourceID "cloudInitTemplates" req.cloudInitRef) req then
      return { status := 202, body := .host h }
    else return bareMetalError .conflict
  else
  if !s.osImages then return { status := 503 } else
  match ← Client.ask (.osImage req.osImageRef) with
  | .error _ => return .failed 400 "OS image not found"
  | .ok img =>
  match validateImage m img with
  | .error e => return .failed 400 e.text
  | .ok _ =>
  commitPrepared s actor h
    (deployedMachine lib h m img (resourceID "cloudInitTemplates" req.cloudInitRef) req.envelope)

/-! ### Release -/

/-- The artifact that a deploy event `image_applied` leaves. -/
def imageAppliedArtifact : String := "imageApplied"

/-- `Artifacts["imageApplied"] == "true"`. -/
def ProvisionProgress.imageApplied (p : ProvisionProgress) : Bool :=
  p.artifacts[imageAppliedArtifact]? = some "true"

/-- The record that `DeleteBareMetalClaim` prepares the cleanup of. -/
def cleanedMachine (h : Host) (m : Machine) : Machine :=
  { m with
    targetDisk := h.targetDisk
    sealedBootstrap := some
      { owner := h.owner, keyFingerprint := fingerprintOrEmpty lib h.publicKey, cleanup := true }
    cloudInitRef := ""
    cloudInitRefs := []
    lastDeployedCloudInitRef := "" }

/-- `DeleteBareMetalClaim`. A claim without a deployment is released at once; any other host is
installed once more, and only `GetBareMetalClaim` releases it. -/
def deleteBareMetalClaim (actor owner : String) : Prog Res Response := do
  if !s.bareMetal then return { status := 503 } else
  match ← Client.findOwner owner with
  | .error .hostNotFound => return { status := 204 }
  | .error e => return bareMetalError e
  | .ok h =>
  if h.state = .releasing then return { status := 202, body := .host h } else
  if h.state = .claimed then
    match ← Client.transition h .releasing "" with
    | .error e => return bareMetalError e
    | .ok h' =>
    match ← Client.completeRelease h' with
    | .error e => return bareMetalError e
    | .ok _ => return { status := 204 }
  else
  match ← Client.getMachine h.name with
  | .error e => return bareMetalError e
  | .ok m =>
  if !m.provision.any (·.imageApplied) then
    if m.provision.any (·.active) then return { status := 202, body := .host h }
    else
      return .failed 409
        "disk identity restoration is unconfirmed; recover the installer before rebooting"
  else
  if (m.sealedBootstrap.any (·.cleanup)) ∧ (h.state = .failed ∨ m.phase = .error) then
    return .failed 409 "failed physical cleanup requires explicit recovery"
  else
  commitPrepared s actor h (cleanedMachine lib h m)

/-! ### Recovery -/

/-- The body of a retry; whether the machine is power-cycled is not modelled. -/
structure RetryReq where
  attemptID : String := ""
  osImageRef : String := ""
  deriving DecidableEq

/-- The record that `RetryBareMetalClaim` prepares an installation of. -/
def retriedMachine (m : Machine) (img : OSImage) : Machine := { m with osPreset := img.preset }

/-- Whether an attempt can be retried: it failed, or it is waiting for the first boot of the
system it installed. -/
def retryAllowed (h : Host) (m : Machine) (p : ProvisionProgress) : Bool :=
  ((h.state = .failed ∧ !p.active ∧ m.phase = .error) ∨
    (h.state = .deploying ∧ p.active ∧ m.phase = .provisioning ∧ p.imageApplied)) ∧ p.imageApplied

/-- `RetryBareMetalClaim`. -/
def retryBareMetalClaim (actor owner : String) (body : Option RetryReq) : Prog Res Response := do
  if !s.bareMetal || !s.osImages then return { status := 503 } else
  match body with
  | none => return .failed 400 "the failed attemptID is required"
  | some req =>
  if req.attemptID = "" then return .failed 400 "the failed attemptID is required" else
  match ← Client.findOwner owner with
  | .error e => return bareMetalError e
  | .ok h =>
  match ← Client.getMachine h.name with
  | .error e => return bareMetalError e
  | .ok m =>
  match m.provision, m.sealedBootstrap with
  | some p, some b =>
    if h.attemptID ≠ req.attemptID ∨ p.attemptID ≠ req.attemptID ∨ b.owner ≠ h.owner then
      return bareMetalError .conflict
    else
    if !retryAllowed h m p then return bareMetalError .conflict else
    match ← Client.ask (.osImage
      (if req.osImageRef ≠ "" then resourceID "osImages" req.osImageRef else m.osPreset.imageRef)) with
    | .error _ => return .failed 400 "OS image not found"
    | .ok img =>
    match validateImage m img with
    | .error e => return .failed 400 e.text
    | .ok _ =>
    commitPrepared s actor h (retriedMachine m img)
  | _, _ => return bareMetalError .conflict

end Gomi
