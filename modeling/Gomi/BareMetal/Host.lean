import Gomi.External
import Gomi.Machine.Validate

/-!
# Enrolled hosts

`internal/baremetal`: the record of a physical host that the Cluster API provider
may claim, the states of a claim, and the checks made before a host is enrolled,
claimed, moved to another state or given a sealed bootstrap.

A claim goes through the states

* `claimed` – an owner has the host, nothing is installed;
* `deploying`, `ready`, `failed` – an installation is committed, confirmed, failed;
* `releasing` – the cleanup installation is committed; only its confirmation makes
  the host `available` again.

`Gomi.validateTransition` is the table of the moves between them that need no
installation.
-/

namespace Gomi

open Go

/-- `baremetal.State`. -/
inductive HostState where
  | available
  | claimed
  | deploying
  | ready
  | releasing
  | failed
  deriving DecidableEq

/-- The text of a state. -/
def HostState.text : HostState → String
  | .available => "Available"
  | .claimed => "Claimed"
  | .deploying => "Deploying"
  | .ready => "Ready"
  | .releasing => "Releasing"
  | .failed => "Failed"

/-- `baremetal.Host`: an enrolled host as it is read. The owner of an unclaimed host
is the empty text. -/
structure Host where
  targetDisk : String := ""
  ipAddress : String := ""
  publicKey : String := ""
  name : String := ""
  pool : String := ""
  owner : String := ""
  state : HostState := .available
  revision : ℤ := 0
  attemptID : String := ""
  deriving DecidableEq

/-! ### Checks of the allocation API -/

/-- `ValidateRegistration`. -/
def validateRegistration (name pool : String) : Except Err Unit :=
  if trimSpace name = "" ∨ trimSpace pool = "" then
    .error (.msg "host name and pool are required")
  else .ok ()

/-- `^capi-[a-z0-9-]{1,123}$`. -/
def ownerPattern (owner : String) : Bool :=
  match afterStart "capi-" owner.toList with
  | none => false
  | some rest =>
    1 ≤ rest.length && rest.length ≤ 123 && rest.all fun c => isLower c || isDigit c || c == '-'

/-- `ValidateAcquire`. -/
def validateAcquire (pool owner : String) : Except Err Unit :=
  if trimSpace pool = "" ∨ !ownerPattern owner then
    .error (.msg "pool and stable capi- owner identity are required")
  else .ok ()

/-- The moves of `ValidateTransition`. -/
def transitionAllowed (state next : HostState) (attempt : String) : Bool :=
  match next with
  | .deploying => state = .claimed ∧ attempt ≠ ""
  | .ready => state = .deploying ∧ attempt ≠ ""
  | .failed => state = .claimed ∨ state = .deploying ∨ state = .releasing
  | .releasing => state = .claimed ∨ state = .deploying ∨ state = .ready ∨ state = .failed
  | _ => false

/-- `ValidateTransition`. -/
def validateTransition (h : Host) (next : HostState) (attempt : String) : Except Err Unit :=
  if h.owner = "" then .error .conflict
  else if h.attemptID ≠ "" ∧ attempt ≠ h.attemptID then
    .error (.msg "deployment attempt is immutable within a claim")
  else if !transitionAllowed h.state next attempt then
    .error (.msg ("invalid bare-metal transition " ++ h.state.text ++ " -> " ++ next.text))
  else .ok ()

/-- **What a permitted move looks like**: it starts from a claimed host, keeps the
attempt once there is one, and leads from one of the states of a claim to
another. -/
theorem validateTransition_eq_ok {h : Host} {next : HostState} {attempt : String} :
    validateTransition h next attempt = .ok () ↔
      h.owner ≠ "" ∧ (h.attemptID ≠ "" → attempt = h.attemptID) ∧
        transitionAllowed h.state next attempt = true := by
  unfold validateTransition
  by_cases ho : h.owner = ""
  · simp [ho]
  · by_cases ha : h.attemptID ≠ "" ∧ attempt ≠ h.attemptID
    · simp [ho, ha]
    · have ha' : h.attemptID ≠ "" → attempt = h.attemptID := fun hne => by
        by_contra hc
        exact ha ⟨hne, hc⟩
      rw [if_neg ho, if_neg ha]
      cases ht : transitionAllowed h.state next attempt with
      | false => simp
      | true => simpa [ho] using ha'

/-! ### Eligibility -/

/-- `ValidateHost`. -/
def validateHost (m : Machine) : Except Err Unit :=
  if m.arch ≠ "amd64" then
    .error (.msg "sealed bare-metal deployment currently requires an amd64 host")
  else if m.firmware ≠ .bios ∧ m.firmware ≠ .uefi then
    .error (.msg "sealed bare-metal deployment requires BIOS or UEFI firmware metadata")
  else if m.role = .hypervisor ∨ m.power.type = .manual then
    .error (.msg "automated bare-metal deployment requires a dedicated host with power control")
  else validatePowerConfig m.power

/-- `osimage.EffectiveImageFormat`. -/
def effectiveImageFormat (img : OSImage) : ImageFormat :=
  match img.manifest with
  | some manifest => if manifest.rootFormat ≠ .unset then manifest.rootFormat else img.format
  | none => img.format

/-- `osimage.SupportsDeploymentTarget`. -/
def supportsDeploymentTarget (img : OSImage) (target : DeploymentTarget) : Bool :=
  let declared := (img.manifest.map (·.deployTargets)).getD []
  let hasRoot := img.manifest.any fun manifest => trimSpace manifest.rootPath ≠ ""
  if declared ≠ [] then declared.any fun candidate => equalFold candidate target.text
  else match effectiveImageFormat img, target with
    | .wim, _ => equalFold img.osFamily "windows" && img.manifest.any (·.windows)
    | .qcow2, .vm => img.variant = .unset ∨ img.variant = .cloud
    | .qcow2, .baremetal =>
      img.variant = .baremetal ∨
        (hasRoot ∧ img.manifest.any fun manifest => 0 < manifest.rootPartitionNumber)
    | .squashfs, .baremetal => hasRoot
    | _, _ => false

/-- `ValidateImage`. -/
def validateImage (m : Machine) (img : OSImage) : Except Err Unit := do
  validateHost m
  failIf (img.arch = "" ∨ img.arch ≠ m.arch ∨
      (img.manifest.any fun manifest => manifest.arch ≠ "" ∧ manifest.arch ≠ img.arch))
    (.msg "bare-metal image architecture must match the enrolled host")
  let format := effectiveImageFormat img
  failIf (!img.ready ∨ (format ≠ .squashfs ∧ format ≠ .qcow2) ∨
      !supportsDeploymentTarget img .baremetal)
    (.msg "a ready bare-metal SquashFS or QCOW2 image is required")
  failIf (img.osFamily ≠ "ubuntu" ∧ img.osFamily ≠ "debian" ∧ img.osFamily ≠ "fedora")
    (.msg "unsupported bare-metal OS family")
  let filesystem := match img.manifest with
    | some manifest => toLower (trimSpace manifest.rootPartitionFilesystem)
    | none => ""
  failIf (filesystem ≠ "" ∧ filesystem ≠ "ext4" ∧ filesystem ≠ "xfs")
    (.msg "sealed bare-metal deployment requires an ext4 or XFS target root filesystem")

/-! ### Enrollment -/

variable (lib : Lib)

/-- `EnrollmentFingerprint`. -/
def enrollmentFingerprint (value : String) : Except Err String :=
  match lib.pemDecode value with
  | none => .error (.msg "one PEM public key is required")
  | some (block, rest) =>
    if block.type ≠ "PUBLIC KEY" ∨ trimSpace rest ≠ "" then
      .error (.msg "one PEM public key is required")
    else match lib.parsePKIXPublicKey block.bytes with
      | none => .error (.msg "invalid public key")
      | some (.rsa bits) =>
        if bits < 2048 then
          .error (.msg "RSA public key of at least 2048 bits is required")
        else .ok (hexEncode (lib.sha256 block.bytes))
      | some .other => .error (.msg "RSA public key of at least 2048 bits is required")

/-- The fingerprint that the handlers put into a bootstrap: they discard the error,
and with it the value is empty. -/
def fingerprintOrEmpty (value : String) : String :=
  match enrollmentFingerprint lib value with
  | .ok fingerprint => fingerprint
  | .error _ => ""

/-- `ValidateEnvelope`. -/
def validateEnvelope (raw : String) (h : Host) : Except Err Unit := do
  failIf (raw.utf8ByteSize = 0 ∨ 6 * 2 ^ 20 < raw.utf8ByteSize)
    (.msg "invalid sealed bootstrap size")
  match lib.decodeEnvelope raw with
  | none => throw (.msg "invalid sealed bootstrap envelope")
  | some (envelope, trailing) =>
    failIf trailing (.msg "trailing bootstrap data")
    let fingerprint ← enrollmentFingerprint lib h.publicKey
    failIf (envelope.version ≠ 1 ∨ envelope.algorithm ≠ "RSA-OAEP-SHA256+A256GCM" ∨
        envelope.host ≠ h.name ∨ envelope.owner ≠ h.owner ∨
        envelope.keyFingerprint ≠ fingerprint)
      (.msg "bootstrap enrollment identity mismatch")
    match lib.base64Decode envelope.wrappedKey, lib.base64Decode envelope.nonce,
        lib.base64Decode envelope.ciphertext with
    | some wrapped, some nonce, some ciphertext =>
      failIf (wrapped.length < 256 ∨ 2048 < wrapped.length ∨ nonce.length ≠ 12 ∨
          ciphertext.length ≤ 16 ∨ 4 * 2 ^ 20 + 16 < ciphertext.length)
        (.msg "invalid sealed bootstrap encoding")
    | _, _, _ => throw (.msg "invalid sealed bootstrap encoding")

end Gomi
