import Mathlib.Tactic
import Mathlib.Data.Rat.Defs

/-!
# The machine record

`internal/machine/types.go` and `internal/power/types.go`: what the server knows
about a physical machine. Every field has Go's zero value as its default, so that a
record is written down by the fields that matter.

* A pointer field is an `Option`, a Go map a `Gomi.Labels`. A slice or map that is
  `nil` and one that is empty are the same value here, except where the code tells
  them apart: both are left out of the stored JSON text and come back as `nil`.
* A text that the code only ever compares with a fixed list of texts is an
  enumeration. Where a request can hold another text, the enumeration has a last
  constructor `other` for it. `Gomi.OSPreset.family` stays a text: the code compares
  it up to case.
* Instants are nanoseconds since the epoch.
-/

namespace Gomi

/-- `time.Time`, in nanoseconds since the epoch. -/
abbrev Time : Type := ℤ

/-- `map[string]string`. -/
abbrev Labels : Type := Std.ExtTreeMap String String compare

/-! ### Power -/

/-- `power.PowerType`. -/
inductive PowerType where
  | ipmi
  | webhook
  | wol
  | manual
  | other (text : String)
  deriving DecidableEq

/-- `power.PowerState`; `unset` is the empty text of a machine that was never
polled. -/
inductive PowerState where
  | unset
  | unknown
  | running
  | stopped
  deriving DecidableEq

/-- `power.Action`. -/
inductive PowerAction where
  | powerOn
  | powerOff
  deriving DecidableEq

/-- `power.IPMIConfig`. -/
structure IPMIConfig where
  host : String := ""
  username : String := ""
  password : String := ""
  interface : String := ""
  deriving DecidableEq

/-- `power.WebhookConfig`. Whether a map is `nil` or empty is told apart when a request is
merged with the stored configuration. -/
structure WebhookConfig where
  powerOnURL : String := ""
  powerOffURL : String := ""
  statusURL : String := ""
  bootOrderURL : String := ""
  headers : Option Labels := none
  bodyExtras : Option Labels := none
  deriving DecidableEq

/-- `power.WoLConfig`. -/
structure WoLConfig where
  wakeMAC : String := ""
  broadcastIP : String := ""
  port : ℤ := 0
  shutdownTarget : String := ""
  shutdownUDPPort : ℤ := 0
  hmacSecret : String := ""
  token : String := ""
  tokenTTLSeconds : ℤ := 0
  deriving DecidableEq

/-- `power.PowerConfig`. The empty `manual` section carries nothing but its
presence. -/
structure PowerConfig where
  type : PowerType := .other ""
  ipmi : Option IPMIConfig := none
  webhook : Option WebhookConfig := none
  wol : Option WoLConfig := none
  manual : Bool := false
  deriving DecidableEq

/-! ### The machine -/

/-- `machine.Firmware`. -/
inductive Firmware where
  | uefi
  | bios
  | other (text : String)
  deriving DecidableEq

/-- `machine.Phase`; `unset` is the empty text. -/
inductive Phase where
  | unset
  | discovered
  | ready
  | provisioning
  | error
  deriving DecidableEq

/-- `machine.Role`; the empty text is the default role. -/
inductive Role where
  | default
  | hypervisor
  | other (text : String)
  deriving DecidableEq

/-- `resource.IPAssignmentMode`; `unset` is the empty text. -/
inductive IPAssignmentMode where
  | unset
  | dhcp
  | static
  | other (text : String)
  deriving DecidableEq

/-- `machine.OSPreset`. -/
structure OSPreset where
  family : String := ""
  version : String := ""
  imageRef : String := ""
  installConfig : Labels := ∅
  deriving DecidableEq

/-- `machine.NetworkConfig`. -/
structure NetworkConfig where
  domain : String := ""
  deriving DecidableEq

/-- `machine.LoginUserSpec`. -/
structure LoginUserSpec where
  username : String := ""
  password : String := ""
  deriving DecidableEq

/-- `machine.ProvisionTiming`. -/
structure ProvisionTiming where
  source : String := ""
  name : String := ""
  eventType : String := ""
  message : String := ""
  result : String := ""
  timestamp : Option Time := none
  startedAt : Option Time := none
  finishedAt : Option Time := none
  durationMillis : ℤ := 0
  monotonicSeconds : ℚ := 0
  deriving DecidableEq

/-- `machine.ProvisionProgress`: one installation attempt of a machine. -/
structure ProvisionProgress where
  active : Bool := false
  attemptID : String := ""
  inventoryID : String := ""
  startedAt : Option Time := none
  deadlineAt : Option Time := none
  finishedAt : Option Time := none
  completedAt : Option Time := none
  trigger : String := ""
  requestedBy : String := ""
  message : String := ""
  artifacts : Labels := ∅
  completionToken : String := ""
  completionSource : String := ""
  lastSignalAt : Option Time := none
  curtinConfig : String := ""
  failureReason : String := ""
  logURL : String := ""
  timings : List ProvisionTiming := []
  deriving DecidableEq

/-- `machine.SealedBootstrap`: a bootstrap that only the holder of the enrolled
host's private key can open. The envelope is the JSON text of the request. -/
structure SealedBootstrap where
  cleanup : Bool := false
  owner : String := ""
  keyFingerprint : String := ""
  envelope : String := ""
  deriving DecidableEq

/-- `machine.Machine`. -/
structure Machine where
  sealedBootstrap : Option SealedBootstrap := none
  name : String := ""
  hostname : String := ""
  mac : String := ""
  ip : String := ""
  arch : String := ""
  firmware : Firmware := .other ""
  power : PowerConfig := {}
  network : NetworkConfig := {}
  osPreset : OSPreset := {}
  targetDisk : String := ""
  cloudInitRef : String := ""
  cloudInitRefs : List String := []
  ipAssignment : IPAssignmentMode := .unset
  subnetRef : String := ""
  role : Role := .default
  bridgeName : String := ""
  sshKeyRefs : List String := []
  loginUser : Option LoginUserSpec := none
  phase : Phase := .unset
  provision : Option ProvisionProgress := none
  lastPowerAction : String := ""
  lastDeployedCloudInitRef : String := ""
  lastError : String := ""
  powerState : PowerState := .unset
  powerStateAt : Option Time := none
  createdAt : Time := 0
  updatedAt : Time := 0
  deriving DecidableEq

/-! ### OS images

Of an OS image only what decides whether it can be installed on a machine. -/

/-- `osimage.ImageFormat`; `unset` is the empty text. -/
inductive ImageFormat where
  | unset
  | wim
  | qcow2
  | iso
  | squashfs
  | other (text : String)
  deriving DecidableEq

/-- `osimage.Variant`; `unset` is the empty text. -/
inductive Variant where
  | unset
  | cloud
  | baremetal
  | server
  | desktop
  | other (text : String)
  deriving DecidableEq

/-- `osimage.DeploymentTarget`, as a request for one. -/
inductive DeploymentTarget where
  | vm
  | baremetal
  deriving DecidableEq

/-- The text of a deployment target. -/
def DeploymentTarget.text : DeploymentTarget → String
  | .vm => "vm"
  | .baremetal => "baremetal"

/-- `osimage.Manifest`, with the parts of `osimage.RootArtifact` and
`osimage.Capabilities` that are read. -/
structure Manifest where
  /-- Whether the manifest has a Windows section. -/
  windows : Bool := false
  arch : String := ""
  /-- `capabilities.deployTargets`. -/
  deployTargets : List String := []
  /-- `root.format`. -/
  rootFormat : ImageFormat := .unset
  /-- `root.path`. -/
  rootPath : String := ""
  /-- `root.rootPartition.number`. -/
  rootPartitionNumber : ℤ := 0
  /-- `root.rootPartition.filesystem`. -/
  rootPartitionFilesystem : String := ""
  deriving DecidableEq

/-- `osimage.OSImage`. -/
structure OSImage where
  name : String := ""
  osFamily : String := ""
  osVersion : String := ""
  arch : String := ""
  format : ImageFormat := .unset
  variant : Variant := .unset
  manifest : Option Manifest := none
  ready : Bool := false
  deriving DecidableEq

/-! ### Errors -/

/-- The errors of the modelled code. Those that some caller tells apart – it
compares with `errors.Is` or `==` – are constructors; every other error is known by
its text only. -/
inductive Err where
  /-- `resource.ErrNotFound`. -/
  | notFound
  /-- `resource.ErrAlreadyExists`. -/
  | alreadyExists
  /-- `baremetal.ErrNotFound`. -/
  | hostNotFound
  /-- `baremetal.ErrConflict`. -/
  | conflict
  /-- `baremetal.ErrCapacity`. -/
  | capacity
  /-- Any other error. -/
  | msg (text : String)
  deriving DecidableEq

/-- A statement that was replied to has been carried out, or has failed without an effect. -/
theorem reply_cases {α σ : Type} [DecidableEq (Except Err α)] {reply answer : Except Err α}
    {s s' t : σ} (h : (if reply = answer then some t else match reply with
      | .error (.msg _) => some s
      | _ => none) = some s') :
    (reply = answer ∧ s' = t) ∨ (∃ text, reply = .error (.msg text)) ∧ s' = s := by
  split at h
  · rename_i hr
    exact Or.inl ⟨hr, (Option.some.inj h).symm⟩
  · split at h
    · exact Or.inr ⟨⟨_, rfl⟩, (Option.some.inj h).symm⟩
    · cases h

/-- `Error()`. -/
def Err.text : Err → String
  | .notFound => "not found"
  | .alreadyExists => "already exists"
  | .hostNotFound => "bare-metal host not found"
  | .conflict => "bare-metal host ownership or revision conflict"
  | .capacity => "no available bare-metal hosts in pool"
  | .msg text => text

/-- A check that fails with `e` if `p` holds. -/
def failIf (p : Prop) [Decidable p] (e : Err) : Except Err Unit := if p then .error e else .ok ()

@[simp] theorem failIf_eq_ok {p : Prop} [Decidable p] {e : Err} :
    failIf p e = .ok () ↔ ¬ p := by
  by_cases h : p <;> simp [failIf, h]

/-- A computation after a check succeeds exactly if both do. -/
@[simp] theorem check_bind_eq_ok {β : Type} {x : Except Err Unit} {f : Unit → Except Err β} {b : β} :
    (x >>= f) = .ok b ↔ x = .ok () ∧ f () = .ok b := by
  cases x <;> simp [bind, Except.bind]

/-- A computation after another one succeeds exactly if both do. -/
theorem bind_eq_ok {α β : Type} {x : Except Err α} {f : α → Except Err β} {b : β} :
    (x >>= f) = .ok b ↔ ∃ a, x = .ok a ∧ f a = .ok b := by
  cases x <;> simp [bind, Except.bind]

end Gomi
