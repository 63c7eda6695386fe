import Gomi.Go.Clock
import Gomi.Volumes.System

/-!
# Volumes, as the server has libvirt handle them

`internal/libvirt/storage.go`, and `cloud_image.go`, `cloud_image_download.go` and
`nocloud_seed.go` of `internal/vm`. The disk of a virtual machine `n` is the volume `n.qcow2` and
its seed is `n-cidata.raw`; a cloud image is the backing store of the disks that are made from it,
and its volume is named after the image.

The deployer was translated over operations that are carried out here: `Gomi.Volumes.onHost` is
what each of them does to the directory, and `Gomi.Volumes.Action.prog` are the four things that
are done to a virtual machine on its host.
-/

namespace Gomi.Volumes

open Go
open Vm (VirtualMachine LibvirtErr Hypervisor)

/-! ### Single operations -/

namespace Client

/-- `StoragePoolLookupByName("default")`. -/
abbrev lookupPool : Prog Res (Except LibvirtErr Unit) := .perform Op.lookupPool

/-- `StorageVolCreateXML`. -/
abbrev createXML (vol : VolumeXML) : Prog Res (Except LibvirtErr Volume) := .perform (Op.createXML vol)

/-- `StorageVolLookupByName`. -/
abbrev lookupVolume (name : String) : Prog Res (Except LibvirtErr Unit) :=
  .perform (Op.lookupVolume name)

/-- `StorageVolUpload`. -/
abbrev uploadVolume (name content : String) : Prog Res (Except (LibvirtErr × String) Unit) :=
  .perform (Op.uploadVolume name content)

/-- `StorageVolDelete`. -/
abbrev deleteVolume (name : String) : Prog Res (Except LibvirtErr Unit) :=
  .perform (Op.deleteVolume name)

end Client

/-! ### `storage.go` -/

/-- An error that wraps another one; it has the code of that. -/
def wrap (text : String) (e : LibvirtErr) : LibvirtErr := { e with text := text ++ ": " ++ e.text }

/-- `volumeFileName`, which is also `cloudImageVolumeName`. -/
def volumeFileName (name format : String) : String :=
  let format := if format = "" then "qcow2" else format
  if hasSuffix name ("." ++ format) then name else name ++ ("." ++ format)

/-- Bytes of a number of gigabytes, in 64 bits. -/
def sizeBytes (sizeGB : ℤ) : ℤ := Int.bmod (sizeGB * 1024 * 1024 * 1024) (2 ^ 64)

/-- `CreateVolume`. -/
def createVolume (name : String) (sizeGB : ℤ) (format : String) : Prog Res (Except LibvirtErr Unit) := do
  match ← Client.lookupPool with
  | .error e => return .error (wrap "lookup storage pool 'default'" e)
  | .ok _ =>
  if format ≠ "qcow2" ∧ format ≠ "raw" then
    return .error { text := "unsupported disk format: " ++ format ++ " (must be qcow2 or raw)" }
  else
  match ← Client.createXML
    { name := volumeFileName name format, escaped := true, capacity := sizeBytes sizeGB, format } with
  | .error e => return .error (wrap ("create volume " ++ name) e)
  | .ok _ => return .ok ()

/-- `CreateOverlayVolume`, which writes the name into the document as it is. -/
def createOverlayVolume (name : String) (sizeGB : ℤ) (backingPath backingFormat : String) :
    Prog Res (Except LibvirtErr Unit) := do
  match ← Client.lookupPool with
  | .error e => return .error (wrap "lookup storage pool 'default'" e)
  | .ok _ =>
  let backingFormat := if backingFormat = "" then "qcow2" else backingFormat
  match ← Client.createXML
    { name := name ++ ".qcow2", escaped := false, capacity := sizeBytes sizeGB, format := "qcow2"
      backing := some (backingPath, backingFormat) } with
  | .error e => return .error (wrap ("create overlay volume " ++ name) e)
  | .ok _ => return .ok ()

/-- `VolumeExists`. -/
def volumeExists (name format : String) : Prog Res (Except LibvirtErr Bool) := do
  match ← Client.lookupPool with
  | .error e => return .error (wrap "lookup storage pool 'default'" e)
  | .ok _ =>
  match ← Client.lookupVolume (volumeFileName name format) with
  | .error e =>
    if e.noVolume then return .ok false
    else return .error (wrap ("lookup storage volume " ++ volumeFileName name format) e)
  | .ok _ => return .ok true

/-- `CreateVolumeFromReader`, with a reader of a content. -/
def createVolumeFromReader (name : String) (size : ℤ) (format content : String) :
    Prog Res (Except LibvirtErr Unit) := do
  match ← Client.lookupPool with
  | .error e => return .error (wrap "lookup storage pool 'default'" e)
  | .ok _ =>
  if format ≠ "qcow2" ∧ format ≠ "raw" then
    return .error { text := "unsupported disk format: " ++ format ++ " (must be qcow2 or raw)" }
  else if size ≤ 0 then return .error { text := "volume size must be positive" }
  else
  let volName := volumeFileName name format
  match ← Client.createXML { name := volName, escaped := true, capacity := size, format } with
  | .error e => return .error (wrap ("create volume " ++ volName) e)
  | .ok vol =>
  match ← Client.uploadVolume vol.name content with
  | .error (e, _) =>
    let _ ← Client.deleteVolume vol.name
    return .error (wrap ("upload volume " ++ volName) e)
  | .ok _ => return .ok ()

/-- The volumes that `DeleteVolume` looks for. -/
def candidates (name : String) : List String :=
  [name ++ ".qcow2", name ++ ".img", name ++ ".raw", name ++ "-cidata.raw"]

/-- The loop of `DeleteVolume`. -/
def deleteEach : List String → Prog Res (Except LibvirtErr Unit)
  | [] => return .ok ()
  | volName :: rest => do
    match ← Client.lookupVolume volName with
    | .error _ => deleteEach rest
    | .ok _ =>
    match ← Client.deleteVolume volName with
    | .error e => return .error (wrap ("delete volume " ++ volName) e)
    | .ok _ => deleteEach rest

/-- `DeleteVolume`. -/
def deleteVolume (name : String) : Prog Res (Except LibvirtErr Unit) := do
  match ← Client.lookupPool with
  | .error e => return .error (wrap "lookup storage pool 'default'" e)
  | .ok _ => deleteEach (candidates name)

/-! ### `cloud_image.go` -/

/-- `hypervisorImageDir`. -/
def hypervisorImageDir : Path := ["var", "lib", "libvirt", "images"]

/-- The text of a path. -/
def pathText (p : Path) : String := String.join (p.map ("/" ++ ·))

/-- `normalizeSHA256`. -/
def normalizeSHA256 (value : String) : String :=
  toLower (trimSpace (trimPrefix (trimSpace value) "sha256:"))

/-- What `cloudImageURLVolumeBaseName` hashes. -/
def hashedText (hash : Hashing) (img : Image) : String :=
  "url=" ++ trimSpace img.url ++ "\nchecksum=" ++ normalizeSHA256 img.checksum ++
    "\nsize=" ++ toString img.sizeBytes ++
    (if img.createdAt = zeroTime then "" else "\ncreated=" ++ hash.formatRFC3339Nano img.createdAt)

/-- `cloudImageURLVolumeBaseName`. -/
def cloudImageURLVolumeBaseName (hash : Hashing) (img : Image) (format : String) : String :=
  trimSuffix (trimSpace img.name) ("." ++ format) ++ ("-" ++
    String.ofList ((hexEncode (hash.sha256 (hashedText hash img))).toList.take 12))

/-- `cloudImageBackingVolumeBaseName`. -/
def cloudImageBackingVolumeBaseName (hash : Hashing) (img : Image) (format : String) : String :=
  if trimSpace img.url = "" then trimSpace img.name else cloudImageURLVolumeBaseName hash img format

/-- The format of the backing image of an image. -/
def backingFormatOf (img : Image) : String :=
  let format := match img.manifest with
    | some manifest =>
      if trimSpace manifest.rootFormat.text ≠ "" then trimSpace manifest.rootFormat.text
      else trimSpace img.format.text
    | none => trimSpace img.format.text
  if format = "" then "qcow2" else format

/-- The path of the backing image of an image. -/
def backingPathOf (hash : Hashing) (img : Image) (format : String) : Path :=
  join hypervisorImageDir (volumeFileName (cloudImageBackingVolumeBaseName hash img format) format)

/-- The checks of `resolveCloudImageBackingImage` on an image that was found: the format of its
backing image. -/
def resolveBacking (ref : String) (img : Image) : Except Err String :=
  if !img.ready then .error (.msg ("osImage " ++ ref ++ " is not ready"))
  else if backingFormatOf img ≠ "qcow2" then
    .error (.msg ("cloudimage deployment requires qcow2 OS image, got " ++ backingFormatOf img))
  else if img.manifest = none ∧ trimSpace img.localPath = "" ∧ trimSpace img.url = "" then
    .error (.msg ("osImage " ++ ref ++ " has no localPath or url"))
  else .ok (backingFormatOf img)

/-- `resolveCloudImageBackingImage`: the image and the format of its backing image. -/
def resolveCloudImageBackingImage (osImageRef : String) : Prog Res (Except Err (Image × String)) := do
  let ref := trimSpace osImageRef
  if ref = "" then return .error (.msg "osImageRef is required for cloudimage deployment")
  else
  match ← Prog.perform (Op.osImage ref) with
  | .error .notFound => return .error (.msg ("referenced osImageRef not found: " ++ ref))
  | .error e => return .error e
  | .ok img => return (resolveBacking ref img).map fun format => (img, format)

/-- The error of a step of `uploadCloudImageBacking`. -/
def uploadFailed (img : Image) (text : String) : Except Err Unit :=
  .error (.msg ("download cloud image " ++ img.name ++ text))

/-- `uploadCloudImageBacking`. -/
def uploadCloudImageBacking (hash : Hashing) (img : Image) (volumeName backingFormat : String) :
    Prog Res (Except Err Unit) := do
  let rawURL := trimSpace img.url
  if rawURL = "" then return .error (.msg ("osImage " ++ img.name ++ " has no url"))
  else
  match ← Prog.perform (Op.parseURL rawURL) with
  | none => return .error (.msg ("invalid cloud image URL for " ++ img.name))
  | some (scheme, host) =>
  if scheme = "" ∨ host = "" then return .error (.msg ("invalid cloud image URL for " ++ img.name))
  else if scheme ≠ "http" ∧ scheme ≠ "https" then
    return .error (.msg ("unsupported cloud image URL scheme for " ++ img.name ++ ": " ++ scheme))
  else
  match ← Prog.perform (Op.getURL rawURL) with
  | .error text => return uploadFailed img (": " ++ text)
  | .ok resp =>
  if resp.status ≠ 200 then return uploadFailed img (": status " ++ toString resp.status)
  else
  let size := if img.sizeBytes ≤ 0 then resp.contentLength else img.sizeBytes
  if size ≤ 0 then
    return uploadFailed img ": content length is required when sizeBytes is unset"
  else
  match ← createVolumeFromReader volumeName size backingFormat resp.body with
  | .error e => return .error (.msg ("sync cloud image " ++ img.name ++ " to hypervisor: " ++ e.text))
  | .ok _ =>
  let got := hexEncode (hash.sha256 resp.body)
  let want := normalizeSHA256 img.checksum
  if trimSpace img.checksum ≠ "" ∧ got ≠ want then
    let mismatch := "cloud image checksum mismatch for " ++ img.name ++ ": expected " ++ want ++
      " got " ++ got
    match ← deleteVolume volumeName with
    | .error e => return .error (.msg (mismatch ++ "; cleanup failed: " ++ e.text))
    | .ok _ => return .error (.msg mismatch)
  else return .ok ()

/-- `prepareCloudImageBacking`: the path and the format of the backing image. -/
def prepareCloudImageBacking (hash : Hashing) (osImageRef : String) :
    Prog Res (Except Err (String × String)) := do
  match ← resolveCloudImageBackingImage osImageRef with
  | .error e => return .error e
  | .ok (img, backingFormat) =>
  let found := (pathText (backingPathOf hash img backingFormat), backingFormat)
  if trimSpace img.url = "" then return .ok found
  else
  let volumeName := cloudImageURLVolumeBaseName hash img backingFormat
  match ← volumeExists volumeName backingFormat with
  | .error e => return .error (.msg ("check cloud image backing " ++ img.name ++ ": " ++ e.text))
  | .ok true => return .ok found
  | .ok false =>
  match ← uploadCloudImageBacking hash img volumeName backingFormat with
  | .error e => return .error e
  | .ok _ => return .ok found

/-! ### `nocloud_seed.go` -/

/-- `noCloudSeedVolumeName`. -/
def noCloudSeedVolumeName (vmName : String) : String := vmName ++ "-cidata"

/-- `noCloudSeedVolumeFileName`. -/
def noCloudSeedVolumeFileName (vmName : String) : String := noCloudSeedVolumeName vmName ++ ".raw"

/-- `macToken`. -/
def seedToken (mac : String) : String :=
  String.ofList ((toLower (trimSpace mac)).toList.filter (· ≠ ':'))

/-- `prepareNoCloudSeed`: the path of the seed. -/
def prepareNoCloudSeed (v : VirtualMachine) (pxeBaseURL : String) : Prog Res (Except Err String) := do
  if seedToken v.primaryMAC = "" then
    return .error (.msg "primary MAC is required for NoCloud seed")
  else
  match ← Prog.perform (Op.noCloudISO v pxeBaseURL) with
  | .error e => return .error e
  | .ok isoBytes =>
  let volumeName := noCloudSeedVolumeName v.name
  match ← deleteVolume volumeName with
  | .error e => return .error (.msg ("delete existing seed volume " ++ volumeName ++ ": " ++ e.text))
  | .ok _ =>
  match ← createVolumeFromReader volumeName isoBytes.length "raw" isoBytes with
  | .error e => return .error (.msg ("create seed volume " ++ volumeName ++ ": " ++ e.text))
  | .ok _ =>
    return .ok (pathText (join hypervisorImageDir (noCloudSeedVolumeFileName v.name)))

/-! ### The host -/

/-- **What the operations of the deployer do on the host.** -/
def onHost (hash : Hashing) : (o : Vm.Op) → Prog Res (Vm.Res o)
  | .ask (.libvirt _ (.createVolume name sizeGB)) => createVolume name sizeGB "qcow2"
  | .ask (.libvirt _ (.createOverlayVolume name sizeGB path format)) =>
    createOverlayVolume name sizeGB path format
  | .ask (.libvirt _ (.deleteVolume name)) => deleteVolume name
  | .ask (.cloudImageBacking _ osImageRef) => prepareCloudImageBacking hash osImageRef
  | .ask (.noCloudSeed _ v pxeBaseURL) => prepareNoCloudSeed v pxeBaseURL
  | o => .perform (Op.vm o)

/-- What is done to a virtual machine on a host. -/
inductive Action where
  /-- `Deploy`. -/
  | deploy
  /-- `Redeploy`. -/
  | redeploy
  /-- `Migrate`, to a hypervisor. -/
  | migrate (target : String)
  /-- `teardownVMRuntimeOnHypervisor`, which is how a virtual machine is deleted. -/
  | delete (hv : Hypervisor)

/-- The program of an action, over the operations of the deployer. -/
def Action.vmProg (v : VirtualMachine) : Action → Prog Vm.Res Unit
  | .deploy => do
    let _ ← Vm.deploy v
    return ()
  | .redeploy => do
    let _ ← Vm.redeploy v
    return ()
  | .migrate target => do
    let _ ← Vm.migrate v target
    return ()
  | .delete hv => do
    let _ ← Vm.teardownVMRuntime hv v
    return ()

/-- **The program of an action on the host.** -/
def Action.prog (hash : Hashing) (v : VirtualMachine) (a : Action) : Prog Res Unit :=
  (a.vmProg v).interpret (onHost hash)

end Gomi.Volumes
