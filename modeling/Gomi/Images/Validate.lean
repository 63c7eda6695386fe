import Gomi.BareMetal.Host
import Gomi.Go.Path
import Gomi.Pxe.Callbacks

/-!
# OS images, and what is accepted as one

`internal/osimage/types.go`, `validate.go` and `windows.go`. `Gomi.OSImage` has the fields that decide
whether an image can be installed on a machine; `Gomi.Images.Image` adds those that say where the
payload comes from, where it is kept and what it has to be.

A local path is kept as the path that it denotes; it is `none` if it is the empty text. The sections
of a manifest are those of `Gomi.Manifest` and `Gomi.Images.ManifestMore`: where there is no
manifest, the latter has its default.
-/

namespace Gomi.Images

open Go

/-- `osimage.SourceType`; `unset` is the empty text. -/
inductive SourceType where
  | unset
  | upload
  | url
  | other (text : String)
  deriving DecidableEq

/-- The parts of a manifest that `Gomi.Manifest` leaves out. -/
structure ManifestMore where
  osFamily : String := ""
  bootModes : List String := []
  /-- `root.compression`. -/
  rootCompression : String := ""
  /-- `targetKernel.version`. -/
  targetKernelVersion : String := ""
  /-- `build.modulePackages`. -/
  modulePackages : List String := []
  /-- `windows.imageIndex`. -/
  imageIndex : ℤ := 0
  /-- `windows.winPE`. -/
  wimboot : String := ""
  bcd : String := ""
  bootSDI : String := ""
  bootWIM : String := ""
  deriving DecidableEq

/-- `osimage.OSImage`. -/
structure Image extends OSImage where
  source : SourceType := .unset
  url : String := ""
  checksum : String := ""
  more : ManifestMore := {}
  localPath : Option Path := none
  error : String := ""
  createdAt : Time := 0
  updatedAt : Time := 0
  deriving DecidableEq

/-- Whether the manifest has a Windows section. -/
def Image.hasWindows (img : Image) : Bool := img.manifest.any (·.windows)

/-- `WindowsArtifacts`, of an image with a Windows section. -/
def Image.windowsArtifacts (img : Image) : List String :=
  match img.manifest with
  | none => []
  | some m =>
    if m.windows then
      [m.rootPath, img.more.wimboot, img.more.bcd, img.more.bootSDI, img.more.bootWIM]
    else []

/-! ### Validation -/

/-- `strconv.Atoi`, of a number that fits. -/
def atoi (s : String) : Option ℤ :=
  let digits (l : List Char) : Option ℤ :=
    if allOf isDigit l then some (l.foldl (fun n c => 10 * n + (c.toNat - '0'.toNat : ℕ)) 0) else none
  let value := match s.toList with
    | '-' :: l => (digits l).map (- ·)
    | '+' :: l => digits l
    | l => digits l
  value.filter fun n => -2 ^ 63 ≤ n ∧ n < 2 ^ 63

/-- `parseMajorMinorVersion`. -/
def parseMajorMinorVersion (version : String) : Option (ℤ × ℤ) :=
  match ((trimSpace version).toList.splitOn '.').map String.ofList with
  | major :: minor :: _ => do return (← atoi major, ← atoi minor)
  | _ => none

/-- `ubuntuRequiresBareMetalExtraModules`. -/
def ubuntuRequiresBareMetalExtraModules (version : String) : Bool :=
  match parseMajorMinorVersion version with
  | none => true
  | some (major, minor) => major < 25 ∨ (major = 25 ∧ minor < 10)

/-- `validateBareMetalQCOW2ModuleMetadata`. -/
def validateBareMetalQCOW2ModuleMetadata (img : Image) : Except Err Unit :=
  let kernel := trimSpace img.more.targetKernelVersion
  failIf (img.manifest.isSome ∧ equalFold (trimSpace img.osFamily) "ubuntu" ∧
      ubuntuRequiresBareMetalExtraModules img.osVersion ∧
      ¬img.more.modulePackages.any fun pkg =>
        trimSpace pkg = "linux-modules-extra-\x7bkernel_release\x7d" ∨
          (kernel ≠ "" ∧ trimSpace pkg = "linux-modules-extra-" ++ kernel))
    (.msg ("ubuntu bare-metal qcow2 images require manifest.build.modulePackages to provide " ++
      "linux-modules-extra for the target kernel"))

/-- A Windows artifact is a clean relative path. -/
def isArtifactPath (raw : String) : Bool :=
  allOf (fun c => isDigit c || isLower c || isUpper c || c = '.' || c = '_' || c = '/' || c = '-')
      raw.toList &&
    !hasPrefix raw "/" && cleanText raw = raw && raw ≠ "." && raw ≠ ".." && !hasPrefix raw "../"

/-- The checks of the Windows artifacts, with those seen before. -/
def validateArtifacts (seen : List String) : List String → Except Err Unit
  | [] => .ok ()
  | raw :: rest => do
    failIf (¬isArtifactPath raw)
      (.msg ("Windows artifact must be a clean relative path: \"" ++ raw ++ "\""))
    failIf (raw ∈ seen) (.msg "Windows artifact paths must be distinct")
    validateArtifacts (raw :: seen) rest

/-- `validateWindowsImage`. -/
def validateWindowsImage (img : Image) : Except Err Unit :=
  let windows := equalFold (trimSpace img.osFamily) "windows"
  let format := effectiveImageFormat img.toOSImage
  if !windows ∧ format ≠ .wim ∧ !img.hasWindows then .ok ()
  else do
    failIf (windows ∧ img.osFamily ≠ trimSpace img.osFamily)
      (.msg "Windows osFamily must not contain surrounding whitespace")
    failIf (!windows ∨ format ≠ .wim ∨ !img.hasWindows)
      (.msg "Windows deployment requires osFamily windows, format wim, and manifest.windows")
    failIf (img.source = .url)
      (.msg "Windows images require upload source so companion WinPE artifacts can be uploaded")
    failIf (img.format ≠ .wim ∨ ¬img.manifest.any (·.rootFormat = .wim))
      (.msg "Windows image and manifest.root format must both be wim")
    failIf (img.arch ≠ "amd64" ∧ img.arch ≠ "x86_64")
      (.msg "Windows deployment supports only amd64")
    failIf (img.more.osFamily ≠ "" ∧ !equalFold img.more.osFamily "windows")
      (.msg "Windows manifest OS family must match image")
    failIf (img.manifest.any fun m => m.arch ≠ "" ∧ m.arch ≠ "amd64" ∧ m.arch ≠ "x86_64")
      (.msg "Windows manifest architecture must be amd64")
    failIf (img.more.rootCompression ≠ "" ∧ img.more.rootCompression ≠ "none")
      (.msg "Windows WIM must not use external compression")
    failIf (img.more.bootModes ≠ ["uefi"])
      (.msg "Windows deployment requires manifest.bootModes [uefi]")
    failIf (img.more.imageIndex ≤ 0) (.msg "manifest.windows.imageIndex must be positive")
    validateArtifacts [] img.windowsArtifacts

/-- The texts of the deployment targets that are known. -/
def isDeploymentTarget (target : String) : Bool := target = "vm" ∨ target = "baremetal"

/-- `manifestDeclaresDeploymentTarget`. -/
def Image.declares (img : Image) (target : DeploymentTarget) : Bool :=
  img.manifest.any fun m => target.text ∈ m.deployTargets

/-- The manifest has a root artifact. -/
def Image.hasRoot (img : Image) : Bool := img.manifest.any fun m => trimSpace m.rootPath ≠ ""

/-- `ValidateOSImage`. -/
def validateOSImage (img : Image) : Except Err Unit := do
  let known (format : ImageFormat) : Bool :=
    format.text = "" ∨ format = .qcow2 ∨ format = .squashfs ∨ format = .wim
  failIf (trimSpace img.name = "") (.msg "name is required")
  failIf (trimSpace img.osFamily = "") (.msg "osFamily is required")
  failIf (trimSpace img.osVersion = "") (.msg "osVersion is required")
  failIf (¬known img.format) (.msg ("unsupported format: " ++ img.format.text))
  let format := effectiveImageFormat img.toOSImage
  failIf (¬known format) (.msg ("unsupported format: " ++ format.text))
  match (img.manifest.map (·.deployTargets)).getD [] |>.find? (!isDeploymentTarget ·) with
  | some target => .error (.msg ("unsupported deployment target: " ++ target))
  | none =>
  failIf (format ≠ .qcow2 ∧ format ≠ .wim ∧ img.declares .vm)
    (.msg ("deployment target vm requires qcow2 image, got " ++ format.text))
  match img.source with
  | .other text => .error (.msg ("unsupported source: " ++ text))
  | _ =>
  match img.variant with
  | .other text => .error (.msg ("unsupported variant: " ++ text))
  | _ =>
  failIf (img.source = .url ∧ trimSpace img.url = "") (.msg "url is required for url source")
  if format = .qcow2 ∧ supportsDeploymentTarget img.toOSImage .baremetal then
    failIf (!img.hasRoot) (.msg "manifest.root.path is required for bare-metal qcow2 images")
    failIf (¬img.manifest.any fun m => 0 < m.rootPartitionNumber)
      (.msg "manifest.root.rootPartition.number is required for bare-metal qcow2 images")
    validateBareMetalQCOW2ModuleMetadata img
  failIf (format = .squashfs ∧ img.declares .baremetal ∧ !img.hasRoot)
    (.msg "manifest.root.path is required for bare-metal squashfs images")
  validateWindowsImage img

end Gomi.Images
