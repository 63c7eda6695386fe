import Gomi.Machine.Types
import Gomi.Go.Net

/-!
# Validation of machine records

`internal/machine/validate.go`, `internal/machine/windows.go`,
`internal/power/validate.go` and `internal/resource`: the checks that a record
passes before it is stored, in the order of the source and with its error texts.

The regular expressions of the source are recognisers on lists of characters
(`Gomi.isUnixDisk`, `Gomi.linuxUsernamePattern`, …).
-/

namespace Gomi

open Go

/-! ### Texts of enumerations -/

/-- The text of a firmware. -/
def Firmware.text : Firmware → String
  | .uefi => "uefi"
  | .bios => "bios"
  | .other text => text

/-- `strconv.Quote`; only quotes, backslashes and the control characters of ASCII
are escaped. -/
def quote (s : String) : String :=
  let escape (c : Char) : List Char :=
    if c = '"' ∨ c = '\\' then ['\\', c]
    else if c = '\n' then ['\\', 'n']
    else if c = '\r' then ['\\', 'r']
    else if c = '\t' then ['\\', 't']
    else if c.toNat < 32 ∨ c.toNat = 127 then '\\' :: 'x' :: hexPair (UInt8.ofNat c.toNat)
    else [c]
  String.ofList ('"' :: s.toList.flatMap escape ++ ['"'])

/-! ### Disks, architectures, names -/

/-- What follows `start` in a list that begins with it. -/
def afterStart (start : String) (l : List Char) : Option (List Char) :=
  if start.toList.isPrefixOf l then some (l.drop start.toList.length) else none

/-- `-part[0-9]+$`: the name of a partition link. -/
def isPartitionLink (name : String) : Bool :=
  let digits := name.toList.rtakeWhile isDigit
  let front := name.toList.rdropWhile isDigit
  !digits.isEmpty && "-part".toList.isSuffixOf front

/-- `^/dev/(sd|vd|xvd)[a-z]+$`. -/
def isUnixDisk (l : List Char) : Bool :=
  ["/dev/sd", "/dev/vd", "/dev/xvd"].any fun start => (afterStart start l).any (allOf isLower)

/-- `^/dev/nvme[0-9]+n[0-9]+$`. -/
def isNVMeDisk (l : List Char) : Bool :=
  match afterStart "/dev/nvme" l with
  | none => false
  | some rest =>
    !(rest.takeWhile isDigit).isEmpty &&
      (afterStart "n" (rest.dropWhile isDigit)).any (allOf isDigit)

/-- `^/dev/mmcblk[0-9]+$`. -/
def isMMCDisk (l : List Char) : Bool := (afterStart "/dev/mmcblk" l).any (allOf isDigit)

/-- `IsWholeDiskPath`. -/
def isWholeDiskPath (path : String) : Bool :=
  let path := trimSpace path
  if path = "" then false
  else if hasPrefix path "/dev/disk/by-id/" || hasPrefix path "/dev/disk/by-path/" then
    !isPartitionLink (base path)
  else isUnixDisk path.toList || isNVMeDisk path.toList || isMMCDisk path.toList

example : isWholeDiskPath "/dev/nvme0n1" = true ∧ isWholeDiskPath "/dev/nvme0n1p2" = false ∧
    isWholeDiskPath "/dev/disk/by-id/wwn-1-part2" = false := by decide

/-- `CanonicalArch`. -/
def canonicalArch (arch : String) : String :=
  let a := toLower (trimSpace arch)
  if a = "amd64" ∨ a = "x86_64" then "amd64"
  else if a = "arm64" ∨ a = "aarch64" then "arm64"
  else if a = "i386" ∨ a = "386" ∨ a = "x86" then "i386"
  else ""

/-- `^[a-z_][a-z0-9_-]{0,31}$`. -/
def linuxUsernamePattern (name : String) : Bool :=
  match name.toList with
  | [] => false
  | c :: rest =>
    (isLower c || c == '_') && rest.length ≤ 31 &&
      rest.all fun c => isLower c || isDigit c || c == '_' || c == '-'

/-- `ValidateLoginUser`. -/
def validateLoginUser : Option LoginUserSpec → Except Err Unit
  | none => .ok ()
  | some u =>
    let name := trimSpace u.username
    if name = "" then .error (.msg "loginUser.username is required when loginUser is set")
    else if !linuxUsernamePattern name then
      .error (.msg ("loginUser.username is invalid: " ++ quote name))
    else .ok ()

/-! ### Power -/

/-- `power.ValidatePowerConfig`. -/
def validatePowerConfig (cfg : PowerConfig) : Except Err Unit :=
  match cfg.type with
  | .ipmi => match cfg.ipmi with
    | none => .error (.msg "power.ipmi is required for ipmi type")
    | some c =>
      if trimSpace c.host = "" then .error (.msg "power.ipmi.host is required") else .ok ()
  | .webhook => match cfg.webhook with
    | none => .error (.msg "power.webhook is required for webhook type")
    | some c =>
      if trimSpace c.powerOnURL = "" ∨ trimSpace c.powerOffURL = "" then
        .error (.msg "power.webhook.powerOnURL and powerOffURL are required")
      else .ok ()
  | .wol => match cfg.wol with
    | none => .error (.msg "power.wol is required for wol type")
    | some c =>
      if trimSpace c.wakeMAC = "" then
        .error (.msg ("power.wol.wakeMAC is required: set the MAC address of the target " ++
          "machine for Wake-on-LAN"))
      else .ok ()
  | .manual => .ok ()
  | .other text => .error (.msg ("unsupported power type: " ++ text))

/-! ### References and addresses -/

/-- The first reference of `refs` that is already in `seen` or comes twice, up to
space around it; empty ones do not count. -/
def duplicateRef (seen : List String) : List String → Option String
  | [] => none
  | raw :: refs =>
    let ref := trimSpace raw
    if ref = "" then duplicateRef seen refs
    else if ref ∈ seen then some ref
    else duplicateRef (ref :: seen) refs

/-- `resource.ValidateCloudInitRefs`. -/
def validateCloudInitRefs (legacyRef : String) (refs : List String) : Except Err Unit :=
  let ref := trimSpace legacyRef
  match duplicateRef (if ref = "" then [] else [ref]) refs with
  | none => .ok ()
  | some ref =>
    .error (.msg ("spec.cloudInitRef/spec.cloudInitRefs must not contain duplicates: " ++ ref))

/-- The trimmed, non-empty members of a list, each at its first occurrence: the loop
of `NormalizeCloudInitRefs` and of `normalizeSSHKeyRefs`. -/
def normalizeRefs (out : List String) : List String → List String
  | [] => out
  | raw :: refs =>
    let ref := trimSpace raw
    if ref = "" ∨ ref ∈ out then normalizeRefs out refs else normalizeRefs (out ++ [ref]) refs

/-- `resource.NormalizeCloudInitRefs`. -/
def normalizeCloudInitRefs (legacyRef : String) (refs : List String) : List String :=
  normalizeRefs [] (legacyRef :: refs)

/-- `normalizeSSHKeyRefs`. -/
def normalizeSSHKeyRefs (refs : List String) : List String := normalizeRefs [] refs

/-- `resource.ResolveCloudInitRef`. -/
def resolveCloudInitRef (lastDeployed legacyRef : String) (refs : List String) : String :=
  ((lastDeployed :: refs).map trimSpace |>.find? (· ≠ "")).getD (trimSpace legacyRef)

/-- `resource.ValidateIPAssignment`. -/
def validateIPAssignment (mode : IPAssignmentMode) (staticIP : String) : Except Err Unit :=
  match mode with
  | .other text =>
    if text = "" then .ok () else .error (.msg ("unsupported ipAssignment: " ++ text))
  | .static =>
    if parseIP (trimSpace staticIP) = none then
      .error (.msg "ip is required when ipAssignment is static")
    else .ok ()
  | _ => .ok ()

/-! ### Windows targets -/

/-- `resource.ValidateWindowsHostname`: between 1 and 15 letters, digits or hyphens,
no hyphen at an end, not all digits. -/
def validateWindowsHostname (name : String) : Except Err Unit :=
  let alnum (c : Char) : Bool := isLower c || isUpper c || isDigit c
  let l := name.toList
  if l ≠ [] ∧ l.length ≤ 15 ∧ l.all (fun c => alnum c || c == '-') ∧ l.head?.any alnum ∧
      l.getLast?.any alnum ∧ ¬ l.all isDigit then .ok ()
  else .error (.msg ("Windows computer name must be 1-15 letters, digits, or hyphens, start and " ++
    "end with a letter or digit, and not be all digits"))

/-- `NodeDisplayName`. -/
def Machine.nodeDisplayName (m : Machine) : String :=
  let h := trimSpace m.hostname
  if h ≠ "" then h else m.name

/-- `validateWindowsTarget`. -/
def validateWindowsTarget (m : Machine) : Except Err Unit := do
  validateWindowsHostname m.nodeDisplayName
  failIf (m.firmware ≠ .uefi ∨ canonicalArch m.arch ≠ "amd64")
    (.msg "Windows deployment requires amd64 UEFI target")
  failIf (m.role = .hypervisor)
    (.msg "Windows hypervisor-role machines are unsupported")
  failIf (m.sealedBootstrap.isSome)
    (.msg "Windows sealed bootstrap is unsupported")
  failIf (m.targetDisk ≠ "")
    (.msg "Windows cannot use Linux targetDisk paths; exactly one fixed disk is required")
  failIf (m.osPreset.installConfig.isEmpty = false ∨ m.cloudInitRef ≠ "" ∨ m.cloudInitRefs ≠ [] ∨
      m.sshKeyRefs ≠ [] ∨ m.loginUser.isSome)
    (.msg ("Windows deployment does not support cloud-init, SSH keys, loginUser, or Linux " ++
      "installConfig; finish account setup in Windows OOBE"))
  failIf (m.ipAssignment = .static)
    (.msg "Windows deployment currently requires DHCP")

/-- `resetLinuxDeploymentForWindows`. -/
def resetLinuxDeploymentForWindows (m : Machine) : Machine :=
  { m with cloudInitRef := "", cloudInitRefs := [], lastDeployedCloudInitRef := "",
           sshKeyRefs := [], loginUser := none, targetDisk := "", ipAssignment := .dhcp, ip := "" }

/-- Whether an OS family is Windows, as every caller tests it. -/
def isWindowsFamily (family : String) : Bool := equalFold family "windows"

/-- `ValidateMachine`. -/
def validateMachine (m : Machine) : Except Err Unit := do
  failIf (trimSpace m.name = "")
    (.msg "name is required")
  failIf (parseMAC m.mac = none)
    (.msg "mac is invalid")
  failIf (canonicalArch m.arch = "")
    (.msg ("unsupported or missing arch: " ++ m.arch))
  failIf (trimSpace m.osPreset.family = "")
    (.msg "os family is required")
  failIf (m.firmware ≠ .uefi ∧ m.firmware ≠ .bios)
    (.msg ("unsupported firmware: " ++ m.firmware.text))
  failIf (trimSpace m.targetDisk ≠ "" ∧ !isWholeDiskPath (trimSpace m.targetDisk))
    (.msg ("targetDisk must be a whole disk path: " ++ trimSpace m.targetDisk))
  validateCloudInitRefs m.cloudInitRef m.cloudInitRefs
  validatePowerConfig m.power
  validateIPAssignment m.ipAssignment m.ip
  (if isWindowsFamily m.osPreset.family then validateWindowsTarget m else .ok ())
  validateLoginUser m.loginUser

end Gomi
