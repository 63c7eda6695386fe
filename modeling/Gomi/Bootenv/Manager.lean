import Gomi.Files
import Gomi.Go.Date

/-!
# The manager of boot environments

`internal/bootenv`: a boot environment is a kernel, an initial ramdisk and a root file system. They
are fetched from where a manifest says, are checked, and are published: the link `current` and three
links of the directory `linux` of the PXE server are switched to them.

The state is a `Gomi.Bootenv.World`. The data directory of the manager and the directory of the PXE
server are apart, as `internal/app/app.go` configures them, so that they are two trees here; the
target of a link of the second is a path of the first. The data directory is absolute: a path below a
relative one would be a link target that is read from where the link is. What a source answers is up
to the source. Log lines, the messages and the times of a status, and the texts of system errors are
left out. A relative link is given by the path that it denotes.
-/

namespace Gomi.Bootenv

open Go Files

/-! ### The system -/

/-- The files of a boot environment, by their keys in a manifest. -/
inductive Artifact where
  | kernel
  | initrd
  | rootfs
  deriving DecidableEq

/-- The key in a manifest. -/
def Artifact.key : Artifact → String
  | .kernel => "kernel"
  | .initrd => "initrd"
  | .rootfs => "rootfs"

/-- The name of the file. -/
def Artifact.fileName : Artifact → String
  | .kernel => "boot-kernel"
  | .initrd => "boot-initrd"
  | .rootfs => "rootfs.squashfs"

/-- The artifacts, in the order in which they are linked. -/
def artifacts : List Artifact := [.kernel, .initrd, .rootfs]

/-- `Phase`. -/
inductive Phase where
  | missing
  | building
  | ready
  | error
  deriving DecidableEq

/-- `Status`. -/
structure Status where
  phase : Phase
  artifactDir : Option Path := none
  deriving DecidableEq

/-- The state: what is on the disk, the clock, and what the manager remembers of the environment. -/
structure World where
  data : Tree := fun _ => none
  files : Tree := fun _ => none
  clock : Time := 0
  status : Option Status := none
  running : Bool := false

/-- The operations of a build. -/
inductive Op where
  /-- `time.Now`. -/
  | now
  /-- A system call on the data directory. -/
  | data (o : Files.Op)
  /-- A system call on the directory of the PXE server. -/
  | files (o : Files.Op)
  /-- An HTTP request: the status of the answer, and its body. -/
  | get (url : String)
  /-- A source that is a local file: its content. -/
  | openSource (path : String)
  /-- Whether the context has ended. -/
  | cancelled
  /-- The order in which a map of the artifacts is gone through. -/
  | mapOrder
  /-- The status that is remembered, and whether a build is running. -/
  | observe
  /-- A build is announced. -/
  | announce
  /-- `finishBuild`. -/
  | finish (st : Status)

/-- The replies to an operation. -/
def Res : Op → Type
  | .now => Time
  | .data o => Files.Res o
  | .files o => Files.Res o
  | .get _ => Option (ℕ × List UInt8)
  | .openSource _ => Option (List UInt8)
  | .cancelled => Bool
  | .mapOrder => { order : List Artifact // order.Perm artifacts }
  | .observe => Option Status × Bool
  | .announce => Unit
  | .finish _ => Unit

/-- **The semantics of the operations**: the state after an operation was replied to, if that reply is
possible. The clock does not go back. -/
def step : (o : Op) → World → Res o → Option World
  | .now, w, (t : Time) => if w.clock ≤ t then some { w with clock := t } else none
  | .data o, w, r => (Files.step o w.data r).map fun t => { w with data := t }
  | .files o, w, r => (Files.step o w.files r).map fun t => { w with files := t }
  | .get _, w, _ => some w
  | .openSource _, w, _ => some w
  | .cancelled, w, _ => some w
  | .mapOrder, w, _ => some w
  | .observe, w, (r : Option Status × Bool) => if r = (w.status, w.running) then some w else none
  | .announce, w, _ => some { w with status := some { phase := .building }, running := true }
  | .finish st, w, _ => some { w with status := some st, running := false }

namespace Client

/-- `m.now()`. -/
abbrev now : Prog Res Time := .perform Op.now

/-- A system call on the data directory. -/
abbrev data (o : Files.Op) : Prog Res (Files.Res o) := .perform (Op.data o)

/-- A system call on the directory of the PXE server. -/
abbrev files (o : Files.Op) : Prog Res (Files.Res o) := .perform (Op.files o)

/-- An HTTP request. -/
abbrev get (url : String) : Prog Res (Option (ℕ × List UInt8)) := .perform (Op.get url)

/-- `os.Open`, of a source. -/
abbrev openSource (path : String) : Prog Res (Option (List UInt8)) := .perform (Op.openSource path)

/-- `ctx.Err() != nil`. -/
abbrev cancelled : Prog Res Bool := .perform Op.cancelled

/-- The order of a map. -/
abbrev mapOrder : Prog Res { order : List Artifact // order.Perm artifacts } := .perform Op.mapOrder

/-- What is remembered. -/
abbrev observe : Prog Res (Option Status × Bool) := .perform Op.observe

/-- A build is announced. -/
abbrev announce : Prog Res Unit := .perform Op.announce

/-- `finishBuild`. -/
abbrev finish (st : Status) : Prog Res Unit := .perform (Op.finish st)

end Client

/-! ### Manifests -/

/-- `prebuiltArtifact`. -/
structure PrebuiltArtifact where
  path : String := ""
  url : String := ""
  sha256 : String := ""
  size : ℤ := 0

/-- `prebuiltManifest`. -/
structure PrebuiltManifest where
  name : String
  artifacts : Artifact → Option PrebuiltArtifact

/-- What of the Go standard library a build depends on: `sha256.Sum256`, `json.Unmarshal` of a
manifest, `json.MarshalIndent` of a status, and the path that `url.Parse` finds. -/
structure Lib where
  sha256 : List UInt8 → List UInt8
  parseManifest : List UInt8 → Option PrebuiltManifest
  statusJSON : (artifactDir logPath : Path) → Time → List UInt8
  parseURLPath : String → Option String

/-- The settings of the manager, and the name of the boot environment. -/
structure Config where
  dataDir : Path
  filesDir : Path
  sourceURL : String
  name : String := "ubuntu-minimal-cloud-amd64"

variable (lib : Lib) (cfg : Config)

/-- The check of one artifact of a manifest. -/
def validateArtifact (manifest : PrebuiltManifest) (a : Artifact) : Except Err Unit :=
  match manifest.artifacts a with
  | none => .error (.msg ("boot environment manifest missing artifact \"" ++ a.key ++ "\""))
  | some artifact => do
    failIf (trimSpace artifact.path = "" ∧ trimSpace artifact.url = "")
      (.msg ("boot environment artifact \"" ++ a.key ++ "\" requires path or url"))
    failIf (trimSpace artifact.sha256 = "")
      (.msg ("boot environment artifact \"" ++ a.key ++ "\" requires sha256"))

/-- `validatePrebuiltManifest`. -/
def validatePrebuiltManifest (manifest : PrebuiltManifest) : Except Err Unit := do
  failIf (trimSpace manifest.name ≠ cfg.name)
    (.msg ("boot environment manifest name mismatch: expected " ++ cfg.name ++ " got " ++ manifest.name))
  validateArtifact manifest .kernel
  validateArtifact manifest .initrd
  validateArtifact manifest .rootfs

/-! ### Locations -/

/-- `isHTTPLocation`. -/
def isHTTPLocation (raw : String) : Bool := hasPrefix raw "http://" || hasPrefix raw "https://"

/-- `localPathFromLocation`. -/
def localPathFromLocation (raw : String) : String :=
  if hasPrefix raw "file://" then (lib.parseURLPath raw).getD raw else raw

/-- `resolvePrebuiltManifestLocation`: the location of the manifest, and the one that paths in it are
relative to. -/
def resolvePrebuiltManifestLocation (raw : String) : String × String :=
  let raw := trimSpace raw
  if isHTTPLocation raw then
    let trimmed := trimRight raw '/'
    if hasSuffix trimmed ".json" then (trimmed, ((splitLast trimmed '/').map (·.1)).getD "")
    else (trimmed ++ "/manifest.json", trimmed)
  else
    let path := localPathFromLocation lib raw
    if hasSuffix path ".json" then (path, dirText path) else (joinText path "manifest.json", path)

/-- `resolvePrebuiltArtifactLocation`. -/
def resolvePrebuiltArtifactLocation (base : String) (artifact : PrebuiltArtifact) : String :=
  if trimSpace artifact.url ≠ "" then trimSpace artifact.url
  else
    let path := trimSpace artifact.path
    if isHTTPLocation base then trimRight base '/' ++ "/" ++ trimLeft path '/' else joinText base path

/-! ### Transfers -/

/-- `readLocation`. -/
def readLocation (raw : String) : Prog Res (Except Err (List UInt8)) := do
  if isHTTPLocation raw then
    match ← Client.get raw with
    | none => return .error (.msg ("fetch " ++ raw))
    | some (status, body) =>
      if status ≠ 200 then return .error (.msg ("fetch " ++ raw ++ ": status " ++ toString status))
      else return .ok body
  else
    match ← Client.openSource (localPathFromLocation lib raw) with
    | none => return .error (.msg "open")
    | some content => return .ok content

/-- A file is filled, and takes the place of another one. -/
def fillAndRename (chmod : Bool) (tmp dst : Path) (content : List UInt8) :
    Prog Res (Except Err Unit) := do
  match ← Client.data (.copy tmp content) with
  | .cut _ | .failed =>
    let _ ← Client.data (.close tmp)
    return .error (.msg "write")
  | .done =>
  if !(← Client.data (.close tmp)) then return .error (.msg "close")
  else
  let changed : Bool ← (if chmod then Client.data (.chmod tmp) else return true)
  if !changed then return .error (.msg "chmod")
  else
  if !(← Client.data (.rename tmp dst)) then return .error (.msg "rename") else return .ok ()

/-- A file is written under another name first. -/
def writeVia (chmod : Bool) (tmp dst : Path) (content : List UInt8) : Prog Res (Except Err Unit) := do
  if !(← Client.data (.create tmp)) then return .error (.msg "open")
  else
  let result ← fillAndRename chmod tmp dst content
  -- the deferred removal of the temporary file
  let _ ← Client.data (.remove tmp)
  return result

/-- `downloadFileOnce`. -/
def downloadFileOnce (url : String) (dst : Path) : Prog Res (Except Err Unit) := do
  if !(← Client.data (.mkdirAll dst.dropLast)) then return .error (.msg "mkdir")
  else
  match ← Client.get url with
  | none => return .error (.msg ("download " ++ url))
  | some (status, body) =>
  if status ≠ 200 then return .error (.msg ("download " ++ url ++ ": status " ++ toString status))
  else writeVia false (suffixed dst ".download") dst body

/-- `downloadFile`, with a number of attempts that are left after the next one. -/
def downloadFile (url : String) (dst : Path) : ℕ → Prog Res (Except Err Unit)
  | 0 => downloadFileOnce url dst
  | n + 1 => do
    match ← downloadFileOnce url dst with
    | .ok _ => return .ok ()
    | .error e => if ← Client.cancelled then return .error e else downloadFile url dst n

/-- `copyFile`. -/
def copyFile (src : String) (dst : Path) : Prog Res (Except Err Unit) := do
  match ← Client.openSource src with
  | none => return .error (.msg "open")
  | some content =>
  if !(← Client.data (.mkdirAll dst.dropLast)) then return .error (.msg "mkdir")
  else writeVia true (suffixed dst ".tmp") dst content

/-- `copyLocation`. -/
def copyLocation (src : String) (dst : Path) : Prog Res (Except Err Unit) := do
  if isHTTPLocation src then
    match ← downloadFile src dst 2 with
    | .error e => return .error e
    | .ok _ => if !(← Client.data (.chmod dst)) then return .error (.msg "chmod") else return .ok ()
  else copyFile (localPathFromLocation lib src) dst

/-- Whether a content is what a digest says, if it says something. -/
def matchesDigest (digest : String) (content : List UInt8) : Bool :=
  let expected := trimSpace (trimPrefix digest "sha256:")
  expected = "" ∨ equalFold (hexEncode (lib.sha256 content)) expected

/-- `verifySHA256`. -/
def verifySHA256 (path : Path) (digest : String) : Prog Res (Except Err Unit) := do
  if trimSpace (trimPrefix digest "sha256:") = "" then return .ok ()
  else
  match ← Client.data (.read path) with
  | none => return .error (.msg "open")
  | some content =>
    if matchesDigest lib digest content then return .ok ()
    else return .error (.msg ("checksum mismatch for /" ++ "/".intercalate path ++ ": expected " ++
      trimSpace (trimPrefix digest "sha256:") ++ " got " ++ hexEncode (lib.sha256 content)))

/-- The check of the size of an artifact. -/
def verifySize (path : Path) (name : String) (size : ℤ) : Prog Res (Except Err Unit) := do
  if size ≤ 0 then return .ok ()
  else
  match ← Client.data (.stat path) with
  | none => return .error (.msg "stat")
  | some .directory => return .error (.msg ("size mismatch for " ++ name))
  | some (.file n) =>
    if (n : ℤ) = size then return .ok ()
    else return .error (.msg ("size mismatch for " ++ name ++ ": expected " ++ toString size ++ " got " ++
      toString n))

/-! ### Directories -/

/-- The directory of the builds. -/
def Config.artifactsDir : Path := cfg.dataDir ++ ["artifacts", cfg.name]

/-- The directory of a build. -/
def Config.artifactDir (buildID : String) : Path := cfg.artifactsDir ++ [buildID]

/-- The link to the build that was published last. -/
def Config.current : Path := cfg.artifactsDir ++ ["current"]

/-- The directory in which a build works. -/
def Config.buildDir (buildID : String) : Path := cfg.dataDir ++ ["builds", cfg.name ++ "-" ++ buildID]

/-- The log of a build. -/
def Config.logPath (buildID : String) : Path :=
  cfg.dataDir ++ ["logs", cfg.name ++ "-" ++ buildID ++ ".log"]

/-- The file of the PXE server for an artifact. -/
def Config.linux (a : Artifact) : Path := cfg.filesDir ++ ["linux", a.fileName]

/-! ### Publication -/

/-- `publishPXECompatibilityFiles`, from one file on. -/
def publishFiles (artifactDir : Path) : List Artifact → Prog Res (Except Err Unit)
  | [] => return .ok ()
  | a :: rest => do
    let dst := cfg.linux a
    let tmp := suffixed dst ".tmp"
    let _ ← Client.files (.remove tmp)
    if !(← Client.files (.symlink (artifactDir ++ [a.fileName]) tmp)) then
      return .error (.msg "symlink")
    else
    let renamed : Bool ← Client.files (.rename tmp dst)
    let result ← (if renamed then publishFiles artifactDir rest else return .error (.msg "rename"))
    -- the deferred removal of the temporary link
    let _ ← Client.files (.remove tmp)
    return result

/-- `publishPXECompatibilityFiles`. -/
def publishPXECompatibilityFiles (artifactDir : Path) : Prog Res (Except Err Unit) := do
  if !(← Client.files (.mkdirAll (cfg.filesDir ++ ["linux"]))) then return .error (.msg "mkdir")
  else publishFiles cfg artifactDir artifacts

/-- `writeStatusFile`. -/
def writeStatusFile (artifactDir logPath : Path) : Prog Res (Except Err Unit) := do
  let now ← Client.now
  let written : Written ← Client.data (.writeFile (artifactDir ++ ["status.json"])
    (lib.statusJSON artifactDir logPath now ++ [10]))
  if written ≠ .done then return .error (.msg "write") else return .ok ()

/-- `publishCurrent`. -/
def publishCurrent (buildID : String) (artifactDir logPath : Path) : Prog Res (Except Err Unit) := do
  let tmp := suffixed cfg.current ".tmp"
  let _ ← Client.data (.remove tmp)
  if !(← Client.data (.symlink (cfg.artifactDir buildID) tmp)) then return .error (.msg "symlink")
  else
  let renamed : Bool ← Client.data (.rename tmp cfg.current)
  let result ← (if renamed then writeStatusFile lib artifactDir logPath else return .error (.msg "rename"))
  -- the deferred removal of the temporary link
  let _ ← Client.data (.remove tmp)
  return result

/-! ### Builds -/

/-- The artifacts of a manifest are fetched and checked, one after another. -/
def fetchArtifacts (base : String) (manifest : PrebuiltManifest) (artifactDir : Path) :
    List Artifact → Prog Res (Except Err Unit)
  | [] => return .ok ()
  | a :: rest => do
    let artifact := (manifest.artifacts a).getD {}
    let dst := artifactDir ++ [a.fileName]
    match ← copyLocation lib (resolvePrebuiltArtifactLocation base artifact) dst with
    | .error e => return .error e
    | .ok _ =>
    match ← verifySHA256 lib dst artifact.sha256 with
    | .error e => return .error e
    | .ok _ =>
    match ← verifySize dst a.fileName artifact.size with
    | .error e => return .error e
    | .ok _ => fetchArtifacts base manifest artifactDir rest

/-- The part of `fetchPrebuilt` after which the directory of the build is removed if it failed. -/
def installPrebuilt (buildID base : String) (raw : List UInt8) (manifest : PrebuiltManifest) :
    Prog Res (Except Err Unit) := do
  let artifactDir := cfg.artifactDir buildID
  if !(← Client.data (.mkdirAll artifactDir)) then return .error (.msg "mkdir")
  else
  let order ← Client.mapOrder
  match ← fetchArtifacts lib base manifest artifactDir order.val with
  | .error e => return .error e
  | .ok _ =>
  let written : Written ← Client.data (.writeFile (artifactDir ++ ["manifest.json"]) (raw ++ [10]))
  if written ≠ .done then return .error (.msg "write")
  else
  match ← publishPXECompatibilityFiles cfg artifactDir with
  | .error e => return .error e
  | .ok _ => publishCurrent lib cfg buildID artifactDir (cfg.logPath buildID)

/-- `fetchPrebuilt`. -/
def fetchPrebuilt (buildID : String) : Prog Res (Except Err Status) := do
  let (manifestLocation, base) := resolvePrebuiltManifestLocation lib cfg.sourceURL
  match ← readLocation lib manifestLocation with
  | .error e => return .error e
  | .ok raw =>
  match lib.parseManifest raw with
  | none => return .error (.msg "parse boot environment manifest")
  | some manifest =>
  match validatePrebuiltManifest cfg manifest with
  | .error e => return .error e
  | .ok _ =>
  match ← installPrebuilt lib cfg buildID base raw manifest with
  | .error e =>
    let _ ← Client.data (.removeAll (cfg.artifactDir buildID))
    return .error e
  | .ok _ =>
    let _ ← Client.data (.writeFile (cfg.buildDir buildID ++ [".prebuilt"])
      (manifestLocation ++ "\n").toUTF8.data.toList)
    return .ok { phase := .ready, artifactDir := some (cfg.artifactDir buildID) }

/-- Whether files are there and are not empty. -/
def filesPresent (dir : Path) : List Artifact → Prog Res Bool
  | [] => return true
  | a :: rest => do
    match ← Client.data (.stat (dir ++ [a.fileName])) with
    | none => return false
    | some .directory => return false
    | some (.file size) => if size = 0 then return false else filesPresent dir rest

/-- `currentArtifactDir`. -/
def currentArtifactDir : Prog Res (Option Path) := do
  match ← Client.data (.evalSymlinks cfg.current) with
  | none => return none
  | some resolved => if ← filesPresent resolved artifacts then return some resolved else return none

/-- `Status`: what is remembered while a build is running or after one that failed, and otherwise what
is on the disk. -/
def status : Prog Res Status := do
  match ← Client.observe with
  | (some st, running) =>
    if running ∨ st.phase = .error then return st
    else
      match ← currentArtifactDir cfg with
      | some dir => return { phase := .ready, artifactDir := some dir }
      | none => return { phase := .missing }
  | (none, _) =>
    match ← currentArtifactDir cfg with
    | some dir => return { phase := .ready, artifactDir := some dir }
    | none => return { phase := .missing }

/-- The part of `build` during which there is a build directory. -/
def buildIn (buildID : String) : Prog Res (Except Err Status) := do
  if !(← Client.data (.mkdirAll (cfg.dataDir ++ ["logs"]))) then return .error (.msg "mkdir")
  else
  if !(← Client.data (.create (cfg.logPath buildID))) then return .error (.msg "open")
  else
  if cfg.sourceURL = "" then return .error (.msg "boot environment source URL is required")
  else fetchPrebuilt lib cfg buildID

/-- `build`. -/
def build (force : Bool) : Prog Res (Except Err Status) := do
  let st ← (if force then return { phase := .building } else status cfg)
  if !force ∧ st.phase = .ready then return .ok st
  else
  let now ← Client.now
  let buildID := compactStamp now
  if !(← Client.data (.mkdirAll (cfg.buildDir buildID))) then return .error (.msg "mkdir")
  else
  let result ← buildIn lib cfg buildID
  -- the deferred removal of the build directory
  let _ ← Client.data (.removeAll (cfg.buildDir buildID))
  return result

/-- `start`, with the build that it starts; `Ensure` is the same without `force`. There is no answer
if nothing is built. -/
def start (force : Bool) : Prog Res (Option (Except Err Status)) := do
  let st ← (if force then return { phase := .building } else status cfg)
  if !force ∧ st.phase = .ready then return none
  else
  let (_, running) ← Client.observe
  if running then return none
  else
  Client.announce
  let result ← build lib cfg force
  match result with
  | .ok st => Client.finish st
  | .error _ => Client.finish { phase := .error }
  return some result

end Gomi.Bootenv
