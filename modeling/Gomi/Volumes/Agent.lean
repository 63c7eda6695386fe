import Gomi.Volumes.Storage

/-!
# The agent on a hypervisor

`cmd/gomi-hypervisor`: the agent fetches the list of OS images from the server, brings the copy of
each image that is ready up to date, and removes the copies of images that are gone. The copy of
an image is named after the image and its format; next to it there is a *marker*, a file that
says that the copy is the agent's to remove, and while it is written there are other files with
its name at the start.

The directory of the agent is the one of the volumes, which is the default of both.
-/

namespace Gomi.Volumes

open Go

/-! ### Names -/

/-- `isArtifactImage`. -/
def isArtifactImage (img : Image) : Bool :=
  img.manifest.any fun manifest => trimSpace manifest.rootPath ≠ ""

/-- `resourceName`. -/
def resourceName (collection id : String) : String :=
  let id := trimSpace id
  if id = "" then "" else if hasPrefix id (collection ++ "/") then id else collection ++ "/" ++ id

/-- `osImageID`, of an image as the server sends it. -/
def osImageID (img : Image) : String :=
  let id := trimSpace img.name
  if id ≠ "" then id else trimPrefix (trimSpace (resourceName "osImages" img.name)) "osImages/"

/-- The format of the copy of an image. -/
def syncedFormat (img : Image) : String :=
  let format := match img.manifest with
    | some manifest =>
      if isArtifactImage img ∧ trimSpace manifest.rootFormat.text ≠ "" then
        trimSpace manifest.rootFormat.text
      else trimSpace img.format.text
    | none => trimSpace img.format.text
  if format = "" then "qcow2" else format

/-- `syncedImageFilename`. -/
def syncedImageFilename (img : Image) : String := osImageID img ++ ("." ++ syncedFormat img)

/-- `filepath.Join(cfg.ImageDir, filename)`. -/
def destPath (filename : String) : FilePath := child hypervisorImageDir filename

/-- `artifactSourceChecksum`. -/
def artifactSourceChecksum (img : Image) : String :=
  if isArtifactImage img then trimSpace img.rootSHA256 else ""

/-! ### System calls -/

namespace Client

/-- `os.Stat`. -/
abbrev stat (p : FilePath) : Prog Res (Option ℕ) := .perform (Op.stat p)

/-- The content of a file. -/
abbrev readFile (p : FilePath) : Prog Res (Option String) := .perform (Op.readFile p)

/-- `os.Create`. -/
abbrev createFile (p : FilePath) : Prog Res Bool := .perform (Op.createFile p)

/-- `io.Copy`. -/
abbrev copyTo (p : FilePath) (content : String) : Prog Res Written := .perform (Op.copyTo p content)

/-- `os.Rename`. -/
abbrev rename (p q : FilePath) : Prog Res Bool := .perform (Op.rename p q)

/-- `os.Remove`. -/
abbrev remove (p : FilePath) : Prog Res Bool := .perform (Op.remove p)

/-- `os.WriteFile`. -/
abbrev writeFile (p : FilePath) (content : String) : Prog Res Written :=
  .perform (Op.writeFile p content)

/-- `os.ReadDir`. -/
abbrev readDir : Prog Res (Option (List String)) := .perform Op.readDir

/-- `os.MkdirAll`. -/
abbrev mkdirAll : Prog Res Bool := .perform Op.mkdirAll

/-- An HTTP request. -/
abbrev getURL (url : String) : Prog Res (Except String Download) := .perform (Op.getURL url)

/-- A command that decompresses a file. -/
abbrev decompress (command : String) (p : FilePath) : Prog Res (Except String String) :=
  .perform (Op.decompress command p)

/-- `fetchImages`. -/
abbrev fetchImages : Prog Res (Except String (List Image)) := .perform Op.fetchImages

end Client

/-! ### `files.go` -/

/-- `managedMarkerSuffix`. -/
def managedMarkerSuffix : String := ".gomi-managed"

/-- `sourceChecksumSuffix`. -/
def sourceChecksumSuffix : String := ".source-sha256"

/-- The second half of `atomicWriteFromReader` and of `decompressWithCommand`: the temporary file has
been created, and takes the place of the file if all of the content gets there. -/
def replaceFrom (p : FilePath) (content : Except String String) : Prog Res Bool := do
  let tmpPath := p.append ".tmp"
  let whole := match content with
    | .ok body => body
    | .error part => part
  match ← Client.copyTo tmpPath whole, content with
  | .ok, .ok _ =>
    let renamed ← Client.rename tmpPath p
    let _ ← Client.remove tmpPath
    return renamed
  | _, _ =>
    let _ ← Client.remove tmpPath
    return false

/-- `atomicWriteFromReader`. -/
def atomicWriteFromReader (p : FilePath) (body : String) : Prog Res Bool := do
  if ← Client.createFile (p.append ".tmp") then replaceFrom p (.ok body)
  else return false

/-- `decompressWithCommand`. -/
def decompressWithCommand (command : String) (compressedPath p : FilePath) : Prog Res Bool := do
  if ← Client.createFile (p.append ".tmp") then
    let out ← Client.decompress command compressedPath
    replaceFrom p out
  else return false

/-- `verifyChecksum`, and whether it passes. -/
def verifyChecksum (hash : Hashing) (p : FilePath) (expected : String) : Prog Res Bool := do
  match ← Client.readFile p with
  | none => return false
  | some content => return hexEncode (hash.sha256 content) = trimPrefix expected "sha256:"

/-- `needsDownload`. -/
def needsDownload (hash : Hashing) (p : FilePath) (expectedChecksum : String) : Prog Res Bool := do
  match ← Client.stat p with
  | none => return true
  | some size =>
  if size = 0 then return true
  else if expectedChecksum = "" then return false
  else
    let passes ← verifyChecksum hash p expectedChecksum
    return !passes

/-- `needsArtifactDownload`. -/
def needsArtifactDownload (p : FilePath) (sourceChecksum : String) : Prog Res Bool := do
  match ← Client.stat p with
  | none => return true
  | some size =>
  if size = 0 then return true
  else if trimSpace sourceChecksum = "" then return false
  else
  match ← Client.readFile (p.append sourceChecksumSuffix) with
  | none => return true
  | some recorded => return trimSpace recorded ≠ trimSpace sourceChecksum

/-- `writeSourceChecksum`. -/
def writeSourceChecksum (p : FilePath) (sourceChecksum : String) : Prog Res Bool := do
  if trimSpace sourceChecksum = "" then return true
  else
    let r ← Client.writeFile (p.append sourceChecksumSuffix) (trimSpace sourceChecksum ++ "\n")
    return decide (r = .ok)

/-- `writeManagedMarker`. -/
def writeManagedMarker (p : FilePath) : Prog Res Unit := do
  match ← Client.stat p with
  | none => return ()
  | some size =>
  if size = 0 then return ()
  else
    let _ ← Client.writeFile (p.append managedMarkerSuffix) "gomi-hypervisor\n"
    return ()

/-! ### Downloads -/

/-- `downloadImage`. -/
def downloadImage (name : String) (p : FilePath) : Prog Res Bool := do
  match ← Client.getURL ("/api/v1/os-images/" ++ name ++ "/download") with
  | .error _ => return false
  | .ok resp => if resp.status ≠ 200 then return false else atomicWriteFromReader p resp.body

/-- `buildArtifactURL`, before it is escaped. -/
def buildArtifactURL (name relPath : String) : Option String :=
  let slashes := (trimSpace relPath).toList.map fun c => if c = '\\' then '/' else c
  let clean := trim (String.ofList slashes) '/'
  if clean = "" ∨ (components clean).any (fun part => part = "" ∨ part = "." ∨ part = "..") then none
  else some ("/pxe/artifacts/os-images/" ++ name ++ "/" ++ clean)

/-- `filepath.Ext`. -/
def ext (path : String) : String :=
  match splitLast (String.ofList (path.toList.rtakeWhile (· ≠ '/'))) '.' with
  | some (_, rest) => "." ++ rest
  | none => ""

/-- `isExternallyCompressedArtifact`. -/
def isExternallyCompressedArtifact (path compression : String) : Bool :=
  let ext := toLower (ext (trimSpace path))
  match toLower (trimSpace compression) with
  | "zst" | "zstd" => ext = ".zst" ∨ ext = ".zstd"
  | "xz" => ext = ".xz"
  | _ => false

/-- The end of the downloads of an artifact: the checksum is checked and recorded. -/
def recordArtifact (hash : Hashing) (p : FilePath) (sourceChecksum : String) : Prog Res Bool := do
  if sourceChecksum = "" then return true
  else if ← verifyChecksum hash p sourceChecksum then writeSourceChecksum p sourceChecksum
  else
    let _ ← Client.remove p
    return false

/-- `downloadCompressedArtifactImage`. -/
def downloadCompressedArtifactImage (hash : Hashing) (p : FilePath) (body sourceChecksum command : String) :
    Prog Res Bool := do
  let compressedPath := p.append (".download." ++ command)
  if ← atomicWriteFromReader compressedPath body then
    let decompressed ← decompressWithCommand command compressedPath p
    let done ← if decompressed then recordArtifact hash p sourceChecksum else pure false
    let _ ← Client.remove compressedPath
    return done
  else return false

/-- `downloadArtifactImage`. -/
def downloadArtifactImage (hash : Hashing) (img : Image) (p : FilePath) : Prog Res Bool := do
  match img.manifest with
  | none => return false
  | some manifest =>
  if !isArtifactImage img then return false
  else
  match buildArtifactURL (osImageID img) manifest.rootPath with
  | none => return false
  | some url =>
  match ← Client.getURL url with
  | .error _ => return false
  | .ok resp =>
  if resp.status ≠ 200 then return false
  else
  let compression := toLower (trimSpace img.rootCompression)
  let sourceChecksum := trimSpace img.rootSHA256
  if compression = "" ∨ !isExternallyCompressedArtifact manifest.rootPath compression then
    if ← atomicWriteFromReader p resp.body then recordArtifact hash p sourceChecksum
    else return false
  else match compression with
    | "zst" | "zstd" => downloadCompressedArtifactImage hash p resp.body sourceChecksum "zstd"
    | "xz" => downloadCompressedArtifactImage hash p resp.body sourceChecksum "xz"
    | _ => return false

/-! ### `cleanup.go` -/

/-- `managedExtensions`. -/
def managedExtensions : List String := [".qcow2", ".iso", ".img", ".squashfs"]

/-- `isManagedFile`. -/
def isManagedFile (filename : String) : Bool := toLower (ext filename) ∈ managedExtensions

/-- One turn of the loop of `cleanupStaleFiles`. -/
def cleanupEntry (expected : List String) (name : String) : Prog Res Unit := do
  if !isManagedFile name ∨ name ∈ expected then return ()
  else
  match ← Client.stat (some (name ++ managedMarkerSuffix)) with
  | none => return ()
  | some _ =>
  if ← Client.remove (some name) then
    let _ ← Client.remove (some (name ++ sourceChecksumSuffix))
    let _ ← Client.remove (some (name ++ managedMarkerSuffix))
    return ()
  else return ()

/-- The loop of `cleanupStaleFiles`. -/
def cleanupEach (expected : List String) : List String → Prog Res Unit
  | [] => return ()
  | name :: rest => do
    cleanupEntry expected name
    cleanupEach expected rest

/-- `cleanupStaleFiles`. -/
def cleanupStaleFiles (expected : List String) : Prog Res Unit := do
  match ← Client.readDir with
  | none => return ()
  | some entries => cleanupEach expected entries

/-! ### `agent.go` -/

/-- The part of the loop of `syncOnce` for an artifact. -/
def syncArtifact (hash : Hashing) (img : Image) (p : FilePath) : Prog Res Unit := do
  if ← needsArtifactDownload p (artifactSourceChecksum img) then
    if ← downloadArtifactImage hash img p then writeManagedMarker p else return ()
  else writeManagedMarker p

/-- The part of the loop of `syncOnce` for another image. -/
def syncPlain (hash : Hashing) (img : Image) (p : FilePath) : Prog Res Unit := do
  if ← needsDownload hash p img.checksum then
    if ← downloadImage (osImageID img) p then
      if img.checksum ≠ "" then
        if ← verifyChecksum hash p img.checksum then writeManagedMarker p
        else
          let _ ← Client.remove p
          return ()
      else writeManagedMarker p
    else return ()
  else writeManagedMarker p

/-- The loop of `syncOnce`. -/
def syncEach (hash : Hashing) : List Image → Prog Res Unit
  | [] => return ()
  | img :: rest => do
    let p := destPath (syncedImageFilename img)
    if isArtifactImage img then syncArtifact hash img p else syncPlain hash img p
    syncEach hash rest

/-- `syncOnce`. -/
def syncOnce (hash : Hashing) : Prog Res Unit := do
  match ← Client.fetchImages with
  | .error _ => return ()
  | .ok images =>
  let ready := images.filter (·.ready)
  if ← Client.mkdirAll then
    syncEach hash ready
    cleanupStaleFiles (ready.map syncedImageFilename)
  else return ()

end Gomi.Volumes
