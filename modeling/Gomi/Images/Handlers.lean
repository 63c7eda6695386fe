import Gomi.Api.Server
import Gomi.Files
import Gomi.Images.Validate
import Gomi.Table

/-!
# The handlers of OS images

`internal/infra/api/osimage.go` and `osimage_artifact.go`, with the methods of `osimage.Service` that
they call. An image is created as a record, and its payload is downloaded at once if it has a URL; a
payload can also be uploaded, and the boot files of a Windows image one by one. Whether an image is
ready, and where its files are, is written to the record when they are in place, or by a status
update.

The state is a `Gomi.Images.World`: the records and the files. A payload is stored in one directory and
linked in another one, that of the PXE server, but nothing keeps the two apart: the name of an image may
lead from the one to the other, and the link of an image may be made where a payload is
(`Gomi.Images.publishOSImageFile`). Paths are absolute and no directory is a link, so that different
paths are different files. Texts of system errors are left out of the messages.
-/

namespace Gomi.Images

open Go Files

/-! ### The system -/

/-- The state. -/
structure World where
  images : Table Image := ∅
  files : Tree := fun _ => none

/-- The operations of a handler. -/
inductive Op where
  /-- `Store.Get`. -/
  | get (name : String)
  /-- `Store.Upsert`. -/
  | upsert (img : Image)
  /-- `time.Now`. -/
  | now
  /-- A system call on files. -/
  | file (o : Files.Op)
  /-- An HTTP request for a payload: the status of the answer, and its body. -/
  | fetch (url : String)
  /-- `Open`, of an uploaded file. -/
  | openUpload

/-- The replies to an operation. -/
def Res : Op → Type
  | .get _ => Except Err Image
  | .upsert _ => Except Err Unit
  | .now => Time
  | .file o => Files.Res o
  | .fetch _ => Except Err (ℕ × List UInt8)
  | .openUpload => Bool

/-- The answer of `Get`. -/
def World.find (w : World) (name : String) : Except Err Image :=
  match w.images[name]? with
  | some img => .ok { img with name }
  | none => .error .notFound

/-- **The semantics of the operations**: the state after an operation was replied to, if that reply is
possible. A statement may fail without an effect. -/
def step : (o : Op) → World → Res o → Option World
  | .get name, w, .ok img => if w.find name = .ok img then some w else none
  | .get name, w, .error .notFound => if w.find name = .error .notFound then some w else none
  | .get _, w, .error (.msg _) => some w
  | .get _, _, .error _ => none
  | .upsert img, w, .ok _ => some { w with images := w.images.insert img.name img }
  | .upsert _, w, .error (.msg _) => some w
  | .upsert _, _, .error _ => none
  | .now, w, _ => some w
  | .file o, w, r => (Files.step o w.files r).map fun t => { w with files := t }
  | .fetch _, w, _ => some w
  | .openUpload, w, _ => some w

namespace Client

/-- `Store.Get`. -/
abbrev get (name : String) : Prog Res (Except Err Image) := .perform (Op.get name)

/-- `Store.Upsert`. -/
abbrev upsert (img : Image) : Prog Res (Except Err Unit) := .perform (Op.upsert img)

/-- `time.Now().UTC()`. -/
abbrev now : Prog Res Time := .perform Op.now

/-- A system call on files. -/
abbrev file (o : Files.Op) : Prog Res (Files.Res o) := .perform (Op.file o)

/-- An HTTP request for a payload. -/
abbrev fetch (url : String) : Prog Res (Except Err (ℕ × List UInt8)) := .perform (Op.fetch url)

/-- `Open`, of an uploaded file. -/
abbrev openUpload : Prog Res Bool := .perform Op.openUpload

end Client

/-- What of the Go standard library the handlers depend on: `sha256.Sum256`, and `url.Parse` with the
scheme, the host and the path that it finds. -/
structure Lib where
  sha256 : List UInt8 → List UInt8
  parseURL : String → Option (String × String × String)

/-- The settings of the server: `imageStorageDir`, and `filesDir` if it is not blank. -/
structure Config where
  storageDir : Path
  filesDir : Option Path := none

/-- How a request ends: with an image, or with the code and the text of an error. -/
abbrev Answer : Type := Except (ℕ × String) Image

variable (lib : Lib) (cfg : Config)

/-! ### The service -/

/-- The record that `Service.Create` stores. -/
def Image.preparedForCreate (img : Image) (now : Time) : Image :=
  { img with
    createdAt := now, updatedAt := now
    format := if img.format.text = "" then .qcow2 else img.format
    source := if img.source = .unset then .upload else img.source }

/-- `Service.Create`. -/
def create (img : Image) : Prog Res (Except Err Image) := do
  let now ← Client.now
  let img := img.preparedForCreate now
  match validateOSImage img with
  | .error e => return .error e
  | .ok _ =>
  match ← Client.upsert img with
  | .error e => return .error e
  | .ok _ => return .ok img

/-- `Service.UpdateStatus`. -/
def updateStatus (name : String) (ready : Bool) (localPath : Option Path) (errMsg : String) :
    Prog Res (Except Err Image) := do
  match ← Client.get name with
  | .error e => return .error e
  | .ok img =>
  let now ← Client.now
  let img := { img with ready, localPath, error := errMsg, updatedAt := now }
  match ← Client.upsert img with
  | .error e => return .error e
  | .ok _ => return .ok img

/-! ### Paths -/

/-- `manifestRootPath`. -/
def manifestRootPath (img : Image) : Except Err (Option String) :=
  match img.manifest with
  | none => .ok none
  | some m =>
    let raw := trimSpace m.rootPath
    if raw = "" then .ok none
    else
      let clean := cleanText raw
      if '\\' ∈ raw.toList ∨ hasPrefix raw "/" ∨ clean = "." ∨ clean = ".." ∨ hasPrefix clean "../" then
        .error (.msg ("invalid manifest root path: " ++ raw))
      else .ok (some clean)

/-- `imageWritePaths`: the local path of an image, and the path of its payload. -/
def imageWritePaths (img : Image) (ext : String) : Except Err (Path × Path) :=
  match manifestRootPath img with
  | .error e => .error e
  | .ok (some rel) =>
    let localPath := join cfg.storageDir img.name
    .ok (localPath, join localPath rel)
  | .ok none =>
    let localPath := join cfg.storageDir (img.name ++ ext)
    .ok (localPath, localPath)

/-- `imageExtension`. -/
def imageExtension (rawPath : String) : String :=
  let ext := toLower (extension rawPath)
  if ext = ".qcow2" ∨ ext = ".img" then ext else ".qcow2"

/-- The extension of an uploaded file. -/
def uploadExtension (filename : String) : String :=
  let ext := extension filename
  if ext = "" then ".qcow2" else ext

/-- Where the link to a file is made. -/
def linkPath (filesDir localPath : Path) : Path := join filesDir "images" ++ [localPath.getLastD "/"]

/-- `publishOSImageFile`. -/
def publishOSImageFile (localPath : Path) : Prog Res (Except Err Unit) := do
  match cfg.filesDir with
  | none => return .ok ()
  | some filesDir =>
  match ← Client.file (.stat localPath) with
  | none => return .error (.msg "stat image file")
  | some .directory => return .ok ()
  | some (.file _) =>
  if !(← Client.file (.mkdirAll (join filesDir "images"))) then
    return .error (.msg "create pxe image directory")
  else
  let dst := linkPath filesDir localPath
  if localPath = dst then return .ok ()
  else
  let tmp := suffixed dst ".tmp"
  let _ ← Client.file (.remove tmp)
  if !(← Client.file (.symlink localPath tmp)) then return .error (.msg "publish image symlink")
  else
  let renamed ← Client.file (.rename tmp dst)
  let _ ← Client.file (.remove tmp)
  if !renamed then return .error (.msg "publish image symlink") else return .ok ()

/-- The check of one artifact after another. -/
def artifactsReady (directory : Path) : List String → Prog Res Bool
  | [] => return true
  | rel :: rest => do
    match ← Client.file (.lstat (join directory rel)) with
    | none => return false
    | some size => if size = 0 then return false else artifactsReady directory rest

/-- `windowsImageReady`, which is whether `WindowsArtifactsReady` finds nothing. -/
def windowsImageReady (img : Image) (directory : Path) : Prog Res Bool :=
  artifactsReady directory img.windowsArtifacts

/-! ### Payloads -/

/-- An uploaded file. -/
structure Upload where
  filename : String
  content : List UInt8

/-- `UploadOSImage`; a form without a file is `none`. -/
def uploadOSImage (name : String) (file : Option Upload) : Prog Res Answer := do
  match ← Client.get name with
  | .error .notFound => return .error (404, "not found")
  | .error e => return .error (500, e.text)
  | .ok img =>
  if img.source ≠ .upload then return .error (400, "image source is not 'upload'")
  else
  match file with
  | none => return .error (400, "file is required")
  | some file =>
  match imageWritePaths cfg img (uploadExtension file.filename) with
  | .error e => return .error (400, e.text)
  | .ok (localPath, payloadPath) =>
  if !(← Client.file (.mkdirAll payloadPath.dropLast)) then
    return .error (500, "failed to create storage directory")
  else
  if !(← Client.file (.create payloadPath)) then return .error (500, "failed to create file")
  else
  if !(← Client.openUpload) then return .error (500, "failed to open upload")
  else
  match ← Client.file (.copy payloadPath file.content) with
  | .cut _ | .failed => return .error (500, "failed to save file")
  | .done =>
  match ← publishOSImageFile cfg localPath with
  | .error _ => return .error (500, "failed to publish image file")
  | .ok _ =>
  let ready ← windowsImageReady img localPath
  match ← updateStatus name ready (some localPath) "" with
  | .error e => return .error (500, e.text)
  | .ok updated => return .ok updated

/-- `normalizeSHA256`. -/
def normalizeSHA256 (value : String) : String := trimSpace (trimPrefix (trimSpace value) "sha256:")

/-- Whether a payload is what a checksum says, if it says something. -/
def matchesChecksum (checksum : String) (content : List UInt8) : Bool :=
  let expected := normalizeSHA256 checksum
  expected = "" ∨ equalFold (hexEncode (lib.sha256 content)) expected

/-- `writeImageFileWithChecksum`. -/
def writeImageFileWithChecksum (path : Path) (content : List UInt8) (checksum : String) :
    Prog Res (Except Err Unit) := do
  if !(← Client.file (.create path)) then return .error (.msg "create image file")
  else
  match ← Client.file (.copy path content) with
  | .cut _ | .failed =>
    let _ ← Client.file (.close path)
    return .error (.msg "write image file")
  | .done =>
  if !(← Client.file (.close path)) then return .error (.msg "close image file")
  else
  if !matchesChecksum lib checksum content then
    return .error (.msg ("checksum mismatch: expected " ++ normalizeSHA256 checksum ++ " got " ++
      hexEncode (lib.sha256 content)))
  else return .ok ()

/-- The part of `downloadURLImageFile` during which there is a temporary file. -/
def storeDownload (localPath payloadPath : Path) (content : List UInt8) (checksum : String) :
    Prog Res (Except Err Path) := do
  let tmpPath := suffixed payloadPath ".download"
  match ← writeImageFileWithChecksum lib tmpPath content checksum with
  | .error e => return .error e
  | .ok _ =>
  if !(← Client.file (.rename tmpPath payloadPath)) then
    return .error (.msg "publish image file")
  else
  match ← publishOSImageFile cfg localPath with
  | .error e => return .error e
  | .ok _ => return .ok localPath

/-- `downloadURLImageFile`. -/
def downloadURLImageFile (img : Image) : Prog Res (Except Err Path) := do
  let rawURL := trimSpace img.url
  if rawURL = "" then return .error (.msg "image URL is required")
  else
  match lib.parseURL rawURL with
  | none => return .error (.msg "invalid image URL")
  | some (scheme, host, path) =>
  if scheme = "" ∨ host = "" then return .error (.msg "invalid image URL")
  else
  if scheme ≠ "http" ∧ scheme ≠ "https" then
    return .error (.msg ("unsupported image URL scheme: " ++ scheme))
  else
  match imageWritePaths cfg img (imageExtension path) with
  | .error e => return .error e
  | .ok (localPath, payloadPath) =>
  if !(← Client.file (.mkdirAll payloadPath.dropLast)) then
    return .error (.msg "create image storage directory")
  else
  match ← Client.fetch rawURL with
  | .error e => return .error (.msg ("download image: " ++ e.text))
  | .ok (status, body) =>
  if status ≠ 200 then return .error (.msg ("download image: status " ++ toString status))
  else
  let result ← storeDownload lib cfg localPath payloadPath body img.checksum
  -- the deferred removal of the temporary file
  let _ ← Client.file (.remove (suffixed payloadPath ".download"))
  return result

/-- `downloadURLImage`. -/
def downloadURLImage (img : Image) : Prog Res Image := do
  match ← downloadURLImageFile lib cfg img with
  | .error e =>
    match ← updateStatus img.name false none e.text with
    | .ok updated => return updated
    | .error _ => return { img with ready := false, error := e.text }
  | .ok localPath =>
    let ready ← windowsImageReady img localPath
    match ← updateStatus img.name ready (some localPath) "" with
    | .ok updated => return updated
    | .error e => return { img with ready := false, error := e.text }

/-- `CreateOSImage`; a body that cannot be decoded is `none`. -/
def createOSImage (body : Option Image) : Prog Res Answer := do
  match body with
  | none => return .error (400, "invalid body")
  | some img =>
  match ← create { img with
    name := resourceID "osImages" img.name, ready := false, localPath := none, error := "" } with
  | .error e => return .error (400, e.text)
  | .ok created =>
  if created.source = .url then
    let updated ← downloadURLImage lib cfg created
    return .ok updated
  else return .ok created

/-! ### Windows artifacts and status updates -/

/-- The part of `UploadOSImageArtifact` during which there is a temporary file. -/
def storeArtifact (img : Image) (directory destination tmp : Path) (content : List UInt8) :
    Prog Res Answer := do
  let written : Written ← Client.file (.copy tmp content)
  let closed : Bool ← Client.file (.close tmp)
  if written ≠ .done ∨ !closed then return .error (500, "Internal Server Error")
  else
  if content = [] then return .error (400, "artifact cannot be empty")
  else
  if !(← Client.file (.rename tmp destination)) then return .error (500, "Internal Server Error")
  else
  let ready ← windowsImageReady img directory
  match ← updateStatus img.name ready (some directory) "" with
  | .error _ => return .error (500, "Internal Server Error")
  | .ok updated => return .ok updated

/-- `UploadOSImageArtifact`; `ensureArtifactDirectory` may fail. -/
def uploadOSImageArtifact (name path : String) (file : Option Upload) : Prog Res Answer := do
  match ← Client.get name with
  | .error _ => return .error (404, "OS image not found")
  | .ok img =>
  if !img.hasWindows ∨ img.source ≠ .upload then
    return .error (400, "artifact upload requires an uploaded Windows WIM image")
  else
  if path ∉ img.windowsArtifacts.tail then
    return .error (400, "path is not a declared Windows boot artifact")
  else
  match imageWritePaths cfg img ".wim" with
  | .error e => return .error (400, e.text)
  | .ok (directory, _) =>
  let destination := join directory path
  if !(← Client.file (.mkdirAll destination.dropLast)) then
    return .error (400, "invalid artifact directory")
  else
  match file with
  | none => return .error (400, "file is required")
  | some file =>
  if !(← Client.openUpload) then return .error (500, "Internal Server Error")
  else
  match ← Client.file (.createTemp destination.dropLast) with
  | none => return .error (500, "Internal Server Error")
  | some tmp =>
  let result ← storeArtifact img directory destination tmp file.content
  -- the deferred removal of the temporary file
  let _ ← Client.file (.remove tmp)
  return result

/-- The body of a status update. -/
structure StatusReq where
  ready : Option Bool := none
  localPath : Option Path := none
  error : String := ""

/-- `UpdateOSImageStatus`; a body that cannot be decoded is `none`. -/
def updateOSImageStatus (name : String) (body : Option StatusReq) : Prog Res Answer := do
  match body with
  | none => return .error (400, "invalid body")
  | some body =>
  match ← Client.get name with
  | .error .notFound => return .error (404, "not found")
  | .error e => return .error (500, e.text)
  | .ok img =>
  let ready := body.ready.getD img.ready
  let localPath := body.localPath <|> img.localPath
  let checked ← (if ready ∧ img.hasWindows then windowsImageReady img (localPath.getD []) else return true)
  if !checked then return .error (400, "Windows artifact is missing or not a nonempty regular file")
  else
  match ← updateStatus name ready localPath body.error with
  | .error e => return .error (500, e.text)
  | .ok updated => return .ok updated

/-! ### Calls -/

/-- The requests that change images. -/
inductive Call where
  | create (body : Option Image)
  | upload (name : String) (file : Option Upload)
  | artifact (name path : String) (file : Option Upload)
  | status (name : String) (body : Option StatusReq)

/-- What a request does. -/
def Call.prog : Call → Prog Res Answer
  | .create body => createOSImage lib cfg body
  | .upload name file => uploadOSImage cfg name file
  | .artifact name path file => uploadOSImageArtifact cfg name path file
  | .status name body => updateOSImageStatus name body

end Gomi.Images
