import Gomi.Go.Path
import Gomi.Interleaving.Sequential
import Gomi.Vm.Callbacks

/-!
# The directory of images on a hypervisor

On the host of a hypervisor there is one directory, `/var/lib/libvirt/images`, in which two
programs keep files. To libvirt it is the storage pool `default`, whose volumes are the disks and
the seeds of virtual machines and the images behind them; to the agent that runs on the host it is
where it keeps copies of the OS images of the server. Neither knows of the other, and all there
is to tell the files apart is their names.

The state is a `Gomi.Volumes.Host`: the files of the directory. An operation
(`Gomi.Volumes.Op`) is one of libvirt on a volume, a system call of the agent on a file, or a
question to something else. Libvirt refuses to create a volume that exists, and a volume
whose name has a slash; what it writes into a new volume can be anything. Everything may fail.

Volumes are described to libvirt by XML documents. A text that was escaped is read back, except for
the characters that XML does not have (`Gomi.Volumes.xmlText`). A text that is written into the
document as it is may be read as another one, or make the document one that is not read at all;
this is the parameter `raw`. A volume is looked up under its plain name.

A path of the agent is given by the file of the directory that it is, and is `none` if it is a
file elsewhere; see `Gomi.Go.child`.
-/

namespace Gomi.Volumes

open Go
open Vm (VirtualMachine LibvirtErr)

/-! ### Images -/

/-- `osimage.OSImage`, with the fields that decide where it is kept. -/
structure Image extends OSImage where
  url : String := ""
  checksum : String := ""
  sizeBytes : ℤ := 0
  localPath : String := ""
  createdAt : Time := 0
  /-- `manifest.root.compression`. -/
  rootCompression : String := ""
  /-- `manifest.root.sha256`. -/
  rootSHA256 : String := ""
  deriving DecidableEq

/-- The checks of `ValidateOSImage` on the name and on the two formats of an image. -/
def validateName (img : Image) : Except Err Unit := do
  failIf (trimSpace img.name = "") (.msg "name is required")
  failIf (img.format.text ≠ "" ∧ img.format ≠ .qcow2 ∧ img.format ≠ .squashfs ∧ img.format ≠ .wim)
    (.msg ("unsupported format: " ++ img.format.text))
  let format := effectiveImageFormat img.toOSImage
  failIf (format.text ≠ "" ∧ format ≠ .qcow2 ∧ format ≠ .squashfs ∧ format ≠ .wim)
    (.msg ("unsupported format: " ++ format.text))

/-- What of the Go standard library names depend on: `sha256.Sum256` of a text, and
`t.Format(time.RFC3339Nano)`. -/
structure Hashing where
  sha256 : String → List UInt8
  formatRFC3339Nano : Time → String

/-! ### Operations -/

/-- `isInCharacterRange` of `encoding/xml`. -/
def isXmlChar (c : Char) : Bool :=
  c = '\t' ∨ c = '\n' ∨ c = '\r' ∨ (0x20 ≤ c.toNat ∧ c.toNat ≤ 0xFFFD) ∨ 0x10000 ≤ c.toNat

/-- What is read of a text that `xmlEscape` has written: other characters become U+FFFD. -/
def xmlText (s : String) : String :=
  String.ofList (s.toList.map fun c => if isXmlChar c then c else '�')

/-- A volume, as its XML describes it to libvirt. -/
structure VolumeXML where
  name : String
  /-- Whether the name is written through `xmlEscape`. -/
  escaped : Bool
  capacity : ℤ
  format : String
  /-- The path and the format of the backing store. -/
  backing : Option (String × String) := none

/-- The name that libvirt reads. -/
def VolumeXML.readName (raw : String → Option String) (vol : VolumeXML) : Option String :=
  if vol.escaped then some (xmlText vol.name) else raw vol.name

/-- A volume that was created, with what was written into it. -/
structure Volume where
  name : String
  content : String

/-- An answer over HTTP. -/
structure Download where
  status : ℤ := 200
  contentLength : ℤ := 0
  body : String := ""

/-- How a write of a file ends: it may be cut short. -/
inductive Written where
  | ok
  | failed
  | cut (content : String)
  deriving DecidableEq

/-- A path of the agent: a file of the directory, or one elsewhere. -/
abbrev FilePath : Type := Option String

/-- A path with something appended. -/
def FilePath.append (p : FilePath) (rest : String) : FilePath := p.map (· ++ rest)

/-- The operations. -/
inductive Op where
  /-- An operation of the system of virtual machines. -/
  | vm (o : Vm.Op)
  /-- `StoragePoolLookupByName("default")`. -/
  | lookupPool
  /-- `StorageVolCreateXML`. -/
  | createXML (vol : VolumeXML)
  /-- `StorageVolLookupByName`. -/
  | lookupVolume (name : String)
  /-- `StorageVolUpload`. -/
  | uploadVolume (name content : String)
  /-- `StorageVolDelete`. -/
  | deleteVolume (name : String)
  /-- `OSImages.Get`. -/
  | osImage (ref : String)
  /-- The files of a NoCloud seed, rendered and packed into an ISO file. -/
  | noCloudISO (v : VirtualMachine) (pxeBaseURL : String)
  /-- `url.Parse`: the scheme and the host. -/
  | parseURL (raw : String)
  /-- An HTTP request for an image. -/
  | getURL (url : String)
  /-- `fetchImages`. -/
  | fetchImages
  /-- `os.MkdirAll`, of the directory. -/
  | mkdirAll
  /-- `os.Stat`: the size of a file. -/
  | stat (p : FilePath)
  /-- The content of a file. -/
  | readFile (p : FilePath)
  /-- `os.Create`. -/
  | createFile (p : FilePath)
  /-- `io.Copy` to a file that was created. -/
  | copyTo (p : FilePath) (content : String)
  /-- `os.Rename`. -/
  | rename (p q : FilePath)
  /-- `os.Remove`. -/
  | remove (p : FilePath)
  /-- `os.WriteFile`. -/
  | writeFile (p : FilePath) (content : String)
  /-- `os.ReadDir`, of the directory: the files in it. -/
  | readDir
  /-- The output of a command that decompresses a file; it may be cut short. -/
  | decompress (command : String) (p : FilePath)

/-- The replies to an operation. -/
def Res : Op → Type
  | .vm o => Vm.Res o
  | .lookupPool | .lookupVolume _ | .deleteVolume _ => Except LibvirtErr Unit
  | .createXML _ => Except LibvirtErr Volume
  | .uploadVolume .. => Except (LibvirtErr × String) Unit
  | .osImage _ => Except Err Image
  | .noCloudISO .. => Except Err String
  | .parseURL _ => Option (String × String)
  | .getURL _ => Except String Download
  | .fetchImages => Except String (List Image)
  | .mkdirAll | .createFile _ | .rename .. | .remove _ => Bool
  | .stat _ => Option ℕ
  | .readFile _ => Option String
  | .copyTo .. | .writeFile .. => Written
  | .readDir => Option (List String)
  | .decompress .. => Except String String

/-! ### Semantics -/

/-- The state: the files of the directory, with their contents. -/
structure Host where
  files : Table String := ∅

namespace Host

/-- The directory with a file written. -/
def put (s : Host) (f content : String) : Host := { s with files := s.files.insert f content }

/-- The directory without a file. -/
def drop (s : Host) (f : String) : Host := { s with files := s.files.erase f }

/-- The effect of a write. -/
def write (s : Host) (p : FilePath) (content : String) : Host :=
  match p with
  | some f => s.put f content
  | none => s

/-- The effect of a removal. -/
def unlink (s : Host) (p : FilePath) : Host :=
  match p with
  | some f => s.drop f
  | none => s

/-- The effect of a write that may be cut short. -/
def written (s : Host) (p : FilePath) (content : String) : Written → Host
  | .ok => s.write p content
  | .failed => s
  | .cut part => s.write p part

theorem get_put (s : Host) (f g content : String) :
    (s.put f content).files[g]? = if f = g then some content else s.files[g]? :=
  Table.get_insert _ _ _ _

theorem get_drop (s : Host) (f g : String) :
    (s.drop f).files[g]? = if f = g then none else s.files[g]? :=
  Table.get_erase _ _ _

theorem get_put_self (s : Host) (f content : String) : (s.put f content).files[f]? = some content :=
  (s.get_put f f content).trans (if_pos rfl)

end Host

/-- A name that libvirt accepts for a volume. -/
def VolumeName (name : String) : Prop := '/' ∉ name.toList

instance (name : String) : Decidable (VolumeName name) := inferInstanceAs (Decidable (_ ∉ _))

/-- **The semantics of the operations**, where `images` are the OS images of the server: the state
after an operation was replied to, if that reply is possible. -/
def step (raw : String → Option String) (images : List Image) : (o : Op) → Host → Res o → Option Host
  | .vm _, s, _ => some s
  | .lookupPool, s, _ => some s
  | .createXML vol, s, .ok new =>
    if vol.readName raw = some new.name ∧ VolumeName new.name ∧ s.files[new.name]? = none then
      some (s.put new.name new.content)
    else none
  | .createXML _, s, .error _ => some s
  | .lookupVolume name, s, .ok _ =>
    if VolumeName name ∧ s.files[name]?.isSome then some s else none
  | .lookupVolume name, s, .error e =>
    if e.noVolume ∧ VolumeName name ∧ s.files[name]?.isSome then none else some s
  | .uploadVolume name content, s, .ok _ =>
    if VolumeName name then some (s.put name content) else none
  | .uploadVolume name _, s, .error (_, part) =>
    if VolumeName name then some (s.put name part) else none
  | .deleteVolume name, s, .ok _ => if VolumeName name then some (s.drop name) else none
  | .deleteVolume _, s, .error _ => some s
  | .osImage ref, s, .ok img => if img ∈ images ∧ img.name = ref then some s else none
  | .osImage _, s, .error _ => some s
  | .noCloudISO .., s, _ => some s
  | .parseURL _, s, _ => some s
  | .getURL _, s, _ => some s
  | .fetchImages, s, .ok found => if found ⊆ images then some s else none
  | .fetchImages, s, .error _ => some s
  | .mkdirAll, s, _ => some s
  | .stat (some f), s, some size =>
    if s.files[f]?.map (·.length) = some size then some s else none
  | .stat _, s, _ => some s
  | .readFile (some f), s, some content => if s.files[f]? = some content then some s else none
  | .readFile _, s, _ => some s
  | .createFile p, s, true => some (s.write p "")
  | .createFile _, s, false => some s
  | .copyTo p content, s, r => some (s.written p content r)
  | .rename (some f) q, s, true =>
    match s.files[f]? with
    | some content => some ((s.drop f).write q content)
    | none => none
  | .rename none q, s, true => match q with
    | none => some s
    | some _ => none
  | .rename _ _, s, false => some s
  | .remove p, s, true => some (s.unlink p)
  | .remove _, s, false => some s
  | .writeFile p content, s, r => some (s.written p content r)
  | .readDir, s, some names => if names = s.files.keys then some s else none
  | .readDir, s, none => some s
  | .decompress .., s, _ => some s

/-! ### What an operation does -/

/-- The operation changes nothing. -/
def Op.Reads : Op → Prop
  | .createXML _ | .uploadVolume .. | .deleteVolume _ => False
  | .createFile _ | .copyTo .. | .rename .. | .remove _ | .writeFile .. => False
  | _ => True

variable {raw : String → Option String} {images : List Image} {s s' : Host}

theorem step_reads {o : Op} {r : Res o} (ho : o.Reads) (h : step raw images o s r = some s') : s' = s := by
  cases o with
  | createXML _ | uploadVolume _ _ | deleteVolume _ | createFile _ | copyTo _ _ | rename _ _
  | remove _ | writeFile _ _ => exact ho.elim
  | lookupVolume =>
    rcases r with e | _ <;> simp only [step] at h <;> split at h <;> simp_all
  | osImage =>
    rcases r with e | img
    · simpa [step, eq_comm] using h
    · simp only [step] at h
      split at h <;> simp_all
  | fetchImages =>
    rcases r with e | found
    · simpa [step, eq_comm] using h
    · simp only [step] at h
      split at h <;> simp_all
  | stat p =>
    rcases p with _ | f <;> rcases r with _ | size <;> simp_all [step]
  | readFile p =>
    rcases p with _ | f <;> rcases r with _ | content <;> simp_all [step]
  | readDir =>
    rcases r with _ | names <;> simp_all [step]
  | _ => simpa [step, eq_comm] using h

theorem step_osImage_ok {ref : String} {img : Image}
    (h : step raw images (.osImage ref) s (.ok img) = some s') : img ∈ images ∧ img.name = ref :=
  (Option.ite_none_right_eq_some.mp h).1

theorem step_fetchImages_ok {found : List Image}
    (h : step raw images .fetchImages s (.ok found) = some s') : found ⊆ images :=
  (Option.ite_none_right_eq_some.mp h).1

theorem step_stat_some {f : String} {size : ℕ}
    (h : step raw images (.stat (some f)) s (some size) = some s') : s.files[f]?.isSome := by
  obtain ⟨hsize, -⟩ := Option.ite_none_right_eq_some.mp h
  exact Option.isSome_map.symm.trans (by rw [hsize]; rfl)

theorem step_createXML_ok {vol : VolumeXML} {new : Volume}
    (h : step raw images (.createXML vol) s (.ok new) = some s') :
    vol.readName raw = some new.name ∧ VolumeName new.name ∧ s.files[new.name]? = none ∧
      s' = s.put new.name new.content := by
  obtain ⟨⟨hread, hname, hfree⟩, hput⟩ := Option.ite_none_right_eq_some.mp h
  exact ⟨hread, hname, hfree, (Option.some.inj hput).symm⟩

theorem step_uploadVolume {name content : String} {r : Except (LibvirtErr × String) Unit}
    (h : step raw images (.uploadVolume name content) s r = some s') :
    VolumeName name ∧ ∃ part, s' = s.put name part := by
  rcases r with ⟨e, part⟩ | _
  · obtain ⟨hname, hput⟩ := Option.ite_none_right_eq_some.mp h
    exact ⟨hname, part, (Option.some.inj hput).symm⟩
  · obtain ⟨hname, hput⟩ := Option.ite_none_right_eq_some.mp h
    exact ⟨hname, content, (Option.some.inj hput).symm⟩

theorem step_deleteVolume {name : String} {r : Except LibvirtErr Unit}
    (h : step raw images (.deleteVolume name) s r = some s') :
    s' = s ∨ VolumeName name ∧ s' = s.drop name := by
  rcases r with e | _
  · exact .inl (Option.some.inj h).symm
  · obtain ⟨hname, hdrop⟩ := Option.ite_none_right_eq_some.mp h
    exact .inr ⟨hname, (Option.some.inj hdrop).symm⟩

/-- The operation writes the file, and nothing else. -/
def Op.Writes (p : FilePath) : Op → Prop
  | .createFile q | .copyTo q _ | .writeFile q _ => q = p
  | _ => False

theorem step_writes {p : FilePath} {o : Op} {r : Res o} (ho : o.Writes p)
    (h : step raw images o s r = some s') : s' = s ∨ ∃ content, s' = s.write p content := by
  cases o with
  | createFile q =>
    obtain rfl : q = p := ho
    rcases r with _ | _
    · exact .inl (Option.some.inj h).symm
    · exact .inr ⟨_, (Option.some.inj h).symm⟩
  | copyTo q content | writeFile q content =>
    obtain rfl : q = p := ho
    rcases r with _ | _ | part
    · exact .inr ⟨_, (Option.some.inj h).symm⟩
    · exact .inl (Option.some.inj h).symm
    · exact .inr ⟨_, (Option.some.inj h).symm⟩
  | _ => exact ho.elim

theorem step_rename {p q : FilePath} {r : Bool} (h : step raw images (.rename p q) s r = some s') :
    s' = s ∨ ∃ content, s' = (s.unlink p).write q content := by
  cases r with
  | false =>
    rcases p with _ | f <;> exact .inl (Option.some.inj h).symm
  | true =>
    rcases p with _ | f
    · rcases q with _ | g
      · exact .inl (Option.some.inj h).symm
      · cases h
    · simp only [step] at h
      split at h
      · exact .inr ⟨_, (Option.some.inj h).symm⟩
      · cases h

end Gomi.Volumes
