import Gomi.Go.Strings
import Gomi.Machine.Types
import Gomi.Python.Dict
import Gomi.Python.Strings

/-!
# Cloud-config documents

The documents that a sealed host is set up from: the user-data that the server renders for it, with the
command that reports completion, and the bootstrap of the Cluster API provider. Three programs read and
write them.

* The provider checks a bootstrap before it seals it (`Gomi.CloudConfig.validateBootstrap`, in Go).
* The server marks the command that reports completion in the user-data
  (`Gomi.CloudConfig.markSealedCompletion`, in Go).
* The host checks the bootstrap when it has decrypted it, and merges the two
  (`Gomi.CloudConfig.unsealBootstrap`, `Gomi.CloudConfig.mergeBootstrap`, in Python).

The YAML libraries of Go and of Python are parameters (`Gomi.CloudConfig.YamlLib`). A document is a
mapping from keys to values; of the values that are no texts, lists or mappings nothing is used.
-/

namespace Gomi.CloudConfig

open Go

/-! ### Documents -/

/-- A scalar that is no text: a number, a truth value, a date or nothing. -/
inductive Scalar where
  | null
  | bool (b : Bool)
  | other (text : String)
  deriving DecidableEq

/-- The key of an entry. -/
inductive Key where
  | text (s : String)
  | scalar (x : Scalar)
  deriving DecidableEq

/-- A value of a YAML document. -/
inductive Yaml where
  | text (s : String)
  | scalar (x : Scalar)
  | list (items : List Yaml)
  | map (entries : List (Key × Yaml))

/-- A mapping, as the top of a document. -/
abbrev Mapping : Type := Python.Dict Key Yaml

/-- A document: a mapping, or something else. -/
inductive Document where
  | map (config : Mapping)
  | other

/-- The YAML libraries. -/
structure YamlLib where
  /-- `yaml.Unmarshal` of Go, into a `map[string]any`, which may be nil. -/
  unmarshal : String → Except Err (Option Mapping)
  /-- `yaml.Marshal` of Go. -/
  marshal : Mapping → Except Err String
  /-- `yaml.safe_load` of Python. -/
  safeLoad : String → Except Err Document
  /-- `yaml.dump` of Python, with the value that is written for a text and whether it is written as a
  literal block. -/
  dump : (String → String × Bool) → Mapping → String
  /-- `yaml.safe_dump` of Python. -/
  safeDump : Mapping → String

/-- The texts of a value, with those of its keys. -/
def Key.texts : Key → List String
  | .text s => [s]
  | .scalar _ => []

mutual

/-- The texts of a value, keys included. -/
def Yaml.texts : Yaml → List String
  | .text s => [s]
  | .scalar _ => []
  | .list items => Yaml.listTexts items
  | .map entries => Yaml.entryTexts entries

/-- The texts of a list. -/
def Yaml.listTexts : List Yaml → List String
  | [] => []
  | v :: items => v.texts ++ Yaml.listTexts items

/-- The texts of some entries. -/
def Yaml.entryTexts : List (Key × Yaml) → List String
  | [] => []
  | (k, v) :: entries => k.texts ++ v.texts ++ Yaml.entryTexts entries

end

/-- Whether a value is a given text. -/
def Yaml.isText (s : String) : Yaml → Bool
  | .text t => t = s
  | _ => false

/-! ### The provider -/

/-- The line that makes a document a Jinja template. -/
def jinjaTemplateHeader : String := "## template: jinja"

/-- What `validateBootstrap` gives to the YAML library. -/
def cloudConfigOf (data : String) : String :=
  let s := trimSpace data
  if hasPrefix s jinjaTemplateHeader then trimSpace (trimPrefix s jinjaTemplateHeader) else s

variable (lib : YamlLib)

/-- `validateBootstrap`. -/
def validateBootstrap (data format : String) : Except Err Unit :=
  if format ≠ "" ∧ format ≠ "cloud-config" then
    .error (.msg ("unsupported bootstrap format \"" ++ format ++ "\"; cloud-config is required"))
  else if !hasPrefix (cloudConfigOf data) "#cloud-config\n" then
    .error (.msg "bootstrap value must contain cloud-config; Ignition and scripts are unsupported")
  else match lib.unmarshal (cloudConfigOf data) with
  | .ok (some _) => .ok ()
  | _ => .error (.msg "bootstrap value must be valid cloud-config YAML with quoted Jinja expressions")

/-! ### The server -/

/-- `splitCloudConfigHeader`: the header that is attached again. -/
def splitCloudConfigHeader (trimmed : String) : String × String :=
  if hasPrefix (trimSpace trimmed) jinjaTemplateHeader then
    (jinjaTemplateHeader ++ "\n#cloud-config",
      trimSpace (trimPrefix (trimSpace trimmed) jinjaTemplateHeader))
  else ("#cloud-config", trimmed)

/-- `renderCloudConfig`. -/
def renderCloudConfig (source : String) (cfg : Mapping) : Except Err String := do
  let header := (splitCloudConfigHeader (trimSpace source)).1
  let raw ← lib.marshal cfg
  return header ++ "\n" ++ raw

/-- Whether a command reports completion. -/
def isCallback (command : String) : Bool :=
  hasPrefix command "sh -c 'for i in " && decide ("/install-complete?".toList <:+: command.toList)

/-- What marks the command that reports completion. -/
def completionMark : String := "# gomi-capi-completion\n"

/-- The command that reports completion, marked and guarded. -/
def markCommand (command : String) : String :=
  completionMark ++ "test -f /run/cluster-api/bootstrap-success.complete || exit 1\n" ++ command

/-- The loop over the commands: the commands with the marks, and how many were found. -/
def markCommands : List Yaml → List Yaml × ℕ
  | [] => ([], 0)
  | entry :: commands =>
    let (rest, found) := markCommands commands
    match entry with
    | .text command =>
      if isCallback command then (.text (markCommand command) :: rest, found + 1)
      else (entry :: rest, found)
    | _ => (entry :: rest, found)

/-- `markSealedCompletion`. -/
def markSealedCompletion (body : String) : Except Err String := do
  let cfg ← lib.unmarshal body
  match (cfg.bind (·.get (.text "runcmd"))), cfg with
  | some (.list commands), some cfg =>
    let (commands, found) := markCommands commands
    failIf (found ≠ 1) (.msg "missing unique deployment completion callback")
    renderCloudConfig lib body (cfg.set (.text "runcmd") (.list commands))
  | _, _ => throw (.msg "missing deployment commands")

/-! ### The host -/

/-- The start of a document that is a cloud-config. -/
def cloudConfigHeader : String := "#cloud-config\n"

/-- The start of a document that is a template of a cloud-config. -/
def jinjaCloudConfigHeader : String := "## template: jinja\n#cloud-config\n"

/-- The check of the format, in both scripts. -/
def supported (source : String) : Bool :=
  Python.startsWith (Python.lstrip source) cloudConfigHeader ||
    Python.startsWith (Python.lstrip source) jinjaCloudConfigHeader

/-- `gomi-unseal-bootstrap`, after the decryption: the text that it stores. -/
def unsealBootstrap (source : String) : Except Err String := do
  failIf (!supported source) (.msg "unsupported bootstrap format")
  match ← lib.safeLoad source with
  | .map _ => return source
  | .other => throw (.msg "invalid cloud-config")

/-- The comment that keeps Jinja from trimming what is around a text. -/
def boundary : String := "\x7b# gomi scalar boundary #\x7d"

/-- `\s*{[{%#]-`, at the start of a text. -/
def opensTrimming (value : String) : Bool :=
  ["\x7b\x7b-", "\x7b%-", "\x7b#-"].any (Python.startsWith (Python.lstrip value))

/-- `-(?:}}|%}|#})\s*$`, at the end of a text. -/
def closesTrimming (value : String) : Bool :=
  ["-\x7d\x7d", "-%\x7d", "-#\x7d"].any (Python.endsWith (Python.rstrip value))

/-- The marks by which a text may have something to render. -/
def hasMark (value : String) : Bool :=
  ["\x7b\x7b", "\x7b%", "\x7b#"].any (Python.contains value)

/-- The value that `represent_string` writes for a text. -/
def representedValue (jinja : Bool) (value : String) : String :=
  if jinja then
    let value := if opensTrimming value then boundary ++ Python.lstrip value else value
    if closesTrimming value then Python.rstrip value ++ boundary else value
  else value

/-- `represent_string`: the value and whether it is a literal block. -/
def representString (jinja : Bool) (value : String) : String × Bool :=
  let value := representedValue jinja value
  (value, Python.contains value "\n" || hasMark value)

/-- `serialize`. -/
def serialize (config : Mapping) (jinja : Bool) : String := lib.dump (representString jinja) config

/-- The command before the last one. -/
def successGuard : String := "test -f /run/cluster-api/bootstrap-success.complete || exit 1"

/-- A command that reports completion. -/
def completion? : Yaml → Option String
  | .text command => if Python.startsWith command completionMark then some command else none
  | _ => none

/-- What the loop of `merge` sets for an entry of the bootstrap. -/
def mergeEntry (key : Key) (old : Option Yaml) (value : Yaml) : Option Yaml :=
  if key = .text "runcmd" then none
  else match old, value with
  | some (.list xs), .list ys => some (.list (xs ++ ys))
  | _, value => some value

/-- `merge`, of two mappings. -/
def mergeMappings (base bootstrap : Mapping) : Except Err Mapping :=
  match (base.get (.text "runcmd")).getD (.list []), (bootstrap.get (.text "runcmd")).getD (.list [])
  with
  | .list baseCommands, .list commands =>
    match baseCommands.filterMap completion? with
    | [completion] =>
      let baseCommands := baseCommands.filter fun command => !command.isText completion
      let merged := base.update mergeEntry bootstrap
      let merged := merged.set (.text "runcmd")
        (.list (baseCommands ++ commands ++ [.text successGuard] ++ [.text completion]))
      .ok (merged.set (.text "ssh_deletekeys") (.scalar (.bool false)))
    | _ => .error (.msg "missing unique GOMI completion callback")
  | _, _ => .error (.msg "invalid cloud-config commands")

/-- `merge`. -/
def merge : Document → Document → Except Err Mapping
  | .map base, .map bootstrap => mergeMappings base bootstrap
  | _, _ => .error (.msg "cloud-config must be a mapping")

/-- `merge_metadata`. -/
def mergeMetadata (metadata : Document) (owner : String) : Except Err Mapping :=
  match metadata with
  | .map metadata =>
    if Python.startsWith owner "capi-" then .ok (metadata.set (.text "instance-id") (.text owner))
    else .error (.msg "invalid metadata")
  | .other => .error (.msg "invalid metadata")

/-- What is stored in the seed directory. -/
structure Seed where
  userData : String
  metaData : String

/-- The user-data and the mapping that it is written from, with whether it is a template. -/
structure Merged where
  jinja : Bool
  config : Mapping
  metadata : Mapping

/-- `gomi-merge-bootstrap` up to what it writes, with the texts of the three files. -/
def mergeFiles (bootstrap : String) (seed : Seed) (owner : String) : Except Err Merged := do
  let source := Python.universalNewlines bootstrap
  failIf (!supported source) (.msg "unsupported bootstrap format")
  let base ← lib.safeLoad (Python.universalNewlines seed.userData)
  let document ← lib.safeLoad source
  let config ← merge base document
  let metadata ← mergeMetadata (← lib.safeLoad (Python.universalNewlines seed.metaData)) owner
  return { jinja := Python.startsWith source jinjaTemplateHeader, config, metadata }

/-- **What the script has read and merged** when it comes to write. -/
theorem mergeFiles_eq_ok {bootstrap owner : String} {seed : Seed} {merged : Merged} :
    mergeFiles lib bootstrap seed owner = .ok merged ↔
      supported (Python.universalNewlines bootstrap) = true ∧
      merged.jinja = Python.startsWith (Python.universalNewlines bootstrap) jinjaTemplateHeader ∧
      ∃ base document metadata,
        lib.safeLoad (Python.universalNewlines seed.userData) = .ok base ∧
        lib.safeLoad (Python.universalNewlines bootstrap) = .ok document ∧
        merge base document = .ok merged.config ∧
        lib.safeLoad (Python.universalNewlines seed.metaData) = .ok metadata ∧
        mergeMetadata metadata owner = .ok merged.metadata := by
  unfold mergeFiles
  rw [check_bind_eq_ok, failIf_eq_ok, Bool.not_eq_true', Bool.not_eq_false]
  simp only [bind_eq_ok]
  constructor
  · rintro ⟨hsupported, base, hbase, document, hdocument, config, hconfig, metadata, hmetadata,
      result, hresult, heq⟩
    cases heq
    exact ⟨hsupported, rfl, base, document, metadata, hbase, hdocument, hconfig, hmetadata, hresult⟩
  · rintro ⟨hsupported, hjinja, base, document, metadata, hbase, hdocument, hconfig, hmetadata, hresult⟩
    refine ⟨hsupported, base, hbase, document, hdocument, _, hconfig, metadata, hmetadata, _,
      hresult, ?_⟩
    rw [← hjinja]
    rfl

/-- What `gomi-merge-bootstrap` writes. -/
def Merged.seed (merged : Merged) : Seed where
  userData := (if merged.jinja then jinjaCloudConfigHeader else cloudConfigHeader) ++
    serialize lib merged.config merged.jinja
  metaData := lib.safeDump merged.metadata

/-- `gomi-merge-bootstrap`. -/
def mergeBootstrap (bootstrap : String) (seed : Seed) (owner : String) : Except Err Seed :=
  (mergeFiles lib bootstrap seed owner).map (Merged.seed lib)

end Gomi.CloudConfig
