import Gomi.CloudConfig.Document

/-!
# Bootstraps that the provider accepts

The provider checks a bootstrap before it claims a host for it, and the host checks it again when it
has decrypted it. The two recognise the header of the document in their own ways: the provider trims
what is before and after the line that makes it a template, the host wants this line to be followed by
the next one at once, and the script that merges the documents takes the result for a template only if
there is nothing before the line. The script also wants the commands of the bootstrap to be a list.

So a bootstrap that the provider accepts is accepted on the host, and rendered as it should be, exactly
if its commands are a list and, in case it is a template, it starts with the two lines of a template
(`Gomi.CloudConfig.bootstrap_accepted_iff`).
-/

namespace Gomi.CloudConfig

open Go Python

variable {lib : YamlLib} {data : String}

/-! ### Headers -/

theorem jinjaTemplateHeader_toList :
    jinjaTemplateHeader.toList = '#' :: "# template: jinja".toList := by decide

theorem cloudConfigHeader_toList :
    cloudConfigHeader.toList = '#' :: "cloud-config\n".toList := by decide

variable {s : String}

/-- A text that starts with the two lines of a template is a template. -/
theorem jinja_of_jinjaCloudConfig (h : startsWith s jinjaCloudConfigHeader = true) :
    startsWith s jinjaTemplateHeader = true :=
  startsWith_trans h (by decide)

/-- Nothing is stripped from a template. -/
theorem lstrip_of_jinja (h : startsWith s jinjaTemplateHeader = true) : lstrip s = s :=
  lstrip_eq_self h jinjaTemplateHeader_toList (by decide)

/-- **A text that the provider accepts**, as the host strips it: it is a template, or it starts with
the line of a cloud-config. -/
theorem lstrip_of_accepted (h : hasPrefix (cloudConfigOf data) cloudConfigHeader = true) :
    startsWith (lstrip data) jinjaTemplateHeader = true ∨
      startsWith (lstrip data) cloudConfigHeader = true := by
  unfold cloudConfigOf at h
  dsimp only at h
  split at h
  · rename_i hjinja
    exact Or.inl (startsWith_lstrip hjinja jinjaTemplateHeader_toList (by decide))
  · exact Or.inr (startsWith_lstrip h cloudConfigHeader_toList (by decide))

/-- What is supported is supported when it is read from a file. -/
theorem supported_universalNewlines (h : supported data = true) :
    supported (universalNewlines data) = true := by
  unfold supported at h ⊢
  rw [lstrip_universalNewlines]
  rcases (Bool.or_eq_true _ _).mp h with h | h
  · rw [startsWith_universalNewlines_of (by decide) h, Bool.true_or]
  · rw [startsWith_universalNewlines_of (by decide) h, Bool.or_true]

/-! ### The two scripts -/

theorem completion_of_mark {command : String} (h : startsWith command completionMark = true) :
    completion? (.text command) = some command := by
  rw [completion?, if_pos h]

/-- Both YAML libraries read a bootstrap as one mapping. -/
structure Agree (lib : YamlLib) (data : String) (config : Mapping) : Prop where
  unmarshal : lib.unmarshal (cloudConfigOf data) = .ok (some config)
  unsealed : lib.safeLoad data = .ok (.map config)
  read : lib.safeLoad (universalNewlines data) = .ok (.map config)

/-- A seed that the server made for an owner: mappings, and one command that reports completion. -/
structure Ready (lib : YamlLib) (seed : Seed) (owner : String) : Prop where
  userData : ∃ config commands completion,
    lib.safeLoad (universalNewlines seed.userData) = .ok (.map config) ∧
      config.get (.text "runcmd") = some (.list commands) ∧
      commands.filterMap completion? = [completion]
  metaData : ∃ config, lib.safeLoad (universalNewlines seed.metaData) = .ok (.map config)
  owner : startsWith owner "capi-" = true

/-- The commands of a bootstrap are a list, if it has some. -/
def ListedCommands (config : Mapping) : Prop :=
  ∀ v, config.get (.text "runcmd") = some v → ∃ commands, v = .list commands

/-- `merge` fails for a bootstrap only because of its commands. -/
theorem exists_mergeMappings_iff {base bootstrap : Mapping} {commands : List Yaml} {completion : String}
    (hbase : base.get (.text "runcmd") = some (.list commands))
    (hcompletion : commands.filterMap completion? = [completion]) :
    (∃ merged, mergeMappings base bootstrap = .ok merged) ↔ ListedCommands bootstrap := by
  unfold mergeMappings ListedCommands
  rw [hbase, Option.getD_some]
  cases hboot : bootstrap.get (.text "runcmd") with
  | none => simp [hcompletion]
  | some v => cases v <;> simp [hcompletion]

variable {seed : Seed} {owner : String} {config : Mapping}

theorem map_eq_ok {α β : Type} {x : Except Err α} {f : α → β} {b : β} :
    x.map f = .ok b ↔ ∃ a, x = .ok a ∧ f a = b := by
  cases x <;> simp [Except.map]

/-- `gomi-unseal-bootstrap` accepts what is supported. -/
theorem unsealBootstrap_eq_ok (hagree : Agree lib data config) {stored : String} :
    unsealBootstrap lib data = .ok stored ↔ supported data = true ∧ stored = data := by
  unfold unsealBootstrap
  rw [check_bind_eq_ok, failIf_eq_ok, Bool.not_eq_true', Bool.not_eq_false, hagree.unsealed]
  exact and_congr_right fun _ => ⟨fun h => (Except.ok.inj h).symm, fun h => h ▸ rfl⟩

/-- `gomi-merge-bootstrap` accepts what is supported and has a list of commands. -/
theorem mergeBootstrap_ok_iff (hagree : Agree lib data config) (hready : Ready lib seed owner)
    (hsupported : supported data = true) :
    (∃ merged, mergeBootstrap lib data seed owner = .ok merged) ↔ ListedCommands config := by
  obtain ⟨base, commands, completion, hbase, hcommands, hcompletion⟩ := hready.userData
  obtain ⟨metadata, hmetadata⟩ := hready.metaData
  rw [← exists_mergeMappings_iff hcommands hcompletion]
  simp only [mergeBootstrap, map_eq_ok, mergeFiles_eq_ok, hbase, hagree.read, hmetadata]
  constructor
  · rintro ⟨-, merged, ⟨-, -, _, _, _, hbase', hdocument, hmerged, -⟩, -⟩
    cases hbase'
    cases hdocument
    exact ⟨_, hmerged⟩
  · rintro ⟨merged, hmerged⟩
    refine ⟨_, ⟨_, merged, metadata.set (.text "instance-id") (.text owner)⟩, ⟨?_, rfl, _, _, _, rfl, rfl,
      hmerged, rfl, ?_⟩, rfl⟩
    · exact supported_universalNewlines hsupported
    · rw [mergeMetadata, if_pos hready.owner]

/-- The user-data starts with the header of a template exactly if the text does, as it was read. -/
theorem startsWith_userData {merged : Seed} (h : mergeBootstrap lib data seed owner = .ok merged) :
    startsWith merged.userData jinjaTemplateHeader = startsWith data jinjaTemplateHeader := by
  simp only [mergeBootstrap, map_eq_ok, mergeFiles_eq_ok] at h
  obtain ⟨files, ⟨-, hjinja, -⟩, rfl⟩ := h
  rw [startsWith_universalNewlines (by decide) (by decide)] at hjinja
  rw [← hjinja]
  cases hfiles : files.jinja with
  | true =>
    simp only [Merged.seed, hfiles, if_true]
    exact jinja_of_jinjaCloudConfig (startsWith_append)
  | false =>
    simp only [Merged.seed, hfiles, Bool.false_eq_true, if_false]
    exact startsWith_eq_false (startsWith_append) (by decide) (by decide)

/-- A bootstrap is accepted by both scripts, and the result is a template exactly if the bootstrap is
one, without what space is before it. -/
def AcceptedOnHost (lib : YamlLib) (data : String) (seed : Seed) (owner : String) : Prop :=
  ∃ stored merged, unsealBootstrap lib data = .ok stored ∧
    mergeBootstrap lib stored seed owner = .ok merged ∧
    (startsWith merged.userData jinjaTemplateHeader = true ↔
      startsWith (lstrip data) jinjaTemplateHeader = true)

/-- **A bootstrap that the provider accepts is accepted on the host** exactly if its commands are a
list and, in case it is a template, it starts with the two lines of one. -/
theorem bootstrap_accepted_iff {format : String}
    (hprovider : validateBootstrap lib data format = .ok ()) (hagree : Agree lib data config)
    (hready : Ready lib seed owner) :
    AcceptedOnHost lib data seed owner ↔ ListedCommands config ∧
      (startsWith (lstrip data) jinjaTemplateHeader = true →
        startsWith data jinjaCloudConfigHeader = true) := by
  have hheader : hasPrefix (cloudConfigOf data) cloudConfigHeader = true := by
    unfold validateBootstrap at hprovider
    by_contra hnot
    split at hprovider
    · cases hprovider
    · have hnone : hasPrefix (cloudConfigOf data) "#cloud-config\n" = false :=
        Bool.eq_false_iff.mpr hnot
      rw [hnone] at hprovider
      cases hprovider
  constructor
  · rintro ⟨stored, merged, hstored, hmerged, hjinja⟩
    obtain ⟨hsupported, rfl⟩ := (unsealBootstrap_eq_ok hagree).mp hstored
    refine ⟨(mergeBootstrap_ok_iff hagree hready hsupported).mp ⟨merged, hmerged⟩, fun hstrip => ?_⟩
    -- the result is a template, so there is no space before the first line
    have hdata := hjinja.mpr hstrip
    rw [startsWith_userData hmerged] at hdata
    -- nor is it a cloud-config at once
    have hplain : startsWith _ cloudConfigHeader = false :=
      startsWith_eq_false hdata (by decide) (by decide)
    rw [supported, lstrip_of_jinja hdata, hplain, Bool.false_or] at hsupported
    exact hsupported
  · rintro ⟨hlisted, htemplate⟩
    have hsupported : supported data = true := by
      unfold supported
      rcases lstrip_of_accepted hheader with hstrip | hstrip
      · have hdata := htemplate hstrip
        rw [lstrip_of_jinja (jinja_of_jinjaCloudConfig hdata), hdata, Bool.or_true]
      · rw [hstrip, Bool.true_or]
    obtain ⟨merged, hmerged⟩ := (mergeBootstrap_ok_iff hagree hready hsupported).mpr hlisted
    refine ⟨data, merged, (unsealBootstrap_eq_ok hagree).mpr ⟨hsupported, rfl⟩, hmerged, ?_⟩
    rw [startsWith_userData hmerged]
    constructor
    · intro hdata
      rwa [lstrip_of_jinja hdata]
    · exact fun hstrip => jinja_of_jinjaCloudConfig (htemplate hstrip)

/-! ### Headers that are recognised in one place only -/

/-- The first of some lines with a start of its own, and the rest with spaces in its place. -/
def hang (start : String) : List String → List String
  | [] => []
  | line :: lines => (start ++ line) :: lines.map ("  " ++ ·)

mutual

/-- The lines that a value is written in. A list in a mapping is indented by `indent`, and `text` writes a
text. -/
def Yaml.lines (indent : String) (text : String → List String) : Yaml → List String
  | .text s => text s
  | .scalar .null => ["null"]
  | .scalar (.bool b) => [if b then "true" else "false"]
  | .scalar (.other s) => [s]
  | .list items => Yaml.itemLines indent text items
  | .map entries => Yaml.entryLines indent text entries

/-- The lines of a list. -/
def Yaml.itemLines (indent : String) (text : String → List String) : List Yaml → List String
  | [] => []
  | v :: items => hang "- " (v.lines indent text) ++ Yaml.itemLines indent text items

/-- The lines of some entries. -/
def Yaml.entryLines (indent : String) (text : String → List String) : List (Key × Yaml) → List String
  | [] => []
  | (k, v) :: entries =>
    let key := String.join k.texts ++ ":"
    (match v with
      | .list [] => [key ++ " []"]
      | .list _ => key :: (v.lines indent text).map (indent ++ ·)
      | .map _ => key :: (v.lines indent text).map ("  " ++ ·)
      | _ => hang (key ++ " ") (v.lines indent text)) ++ Yaml.entryLines indent text entries

end

/-- The lines of a literal block. -/
def literalLines (s : String) : List String := "|-" :: (s.toList.splitOn '\n').map String.ofList

/-- A text, as Go writes it. -/
def goText (s : String) : List String :=
  if Python.contains s "\n" then literalLines s
  else if Python.startsWith s "\x7b" then ["'" ++ s ++ "'"] else [s]

/-- A text with some lines. -/
def unlines : List String → String
  | [] => ""
  | line :: lines => line ++ "\n" ++ unlines lines

/-- A document. -/
def Mapping.write (indent : String) (text : String → List String) (m : Mapping) : String :=
  unlines (Yaml.entryLines indent text m.entries)

/-- What the libraries write for documents with short texts. -/
def writing (unmarshal : String → Except Err (Option Mapping)) (safeLoad : String → Except Err Document) :
    YamlLib where
  unmarshal
  marshal m := .ok (m.write "    " goText)
  safeLoad
  dump represent m := m.write "" fun s => match represent s with
    | (value, true) => literalLines value
    | (value, false) => [value]
  safeDump m := m.write "" fun s => [s]

/-- A mapping with one entry. -/
def Mapping.single (key : String) (value : Yaml) : Mapping :=
  ⟨[(.text key, value)], List.nodup_singleton _⟩

/-- The user-data of the server, before it is merged. -/
def sampleBase : Mapping :=
  .single "runcmd" (.list [.text "# gomi-capi-completion\nnotify"])

/-- The seed of the server. -/
def sampleSeed : Seed where
  userData := "#cloud-config\nruncmd:\n    - |-\n      # gomi-capi-completion\n      notify\n"
  metaData := "instance-id: gomi-host\n"

/-- YAML libraries that read the files of the seed, and any other text as a given mapping. -/
def sampleYaml (config : Mapping) : YamlLib :=
  writing (fun _ => .ok (some config)) fun text =>
    if text = sampleSeed.userData then .ok (.map sampleBase)
    else if text = sampleSeed.metaData then .ok (.map (.single "instance-id" (.text "gomi-host")))
    else .ok (.map config)

example : (sampleYaml sampleBase).marshal sampleBase =
    .ok "runcmd:\n    - |-\n      # gomi-capi-completion\n      notify\n" := by
  decide

theorem sampleYaml_safeLoad {text : String} (huser : text ≠ sampleSeed.userData)
    (hmeta : text ≠ sampleSeed.metaData) :
    (sampleYaml config).safeLoad text = .ok (.map config) := by
  simp only [sampleYaml, writing]
  rw [if_neg huser, if_neg hmeta]

theorem sampleYaml_agree (huser : data ≠ sampleSeed.userData) (hmeta : data ≠ sampleSeed.metaData)
    (huser' : universalNewlines data ≠ sampleSeed.userData)
    (hmeta' : universalNewlines data ≠ sampleSeed.metaData) :
    Agree (sampleYaml config) data config :=
  ⟨rfl, sampleYaml_safeLoad huser hmeta, sampleYaml_safeLoad huser' hmeta'⟩

theorem sampleYaml_ready : Ready (sampleYaml config) sampleSeed "capi-a" where
  userData := by
    refine ⟨sampleBase, [.text "# gomi-capi-completion\nnotify"], "# gomi-capi-completion\nnotify", ?_,
      rfl, ?_⟩
    · rw [show universalNewlines sampleSeed.userData = sampleSeed.userData by decide]
      simp only [sampleYaml, writing, if_true]
    · rw [List.filterMap_cons_some (completion_of_mark (by decide)), List.filterMap_nil]
  metaData := by
    rw [show universalNewlines sampleSeed.metaData = sampleSeed.metaData by decide]
    have hne : sampleSeed.metaData ≠ sampleSeed.userData := by decide
    simp only [sampleYaml, writing, if_neg hne, if_true]
    exact ⟨_, rfl⟩
  owner := by decide

theorem sampleYaml_validate (h : hasPrefix (cloudConfigOf data) "#cloud-config\n" = true) :
    validateBootstrap (sampleYaml config) data "cloud-config" = .ok () := by
  unfold validateBootstrap
  rw [if_neg (by decide), h]
  rfl

/-- A template that starts with the two lines of one is accepted everywhere. -/
theorem bootstrap_accepted_template :
    AcceptedOnHost (sampleYaml (.single "runcmd" (.list [])))
      "## template: jinja\n#cloud-config\nruncmd: []\n" sampleSeed "capi-a" := by
  refine (bootstrap_accepted_iff (sampleYaml_validate ?_) (sampleYaml_agree ?_ ?_ ?_ ?_)
    (sampleYaml_ready)).mpr ⟨?_, fun _ => ?_⟩
  · decide
  · decide
  · decide
  · decide
  · decide
  · rintro v hv
    cases hv
    exact ⟨_, rfl⟩
  · decide

/-- A template with an empty line before its second line. -/
def blankLine : String := "## template: jinja\n\n#cloud-config\nhostname: a\n"

/-- A template with an empty line before its first line. -/
def leadingLine : String := "\n## template: jinja\n#cloud-config\nhostname: a\n"

/-- A cloud-config with a command in place of a list. -/
def singleCommand : String := "#cloud-config\nruncmd: echo\n"

/-- What is read from the two templates. -/
def hostConfig : Mapping := .single "hostname" (.text "a")

/-- What is read from the cloud-config. -/
def singleConfig : Mapping := .single "runcmd" (.text "echo")

theorem agree_leadingLine : Agree (sampleYaml config) leadingLine config :=
  sampleYaml_agree (by decide) (by decide) (by decide) (by decide)

theorem agree_singleCommand : Agree (sampleYaml config) singleCommand config :=
  sampleYaml_agree (by decide) (by decide) (by decide) (by decide)

/-- The host does not accept the first of them; it makes something that is no template out of the
second; and it cannot merge the third. The provider accepts them all. -/
theorem bootstrap_refused :
    (validateBootstrap (sampleYaml hostConfig) blankLine "cloud-config" = .ok () ∧
      Agree (sampleYaml hostConfig) blankLine hostConfig ∧
      unsealBootstrap (sampleYaml hostConfig) blankLine =
        .error (.msg "unsupported bootstrap format")) ∧
    (validateBootstrap (sampleYaml hostConfig) leadingLine "cloud-config" = .ok () ∧
      Agree (sampleYaml hostConfig) leadingLine hostConfig ∧
      startsWith (lstrip leadingLine) jinjaTemplateHeader = true ∧
      ∃ merged, mergeBootstrap (sampleYaml hostConfig) leadingLine sampleSeed "capi-a" = .ok merged ∧
        startsWith merged.userData jinjaTemplateHeader = false) ∧
    validateBootstrap (sampleYaml singleConfig) singleCommand "cloud-config" = .ok () ∧
      Agree (sampleYaml singleConfig) singleCommand singleConfig ∧
      ∀ merged,
        mergeBootstrap (sampleYaml singleConfig) singleCommand sampleSeed "capi-a" ≠ .ok merged := by
  refine ⟨⟨sampleYaml_validate (by decide), sampleYaml_agree (by decide) (by decide) (by decide) (by decide), ?_⟩,
    ⟨sampleYaml_validate (by decide), agree_leadingLine, by decide, ?_⟩,
    sampleYaml_validate (by decide), agree_singleCommand, fun merged hmerged => ?_⟩
  · unfold unsealBootstrap
    rw [show supported blankLine = false by decide]
    rfl
  · have hlisted : ListedCommands hostConfig := fun v hv => by cases hv
    obtain ⟨merged, hmerged⟩ := (mergeBootstrap_ok_iff (agree_leadingLine)
      (sampleYaml_ready) (by decide)).mpr hlisted
    refine ⟨merged, hmerged, ?_⟩
    rw [startsWith_userData hmerged]
    decide
  · have hlisted := (mergeBootstrap_ok_iff (agree_singleCommand) (sampleYaml_ready)
      (by decide)).mp ⟨merged, hmerged⟩
    obtain ⟨commands, hcommands⟩ := hlisted _ rfl
    cases hcommands

end Gomi.CloudConfig
