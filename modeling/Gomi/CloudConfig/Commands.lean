import Gomi.CloudConfig.Bootstrap

/-!
# Commands that prepare a node

The configuration of a host may have commands that are run at boot, if they are among five argument
vectors. What is looked up is the arguments of a command joined by null characters, and a text of a YAML
document may have null characters itself. So a command passes exactly if it gives one of the five
vectors when its texts are cut at them (`Gomi.CloudConfig.validateEntry_eq_ok`), and the check is exact
for all values but those in which such a cut was needed (`Gomi.CloudConfig.commands_exact_iff`).
-/

namespace Gomi.CloudConfig

open Go

/-- `allowedNodePreparationCommands`. -/
def allowedNodePreparationCommands : List String :=
  ["modprobe\x00overlay", "modprobe\x00br_netfilter", "sysctl\x00-w\x00net.ipv4.ip_forward=1",
    "sysctl\x00-w\x00net.bridge.bridge-nf-call-iptables=1",
    "sysctl\x00-w\x00net.bridge.bridge-nf-call-ip6tables=1"]

/-- The loop over the arguments of entry `i`, from argument `j` on. -/
def argvOf (i : ℕ) : ℕ → List Yaml → Except Err (List String)
  | _, [] => .ok []
  | j, item :: items =>
    match item with
    | .text argument => do
      failIf (argument = "") (badArgument j)
      return argument :: (← argvOf i (j + 1) items)
    | _ => .error (badArgument j)
where
  badArgument (j : ℕ) : Err :=
    .msg ("entry " ++ toString i ++ " argument " ++ toString j ++ " must be a non-empty string")

/-- The check of entry `i`. -/
def validateEntry (i : ℕ) : Yaml → Except Err Unit
  | .list (item :: items) => do
    let argv ← argvOf i 0 (item :: items)
    failIf ("\x00".intercalate argv ∉ allowedNodePreparationCommands)
      (.msg ("entry " ++ toString i ++ " is not an allowed Kubernetes node preparation command"))
  | _ => .error (.msg ("entry " ++ toString i ++ " must be an argv list"))

/-- The loop over the entries, from entry `i` on. -/
def validateEntries : ℕ → List Yaml → Except Err Unit
  | _, [] => .ok ()
  | i, raw :: commands => do
    validateEntry i raw
    validateEntries (i + 1) commands

/-- `validateNodePreparationCommands`. -/
def validateNodePreparationCommands : Yaml → Except Err Unit
  | .list (command :: commands) => validateEntries 0 (command :: commands)
  | _ => .error (.msg "must be a non-empty list of argv lists")

/-- `fmt.Errorf` with a text before the error. -/
def wrapped (text : String) (x : Except Err Unit) : Except Err Unit :=
  x.mapError fun e => .msg (text ++ e.text)

/-- `validateDeclarativeCloudInit`. -/
def validateDeclarativeCloudInit (lib : YamlLib) (data : String) : Except Err Unit := do
  wrapped "provisioning config " (validateBootstrap lib data "cloud-config")
  match lib.unmarshal (cloudConfigOf data) with
  | .error _ => throw (.msg "provisioning config must be valid cloud-config YAML")
  | .ok config =>
    failIf ((config.bind (·.get (.text "runcmd"))).isSome)
      (.msg "provisioning config must be declarative; runcmd is not allowed")
    match config.bind (·.get (.text "bootcmd")) with
    | some commands =>
      wrapped "provisioning config bootcmd " (validateNodePreparationCommands commands)
    | none => return ()

/-! ### What passes -/

/-- The five argument vectors. -/
def allowedVectors : List (List String) :=
  [["modprobe", "overlay"], ["modprobe", "br_netfilter"], ["sysctl", "-w", "net.ipv4.ip_forward=1"],
    ["sysctl", "-w", "net.bridge.bridge-nf-call-iptables=1"],
    ["sysctl", "-w", "net.bridge.bridge-nf-call-ip6tables=1"]]

/-- A list of texts with a property. -/
def IsVector (P : List String → Prop) (raw : Yaml) : Prop :=
  ∃ argv : List String, raw = .list (argv.map .text) ∧ P argv

/-- A non-empty list of such lists. -/
def AreVectors (P : List String → Prop) (commands : Yaml) : Prop :=
  ∃ entries ≠ [], commands = .list entries ∧ ∀ raw ∈ entries, IsVector P raw

/-- The pieces of a text between null characters. -/
def cut (s : String) : List String := (s.toList.splitOn '\x00').map String.ofList

/-- The pieces of the arguments are an allowed vector. -/
def Passes (argv : List String) : Prop := argv.flatMap cut ∈ allowedVectors

variable {lib : YamlLib} {data : String} {config : Mapping} {commands raw : Yaml} {argv : List String}
  {i : ℕ} {entries : List Yaml}

theorem join_cut (s : String) : "\x00".intercalate (cut s) = s := by
  rw [← String.toList_inj, String.toList_intercalate]
  simp [cut, List.map_map, Function.comp_def, List.intercalate_splitOn]

theorem cut_join (h : argv ≠ []) : cut ("\x00".intercalate argv) = argv.flatMap cut := by
  induction argv with
  | nil => exact (h rfl).elim
  | cons s argv ih =>
    rcases argv with _ | ⟨t, argv⟩
    · simp
    · rw [List.flatMap_cons, ← ih (by simp), String.intercalate_cons_cons]
      simp [cut, List.splitOn_append_cons_self]

/-- **What is looked up**: the joined arguments are allowed if the pieces of the arguments are. -/
theorem join_allowed_iff (h : argv ≠ []) :
    "\x00".intercalate argv ∈ allowedNodePreparationCommands ↔ Passes argv := by
  have hcut : ∀ s ∈ allowedNodePreparationCommands, cut s ∈ allowedVectors := by decide
  have hjoin : ∀ v ∈ allowedVectors, "\x00".intercalate v ∈ allowedNodePreparationCommands := by decide
  rw [Passes, ← cut_join h]
  refine ⟨hcut _, fun hmem => ?_⟩
  have := hjoin _ hmem
  rwa [join_cut] at this

theorem argvOf_eq_ok {j : ℕ} : argvOf i j entries = .ok argv ↔ entries = argv.map .text ∧ "" ∉ argv := by
  induction entries generalizing j argv with
  | nil => cases argv <;> simp [argvOf]
  | cons item items ih =>
    cases item with
    | text s =>
      rw [argvOf, check_bind_eq_ok, failIf_eq_ok, bind_eq_ok]
      constructor
      · rintro ⟨hs, rest, hrest, ⟨⟩⟩
        obtain ⟨rfl, hne⟩ := ih.mp hrest
        exact ⟨rfl, by simp [Ne.symm hs, hne]⟩
      · rintro ⟨heq, hne⟩
        obtain ⟨t, rest, rfl, ht, rfl⟩ := List.map_eq_cons_iff.mp heq.symm
        cases ht
        rw [List.mem_cons, not_or] at hne
        exact ⟨Ne.symm hne.1, rest, ih.mpr ⟨rfl, hne.2⟩, rfl⟩
    | _ => cases argv <;> simp [argvOf]

/-- **What passes**: the lists of texts that give an allowed vector when they are cut. -/
theorem validateEntry_eq_ok : validateEntry i raw = .ok () ↔ IsVector Passes raw := by
  constructor
  · intro h
    unfold validateEntry at h
    split at h
    · obtain ⟨argv, hargv, h⟩ := bind_eq_ok.mp h
      obtain ⟨hitems, -⟩ := argvOf_eq_ok.mp hargv
      refine ⟨argv, congrArg _ hitems, (join_allowed_iff ?_).mp (not_not.mp (failIf_eq_ok.mp h))⟩
      rintro rfl
      cases hitems
    · cases h
  · rintro ⟨argv, rfl, hpass⟩
    cases argv with
    | nil => exact absurd (show [] ∈ allowedVectors from hpass) (by decide)
    | cons s argv =>
      have hpieces : ∀ v ∈ allowedVectors, "" ∉ v := by decide
      refine bind_eq_ok.mpr ⟨s :: argv, argvOf_eq_ok.mpr ⟨rfl, fun hempty => ?_⟩, ?_⟩
      · exact hpieces _ hpass (List.mem_flatMap.mpr ⟨"", hempty, by decide⟩)
      · exact failIf_eq_ok.mpr (not_not.mpr ((join_allowed_iff (by simp)).mpr hpass))

theorem validateNodePreparationCommands_eq_ok :
    validateNodePreparationCommands commands = .ok () ↔ AreVectors Passes commands := by
  have hentries : ∀ i entries, validateEntries i entries = .ok () ↔
      ∀ raw ∈ entries, IsVector Passes raw := by
    intro i entries
    induction entries generalizing i with
    | nil => simp [validateEntries]
    | cons raw entries ih => simp [validateEntries, validateEntry_eq_ok, ih]
  unfold validateNodePreparationCommands
  split
  · rw [hentries]
    simp [AreVectors]
  · rename_i hother
    refine ⟨nofun, fun ⟨entries, hne, heq, _⟩ => ?_⟩
    obtain ⟨raw, entries, rfl⟩ := List.exists_cons_of_ne_nil hne
    exact (hother _ _ heq).elim

theorem mem_texts_list {s : String} : s ∈ (Yaml.list entries).texts ↔ ∃ raw ∈ entries, s ∈ raw.texts := by
  rw [Yaml.texts]
  induction entries with
  | nil => simp [Yaml.listTexts]
  | cons raw entries ih => simp [Yaml.listTexts, ih]

/-- An allowed vector is one that passes without a cut. -/
theorem isVector_allowed_iff : IsVector (· ∈ allowedVectors) raw ↔
    IsVector Passes raw ∧ ∀ s ∈ raw.texts, '\x00' ∉ s.toList := by
  have hvectors : ∀ v ∈ allowedVectors, ∀ s ∈ v, '\x00' ∉ s.toList := by decide
  have hcut : ∀ argv : List String, (∀ s ∈ argv, '\x00' ∉ s.toList) → argv.flatMap cut = argv := by
    intro argv hfree
    rw [List.flatMap_congr (g := fun s => [s]) fun s hs => ?_]
    · simp
    · simp [cut, List.splitOn_eq_singleton (hfree s hs)]
  have htexts : ∀ {argv : List String} {s}, s ∈ (Yaml.list (argv.map .text)).texts ↔ s ∈ argv := by
    intro argv s
    rw [mem_texts_list]
    simp [Yaml.texts]
  constructor
  · rintro ⟨argv, rfl, hargv⟩
    refine ⟨⟨argv, rfl, ?_⟩, fun s hs => hvectors argv hargv s (htexts.mp hs)⟩
    rwa [Passes, hcut argv (hvectors argv hargv)]
  · rintro ⟨⟨argv, rfl, hpass⟩, hfree⟩
    refine ⟨argv, rfl, ?_⟩
    rwa [Passes, hcut argv fun s hs => hfree s (htexts.mpr hs)] at hpass

/-- **The check is exact for a value** unless this has a null character and all its entries are allowed
vectors once they are cut at null characters. -/
theorem commands_exact_iff (hheader : hasPrefix (cloudConfigOf data) "#cloud-config\n" = true)
    (hconfig : lib.unmarshal (cloudConfigOf data) = .ok (some config))
    (hrun : config.get (.text "runcmd") = none) (hboot : config.get (.text "bootcmd") = some commands) :
    (validateDeclarativeCloudInit lib data = .ok () ↔ AreVectors (· ∈ allowedVectors) commands) ↔
      (∀ s ∈ commands.texts, '\x00' ∉ s.toList) ∨ ¬AreVectors Passes commands := by
  have hpass : validateDeclarativeCloudInit lib data = .ok () ↔ AreVectors Passes commands := by
    rw [← validateNodePreparationCommands_eq_ok]
    have hvalid : validateBootstrap lib data "cloud-config" = .ok () := by
      simp [validateBootstrap, hheader, hconfig]
    unfold validateDeclarativeCloudInit
    simp only [hvalid, hconfig, Option.bind_some, hrun, hboot]
    cases validateNodePreparationCommands commands <;> simp [wrapped, Except.mapError, failIf]
  have hallowed : AreVectors (· ∈ allowedVectors) commands ↔
      AreVectors Passes commands ∧ ∀ s ∈ commands.texts, '\x00' ∉ s.toList := by
    constructor
    · rintro ⟨entries, hne, rfl, hall⟩
      refine ⟨⟨entries, hne, rfl, fun raw h => (isVector_allowed_iff.mp (hall raw h)).1⟩, fun s hs => ?_⟩
      obtain ⟨raw, h, hs⟩ := mem_texts_list.mp hs
      exact (isVector_allowed_iff.mp (hall raw h)).2 s hs
    · rintro ⟨⟨entries, hne, rfl, hall⟩, hfree⟩
      refine ⟨entries, hne, rfl, fun raw h => isVector_allowed_iff.mpr ⟨hall raw h, fun s hs => ?_⟩⟩
      exact hfree s (mem_texts_list.mpr ⟨raw, h, hs⟩)
  rw [hpass, hallowed, iff_self_and, imp_iff_or_not]

/-- A document with one command. -/
def commandConfig (argv : List String) : Mapping := .single "bootcmd" (.list [.list (argv.map .text)])

theorem commands_exact_overlay : validateDeclarativeCloudInit
    (sampleYaml (commandConfig ["modprobe", "overlay"]))
    "#cloud-config\nbootcmd: [[modprobe, overlay]]\n" = .ok () := by
  refine ((commands_exact_iff (by decide) rfl rfl rfl).mpr (Or.inl ?_)).mpr
    ⟨_, by simp, rfl, List.forall_mem_singleton.mpr ⟨["modprobe", "overlay"], rfl, by decide⟩⟩
  simp only [Yaml.texts, Yaml.listTexts, List.map]
  decide

/-- The name of the command and its argument are one text, which is no command. -/
theorem glued_command_passes :
    validateDeclarativeCloudInit (sampleYaml (commandConfig ["modprobe\x00overlay"]))
      "#cloud-config\nbootcmd: [[\"modprobe\\0overlay\"]]\n" = .ok () ∧
    ¬AreVectors (· ∈ allowedVectors) (.list [.list [.text "modprobe\x00overlay"]]) := by
  refine ⟨by decide, ?_⟩
  rintro ⟨entries, -, ⟨⟩, hall⟩
  obtain ⟨argv, heq, hargv⟩ := List.forall_mem_singleton.mp hall
  obtain ⟨s, argv, rfl, ⟨⟩, hrest⟩ := List.map_eq_cons_iff.mp (Yaml.list.inj heq).symm
  obtain rfl := List.map_eq_nil_iff.mp hrest
  exact absurd hargv (by decide)

end Gomi.CloudConfig
