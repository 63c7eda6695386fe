import Gomi.Pxe.Installer
import Gomi.Shell.Grammar

/-!
# Commands carry their arguments unaltered

The texts of `Gomi.Pxe.Installer`, as a shell reads them. For each of them this file gives the
script that is meant (`Gomi.Installer.earlyScript`, `lateScript`, `registerScript`), in which every
argument is a word under quotes that is just the argument, and shows that the shell reads that
script, whatever the arguments are. The registration command is read twice: the line of `runcmd` is a
call of `bash` with one argument, and that argument is the script.

The proofs go through a text from one argument to the next. The text between two arguments is fixed,
and what the shell makes of it is computed; an argument adds itself to the word
(`Gomi.Shell.run_slot`).
-/

namespace Gomi.Installer

open Go Shell

/-! ### The scripts that are meant -/

/-- A word without quotes. -/
def bare (s : String) : Word := [.lit s.toList]

/-- A word under quotes. -/
def quoted (s : String) : Word := [.quoted s.toList]

/-- A word that is the value of a variable. -/
def valueOf (name : String) : Word := [.quoted [], .param name.toList true]

/-- A command with the given words. -/
def call (words : List Word) : Command := .simple [] words []

/-- Commands one after the other. -/
def sequence (c : Command) : List Command → Command
  | [] => c
  | d :: cs => .seq c (sequence d cs)

/-- The script that keeps the identity of a host, and unseals the bootstrap if there is one. -/
def earlyScript (name disk : String) (seed : SealedBootstrap) : Command :=
  sequence (call [bare "set", bare "-eu"])
    ([call [bare "umask", bare "077"],
      call [bare "install", bare "-d", bare "-m", bare "700", bare "/run/gomi-sealed-bootstrap"],
      call [bare "gomi-preserve-identity", bare "--disk", quoted disk, bare "--fingerprint",
        quoted seed.keyFingerprint, bare "--output", bare "/run/gomi-sealed-bootstrap/identity"]] ++
    if seed.cleanup then [] else
      [.pipe
        (call [bare "printf", quoted "%s",
          quoted (base64Encode (SealedSeed.textBytes seed.envelope))])
        (.simple [] [bare "base64", bare "-d"]
          [(['>'], bare "/run/gomi-sealed-bootstrap/envelope.json")]),
      call [bare "gomi-unseal-bootstrap", bare "--key",
        bare "/run/gomi-sealed-bootstrap/identity/ssh_host_rsa_key", bare "--host", quoted name,
        bare "--owner", quoted seed.owner, bare "--input",
        bare "/run/gomi-sealed-bootstrap/envelope.json", bare "--output",
        bare "/run/gomi-sealed-bootstrap/bootstrap.yaml"]])

/-- A path in the target of the installation. -/
def inTarget (rest : List Part) : Word :=
  .quoted [] :: .param "TARGET_MOUNT_POINT".toList true :: rest

/-- The name of a key in the target. -/
def keyInTarget (rest : List Part) : Word :=
  inTarget (.quoted "/etc/ssh/".toList :: .subst "basename \"$key\"".toList true :: rest)

/-- The script that puts the identity into the target, and merges the bootstrap if there is one. -/
def lateScript (seed : SealedBootstrap) : Command :=
  sequence (call [bare "set", bare "-eu"])
    ([call [bare "install", bare "-d", bare "-m", bare "755", inTarget [.quoted "/etc/ssh".toList]],
      .forIn "key".toList [bare "/run/gomi-sealed-bootstrap/identity/ssh_host_*_key"]
        (sequence (call [bare "install", bare "-m", bare "600", valueOf "key", keyInTarget []])
          [call [bare "install", bare "-m", bare "644",
            [.quoted [], .param "key".toList true, .quoted ".pub".toList],
            keyInTarget [.quoted ".pub".toList]]])] ++
    if seed.cleanup then [] else
      [call [bare "gomi-merge-bootstrap", bare "--bootstrap",
        bare "/run/gomi-sealed-bootstrap/bootstrap.yaml", bare "--seed",
        inTarget [.quoted "/var/lib/cloud/seed/nocloud".toList], bare "--owner", quoted seed.owner]])

/-- The download of the setup script. -/
def fetch (serverBase : String) : Command :=
  call [bare "curl", bare "-sfL", bare "-o", valueOf "tmp", quoted (setupURL serverBase)]

/-- The setup script, with the variables that it reads. -/
def register (serverBase token hostname : String) : Command :=
  .simple [("GOMI_SERVER".toList, quoted serverBase), ("GOMI_TOKEN".toList, quoted token),
    ("GOMI_HOSTNAME".toList, quoted hostname)] [bare "bash", valueOf "tmp"] []

/-- The script that registers a hypervisor. -/
def registerScript (serverBase token hostname : String) : Command :=
  sequence (call [bare "set", bare "-euo", bare "pipefail"])
    [.simple [("tmp".toList, [.subst "mktemp".toList false])] [] [],
      call [bare "trap", quoted "rm -f \"$tmp\"", bare "EXIT"],
      .forIn "i".toList [[.subst "seq 1 60".toList false]]
        (sequence (.ifThen (fetch serverBase)
            (sequence (register serverBase token hostname) [call [bare "exit", [.param ['?'] false]]]))
          [call [bare "sleep", bare "2"]]),
      fetch serverBase, register serverBase token hostname]

/-! ### The early command -/

/-- The tokens of a word without quotes. -/
def bareToken (s : String) : Token := .word (bare s)

/-- The tokens of the first part of the early command, up to its last word. -/
def preserveTokens (disk fingerprint : String) : List Token :=
  [bareToken "set", bareToken "-eu", .op [';'], bareToken "umask", bareToken "077", .op [';'],
    bareToken "install", bareToken "-d", bareToken "-m", bareToken "700",
    bareToken "/run/gomi-sealed-bootstrap", .op [';'], bareToken "gomi-preserve-identity",
    bareToken "--disk", .word (quoted disk), bareToken "--fingerprint", .word (quoted fingerprint),
    bareToken "--output", bareToken "/run/gomi-sealed-bootstrap/identity"]

/-- The tokens of the second part. -/
def unsealTokens (envelope name owner : String) : List Token :=
  [.op [';'], bareToken "printf", .word (quoted "%s"), .word (quoted envelope), .op ['|'],
    bareToken "base64", bareToken "-d", .op ['>'],
    bareToken "/run/gomi-sealed-bootstrap/envelope.json", .op [';'],
    bareToken "gomi-unseal-bootstrap", bareToken "--key",
    bareToken "/run/gomi-sealed-bootstrap/identity/ssh_host_rsa_key", bareToken "--host",
    .word (quoted name), bareToken "--owner", .word (quoted owner), bareToken "--input",
    bareToken "/run/gomi-sealed-bootstrap/envelope.json", bareToken "--output",
    bareToken "/run/gomi-sealed-bootstrap/bootstrap.yaml"]

set_option maxRecDepth 4096 in
/-- What the shell makes of the texts around the arguments of the early command. -/
theorem early_texts :
    (run {} beforeDisk = ((preserveTokens "" "").take 14, {})) ∧
    (run {} beforeFingerprint = ([bareToken "--fingerprint"], {})) ∧
    (run {} afterFingerprint =
      ([bareToken "--output"], { parts := bare "/run/gomi-sealed-bootstrap/identity" })) ∧
    (run {} (afterFingerprint ++ beforeEnvelope) =
      ((preserveTokens "" "").drop 17 ++ (unsealTokens "" "" "").take 3, {})) ∧
    (run {} beforeHost = (((unsealTokens "" "" "").drop 4).take 10, {})) ∧
    (run {} beforeOwner = ([bareToken "--owner"], {})) ∧
    (run {} afterOwner = (((unsealTokens "" "" "").drop 17).take 3,
      { parts := bare "/run/gomi-sealed-bootstrap/bootstrap.yaml" })) ∧
    breaks beforeFingerprint = true ∧
    breaks afterFingerprint = true ∧
    breaks beforeHost = true ∧
    breaks beforeOwner = true ∧
    breaks afterOwner = true := by
  rw [show beforeDisk = _ from String.toList_ofList,
    show afterFingerprint = _ from String.toList_ofList,
    show beforeHost = _ from toList_two,
    show afterOwner = _ from toList_two]
  decide

theorem tokens_early (name disk : String) (seed : SealedBootstrap) :
    tokens (earlyCommand name disk seed).toList = some (preserveTokens disk seed.keyFingerprint ++
      if seed.cleanup then [] else
        unsealTokens (base64Encode (SealedSeed.textBytes seed.envelope)) name seed.owner) := by
  obtain ⟨run_beforeDisk, run_beforeFingerprint, run_afterFingerprint, run_beforeEnvelope,
    run_beforeHost, run_beforeOwner, run_afterOwner, hfingerprint, hoption, hhost, howner, hinput⟩ :=
    early_texts
  cases hcleanup : seed.cleanup with
  | true =>
    have htext : (earlyCommand name disk seed).toList = beforeDisk ++ (Shell.quote disk.toList ++
        (beforeFingerprint ++ (Shell.quote seed.keyFingerprint.toList ++ afterFingerprint))) := by
      rw [earlyCommand, if_pos hcleanup, String.toList_append, toList_preserve]
      exact List.append_nil _
    rw [tokens, htext, run_slot run_beforeDisk _ (breaks_append hfingerprint _),
      run_slot run_beforeFingerprint _ hoption, run_afterFingerprint]
    rfl
  | false =>
    have htext : (earlyCommand name disk seed).toList = beforeDisk ++ (Shell.quote disk.toList ++
        (beforeFingerprint ++ (Shell.quote seed.keyFingerprint.toList ++
          ((afterFingerprint ++ beforeEnvelope) ++
            (Shell.quote (base64Encode (SealedSeed.textBytes seed.envelope)).toList ++
              (beforeHost ++ (Shell.quote name.toList ++
                (beforeOwner ++ (Shell.quote seed.owner.toList ++ afterOwner))))))))) := by
      rw [earlyCommand, if_neg (by rw [hcleanup]; simp), String.toList_append, toList_preserve,
        toList_unseal]
      simp only [List.append_assoc]
    rw [tokens, htext, run_slot run_beforeDisk _ (breaks_append hfingerprint _),
      run_slot run_beforeFingerprint _ (breaks_append (breaks_append hoption _) _),
      run_slot run_beforeEnvelope _ (breaks_append hhost _),
      run_slot run_beforeHost _ (breaks_append howner _), run_slot run_beforeOwner _ hinput,
      run_afterOwner]
    rfl

/-- **The shell reads the early script.** -/
theorem parse_early (name disk : String) (seed : SealedBootstrap) :
    Shell.parse (earlyCommand name disk seed).toList = some (earlyScript name disk seed) := by
  rw [Shell.parse, tokens_early]
  cases hcleanup : seed.cleanup with
  | true | false =>
    rw [earlyScript, hcleanup]
    rfl

/-! ### The late command -/

/-- The tokens of the first part of the late command. -/
def identityTokens : List Token :=
  [bareToken "set", bareToken "-eu", .op [';'], bareToken "install", bareToken "-d", bareToken "-m",
    bareToken "755", .word (inTarget [.quoted "/etc/ssh".toList]), .op [';'], bareToken "for",
    bareToken "key", bareToken "in", bareToken "/run/gomi-sealed-bootstrap/identity/ssh_host_*_key",
    .op [';'], bareToken "do", bareToken "install", bareToken "-m", bareToken "600",
    .word (valueOf "key"), .word (keyInTarget []), .op [';'], bareToken "install", bareToken "-m",
    bareToken "644", .word [.quoted [], .param "key".toList true, .quoted ".pub".toList],
    .word (keyInTarget [.quoted ".pub".toList]), .op [';']]

set_option maxRecDepth 4096 in
/-- What the shell makes of the texts before the owner in the late command. -/
theorem late_texts :
    (run {} identityText = (identityTokens, { parts := bare "done" })) ∧
    (run {} mergeText =
      ([.op [';'], bareToken "gomi-merge-bootstrap", bareToken "--bootstrap",
        bareToken "/run/gomi-sealed-bootstrap/bootstrap.yaml", bareToken "--seed",
        .word (inTarget [.quoted "/var/lib/cloud/seed/nocloud".toList]), bareToken "--owner"], {})) ∧
    breaks mergeText = true := by
  rw [show identityText = _ from toList_three,
    show mergeText = _ from toList_two]
  decide

/-- **The shell reads the late script.** -/
theorem parse_late (seed : SealedBootstrap) :
    Shell.parse (lateCommand seed).toList = some (lateScript seed) := by
  obtain ⟨run_identityText, run_mergeText, hbreak⟩ := late_texts
  have hdone : bare "done" ≠ [] := by simp [bare]
  cases hcleanup : seed.cleanup with
  | true =>
    have htext : (lateCommand seed).toList = identityText := by
      rw [lateCommand, if_pos hcleanup, String.toList_append, toList_identity]
      exact List.append_nil _
    rw [Shell.parse, tokens, htext, run_identityText, lateScript, hcleanup]
    rfl
  | false =>
    have htext : (lateCommand seed).toList =
        identityText ++ (mergeText ++ Shell.quote seed.owner.toList) := by
      rw [lateCommand, if_neg (by rw [hcleanup]; simp), String.toList_append, toList_identity,
        toList_merge]
    rw [Shell.parse, tokens, htext, run_append, run_identityText,
      run_break hdone (breaks_append hbreak _), run_slot_end run_mergeText, lateScript, hcleanup]
    rfl

/-! ### The registration command -/

/-- A word that assigns a value. -/
def assign (name value : String) : Token := .word [.lit (name ++ "=").toList, .quoted value.toList]

/-- The assignments to the variables of the setup script, and its call. -/
def registerTokens (serverBase token hostname : String) : List Token :=
  [assign "GOMI_SERVER" serverBase, assign "GOMI_TOKEN" token, assign "GOMI_HOSTNAME" hostname,
    bareToken "bash", .word (valueOf "tmp")]

/-- The tokens of the download. -/
def fetchTokens (serverBase : String) : List Token :=
  [bareToken "curl", bareToken "-sfL", bareToken "-o", .word (valueOf "tmp"),
    .word (quoted (setupURL serverBase))]

/-- The tokens before the first download. -/
def loopTokens : List Token :=
  [bareToken "set", bareToken "-euo", bareToken "pipefail", .op [';'],
    .word [.lit "tmp=".toList, .subst "mktemp".toList false], .op [';'], bareToken "trap",
    .word (quoted "rm -f \"$tmp\""), bareToken "EXIT", .op [';'], bareToken "for", bareToken "i",
    bareToken "in", .word [.subst "seq 1 60".toList false], .op [';'], bareToken "do", bareToken "if"]

/-- The tokens between the first call and the second download. -/
def retryTokens : List Token :=
  [.op [';'], bareToken "exit", .word [.param ['?'] false], .op [';'], bareToken "fi", .op [';'],
    bareToken "sleep", bareToken "2", .op [';'], bareToken "done", .op [';']]

set_option maxRecDepth 4096 in
/-- What the shell makes of the texts around the arguments of the registration script. -/
theorem register_texts :
    (run {} beforeURL =
      (loopTokens ++ (fetchTokens "").take 4, {})) ∧
    (run {} thenServer =
      ([.op [';'], bareToken "then"], { parts := [.lit "GOMI_SERVER=".toList] })) ∧
    (run {} beforeToken = ([], { parts := [.lit "GOMI_TOKEN=".toList] })) ∧
    (run {} beforeHostname =
      ([], { parts := [.lit "GOMI_HOSTNAME=".toList] })) ∧
    (run {} afterLoop =
      ((registerTokens "" "" "").drop 3 ++ retryTokens ++ (fetchTokens "").take 4, {})) ∧
    (run {} lastServer =
      ([.op [';']], { parts := [.lit "GOMI_SERVER=".toList] })) ∧
    (run {} lastCall =
      ([bareToken "bash"], { parts := [.param "tmp".toList true, .quoted []] })) ∧
    breaks thenServer = true ∧
    breaks beforeToken = true ∧
    breaks beforeHostname = true ∧
    breaks afterLoop = true ∧
    breaks lastServer = true ∧
    breaks lastCall = true := by
  rw [show beforeURL = _ from toList_two,
    show afterLoop = _ from String.toList_ofList]
  decide

theorem tokens_registerCmd (serverBase name token : String) :
    tokens (registerCmd serverBase name token).toList = some
      (loopTokens ++ fetchTokens serverBase ++ [.op [';'], bareToken "then"] ++
        registerTokens serverBase (trimSpace token) (trimSpace name) ++ retryTokens ++
        fetchTokens serverBase ++ .op [';'] ::
        registerTokens serverBase (trimSpace token) (trimSpace name)) := by
  obtain ⟨run_beforeURL, run_thenServer, run_beforeToken, run_beforeHostname, run_afterLoop,
    run_lastServer, run_lastCall, hthen, htoken, hhostname, hloop, hserver, hcall⟩ := register_texts
  rw [tokens, toList_registerCmd,
    run_slot run_beforeURL _ (breaks_append hthen _),
    run_slot run_thenServer _ (breaks_append htoken _),
    run_slot run_beforeToken _ (breaks_append hhostname _),
    run_slot run_beforeHostname _ (breaks_append hloop _),
    run_slot run_afterLoop _ (breaks_append hserver _),
    run_slot run_lastServer _ (breaks_append htoken _),
    run_slot run_beforeToken _ (breaks_append hhostname _),
    run_slot run_beforeHostname _ hcall, run_lastCall]
  rfl

/-- **The line of `runcmd`** is a call of `bash` with a script as its argument. -/
theorem parse_bash (script : String) :
    Shell.parse ("bash -c " ++ shellQuote script).toList =
      some (call [bare "bash", bare "-c", quoted script]) := by
  have hstart : run {} "bash -c ".toList = ([bareToken "bash", bareToken "-c"], {}) := by decide
  have htokens : tokens ("bash -c " ++ shellQuote script).toList =
      some [bareToken "bash", bareToken "-c", .word (quoted script)] := by
    rw [tokens, String.toList_append, toList_shellQuote, run_slot_end hstart]
    rfl
  rw [Shell.parse, htokens]
  rfl

/-! ### All commands -/

/-- **Commands carry their arguments unaltered.** What the installer is given for a sealed bootstrap
are two scripts for `sh`, and the shell reads those that are meant, with each argument in a word of its
own. The registration of a hypervisor is one call of `bash`, and what `bash` is given is the script that
is meant. A word under quotes stands for its text, whatever the variables are. -/
theorem commands_unaltered :
    (∀ (cfg cfg' : CurtinConfig) (m : Machine) (disk : String) (seed : SealedBootstrap),
      m.sealedBootstrap = some seed → configureSealedBootstrap cfg m disk = .ok cfg' →
      ∃ early late : String,
        cfg'.earlyCommands = (∅ : Table (List String)).insert "00-gomi-preserve-bootstrap"
          ["sh", "-c", early] ∧
        cfg'.lateCommands = cfg.lateCommands.insert "99-gomi-sealed-bootstrap" ["sh", "-c", late] ∧
        Shell.parse early.toList = some (earlyScript m.name disk seed) ∧
        Shell.parse late.toList = some (lateScript seed)) ∧
    (∀ pxeBaseURL hypervisorName registrationToken osFamily : String,
      serverBaseOf pxeBaseURL ≠ "" → trimSpace registrationToken ≠ "" →
      ∃ line script : String,
        (hypervisorRuncmds pxeBaseURL hypervisorName registrationToken osFamily).getLast? =
          some line ∧
        Shell.parse line.toList = some (call [bare "bash", bare "-c", quoted script]) ∧
        Shell.parse script.toList = some (registerScript (serverBaseOf pxeBaseURL)
          (trimSpace registrationToken) (trimSpace hypervisorName))) ∧
    ∀ (env : List Char → List Char) (s : String), Word.value env (quoted s) = some s.toList := by
  refine ⟨fun cfg cfg' m disk seed hseed hok => ?_, fun pxeBaseURL name token osFamily hserver htoken => ?_,
    fun env s => ?_⟩
  · obtain ⟨-, hearly, hlate⟩ := (configureSealedBootstrap_eq_ok hseed).mp hok
    exact ⟨_, _, hearly, hlate, parse_early m.name disk seed, parse_late seed⟩
  · -- the last command is the registration
    have hbase : trimRight (trimSpace pxeBaseURL) '/' ≠ "" := by
      intro hempty
      rw [serverBaseOf, hempty] at hserver
      exact hserver (by decide)
    refine ⟨_, _, ?_, parse_bash (registerCmd (serverBaseOf pxeBaseURL) name token), ?_⟩
    · simp only [hypervisorRuncmds, if_pos hbase, if_pos (And.intro hserver htoken)]
      rw [List.getLast?_append]
      rfl
    · rw [Shell.parse, tokens_registerCmd]
      rfl
  · show (some ([s.toList].flatten)) = some s.toList
    rw [List.flatten_singleton]

/-- A machine whose name, disk and token have quotes, blanks and dollar signs in them. -/
theorem commands_unaltered_quotes :
    (∃ cfg' early late, configureSealedBootstrap {} { Machine.sample "it's \"m1\"" with
        sealedBootstrap := some { owner := "capi-a", envelope := "envelope"
                                  keyFingerprint := hexEncode sampleKeyDigest } } "/dev/$(reboot)" =
          .ok cfg' ∧
        cfg'.earlyCommands = (∅ : Table (List String)).insert "00-gomi-preserve-bootstrap"
          ["sh", "-c", early] ∧
        Shell.parse early.toList = some (earlyScript "it's \"m1\"" "/dev/$(reboot)"
          { owner := "capi-a", envelope := "envelope", keyFingerprint := hexEncode sampleKeyDigest }) ∧
        cfg'.lateCommands = (∅ : Table (List String)).insert "99-gomi-sealed-bootstrap"
          ["sh", "-c", late]) ∧
      ∃ line script : String,
        (hypervisorRuncmds "http://gomi/pxe/" "hv 1" "tok'en; $HOME\n" "debian").getLast? = some line ∧
        Shell.parse line.toList = some (call [bare "bash", bare "-c", quoted script]) ∧
        Shell.parse script.toList = some (registerScript (serverBaseOf "http://gomi/pxe/")
          (trimSpace "tok'en; $HOME\n") (trimSpace "hv 1")) := by
  obtain ⟨hsealed, hregister, -⟩ := commands_unaltered
  refine ⟨?_, hregister _ _ _ _ (by decide) (by decide)⟩
  obtain ⟨cfg', hok⟩ := configureSealedBootstrap_ok {} "/dev/$(reboot)"
    (show ({ Machine.sample "it's \"m1\"" with
        sealedBootstrap := some { owner := "capi-a", envelope := "envelope"
                                  keyFingerprint := hexEncode sampleKeyDigest } } : Machine).sealedBootstrap =
      some _ from rfl) ⟨by decide, by decide, by decide⟩
  obtain ⟨early, late, hearly, hlate, hparse, -⟩ := hsealed _ _ _ _ _ rfl hok
  exact ⟨cfg', early, late, hok, hearly, hparse, hlate⟩

end Gomi.Installer
