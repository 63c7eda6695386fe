import Gomi.BareMetal.Seal
import Gomi.Go.Fmt
import Gomi.Shell.Lexer

/-!
# Commands of the installer

The texts of commands that the server writes for others to run:
`internal/infra/pxehttp/sealed_bootstrap.go`, which puts the commands that unseal a bootstrap into the
configuration of the installer, and the commands of `hypervisor_userdata.go`, which make a host a
hypervisor when it first boots.

Of the configuration of the installer this file has its two maps of commands
(`Gomi.CurtinConfig`); the rest of it is not touched here. A command is the list of its arguments. Of
the cloud-config it has the list of the commands that are added to `runcmd`
(`Gomi.hypervisorRuncmds`), each of which is a line for the shell.
-/

namespace Gomi

open Go

variable {disk owner : String} {m : Machine} {seed : SealedBootstrap}

/-- `strings.ReplaceAll`, of one character. -/
def replaceChar (s : String) (old : Char) (new : String) : String :=
  String.ofList (s.toList.flatMap fun c => if c = old then new.toList else [c])

/-- `strings.TrimRight`, of one character. -/
def trimRight (s : String) (c : Char) : String := String.ofList (s.toList.rdropWhile (· = c))

/-- `shellQuote`. -/
def shellQuote (value : String) : String := "'" ++ replaceChar value '\'' "'\"'\"'" ++ "'"

/-- **`shellQuote` quotes.** -/
theorem toList_shellQuote {value : String} : (shellQuote value).toList = Shell.quote value.toList := by
  have hescape : "'\"'\"'".toList = ['\'', '"', '\'', '"', '\''] := by decide
  simp only [shellQuote, replaceChar, String.toList_append, String.toList_ofList, hescape]
  rfl

/-! ### The sealed bootstrap -/

/-- `curtinConfig`. -/
structure CurtinConfig where
  earlyCommands : Table (List String) := ∅
  lateCommands : Table (List String) := ∅

/-- `^[a-f0-9]{64}$`. -/
def fingerprintPattern (s : String) : Bool :=
  s.toList.length = 64 ∧ s.toList.all fun c => isDigit c ∨ ('a' ≤ c ∧ c ≤ 'f')

/-- `^capi-[a-z0-9-]+$`. -/
def claimOwnerPattern (s : String) : Bool :=
  (afterStart "capi-" s.toList).any fun rest =>
    rest ≠ [] ∧ rest.all fun c => isLower c ∨ isDigit c ∨ c = '-'

/-- The directory in which the bootstrap is unsealed. -/
def stage : String := "/run/gomi-sealed-bootstrap"

/-- The first part of the early command, which keeps the identity of the host. -/
def preserveFormat : String :=
  "set -eu; umask 077; install -d -m 700 %[1]s; " ++
    "gomi-preserve-identity --disk %s --fingerprint %s --output %[1]s/identity"

/-- The second part of the early command, which unseals the bootstrap. -/
def unsealFormat : String :=
  "; printf '%%s' %s | base64 -d > %[2]s/envelope.json; gomi-unseal-bootstrap --key " ++
    "%[2]s/identity/ssh_host_rsa_key --host %s --owner %s --input %[2]s/envelope.json --output %[2]s/bootstrap.yaml"

/-- The first part of the late command, which puts the identity into the target. -/
def identityFormat : String :=
  "set -eu; install -d -m 755 \"$TARGET_MOUNT_POINT/etc/ssh\"; for key in " ++
    "%[1]s/identity/ssh_host_*_key; do install -m 600 \"$key\" \"$TARGET_MOUNT_POINT/etc/ssh/$(basename \"$key\")\"; " ++
    "install -m 644 \"$key.pub\" \"$TARGET_MOUNT_POINT/etc/ssh/$(basename \"$key\").pub\"; done"

/-- The second part of the late command, which merges the bootstrap. -/
def mergeFormat : String :=
  "; gomi-merge-bootstrap --bootstrap %s/bootstrap.yaml --seed " ++
    "\"$TARGET_MOUNT_POINT/var/lib/cloud/seed/nocloud\" --owner %s"

/-- The early command. -/
def earlyCommand (name disk : String) (seed : SealedBootstrap) : String :=
  sprintf preserveFormat [stage, shellQuote disk, shellQuote seed.keyFingerprint] ++
    if seed.cleanup then ""
    else sprintf unsealFormat [shellQuote (base64Encode (SealedSeed.textBytes seed.envelope)), stage,
      shellQuote name, shellQuote seed.owner]

/-- The late command. -/
def lateCommand (seed : SealedBootstrap) : String :=
  sprintf identityFormat [stage] ++
    if seed.cleanup then "" else sprintf mergeFormat [stage, shellQuote seed.owner]

/-- `configureSealedBootstrap`. -/
def configureSealedBootstrap (cfg : CurtinConfig) (m : Machine) (disk : String) :
    Except Err CurtinConfig :=
  match m.sealedBootstrap with
  | none => .ok cfg
  | some seed =>
    if !fingerprintPattern seed.keyFingerprint ∨ !claimOwnerPattern seed.owner then
      .error (.msg "invalid enrolled bootstrap identity")
    else if !seed.cleanup ∧ seed.envelope.utf8ByteSize = 0 then
      .error (.msg "sealed bootstrap envelope is required")
    else .ok
      { earlyCommands := (∅ : Table (List String)).insert "00-gomi-preserve-bootstrap"
          ["sh", "-c", earlyCommand m.name disk seed]
        lateCommands := cfg.lateCommands.insert "99-gomi-sealed-bootstrap"
          ["sh", "-c", lateCommand seed] }

/-- **What the installer is given** for a sealed bootstrap. -/
theorem configureSealedBootstrap_eq_ok {cfg cfg' : CurtinConfig}
    (hseed : m.sealedBootstrap = some seed) :
    configureSealedBootstrap cfg m disk = .ok cfg' ↔
      (fingerprintPattern seed.keyFingerprint = true ∧ claimOwnerPattern seed.owner = true ∧
        (seed.cleanup = false → seed.envelope.utf8ByteSize ≠ 0)) ∧
      cfg'.earlyCommands = (∅ : Table (List String)).insert "00-gomi-preserve-bootstrap"
        ["sh", "-c", earlyCommand m.name disk seed] ∧
      cfg'.lateCommands = cfg.lateCommands.insert "99-gomi-sealed-bootstrap"
        ["sh", "-c", lateCommand seed] := by
  rw [configureSealedBootstrap, hseed]
  dsimp only
  cases hfingerprint : fingerprintPattern seed.keyFingerprint with
  | false => simp
  | true =>
    cases howner : claimOwnerPattern seed.owner with
    | false => simp
    | true =>
      rw [if_neg (by simp)]
      split
      · rename_i hempty
        simp only [Bool.not_eq_true'] at hempty
        simp [hempty]
      · rename_i hfull
        simp only [Bool.not_eq_true', not_and] at hfull
        constructor
        · intro h
          cases h
          exact ⟨⟨rfl, rfl, hfull⟩, rfl, rfl⟩
        · rintro ⟨-, hearly, hlate⟩
          rw [← hearly, ← hlate]

/-- The checks that a bootstrap has to pass. -/
theorem configureSealedBootstrap_ok (cfg : CurtinConfig) (disk : String)
    (hseed : m.sealedBootstrap = some seed)
    (hchecks : fingerprintPattern seed.keyFingerprint = true ∧ claimOwnerPattern seed.owner = true ∧
      (seed.cleanup = false → seed.envelope.utf8ByteSize ≠ 0)) :
    ∃ cfg', configureSealedBootstrap cfg m disk = .ok cfg' :=
  ⟨⟨_, _⟩, (configureSealedBootstrap_eq_ok hseed).mpr ⟨hchecks, rfl, rfl⟩⟩

/-! ### The texts around the arguments -/

/-- What stands before the disk. -/
def beforeDisk : List Char :=
  "set -eu; umask 077; install -d -m 700 /run/gomi-sealed-bootstrap; gomi-preserve-identity --disk ".toList

/-- What stands before the fingerprint. -/
def beforeFingerprint : List Char := " --fingerprint ".toList

/-- What stands after the fingerprint. -/
def afterFingerprint : List Char := " --output /run/gomi-sealed-bootstrap/identity".toList

/-- What stands before the envelope. -/
def beforeEnvelope : List Char := "; printf '%s' ".toList

/-- What stands before the name of the host. -/
def beforeHost : List Char :=
  (" | base64 -d > /run/gomi-sealed-bootstrap/envelope.json; " ++
    "gomi-unseal-bootstrap --key /run/gomi-sealed-bootstrap/identity/ssh_host_rsa_key --host ").toList

/-- What stands before the owner. -/
def beforeOwner : List Char := " --owner ".toList

/-- What stands after the owner. -/
def afterOwner : List Char :=
  (" --input /run/gomi-sealed-bootstrap/envelope.json " ++
    "--output /run/gomi-sealed-bootstrap/bootstrap.yaml").toList

/-- What the late command starts with. -/
def identityText : List Char :=
  ("set -eu; install -d -m 755 \"$TARGET_MOUNT_POINT/etc/ssh\"; for key in " ++
    "/run/gomi-sealed-bootstrap/identity/ssh_host_*_key; do install -m 600 \"$key\" \"$TARGET_MOUNT_POINT/etc/ssh/$(basename " ++
    "\"$key\")\"; install -m 644 \"$key.pub\" \"$TARGET_MOUNT_POINT/etc/ssh/$(basename \"$key\").pub\"; done").toList

/-- What stands before the owner in the late command. -/
def mergeText : List Char :=
  ("; gomi-merge-bootstrap --bootstrap " ++
    "/run/gomi-sealed-bootstrap/bootstrap.yaml --seed \"$TARGET_MOUNT_POINT/var/lib/cloud/seed/nocloud\" --owner ").toList

/-- A text that is put together from three. -/
theorem append_three {α : Type} {a b c t : List α} (h : a ++ b ++ c = t) {rest : List α} :
    a ++ (b ++ (c ++ rest)) = t ++ rest := by
  rw [← List.append_assoc, ← List.append_assoc, h]

/-- **Where the arguments stand** in the first part of the early command. -/
theorem toList_preserve {fingerprint : String} :
    (sprintf preserveFormat [stage, shellQuote disk, shellQuote fingerprint]).toList =
      beforeDisk ++ (Shell.quote disk.toList ++ (beforeFingerprint ++
        (Shell.quote fingerprint.toList ++ afterFingerprint))) := by
  have hread : segments preserveFormat =
      [.text "set -eu; umask 077; install -d -m 700 ".toList, .arg 0,
        .text "; gomi-preserve-identity --disk ".toList, .arg 1, .text beforeFingerprint, .arg 2,
        .text " --output ".toList, .arg 0, .text "/identity".toList] := by
    rw [segments, show preserveFormat.toList = _ from toList_two]
    decide
  have hdisk : "set -eu; umask 077; install -d -m 700 ".toList ++ stage.toList ++
      "; gomi-preserve-identity --disk ".toList = beforeDisk := by
    rw [show beforeDisk = _ from String.toList_ofList]
    decide
  have hafter : " --output ".toList ++ stage.toList ++ "/identity".toList = afterFingerprint := by
    decide
  rw [toList_sprintf hread, ← toList_shellQuote, ← toList_shellQuote, ← append_three hdisk,
    ← List.append_nil afterFingerprint, ← append_three hafter]
  rfl

set_option maxRecDepth 4096 in
/-- **Where the arguments stand** in the second part of the early command. -/
theorem toList_unseal {envelope name : String} :
    (sprintf unsealFormat [shellQuote envelope, stage, shellQuote name, shellQuote owner]).toList =
      beforeEnvelope ++ (Shell.quote envelope.toList ++ (beforeHost ++ (Shell.quote name.toList ++
        (beforeOwner ++ (Shell.quote owner.toList ++ afterOwner))))) := by
  have hread : segments unsealFormat =
      [.text beforeEnvelope, .arg 0, .text " | base64 -d > ".toList, .arg 1,
        .text "/envelope.json; gomi-unseal-bootstrap --key ".toList, .arg 1,
        .text "/identity/ssh_host_rsa_key --host ".toList, .arg 2, .text beforeOwner, .arg 3,
        .text " --input ".toList, .arg 1, .text "/envelope.json --output ".toList, .arg 1,
        .text "/bootstrap.yaml".toList] := by
    rw [segments, show unsealFormat.toList = _ from toList_two]
    decide
  have hhost : " | base64 -d > ".toList ++ stage.toList ++
      ("/envelope.json; gomi-unseal-bootstrap --key ".toList ++ stage.toList ++
        "/identity/ssh_host_rsa_key --host ".toList) = beforeHost := by
    rw [show beforeHost = _ from toList_two]
    decide
  have hafter : " --input ".toList ++ stage.toList ++ ("/envelope.json --output ".toList ++
      stage.toList ++ "/bootstrap.yaml".toList) = afterOwner := by
    rw [show afterOwner = _ from toList_two]
    decide
  rw [toList_sprintf hread, ← toList_shellQuote, ← toList_shellQuote, ← toList_shellQuote,
    ← append_three hhost, ← append_three rfl, ← List.append_nil afterOwner, ← append_three hafter,
    ← append_three rfl]
  rfl

set_option maxRecDepth 4096 in
/-- The late command of a bootstrap that is removed. -/
theorem toList_identity : (sprintf identityFormat [stage]).toList = identityText := by
  rw [toList_sprintf rfl, segments, show identityFormat.toList = _ from toList_three,
    show identityText = _ from toList_three]
  decide

/-- What stands before the owner, after the directory. -/
def beforeSeed : List Char :=
  "/bootstrap.yaml --seed \"$TARGET_MOUNT_POINT/var/lib/cloud/seed/nocloud\" --owner ".toList

set_option maxRecDepth 4096 in
/-- **Where the owner stands** in the late command. -/
theorem toList_merge :
    (sprintf mergeFormat [stage, shellQuote owner]).toList = mergeText ++ Shell.quote owner.toList := by
  have hread : segments mergeFormat =
      [.text "; gomi-merge-bootstrap --bootstrap ".toList, .arg 0, .text beforeSeed, .arg 1] := by
    rw [segments, show mergeFormat.toList = _ from toList_two,
      show beforeSeed = _ from String.toList_ofList]
    decide
  have htext : "; gomi-merge-bootstrap --bootstrap ".toList ++ stage.toList ++ beforeSeed = mergeText := by
    rw [show mergeText = _ from toList_two, show beforeSeed = _ from String.toList_ofList]
    decide
  rw [toList_sprintf hread, ← toList_shellQuote, ← List.append_nil (shellQuote owner).toList,
    ← append_three htext]
  rfl

/-! ### Hypervisors -/

/-- `gomiArchShellSnippet`. -/
def gomiArchShellSnippet : String :=
  "ARCH=$(uname -m); case \"$\x7bARCH\x7d\" in x86_64|amd64) ARCH=\"amd64\" ;; aarch64|arm64) " ++
    "ARCH=\"arm64\" ;; *) echo \"Unsupported architecture: $\x7bARCH\x7d\"; exit 1 ;; esac"

/-- `configureLibvirtBridgeNetfilterCommand`. -/
def configureLibvirtBridgeNetfilterCommand : String :=
  "sh -c 'modprobe br_netfilter 2>/dev/null || true; cat > " ++
    "/etc/sysctl.d/99-gomi-libvirt-bridge.conf <<EOF\n" ++
    "net.bridge.bridge-nf-call-iptables = 0\n" ++
    "net.bridge.bridge-nf-call-ip6tables = 0\n" ++
    "net.bridge.bridge-nf-call-arptables = 0\n" ++
    "EOF\n" ++
    "sysctl -p /etc/sysctl.d/99-gomi-libvirt-bridge.conf >/dev/null 2>&1 || true'"

/-- `libvirtTCPAuthNoneCommand`. -/
def libvirtTCPAuthNoneCommand : String :=
  "sh -c 'conf=/etc/libvirt/libvirtd.conf; if grep -qE " ++
    "'\\''^[[:space:]]*#?[[:space:]]*auth_tcp[[:space:]]*='\\'' \"$conf\"; then sed -i -E " ++
    "'\\''s|^[[:space:]]*#?[[:space:]]*auth_tcp[[:space:]]*=.*|auth_tcp = \"none\"|'\\'' " ++
    "\"$conf\"; else printf '\\''\\nauth_tcp = \"none\"\\n'\\'' >> \"$conf\"; fi'"

/-- `hypervisorSetupRuncmds`. -/
def hypervisorSetupRuncmds (osFamily : String) : List String :=
  if toLower (trimSpace osFamily) ∈ ["fedora", "rhel", "redhat", "centos", "rocky", "almalinux"] then
    ["mkdir -p /var/lib/gomi/data/images"]
  else
    [configureLibvirtBridgeNetfilterCommand, libvirtTCPAuthNoneCommand,
      "systemctl enable libvirtd-tcp.socket || true",
      "systemctl stop libvirtd.service || true",
      "systemctl start libvirtd-tcp.socket || true",
      "sh -c 'virsh pool-define-as default dir --target /var/lib/libvirt/images && " ++
        "virsh pool-build default && virsh pool-start default && virsh pool-autostart default || true'",
      "mkdir -p /var/lib/gomi/data/images"]

/-- The URL of the server, from the one of the PXE endpoints. -/
def serverBaseOf (pxeBaseURL : String) : String :=
  trimSuffix (trimRight (trimSpace pxeBaseURL) '/') "/pxe"

/-- The command that downloads the agent. -/
def downloadCommand (filesBase : String) : String :=
  sprintf ("sh -c '%s; curl -sfL -o /usr/bin/gomi-hypervisor " ++
    "\"%s/gomi-hypervisor-linux-$\x7bARCH\x7d\" && chmod +x /usr/bin/gomi-hypervisor || true'")
    [gomiArchShellSnippet, filesBase]

/-- The format of the script that registers a hypervisor. -/
def registerFormat : String :=
  "set -euo pipefail; tmp=$(mktemp); trap 'rm -f \"$tmp\"' EXIT; for i in $(seq 1 60); do if curl " ++
    "-sfL -o \"$tmp\" %s; then GOMI_SERVER=%s GOMI_TOKEN=%s GOMI_HOSTNAME=%s bash \"$tmp\"; exit $?; fi; " ++
    "sleep 2; done; curl -sfL -o \"$tmp\" %s; GOMI_SERVER=%s GOMI_TOKEN=%s GOMI_HOSTNAME=%s bash \"$tmp\""

/-- The URL of the script that sets up a hypervisor. -/
def setupURL (serverBase : String) : String := serverBase ++ "/api/v1/hypervisors/setup-and-register.sh"

/-- The script that registers a hypervisor. -/
def registerCmd (serverBase hypervisorName registrationToken : String) : String :=
  sprintf registerFormat
    [shellQuote (setupURL serverBase), shellQuote serverBase,
      shellQuote (trimSpace registrationToken), shellQuote (trimSpace hypervisorName),
      shellQuote (setupURL serverBase), shellQuote serverBase,
      shellQuote (trimSpace registrationToken), shellQuote (trimSpace hypervisorName)]

/-- What stands before the URL of the script. -/
def beforeURL : List Char :=
  ("set -euo pipefail; tmp=$(mktemp); trap 'rm -f \"$tmp\"' " ++
    "EXIT; for i in $(seq 1 60); do if curl -sfL -o \"$tmp\" ").toList

/-- What stands before the URL of the server, in the loop. -/
def thenServer : List Char := "; then GOMI_SERVER=".toList

/-- What stands before the token. -/
def beforeToken : List Char := " GOMI_TOKEN=".toList

/-- What stands before the name of the hypervisor. -/
def beforeHostname : List Char := " GOMI_HOSTNAME=".toList

/-- What stands before the URL of the script, after the loop. -/
def afterLoop : List Char :=
  " bash \"$tmp\"; exit $?; fi; sleep 2; done; curl -sfL -o \"$tmp\" ".toList

/-- What stands before the URL of the server, after the loop. -/
def lastServer : List Char := "; GOMI_SERVER=".toList

/-- What the script ends with. -/
def lastCall : List Char := " bash \"$tmp\"".toList

set_option maxRecDepth 4096 in
/-- **Where the arguments stand** in the script that registers a hypervisor. -/
theorem toList_registerCmd {serverBase hypervisorName registrationToken : String} :
    (registerCmd serverBase hypervisorName registrationToken).toList =
      beforeURL ++ (Shell.quote (setupURL serverBase).toList ++
        (thenServer ++ (Shell.quote serverBase.toList ++
          (beforeToken ++ (Shell.quote (trimSpace registrationToken).toList ++
            (beforeHostname ++ (Shell.quote (trimSpace hypervisorName).toList ++
      (afterLoop ++ (Shell.quote (setupURL serverBase).toList ++
        (lastServer ++ (Shell.quote serverBase.toList ++
          (beforeToken ++ (Shell.quote (trimSpace registrationToken).toList ++
            (beforeHostname ++ (Shell.quote (trimSpace hypervisorName).toList ++
              lastCall))))))))))))))) := by
  have hread : segments registerFormat =
      [.text beforeURL, .arg 0, .text thenServer, .arg 1, .text beforeToken, .arg 2,
        .text beforeHostname, .arg 3, .text afterLoop, .arg 4, .text lastServer, .arg 5,
        .text beforeToken, .arg 6, .text beforeHostname, .arg 7, .text lastCall] := by
    rw [segments, show registerFormat.toList = _ from toList_three,
      show beforeURL = _ from toList_two, show afterLoop = _ from String.toList_ofList]
    decide
  rw [registerCmd, toList_sprintf hread, ← toList_shellQuote, ← toList_shellQuote,
    ← toList_shellQuote, ← toList_shellQuote, ← List.append_nil lastCall]
  rfl

/-- The commands that `injectHypervisorSetup` adds. -/
def hypervisorRuncmds (pxeBaseURL hypervisorName registrationToken osFamily : String) : List String :=
  let base := trimRight (trimSpace pxeBaseURL) '/'
  let serverBase := if base ≠ "" then serverBaseOf pxeBaseURL else ""
  hypervisorSetupRuncmds osFamily ++
    (if base ≠ "" then [downloadCommand (serverBase ++ "/files")] else []) ++
    if serverBase ≠ "" ∧ trimSpace registrationToken ≠ "" then
      ["bash -c " ++ shellQuote (registerCmd serverBase hypervisorName registrationToken)]
    else []

end Gomi
