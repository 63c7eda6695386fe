import Gomi.Store.Client

/-!
# Preparing an installation attempt

`machine.PrepareReinstall`, which every handler that starts an installation calls: it
applies the options of the request to the stored record, validates the result and gives
it a new provisioning record, with a completion token of 32 and an attempt id of 16
random bytes.

It reads and writes no store, but it draws random buffers and looks at the clock, so it
is a program: `Gomi.prepareReinstall_obeys` is its specification.
-/

namespace Gomi

open Go

/-! ### Random texts -/

/-- `"attempt-" + hex`, the text of an attempt id. -/
def attemptText (bytes : List UInt8) : String := "attempt-" ++ hexEncode bytes

/-- `hex.EncodeToString` of a random buffer. -/
def randomHex (n : ℕ) : Prog Res (Except Err String) := do
  return (← Client.rand n).map hexEncode

/-- `resource.GenerateProvisioningToken`. -/
def generateProvisioningToken : Prog Res (Except Err String) := randomHex 32

/-- `resource.GenerateProvisioningAttemptID`. -/
def generateProvisioningAttemptID : Prog Res (Except Err String) := do
  return (← Client.rand 16).map attemptText

/-! ### Wake-on-LAN defaults -/

/-- The generated text of a field that is empty, else the field. -/
def fillText (text : String) (n : ℕ) (what : String) : Prog Res (Except Err String) :=
  if trimSpace text = "" then do
    match ← randomHex n with
    | .error e => return .error (.msg ("failed to generate WoL " ++ what ++ ": " ++ e.text))
    | .ok generated => return .ok generated
  else return .ok text

/-- `power.FillWoLDefaults`. -/
def fillWoLDefaults (cfg : PowerConfig) : Prog Res (Except Err PowerConfig) :=
  match cfg.type, cfg.wol with
  | .wol, some c => do
    match ← fillText c.token 16 "token" with
    | .error e => return .error e
    | .ok token =>
    match ← fillText c.hmacSecret 32 "hmac secret" with
    | .error e => return .error e
    | .ok hmacSecret =>
    return .ok { cfg with wol := some { c with
      token, hmacSecret,
      broadcastIP := if c.broadcastIP = "" then "255.255.255.255" else c.broadcastIP
      port := if c.port = 0 then 9 else c.port
      shutdownUDPPort := if c.shutdownUDPPort = 0 then 40000 else c.shutdownUDPPort
      tokenTTLSeconds := if c.tokenTTLSeconds = 0 then 60 else c.tokenTTLSeconds } }
  | _, _ => return .ok cfg

/-! ### Options -/

/-- `machine.ReinstallOptions`. -/
structure ReinstallOptions where
  hostname : Option String := none
  mac : Option String := none
  arch : Option String := none
  firmware : Option Firmware := none
  power : Option PowerConfig := none
  osPreset : Option OSPreset := none
  targetDisk : Option String := none
  network : Option NetworkConfig := none
  cloudInitRef : Option String := none
  cloudInitRefs : Option (List String) := none
  ipAssignment : Option IPAssignmentMode := none
  ip : Option String := none
  subnetRef : Option String := none
  role : Option Role := none
  bridgeName : Option String := none
  sshKeyRefs : Option (List String) := none
  loginUser : Option LoginUserSpec := none
  deriving DecidableEq

/-- The cloud-init references of the options, applied to a record. -/
def ReinstallOptions.applyCloudInit (o : ReinstallOptions) (m : Machine) : Machine :=
  if o.cloudInitRef.isSome || o.cloudInitRefs.isSome then
    let refs := normalizeCloudInitRefs (o.cloudInitRef.getD "") (o.cloudInitRefs.getD [])
    { m with cloudInitRef := "", cloudInitRefs := refs, lastDeployedCloudInitRef := refs.headD "" }
  else m

/-- The address options, applied to a record: a mode that is not static clears an
address that is not given. -/
def ReinstallOptions.applyAddress (o : ReinstallOptions) (m : Machine) : Machine :=
  let m := match o.ipAssignment with
    | none => m
    | some mode =>
      { m with ipAssignment := mode, ip := if mode ≠ .static ∧ o.ip = none then "" else m.ip }
  match o.ip with
  | none => m
  | some ip => { m with ip := trimSpace ip }

/-- The options of `PrepareReinstall`, applied to a record. -/
def ReinstallOptions.apply (o : ReinstallOptions) (m : Machine) : Machine :=
  let m := if (o.osPreset.any fun p => isWindowsFamily p.family) && !isWindowsFamily m.osPreset.family
    then resetLinuxDeploymentForWindows m else m
  let m := { m with
    hostname := (o.hostname.map trimSpace).getD m.hostname
    mac := (o.mac.map trimSpace).getD m.mac
    arch := (o.arch.map canonicalArch).getD m.arch
    firmware := o.firmware.getD m.firmware
    power := o.power.getD m.power
    osPreset := o.osPreset.getD m.osPreset
    targetDisk := (o.targetDisk.map trimSpace).getD m.targetDisk
    network := o.network.getD m.network
    subnetRef := (o.subnetRef.map trimSpace).getD m.subnetRef }
  let m := o.applyCloudInit (o.applyAddress m)
  { m with
    role := o.role.getD m.role
    bridgeName := (o.bridgeName.map trimSpace).getD m.bridgeName
    sshKeyRefs := (o.sshKeyRefs.map normalizeSSHKeyRefs).getD m.sshKeyRefs
    loginUser := o.loginUser.or m.loginUser }

/-! ### The attempt -/

/-- The record with its new provisioning record. -/
def Machine.withAttempt (m : Machine) (actor token attemptID : String) (now timeout : Time) :
    Machine :=
  { m with
    phase := .provisioning
    lastError := ""
    provision := some
      { active := true, attemptID, startedAt := some now, deadlineAt := some (now + timeout),
        trigger := "redeploy", requestedBy := actor, message := "provisioning started",
        completionToken := token }
    updatedAt := now }

/-- The record that `PrepareReinstall` gives a provisioning record: the options applied,
with the power configuration filled in. -/
def Machine.readied (m : Machine) (power : PowerConfig) : Machine :=
  { m with
    power
    arch := canonicalArch m.arch
    lastDeployedCloudInitRef :=
      if m.lastDeployedCloudInitRef = "" then resolveCloudInitRef "" m.cloudInitRef m.cloudInitRefs
      else m.lastDeployedCloudInitRef }

/-- `PrepareReinstall`. -/
def prepareReinstall (m : Machine) (actor : String) (opts : Option ReinstallOptions)
    (timeout : Time) : Prog Res (Except Err Machine) := do
  let m := match opts with
    | none => m
    | some o => o.apply m
  match ← fillWoLDefaults m.power with
  | .error e => return .error e
  | .ok power =>
  match validateMachine { m with power } with
  | .error e => return .error e
  | .ok _ =>
  match ← generateProvisioningToken with
  | .error e => return .error e
  | .ok token =>
  match ← generateProvisioningAttemptID with
  | .error e => return .error e
  | .ok attemptID =>
  let now ← Client.now
  return .ok ((m.readied power).withAttempt actor token attemptID now timeout)

/-! ### Specification -/

section Specification

variable {P : List (Call Res) → Op → Prop} {cs : List (Call Res)}

/-- A program that may draw random buffers and look at the clock. -/
structure Undemanding (P : List (Call Res) → Op → Prop) : Prop where
  rand : ∀ cs n, P cs (.rand n)
  now : ∀ cs, P cs .now

theorem randomHex_obeys (hP : Undemanding P) (n : ℕ) :
    (randomHex n).Obeys P (fun cs' a => ∀ text, a = .ok text →
      ∃ bytes, text = hexEncode bytes ∧ (⟨.rand n, Except.ok bytes⟩ : Call Res) ∈ cs') cs := by
  refine .perform_bind (hP.rand _ n) fun r => .pure fun text heq => ?_
  rcases r with e | bytes
  · cases heq
  · exact ⟨bytes, (Except.ok.inj heq).symm, by simp⟩

theorem generateProvisioningAttemptID_obeys (hP : Undemanding P) :
    generateProvisioningAttemptID.Obeys P (fun cs' a => ∀ text, a = .ok text →
      ∃ bytes, text = attemptText bytes ∧ (⟨.rand 16, Except.ok bytes⟩ : Call Res) ∈ cs') cs := by
  refine .perform_bind (hP.rand _ 16) fun r => .pure fun text heq => ?_
  rcases r with e | bytes
  · cases heq
  · exact ⟨bytes, (Except.ok.inj heq).symm, by simp⟩

theorem fillText_obeys (hP : Undemanding P) (text : String) (n : ℕ) (what : String) :
    (fillText text n what).Obeys P (fun _ _ => True) cs := by
  unfold fillText
  split
  · refine (randomHex_obeys hP n).bind fun cs' a _ _ => ?_
    cases a <;> exact .pure trivial
  · exact .pure trivial

theorem fillWoLDefaults_obeys (hP : Undemanding P) (cfg : PowerConfig) :
    (fillWoLDefaults cfg).Obeys P (fun _ _ => True) cs := by
  unfold fillWoLDefaults
  split
  · refine (fillText_obeys hP _ _ _).bind fun cs₁ a _ _ => ?_
    cases a with
    | error => exact .pure trivial
    | ok =>
      refine (fillText_obeys hP _ _ _).bind fun cs₂ a _ _ => ?_
      cases a <;> exact .pure trivial
  · exact .pure trivial

/-- **The specification of `PrepareReinstall`**: it draws the bytes of the token and of the attempt
id, and answers with the record it was given, options applied, validated and with a new
attempt. -/
theorem prepareReinstall_obeys (hP : Undemanding P) (m : Machine) (actor : String)
    (opts : Option ReinstallOptions) (timeout : Time) :
    (prepareReinstall m actor opts timeout).Obeys P
      (fun cs' a => ∀ m', a = .ok m' → ∃ power tokenBytes bytes now,
        (⟨.rand 32, Except.ok tokenBytes⟩ : Call Res) ∈ cs' ∧
        (⟨.rand 16, Except.ok bytes⟩ : Call Res) ∈ cs' ∧
        validateMachine { (opts.elim m fun o => o.apply m) with power } = .ok () ∧
        m' = ((opts.elim m fun o => o.apply m).readied power).withAttempt actor
          (hexEncode tokenBytes) (attemptText bytes) now timeout) cs := by
  unfold prepareReinstall
  rw [show (match opts with
    | none => m
    | some o => o.apply m) = opts.elim m fun o => o.apply m by cases opts <;> rfl]
  refine (fillWoLDefaults_obeys hP _).bind fun cs₁ a _ _ => ?_
  cases a with
  | error => exact .pure (by simp)
  | ok power =>
    dsimp only
    cases hv : validateMachine { (opts.elim m fun o => o.apply m) with power } with
    | error => exact .pure (by simp)
    | ok _ =>
      refine (randomHex_obeys hP 32).bind fun cs₂ a _ h₂ => ?_
      cases a with
      | error => exact .pure (by simp)
      | ok token =>
        obtain ⟨tokenBytes, rfl, htoken⟩ := h₂ token rfl
        refine (generateProvisioningAttemptID_obeys hP).bind fun cs₃ a hpre h₃ => ?_
        cases a with
        | error => exact .pure (by simp)
        | ok attemptID =>
          obtain ⟨bytes, rfl, hbytes⟩ := h₃ attemptID rfl
          refine .perform_bind (hP.now _) fun now => .pure ?_
          rintro m' ⟨⟩
          exact ⟨power, tokenBytes, bytes, now, List.mem_append_left _ (hpre.subset htoken),
            List.mem_append_left _ hbytes, hv, rfl⟩

end Specification

end Gomi
