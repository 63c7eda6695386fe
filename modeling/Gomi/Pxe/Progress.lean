import Gomi.Api.Claims

/-!
# What a callback does to a provisioning record

The pure part of `internal/infra/pxehttp`: the timings and messages that the callbacks of
an installer leave in the provisioning record of a machine, and the changes they make to
the record. The programs that read and write the record are in `Gomi.Pxe.Callbacks`.

A timing is data for the console. What matters to a claim is the rest: a callback
changes whether the attempt is active, the phase, the artifact `imageApplied` and when
it was completed, and nothing else that anybody decides by.
-/

namespace Gomi

open Go

variable (lib : Lib)

/-! ### Texts and instants -/

/-- `firstNonEmpty`. -/
def firstNonEmpty (values : List String) : String :=
  ((values.map trimSpace).find? (· ≠ "")).getD ""

/-- `time.Duration.Milliseconds`, of a difference of instants. -/
def milliseconds (d : Time) : ℤ := d.tdiv (10 ^ 6)

/-- `parseEventTime`. A number is read as seconds since the epoch. -/
def parseEventTime (value : String) : Option Time :=
  let value := trimSpace value
  if value = "" then none
  else match lib.parseRFC3339Nano value with
    | some t => some t
    | none => match lib.parseFloat value with
      | some unix => if 0 < unix then some ⌊unix * 10 ^ 9⌋ else none
      | none => none

/-- The field `timestamp` of an event, of any JSON type. -/
inductive EventTimestamp where
  | missing
  | text (value : String)
  | number (value : ℚ)
  | other
  deriving DecidableEq

/-- `parseEventTimeValue`. -/
def parseEventTimeValue : EventTimestamp → Option Time
  | .missing => none
  | .text value => parseEventTime lib value
  | .number value => parseEventTime lib (lib.formatFloat value)
  | .other => none

/-- `trimLogTail`: the last bytes of a text, cut between characters. -/
def trimLogTail (value : String) (maxLen : ℕ) : String :=
  let rec cutFront : List Char → ℕ → List Char
    | [], _ => []
    | c :: cs, size => if size ≤ maxLen then c :: cs else cutFront cs (size - c.utf8Size)
  let value := trimSpace value
  if value = "" ∨ maxLen = 0 then ""
  else String.ofList (cutFront value.toList value.utf8ByteSize)

/-! ### Timings -/

/-- `maxProvisionTimingEvents`. -/
def maxProvisionTimingEvents : ℕ := 240

/-- Whether `prev` is the open start of `event`. -/
def ProvisionTiming.opens (prev event : ProvisionTiming) : Bool :=
  prev.startedAt.isSome && prev.finishedAt.isNone &&
    trimSpace prev.source == trimSpace event.source && trimSpace prev.name == trimSpace event.name

/-- The event with the start of the last open event of its name, if it is a finish
without a duration. -/
def ProvisionTiming.closing (events : List ProvisionTiming) (event : ProvisionTiming) :
    ProvisionTiming :=
  match event.finishedAt with
  | some finished =>
    if event.durationMillis ≤ 0 then
      match events.reverse.find? (·.opens event) with
      | some prev =>
        { event with
          startedAt := prev.startedAt
          durationMillis := milliseconds (finished - prev.startedAt.getD 0) }
      | none => event
    else event
  | none => event

/-- `appendProvisionTiming`. -/
def appendProvisionTiming (events next : List ProvisionTiming) : List ProvisionTiming :=
  next.foldl (fun events event =>
    let events := events ++ [event.closing events]
    events.drop (events.length - maxProvisionTimingEvents)) events

/-- `serverTiming`. -/
def serverTiming (name message result : String) (startedAt finishedAt : Time) (sizeBytes : ℤ) :
    ProvisionTiming :=
  { source := "server", name, eventType := "timing"
    message := if 0 < sizeBytes then message ++ " (" ++ toString sizeBytes ++ " bytes)" else message
    result, startedAt := some startedAt, finishedAt := some finishedAt
    durationMillis := max 0 (milliseconds (finishedAt - startedAt)) }

/-- `markerTiming`. -/
def markerTiming (name message : String) (at_ : Time) : ProvisionTiming :=
  { source := "server", name, eventType := "marker", message, timestamp := some at_ }

/-- `hasProvisionTiming`. -/
def hasProvisionTiming (events : List ProvisionTiming) (name : String) : Bool :=
  events.any (·.name == name)

/-! ### Deploy events -/

/-- `deployEventRequest`, as it is decoded from a form or from JSON. -/
structure DeployEventReq where
  attemptID : String := ""
  type : String := ""
  source : String := ""
  name : String := ""
  message : String := ""
  reason : String := ""
  result : String := ""
  logTail : String := ""
  startedAt : String := ""
  finishedAt : String := ""
  timestamp : EventTimestamp := .missing
  durationMillis : ℤ := 0
  monotonicSeconds : ℚ := 0
  curtinEventType : String := ""
  curtinOrigin : String := ""
  description : String := ""
  deriving DecidableEq

/-- `deployEventImageApplied`. -/
def deployEventImageApplied : String := "image_applied"

/-- The type that an event names: its type, or that of curtin. -/
def DeployEventReq.namedType (req : DeployEventReq) : String :=
  let type := toLower (trimSpace req.type)
  if type = "" ∧ trimSpace req.curtinEventType ≠ "" then toLower (trimSpace req.curtinEventType)
  else type

/-- The type of an event: the one it names, or `timing` if it has a source or a name. -/
def DeployEventReq.eventType (req : DeployEventReq) : String :=
  if req.namedType = "" ∧ (trimSpace req.source ≠ "" ∨ trimSpace req.name ≠ "") then "timing"
  else req.namedType

/-- The request with the source of its query, if the body has none. -/
def DeployEventReq.sourced (req : DeployEventReq) (source : String) : DeployEventReq :=
  { req with source := if req.source = "" then trimSpace source else req.source }

/-- The attempt id that a request carries, in its query or else in its body. -/
def DeployEventReq.carried (req : DeployEventReq) (attemptID : String) : String :=
  if trimSpace attemptID = "" then trimSpace req.attemptID else trimSpace attemptID

/-- `isTimingOnlyDeployEvent`. -/
def isTimingOnlyDeployEvent (eventType : String) : Bool :=
  toLower (trimSpace eventType) ∈ ["timing", "start", "finish"]

/-- `eventMessage`. -/
def eventMessage (eventType message : String) : String :=
  if trimSpace message ≠ "" then message
  else if eventType = deployEventImageApplied then
    "image applied; waiting for target OS first boot"
  else "deploy event: " ++ eventType

/-- `provisionTimingFromDeployEvent`. -/
def provisionTimingFromDeployEvent (req : DeployEventReq) (eventType : String) (now : Time) :
    Option ProvisionTiming :=
  let source := trimSpace req.source
  let source := if source = "" ∧ trimSpace req.curtinOrigin ≠ "" then trimSpace req.curtinOrigin
    else source
  let source := if source = "" ∧ trimSpace req.curtinEventType ≠ "" then "curtin" else source
  let source := if source = "" ∧ eventType = "timing" then "runner" else source
  let name := trimSpace req.name
  let name := if name = "" ∧ trimSpace req.curtinEventType ≠ "" then trimSpace req.curtinEventType
    else name
  let name := if name = "" ∧ eventType ≠ "" then eventType else name
  if source = "" ∧ name = "" ∧ req.durationMillis ≤ 0 ∧ req.monotonicSeconds = 0 ∧
      req.startedAt = "" ∧ req.finishedAt = "" ∧ req.timestamp = .missing then none
  else
    let startedAt := parseEventTime lib req.startedAt
    let finishedAt := parseEventTime lib req.finishedAt
    let timestamp := parseEventTimeValue lib req.timestamp
    let timestamp := if timestamp = none ∧ startedAt = none ∧ finishedAt = none then some now
      else timestamp
    some
      { source, name, eventType, message := firstNonEmpty [req.message, req.description]
        result := trimSpace req.result, timestamp
        startedAt := if equalFold eventType "start" ∧ startedAt = none then timestamp else startedAt
        finishedAt :=
          if equalFold eventType "finish" ∧ finishedAt = none then timestamp else finishedAt
        durationMillis := req.durationMillis, monotonicSeconds := req.monotonicSeconds }

/-- What every deploy event leaves in the provisioning record. -/
def ProvisionProgress.signalled (p : ProvisionProgress) (req : DeployEventReq) (eventType : String)
    (now : Time) : ProvisionProgress :=
  { p with
    lastSignalAt := some now
    timings := match provisionTimingFromDeployEvent lib req eventType now with
      | some timing => appendProvisionTiming p.timings [timing]
      | none => p.timings
    message := if isTimingOnlyDeployEvent eventType then p.message
      else eventMessage eventType (firstNonEmpty [req.message, req.description]) }

section

variable {lib} (p : ProvisionProgress) (req : DeployEventReq) (eventType : String) (now : Time)

@[simp] theorem ProvisionProgress.signalled_attemptID :
    (p.signalled lib req eventType now).attemptID = p.attemptID := by
  simp only [signalled]
@[simp] theorem ProvisionProgress.signalled_completionToken :
    (p.signalled lib req eventType now).completionToken = p.completionToken := by
  simp only [signalled]
@[simp] theorem ProvisionProgress.signalled_active :
    (p.signalled lib req eventType now).active = p.active := by
  simp only [signalled]
@[simp] theorem ProvisionProgress.signalled_completedAt :
    (p.signalled lib req eventType now).completedAt = p.completedAt := by
  simp only [signalled]
@[simp] theorem ProvisionProgress.signalled_artifacts :
    (p.signalled lib req eventType now).artifacts = p.artifacts := by
  simp only [signalled]

end

/-- `maxProvisionFailureLogTailLen`. -/
def maxProvisionFailureLogTailLen : ℕ := 32 * 1024

/-- A record whose installation has failed. -/
def Machine.failedBy (m : Machine) (p : ProvisionProgress) (req : DeployEventReq) (now : Time) :
    Machine :=
  let reason := firstNonEmpty [req.reason, req.message, "deploy failed"]
  let logTail := trimLogTail req.logTail maxProvisionFailureLogTailLen
  { m with
    phase := .error
    lastError := reason
    provision := some { p with
      active := false
      finishedAt := some now
      failureReason := reason
      artifacts := if logTail ≠ "" then p.artifacts.insert "failureLogTail" logTail
        else p.artifacts } }

/-- A provisioning record whose image has been applied. -/
def ProvisionProgress.appliedAt (p : ProvisionProgress) (now : Time) : ProvisionProgress :=
  { p with
    artifacts := (p.artifacts.insert imageAppliedArtifact "true").insert "imageAppliedAt"
      (lib.formatRFC3339 now) }

/-- `machineImageApplied`. -/
def machineImageApplied (m : Machine) : Bool :=
  m.provision.any fun p => (p.artifacts[imageAppliedArtifact]?).any fun value =>
    equalFold (trimSpace value) "true"

/-! ### Completion -/

/-- `node.InstallCompleteReport`. -/
structure InstallCompleteReport where
  ip : String := ""
  mac : String := ""
  hostname : String := ""
  deriving DecidableEq

/-- `ApplyInstallCompleteReport`. -/
def Machine.applyInstallCompleteReport (m : Machine) (r : InstallCompleteReport) : Machine :=
  if r.ip ≠ "" ∧ m.ipAssignment ≠ .static then { m with ip := r.ip } else m

/-- `normalizeCompletionSource`. -/
def normalizeCompletionSource (raw : String) : String :=
  let source := toLower (trimSpace raw)
  if source = "curtin" then "curtin" else if source = "preseed" then "preseed" else "unknown"

/-- The timing of the time between the applied image and the completion. -/
def rebootTiming (p : ProvisionProgress) (now : Time) : List ProvisionTiming :=
  let raw := trimSpace ((p.artifacts["imageAppliedAt"]?).getD "")
  if raw = "" then [] else match lib.parseRFC3339 raw with
    | none => []
    | some appliedAt =>
      if appliedAt ≤ now then
        [serverTiming "server.reboot_to_os" "reboot into target OS, first boot, and readiness wait"
          "success" appliedAt now 0]
      else []

/-- A record whose installation is complete. -/
def Machine.completedBy (m : Machine) (p : ProvisionProgress) (source : String)
    (report : InstallCompleteReport) (now : Time) : Machine :=
  { m with
    provision := some { p with
      active := false
      completedAt := some now
      lastSignalAt := some now
      completionSource := source
      message := "provisioning completed" }
    phase := .ready
    lastError := ""
    updatedAt := now }.applyInstallCompleteReport report

/-- The last changes to a completed record: the message of the boot order and the
timings. -/
def Machine.withCompletionTimings (m : Machine) (message source : String) (now : Time) : Machine :=
  { m with provision := m.provision.map fun p =>
      { p with
        message
        timings := appendProvisionTiming
          (appendProvisionTiming p.timings (rebootTiming lib p now))
          [markerTiming "server.install_complete" ("install-complete received (" ++ source ++ ")")
            now] } }

/-! ### The sync loop -/

/-- A record whose installation has timed out. -/
def Machine.timedOut (m : Machine) (p : ProvisionProgress) (now : Time) : Machine :=
  { m with
    provision := some { p with active := false }
    phase := .error
    lastError := "provisioning timed out"
    updatedAt := now }

/-- `buildPXEEntry`. -/
def buildPXEEntry (m : Machine) (kernel initrd rootfs configURL : String) : String :=
  if m.firmware = .uefi then
    "set default=install\nmenuentry 'Install " ++ m.name ++ "' \x7b\n  linux " ++ kernel ++
      " initrd=boot-initrd ip=dhcp overlayroot=tmpfs:recurse=0 rw root=squash:" ++ rootfs ++
      " ds=nocloud;s=" ++ configURL ++ "\n  initrd " ++ initrd ++ "\n\x7d\n"
  else
    "DEFAULT install\nLABEL install\n  KERNEL " ++ kernel ++ "\n  INITRD " ++ initrd ++
      "\n  APPEND initrd=boot-initrd ip=dhcp overlayroot=tmpfs:recurse=0 rw root=squash:" ++
      rootfs ++ " ds=nocloud;s=" ++ configURL ++ "\n"

/-- `buildCoreDHCPSnippet`. -/
def buildCoreDHCPSnippet (m : Machine) (tftpServer : String) : String :=
  if m.firmware = .uefi then
    "# " ++ m.name ++ "\nif option arch == 00:07 \x7b\n  filename \"ipxe.efi\"\n  next-server " ++
      tftpServer ++ "\n\x7d\n"
  else
    "# " ++ m.name ++ "\nif option arch == 00:00 \x7b\n  filename \"undionly.kpxe\"\n  next-server " ++
      tftpServer ++ "\n\x7d\n"

/-- `BuildArtifacts`, with the cloud-init text of the machine. -/
def buildArtifacts (m : Machine) (baseURL installCfg : String) :
    Except Err (List (String × String) × String) :=
  if equalFold (trimSpace m.osPreset.family) "windows" then
    .error (.msg ("Windows deployment uses the dedicated WinPE path; " ++
      "Linux provisioning artifacts are unsupported"))
  else
    let start := baseURL ++ "/assets/" ++ m.name
    let kernel := start ++ "/linux/boot-kernel"
    let initrd := start ++ "/linux/boot-initrd"
    let rootfs := start ++ "/linux/rootfs.squashfs"
    let configURL := start ++ "/nocloud/"
    .ok ([("kernel", kernel), ("initrd", initrd), ("rootfs", rootfs), ("configURL", configURL),
      ("pxeConfig", buildPXEEntry m kernel initrd rootfs configURL),
      ("coreDHCP", buildCoreDHCPSnippet m "10.0.0.2")], installCfg)

/-- `SyncState`, of a record in phase `Provisioning`. -/
def syncState (m : Machine) (built : Except Err (List (String × String) × String)) (now : Time) :
    Machine :=
  match built with
  | .error e =>
    { m with
      phase := .error
      lastError := e.text
      provision := m.provision.map fun p =>
        { p with active := false, finishedAt := some now, message := e.text }
      updatedAt := now }
  | .ok (artifacts, installCfg) =>
    { m with
      lastError := ""
      provision := m.provision.map fun p =>
        { p with
          finishedAt := some now
          message := "provision artifacts generated"
          artifacts := (p.artifacts.insertMany artifacts).insert "installConfig.inline" installCfg }
      updatedAt := now }

end Gomi
