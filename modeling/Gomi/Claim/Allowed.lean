import Gomi.Requests

/-!
# What a request may do

Every write of a handler is justified by what the handler has read. This file says how:
`Gomi.Allowed lib q cs o` – the request `q`, having made the calls `cs`, may issue the
operation `o`. The handlers are shown to keep to it in `Gomi.Claim.Handlers`, and that is
the last time anybody looks at their programs: all that a proof about runs needs to know
of a write is in the constructors of `Gomi.Allowed`.

The writes of machine records fall into four kinds:

* a *rewrite* (`Gomi.Machine.Continues`): the record that was read, with changes that no
  decision about a claim depends on, except that the attempt may end and that an image
  may have been applied. All callbacks, the sync loop and the changes of settings are of
  this kind. The attempt id that is written may be that of *another* record of the same
  machine, which was read earlier: an inventory and a curtin configuration write the
  attempt id of the record by which they found the machine;
* the start of an installation under a claim (`Gomi.Prepares`);
* the start of an ordinary redeployment;
* the creation of a machine (`Gomi.Creates`).
-/

namespace Gomi

open Go

/-! ### Records -/

/-- The provisioning record of a machine; a machine without one is like one with an empty one. -/
def Machine.progress (m : Machine) : ProvisionProgress := m.provision.getD {}

/-- The completion token of a record. -/
def Machine.token (m : Machine) : String := m.progress.completionToken

/-- Whether the attempt of a record is active. -/
def Machine.active (m : Machine) : Bool := m.progress.active

/-- Whether the image of the attempt of a record has been applied. -/
def Machine.imageApplied (m : Machine) : Bool := m.progress.imageApplied

/-- Whether the attempt of a record was completed. -/
def Machine.completed (m : Machine) : Bool := m.progress.completedAt.isSome

theorem Machine.attempt_eq (m : Machine) : m.attempt = m.progress.attemptID := by
  unfold Machine.attempt Machine.progress
  cases m.provision <;> rfl

theorem Machine.any_active (m : Machine) : m.provision.any (·.active) = m.active := by
  unfold Machine.active Machine.progress
  cases m.provision <;> rfl

theorem Machine.any_imageApplied (m : Machine) :
    m.provision.any (·.imageApplied) = m.imageApplied := by
  unfold Machine.imageApplied Machine.progress
  cases m.provision with
  | none => simp [ProvisionProgress.imageApplied]
  | some p => rfl

theorem Machine.progress_of_provision {m : Machine} {p : ProvisionProgress}
    (h : m.provision = some p) : m.progress = p := by
  rw [Machine.progress, h]
  rfl

/-- What decisions about a claim depend on, of a machine record. -/
structure View where
  attempt : String
  token : String
  active : Bool
  imageApplied : Bool
  completed : Bool
  phase : Phase
  targetDisk : String
  osPreset : OSPreset
  sealedBootstrap : Option SealedBootstrap

/-- The view of a record. -/
def Machine.view (m : Machine) : View :=
  { attempt := m.attempt, token := m.token, active := m.active, imageApplied := m.imageApplied
    completed := m.completed, phase := m.phase, targetDisk := m.targetDisk, osPreset := m.osPreset
    sealedBootstrap := m.sealedBootstrap }

/-- A record from which a claim can move on: its attempt is active, has failed or was
completed. -/
def Machine.Settled (m : Machine) : Prop :=
  m.active = true ∨ m.phase = .error ∨ (m.phase = .ready ∧ m.completed = true)

/-- A record whose attempt is over and has not failed. -/
def Machine.Done (m : Machine) : Prop :=
  m.active = false ∧ m.phase ≠ .provisioning ∧ m.phase ≠ .error

/-- **What a rewrite keeps of a record.** -/
structure Machine.Continues (m m' : Machine) : Prop where
  name : m'.name = m.name
  sealedBootstrap : m'.sealedBootstrap = m.sealedBootstrap
  targetDisk : m'.targetDisk = m.targetDisk
  osPreset : m'.osPreset = m.osPreset
  token : m'.token = m.token
  /-- An attempt is never made active. -/
  active : m'.active = true → m.active = true
  settled : m.Settled → m'.Settled
  /-- An attempt that is over stays over. -/
  done : m.Done → m'.Done
  /-- An attempt is only completed by ending it. -/
  completed : m'.completed = true → m.completed = true ∨ m'.Done

/-- The call returned the record `m`. -/
def Call.Reads (m : Machine) (c : Call Res) : Prop :=
  (∃ name, c = ⟨.getMachine name, Except.ok m⟩) ∨
    ∃ ms, c = ⟨.listMachines, Except.ok ms⟩ ∧ m ∈ ms

/-- The record `t` was read by an earlier call than the record `m` of the same machine. -/
def ReadBefore (cs : List (Call Res)) (t m : Machine) : Prop :=
  ∃ c : Call Res, [c, ⟨.getMachine t.name, Except.ok m⟩].Sublist cs ∧ c.Reads t

/-! ### Installations under a claim -/

variable (lib : Lib)

/-- **The records that an installation under a claim starts from**, given the host and the machine
that were read. -/
inductive Prepares (h : Host) (m : Machine) : Machine → Prop
  /-- `DeployBareMetalClaim`. -/
  | deploy {img : OSImage} {ref envelope : String} (hstate : h.state = .claimed)
      (henvelope : validateEnvelope lib envelope h = .ok ())
      (himage : validateImage m img = .ok ()) :
      Prepares h m (deployedMachine lib h m img ref envelope)
  /-- `DeleteBareMetalClaim`. -/
  | clean (hstate : h.state ≠ .claimed) (happlied : m.imageApplied = true) :
      Prepares h m (cleanedMachine lib h m)
  /-- `RetryBareMetalClaim`. -/
  | retry {img : OSImage} {p : ProvisionProgress} {b : SealedBootstrap}
      (hprovision : m.provision = some p) (hsealed : m.sealedBootstrap = some b)
      (hne : h.attemptID ≠ "") (hattempt : p.attemptID = h.attemptID) (howner : b.owner = h.owner)
      (hallowed : retryAllowed h m p = true) (himage : validateImage m img = .ok ()) :
      Prepares h m (retriedMachine m img)

/-- A call that stores the record of a machine or commits one. -/
def Op.stores : Op → Option Machine
  | .upsert m => some m
  | .insertMachine m => some m
  | .commitDeployment _ m => some m
  | _ => none

/-- `m` is `base` with a new attempt, whose random bytes the request has drawn. -/
def Attempts (cs : List (Call Res)) (base m : Machine) : Prop :=
  ∃ (power : PowerConfig) (actor : String) (tokenBytes bytes : List UInt8) (now timeout : Time),
    (⟨.rand 32, Except.ok tokenBytes⟩ : Call Res) ∈ cs ∧
    (⟨.rand 16, Except.ok bytes⟩ : Call Res) ∈ cs ∧
    m = (base.readied power).withAttempt actor (hexEncode tokenBytes) (attemptText bytes) now timeout

/-- `m` is created with a new attempt, whose random bytes the request has drawn. -/
structure Creates (cs : List (Call Res)) (m : Machine) : Prop where
  attempt : ∃ bytes, (⟨.rand 16, Except.ok bytes⟩ : Call Res) ∈ cs ∧ m.attempt = attemptText bytes
  token : ∃ bytes, (⟨.rand 32, Except.ok bytes⟩ : Call Res) ∈ cs ∧ m.token = hexEncode bytes
  active : m.active = true
  imageApplied : m.imageApplied = false
  completed : m.completed = false

/-! ### Operations -/

/-- The operations that write nothing. -/
def Op.isRead : Op → Bool
  | .getHost _ | .findOwner _ | .getMachine _ | .listMachines | .now | .rand _ | .ask _ => true
  | _ => false

/-- The kinds of requests, by the machine records that they write. -/
inductive Request.Kind where
  /-- The handlers of claims write the records of installations under a claim. -/
  | claim
  /-- A method of an ordinary machine writes the record of a redeployment. -/
  | redeploy
  /-- A creation inserts a record. -/
  | create
  /-- Everything else rewrites records. -/
  | report
  deriving DecidableEq

/-- The kind of a request. -/
def Request.kind : Request → Request.Kind
  | .acquire _ | .getClaim _ | .deployClaim .. | .deleteClaim .. | .retryClaim .. => .claim
  | .machineMethod .. => .redeploy
  | .createMachine .. => .create
  | _ => .report

/-- The record `m'` has the attempt id of the record `t`, up to white space, and that is not
empty. -/
def Relabels (t m' : Machine) : Prop :=
  trimSpace t.attempt ≠ "" ∧ (m'.attempt = t.attempt ∨ m'.attempt = trimSpace t.attempt)

/-- An image was reported as applied for the attempt of `m`, by the request that writes `m'`. -/
def Reported (q : Request) (m m' : Machine) : Prop :=
  q.Reports m.attempt m.token ∧ m.attempt ≠ "" ∧ m'.attempt = m.attempt

/-- The request may write `m'` for the record `m`. -/
structure Rewrites (q : Request) (m m' : Machine) : Prop where
  continues : m.Continues m'
  applied : m'.imageApplied = true → m.imageApplied = true ∨ Reported q m m'
  /-- An image that was applied stays applied. -/
  kept : m.imageApplied = true → m'.imageApplied = true

/-- **What a request may do**, having made the calls `cs`. -/
inductive Allowed (q : Request) (cs : List (Call Res)) : Op → Prop
  /-- Anything may be read. -/
  | read {o : Op} (ho : o.isRead = true) : Allowed q cs o
  /-- A power action is recorded. -/
  | power (name : String) (action : PowerAction) (lastError : Option String) (t : Time) :
      Allowed q cs (.updatePowerActionStatus name action lastError t)
  /-- A power state is recorded. -/
  | powerState (name : String) (state : PowerState) (t t' : Time) :
      Allowed q cs (.updatePowerStateStatus name state t t')
  /-- A leased address is recorded. -/
  | dynamicIP (name mac ip : String) (t : Time) : Allowed q cs (.updateDynamicIP name mac ip t)
  /-- A host is enrolled whose machine was not being installed. -/
  | enroll {name pool publicKey targetDisk : String} {m : Machine}
      (hread : (⟨.getMachine name, Except.ok m⟩ : Call Res) ∈ cs) (hinactive : m.active = false) :
      Allowed q cs (.insertHost name pool publicKey targetDisk)
  /-- A host is moved to another pool. -/
  | pool (name pool : String) (revision : ℤ) : Allowed q cs (.updatePool name pool revision)
  /-- A host is unregistered. -/
  | unregister {name : String} {revision : ℤ} (hq : ∃ body, q = .unregisterHost name body) :
      Allowed q cs (.unregister name revision)
  /-- A host is claimed. -/
  | claim {pool owner : String} (hvalid : validateAcquire pool owner = .ok ()) :
      Allowed q cs (.claimFirst pool owner)
  /-- A claim without a deployment is cancelled. -/
  | cancel {owner : String} {h : Host} (hread : (⟨.findOwner owner, Except.ok h⟩ : Call Res) ∈ cs)
      (hstate : h.state = .claimed) : Allowed q cs (.transition h .releasing "")
  /-- A confirmed installation makes the host ready, a failure is recorded. -/
  | advance {owner : String} {h : Host} {m : Machine} {p : ProvisionProgress} {next : HostState}
      (hread : [(⟨.findOwner owner, Except.ok h⟩ : Call Res),
        ⟨.getMachine h.name, Except.ok m⟩].Sublist cs)
      (hprovision : m.provision = some p) (hattempt : p.attemptID = h.attemptID)
      (hnext : next = .ready ∧ h.state = .deploying ∨
        next = .failed ∧ (h.state = .deploying ∨ h.state = .releasing) ∧ m.phase = .error) :
      Allowed q cs (.transition h next h.attemptID)
  /-- A host is released after its cleanup was confirmed. -/
  | releaseConfirmed {owner : String} {h : Host} {m : Machine} {p : ProvisionProgress}
      (hread : [(⟨.findOwner owner, Except.ok h⟩ : Call Res),
        ⟨.getMachine h.name, Except.ok m⟩].Sublist cs)
      (hstate : h.state = .releasing) (hprovision : m.provision = some p)
      (hattempt : p.attemptID = h.attemptID) (hinactive : p.active = false)
      (hcompleted : p.completedAt.isSome = true) (hphase : m.phase = .ready) :
      Allowed q cs (.completeRelease h)
  /-- A host is released that was never installed. -/
  | releaseCancelled {h h' : Host}
      (hmoved : (⟨.transition h .releasing "", Except.ok h'⟩ : Call Res) ∈ cs)
      (hstate : h.state = .claimed) : Allowed q cs (.completeRelease h')
  /-- An installation is committed under a claim. -/
  | commit {owner : String} {h : Host} {m base m' : Machine} (hq : q.kind = .claim)
      (hunwritten : ∀ c ∈ cs, c.op.stores = none)
      (hread : [(⟨.findOwner owner, Except.ok h⟩ : Call Res),
        ⟨.getMachine h.name, Except.ok m⟩].Sublist cs)
      (hprepares : Prepares lib h m base) (hattempts : Attempts cs base m') :
      Allowed q cs (.commitDeployment h m')
  /-- A record is rewritten. -/
  | rewrite {m m' : Machine} (hq : q.kind = .report) (hread : ∃ c ∈ cs, c.Reads m)
      (hrewrites : Rewrites q m m')
      (hattempt : m'.attempt = m.attempt ∨ ∃ t, ReadBefore cs t m ∧ Relabels t m') :
      Allowed q cs (.upsert m')
  /-- A record is rewritten if it is the stored one. -/
  | swap {m m' : Machine} (hq : q.kind = .report) (hread : ∃ c ∈ cs, c.Reads m)
      (hrewrites : Rewrites q m m') : Allowed q cs (.updateProvisioningAttempt m m')
  /-- A machine is created. -/
  | create {m : Machine} (hq : q.kind = .create) (hunwritten : ∀ c ∈ cs, c.op.stores = none)
      (hcreates : Creates cs m) : Allowed q cs (.insertMachine m)
  /-- A machine is deleted. -/
  | delete {name : String} (hq : ∃ admin, q = .deleteMachine name admin) :
      Allowed q cs (.deleteMachine name)
  /-- An ordinary machine is redeployed. -/
  | redeploy {name : String} {m m' : Machine} {opts : Option ReinstallOptions}
      (hq : q.kind = .redeploy) (hunwritten : ∀ c ∈ cs, c.op.stores = none)
      (hread : (⟨.getMachine name, Except.ok m⟩ : Call Res) ∈ cs)
      (hattempts : Attempts cs (opts.elim m fun o => o.apply m) m') : Allowed q cs (.upsert m')
  /-- The record of a redeployment is written a second time, with a registration token. -/
  | attach {name : String} {m m' : Machine} {opts : Option ReinstallOptions}
      {token expiresAt : String} (hq : q.kind = .redeploy)
      (hread : (⟨.getMachine name, Except.ok m⟩ : Call Res) ∈ cs)
      (hattempts : Attempts cs (opts.elim m fun o => o.apply m) m')
      (hstored : (⟨.upsert m', Except.ok ()⟩ : Call Res) ∈ cs)
      (honly : ∀ c ∈ cs, c.op.stores = none ∨ c.op.stores = some m') :
      Allowed q cs (.upsert (m'.withHypervisorToken token expiresAt))

end Gomi
