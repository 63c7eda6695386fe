import Gomi.Interleaving.Sequential
import Gomi.Transition
import Gomi.Vm.Callbacks
import Gomi.Vm.Writes

/-!
# The provisioning window of a virtual machine

A deployment arms a *window* in which PXE serves the installer: `Provisioning.Active`, under a
completion token. This file is about the calls that are made for one token, one at a time: the
runtime sync, `MarkMissing`, `FailDeploy`, `markDomainDefined`, `UpdateDeployStatus`, and the
callbacks of the installer (`Gomi.Vm.WindowCall`).

A window may be ended too early, when the sync does not find a domain that is not defined yet, and
then `markDomainDefined` and `UpdateDeployStatus` arm it again. A window that was ended for good
(`Gomi.Vm.EndsRightly`) must not be armed again. `UpdateDeployStatus` tells the two apart by the
phase of the record, and the phase is not the window's: a sync that finds the domain replaces
`Error` by `Running`, and the window of an installation that has timed out is armed again
(`Gomi.Vm.timed_out_rearmed`).

In the runs in which the deployer makes no call after its `FailDeploy`, and `UpdateDeployStatus`
finds the mark of the end of a window where there was one, an ended window stays ended
(`Gomi.Vm.ended_stays_ended`).
-/

namespace Gomi.Vm

open Go Prog

variable {o : Op} {server : Server} {hv : Hypervisor} {leases : List (String × String)}
  {lastAction lastErr attemptID : String} {state : DomainState} {interfaces : List InterfaceInfo}
  {now : Time}

/-! ### Rewrites -/

/-- **What a rewrite keeps of a record.** -/
structure VirtualMachine.Keeps (v v' : VirtualMachine) : Prop where
  name : v'.name = v.name
  spec : marshalSpec v' = marshalSpec v
  hypervisorRef : v'.hypervisorRef = v.hypervisorRef
  token : v'.provisioning.completionToken = v.provisioning.completionToken
  started : v'.provisioning.windowsInstallStarted = v.provisioning.windowsInstallStarted
  applied : v'.provisioning.imageApplied = v.provisioning.imageApplied
  completedAt : v'.provisioning.completedAt = v.provisioning.completedAt

namespace VirtualMachine

variable {v : VirtualMachine}

/-- The phase of a domain changes nothing that a rewrite keeps, and not the attempt. -/
theorem observed_keeps (state : DomainState) (now : Time) :
    v.Keeps (v.observed state now) ∧
      (v.observed state now).provisioning.attemptID = v.provisioning.attemptID := by
  unfold observed
  constructor
  · constructor <;> (dsimp only; split_ifs <;> rfl)
  · dsimp only
    split_ifs <;> rfl

theorem refreshed_keeps :
    v.Keeps (v.refreshed hv state interfaces leases now) ∧
      (v.refreshed hv state interfaces leases now).provisioning.attemptID =
        v.provisioning.attemptID := by
  obtain ⟨h, hattempt⟩ := v.observed_keeps state now
  unfold refreshed
  -- the addresses only go into fields that are not kept
  generalize convertRuntimeInterfaces interfaces = found
  generalize mergeRuntimeLeaseIPs v found.1 found.2 leases = merged
  generalize v.observed state now = u at h hattempt ⊢
  refine ⟨⟨h.name, ?_, h.hypervisorRef, h.token, h.started, h.applied, h.completedAt⟩, hattempt⟩
  simpa only [marshalSpec] using h.spec

end VirtualMachine

/-! ### Calls, one at a time -/

/-- The clock after an operation: a reading of it is not earlier than the last one. -/
def clockAfter : (o : Op) → Time → Res o → Option Time
  | .now, t, now => if t ≤ (show Time from now) then some now else none
  | _, t, _ => some t

/-- The operations, with a clock. -/
def clockedStep (o : Op) (s : World × Time) (r : Res o) : Option (World × Time) :=
  (step o s.1 r).bind fun w => (clockAfter o s.2 r).map fun t => (w, t)

/-- The calls that are made for the window of one token. -/
inductive WindowCall where
  /-- The runtime sync of the virtual machine. -/
  | sync
  /-- `MarkMissing`. -/
  | markMissing (lastAction lastErr : String)
  /-- `FailDeploy`. -/
  | failDeploy (lastAction lastErr : String)
  /-- `markDomainDefined`, with the snapshot of the deployer. -/
  | domainDefined (deployed : VirtualMachine)
  /-- `UpdateDeployStatus`, with the snapshot of the deployer. -/
  | deployStatus (phase : Phase) (lastAction : String) (p : ProvisioningStatus)
  /-- `PXEInstallComplete`. -/
  | installComplete (s : Server) (type : String) (body : Option InstallCompleteReq)
  /-- `PXEWindowsState`. -/
  | windowsState (s : Server) (attemptID : String) (body : Option WindowsStateReq)

/-- What a call for virtual machine `name` and the token does. -/
def WindowCall.prog (name token : String) : WindowCall → Prog Res Unit
  | .sync => runtimeSync name
  | .markMissing lastAction lastErr => do
    let _ ← Vm.markMissing name lastAction lastErr
    return ()
  | .failDeploy lastAction lastErr => do
    let _ ← Vm.failDeploy name lastAction lastErr token
    return ()
  | .domainDefined deployed => do
    let _ ← markDomainDefined
      { deployed with
        name, provisioning := { deployed.provisioning with completionToken := token } }
    return ()
  | .deployStatus phase lastAction p => do
    let _ ← updateDeployStatus name phase lastAction { p with completionToken := token }
    return ()
  | .installComplete s type body => do
    let _ ← pxeInstallComplete s token type body
    return ()
  | .windowsState s attemptID body => do
    let _ ← pxeWindowsState s token attemptID body
    return ()

/-- The call by which the deployer gives up. -/
def WindowCall.Fails : WindowCall → Prop
  | .failDeploy .. => True
  | _ => False

/-- The other calls of the deployer. -/
def WindowCall.Deploys : WindowCall → Prop
  | .domainDefined _ | .deployStatus .. => True
  | _ => False

/-- **One call**, up to its end or up to where the server stopped. -/
def WindowStep (name token : String) (s : World × Time) (i : WindowCall) (s' : World × Time) : Prop :=
  Reaches clockedStep (i.prog name token) s s'

/-- The mark of a window that was ended after its domain was defined: the installation has failed, or
the domain was found missing later than it was defined. -/
def EndMarked (status : VMStatus) : Prop :=
  status.phase = .error ∨ status.phase = .missing ∧ ∃ observed since,
    status.provisioning.domainObservedAt = some observed ∧ status.missingSince = some since ∧
      observed < since

/-- **The call `i` has left a window that is ended for good**: the installation is complete, its
deadline has passed after the domain was defined, the deployment has failed, or the domain was found
missing later than it was defined. -/
def EndsRightly (name token : String) (s : World × Time) (i : WindowCall) (s' : World × Time) : Prop :=
  WindowStep name token s i s' ∧ ∃ row, s'.1.db.vms[name]? = some row ∧
    row.status.provisioning.active = false ∧
      (row.status.provisioning.completedAt.isSome ∨
        (i = .sync ∧ row.status.provisioning.domainObservedAt.isSome ∧
          row.status.provisioning.deadlineAt.any (· < s'.2)) ∨
        i.Fails ∨
        row.status.phase = .missing ∧ ∃ observed since,
          row.status.provisioning.domainObservedAt = some observed ∧
            row.status.missingSince = some since ∧ observed < since)

/-- `UpdateDeployStatus` finds the mark of the end of a window whose domain was defined. -/
def MarkFound (name : String) (s : World × Time) : WindowCall → Prop
  | .deployStatus .. => ∀ row, s.1.db.vms[name]? = some row →
    row.status.provisioning.active = false → row.status.provisioning.completedAt = none →
    row.status.provisioning.domainObservedAt.isSome → EndMarked row.status
  | _ => True

/-- The deployer makes no call after its `FailDeploy`. -/
def DeployOrder (calls : List WindowCall) : Prop :=
  calls.Pairwise fun c d => c.Fails → ¬d.Deploys

/-! ### What a program keeps of a status -/

variable {n token : String} {s s' : World × Time} {K : VMStatus → Prop} {α : Type} {A : α → Prop}
  {v v' : VirtualMachine}

/-- The status of virtual machine `n`, if it is stored, has the property. -/
def StatusHas (n : String) (K : VMStatus → Prop) (s : World × Time) : Prop :=
  ∀ row, s.1.db.vms[n]? = some row → K row.status

theorem step_of_clockedStep {r : Res o} (h : clockedStep o s r = some s') :
    step o s.1 r = some s'.1 := by
  obtain ⟨w, hw, hclock⟩ := Option.bind_eq_some_iff.mp h
  obtain ⟨t, -, rfl⟩ := Option.map_eq_some_iff.mp hclock
  exact hw

theorem StatusHas.keep {r : Res o} (hs : clockedStep o s r = some s') (hst : storedBy o r ≠ some n)
    (h : StatusHas n K s) : StatusHas n K s' := by
  intro row hrow
  rcases step_vm (step_of_clockedStep hs) n with ⟨-, heq⟩ | ⟨hst', -⟩
  · exact h row (heq ▸ hrow)
  · exact absurd hst' hst

/-- An operation that stores nothing. -/
theorem maintains_silent {f : Res o → Prog Res α} (ho : ∀ r, storedBy o r = none)
    (hf : ∀ r, Maintains clockedStep (StatusHas n K) A (f r)) :
    Maintains clockedStep (StatusHas n K) A (perform o >>= f) :=
  Maintains.perform_bind fun _ r _ hs hstep =>
    ⟨hs.keep hstep (by rw [ho r]; exact (Option.some_ne_none n).symm), hf r⟩

/-- The records that an operation shows have the property. -/
theorem maintains_read {f : Res o → Prog Res α} (ho : ∀ r, storedBy o r = none)
    (hf : ∀ r, (∀ v ∈ shownBy o r, v.name = n → K (marshalStatus v)) →
      Maintains clockedStep (StatusHas n K) A (f r)) :
    Maintains clockedStep (StatusHas n K) A (perform o >>= f) := by
  refine .perform_bind fun s r s' hs hstep => ⟨?_, hf r fun v hv hname => ?_⟩
  · exact hs.keep hstep (by rw [ho r]; exact (Option.some_ne_none n).symm)
  · obtain ⟨-, row, hrow, heq⟩ := step_shown (step_of_clockedStep hstep) hv
    rw [heq, VMRow.marshalStatus_scan]
    exact hs row (hname ▸ hrow)

theorem maintains_get {f : Except Err VirtualMachine → Prog Res α}
    (herr : ∀ e, Maintains clockedStep (StatusHas n K) A (f (.error e)))
    (hok : ∀ v, v.name = n → K (marshalStatus v) →
      Maintains clockedStep (StatusHas n K) A (f (.ok v))) :
    Maintains clockedStep (StatusHas n K) A (Client.get n >>= f) := by
  refine .perform_bind fun s r s' hs hstep => ?_
  refine ⟨hs.keep hstep (Option.some_ne_none n).symm, ?_⟩
  match r with
  | .error e => exact herr e
  | .ok v =>
    obtain ⟨hr, -⟩ := execute_ok (step_of_clockedStep hstep)
    unfold get at hr
    split at hr
    · rename_i row hrow
      cases hr
      exact hok _ rfl (hs row hrow)
    · cases hr

/-- What an operation stores has the property. -/
theorem maintains_write {f : Res o → Prog Res α} (hw : ∀ {r x row}, VMWrite n o r x (some row) → K row.status)
    (hf : ∀ r, Maintains clockedStep (StatusHas n K) A (f r)) :
    Maintains clockedStep (StatusHas n K) A (perform o >>= f) := by
  refine .perform_bind fun s r s' hs hstep => ⟨fun row hrow => ?_, hf r⟩
  rcases step_vm (step_of_clockedStep hstep) n with ⟨-, heq⟩ | ⟨-, hwrite⟩
  · exact hs row (heq ▸ hrow)
  · rw [hrow] at hwrite
    exact hw hwrite

theorem maintains_updateExisting {f : Except Err Bool → Prog Res α}
    (hv : v.name = n → K (marshalStatus v))
    (hf : ∀ r, Maintains clockedStep (StatusHas n K) A (f r)) :
    Maintains clockedStep (StatusHas n K) A (Client.updateExisting v >>= f) :=
  maintains_write (fun hwrite => by cases hwrite with | update hname => exact hv hname) hf

theorem maintains_swap {f : Except Err Bool → Prog Res α}
    (hv : v.name = n → K (marshalStatus v'))
    (hf : ∀ r, Maintains clockedStep (StatusHas n K) A (f r)) :
    Maintains clockedStep (StatusHas n K) A (Client.updateProvisioningAttempt v v' >>= f) :=
  maintains_write (fun hwrite => by cases hwrite with | swap hname => exact hv hname) hf

/-! ### Windows that were ended -/

/-- **An ended window**: the installation is complete, its domain was defined, or `F`, the deployment
has failed. -/
def Over (F : Prop) (status : VMStatus) : Prop :=
  status.provisioning.active = false ∧
    (status.provisioning.completedAt.isSome ∨ status.provisioning.domainObservedAt.isSome ∨ F)

variable {F : Prop}

/-- A record of an ended window, with another runtime state. -/
theorem Over.congr (h : Over F (marshalStatus v)) (hactive : v'.provisioning.active = false)
    (hcompleted : v'.provisioning.completedAt = v.provisioning.completedAt)
    (hobserved : v'.provisioning.domainObservedAt = v.provisioning.domainObservedAt) :
    Over F (marshalStatus v') := by
  refine ⟨hactive, ?_⟩
  have h := h.2
  rw [show (marshalStatus v').provisioning = v'.provisioning from rfl, hcompleted, hobserved]
  exact h

theorem Over.refreshed (h : Over F (marshalStatus v)) :
    Over F (marshalStatus (v.refreshed hv state interfaces leases now)) := by
  have heq : (v.refreshed hv state interfaces leases now).provisioning = v.provisioning := by
    have htime : isProvisioningTimedOut v.provisioning now = false := by
      simp [isProvisioningTimedOut, show v.provisioning.active = false from h.1]
    show (v.observed state now).provisioning = v.provisioning
    unfold VirtualMachine.observed
    rw [htime]
    simp only [Bool.false_eq_true, if_false]
    split_ifs <;> rfl
  exact h.congr (heq ▸ h.1) (by rw [heq]) (by rw [heq])

theorem persistSyncedVM_maintains (hname : v'.name = v.name)
    (hover : v.name = n → Over F (marshalStatus v')) :
    Maintains clockedStep (StatusHas n (Over F)) (fun _ => True) (persistSyncedVM v v') := by
  refine .ite (fun _ => .pure trivial) fun _ => ?_
  refine maintains_silent (fun _ => rfl) fun now => ?_
  refine .ite (fun _ => ?_) fun _ => ?_
  · refine maintains_swap hover fun r => ?_
    match r with
    | .ok false => exact maintains_silent (fun _ => rfl) fun _ => .pure trivial
    | .ok true | .error _ => exact .pure trivial
  · exact maintains_updateExisting (fun h => hover (hname ▸ h)) fun _ => .pure trivial

theorem stampMissing_maintains :
    Maintains clockedStep (StatusHas n K) (fun _ => True) (stampMissing v) := by
  refine .ite (fun _ => ?_) fun _ => .pure trivial
  exact maintains_silent (fun _ => rfl) fun _ => .pure trivial

theorem syncWithExecutor_maintains (hover : v.name = n → Over F (marshalStatus v)) :
    Maintains clockedStep (StatusHas n (Over F)) (fun _ => True)
      (syncWithExecutor hv v leases) := by
  refine maintains_silent (fun _ => rfl) fun r => ?_
  match r with
  | .error e =>
    refine .ite (fun _ => .pure trivial) fun _ => ?_
    refine maintains_silent (fun _ => rfl) fun now => ?_
    refine .ite (fun _ => .pure trivial) fun _ => ?_
    refine stampMissing_maintains.bind fun since _ => ?_
    exact persistSyncedVM_maintains rfl fun h => (hover h).congr rfl rfl rfl
  | .ok state =>
    refine maintains_silent (fun _ => rfl) fun r => ?_
    match r with
    | .error _ | .ok interfaces =>
      exact maintains_silent (fun _ => rfl) fun now =>
        persistSyncedVM_maintains (v.refreshed_keeps ..).1.name fun h => (hover h).refreshed

theorem runtimeSync_maintains :
    Maintains clockedStep (StatusHas n (Over F)) (fun _ => True) (runtimeSync n) := by
  refine maintains_silent (fun _ => rfl) fun leases => ?_
  refine maintains_read (fun _ => rfl) fun r hr => ?_
  match r with
  | .error _ => exact .pure trivial
  | .ok items =>
  refine maintains_silent (fun _ => rfl) fun r => ?_
  match r with
  | .error _ => exact .pure trivial
  | .ok hypervisors =>
  simp only
  cases hfind : items.find? (·.name = n) with
  | none => exact .pure trivial
  | some v =>
  simp only
  split
  · exact .pure trivial
  refine .ite (fun _ => .pure trivial) fun _ => ?_
  refine maintains_silent (fun _ => rfl) fun now => ?_
  refine .ite (fun _ => .pure trivial) fun _ => ?_
  refine maintains_silent (fun _ => rfl) fun r => ?_
  match r with
  | .error _ => exact .pure trivial
  | .ok _ => exact syncWithExecutor_maintains (hr v (List.mem_of_find?_eq_some hfind))

theorem writeBack_maintains (h : v.name = n → K (marshalStatus v)) :
    Maintains clockedStep (StatusHas n K) (fun _ => True) (writeBack v) := by
  refine maintains_updateExisting h fun r => ?_
  match r with
  | .error _ | .ok false | .ok true => exact .pure trivial

theorem markMissing_maintains :
    Maintains clockedStep (StatusHas n (Over F)) (fun _ => True)
      (markMissing n lastAction lastErr) := by
  refine maintains_get (fun _ => .pure trivial) fun v hname hover => ?_
  refine maintains_silent (fun _ => rfl) fun now => ?_
  refine .ite (fun _ => .pure trivial) fun _ => ?_
  refine stampMissing_maintains.bind fun since _ => ?_
  refine maintains_silent (fun _ => rfl) fun now => ?_
  exact writeBack_maintains fun _ => hover.congr rfl rfl rfl

theorem failDeploy_maintains :
    Maintains clockedStep (StatusHas n (Over F)) (fun _ => True)
      (failDeploy n lastAction lastErr token) := by
  refine maintains_get (fun _ => .pure trivial) fun v hname hover => ?_
  refine .ite (fun _ => .pure trivial) fun _ => ?_
  refine maintains_silent (fun _ => rfl) fun now => ?_
  refine writeBack_maintains fun _ => hover.congr ?_ rfl rfl
  have hactive : v.provisioning.active = false := hover.1
  simp [VirtualMachine.deployFailed, hactive]

/-- `markDomainDefined` arms a window only if it is not complete and has no domain. -/
theorem markDomainDefined_maintains (hname : v.name = n) :
    Maintains clockedStep (StatusHas n (Over False)) (fun _ => True) (markDomainDefined v) := by
  subst hname
  refine maintains_get (fun _ => .pure trivial) fun u hname hover => ?_
  refine .ite (fun _ => .pure trivial) fun _ => ?_
  refine .ite (fun hc => ?_) fun _ => .pure trivial
  have hover : u.provisioning.completedAt.isSome ∨ u.provisioning.domainObservedAt.isSome ∨ False :=
    hover.2
  simp [hc.1, hc.2] at hover

/-- An ended window that `UpdateDeployStatus` can tell: it is complete, or bears the mark of its end. -/
def OverMarked (status : VMStatus) : Prop :=
  Over False status ∧ (status.provisioning.completedAt.isSome ∨ EndMarked status)

theorem updateDeployStatus_maintains {phase : Phase} {p : ProvisioningStatus} :
    Maintains clockedStep (StatusHas n OverMarked) (fun _ => True)
      (updateDeployStatus n phase lastAction p) := by
  refine maintains_get (fun _ => .pure trivial) fun v hname hv => ?_
  refine .ite (fun _ => .pure trivial) fun hover => absurd ?_ hover
  have hactive : v.provisioning.active = false := hv.1.1
  rcases hv.2 with hcompleted | hmark
  · have hcompleted : v.provisioning.completedAt.isSome := hcompleted
    simp [deployOver, hcompleted]
  · have hmark : v.phase = .error ∨ v.phase = .missing ∧ ∃ observed since,
        v.provisioning.domainObservedAt = some observed ∧ v.missingSince = some since ∧
          observed < since := hmark
    rcases hmark with hphase | ⟨hphase, observed, since, hobserved, hsince, hlt⟩
    · simp [deployOver, hactive, hphase]
    · simp [deployOver, hactive, hphase, hobserved, hsince, hlt]

/-! ### Callbacks -/

theorem findVirtualMachineByProvisionToken_maintains :
    Maintains clockedStep (StatusHas n K)
      (fun r => ∀ v, r = .ok (some v) → v.name = n → K (marshalStatus v))
      (findVirtualMachineByProvisionToken token) := by
  refine .ite (fun _ => .pure fun v h => absurd h (by simp)) fun _ => ?_
  refine maintains_read (fun _ => rfl) fun r hr => ?_
  match r with
  | .error _ => exact .pure fun v h => absurd h (by simp)
  | .ok items =>
    refine .pure fun v h hname => hr v ?_ hname
    exact List.mem_of_find?_eq_some (Except.ok.inj h)

theorem ensureVirtualMachineSSHReachable_maintains {report : InstallCompleteReport} :
    Maintains clockedStep (StatusHas n K) (fun _ => True)
      (ensureVirtualMachineSSHReachable server v report) := by
  have hdebian : Maintains clockedStep (StatusHas n K) (fun _ => True)
      (virtualMachineIsDebian server v) := by
    refine .ite (fun _ => .pure trivial) fun _ => ?_
    refine maintains_silent (fun _ => rfl) fun r => ?_
    match r with
    | .error _ | .ok _ => exact .pure trivial
  refine hdebian.bind fun debian _ => ?_
  refine .ite (fun _ => .pure trivial) fun _ => ?_
  refine .ite (fun _ => .pure trivial) fun _ => ?_
  refine maintains_silent (fun _ => rfl) fun r => ?_
  match r with
  | .error _ | .ok _ => exact .pure trivial

/-- A completion ends the window, whichever record it is reported for. -/
theorem pxeInstallComplete_maintains {type : String} {body : Option InstallCompleteReq} :
    Maintains clockedStep (StatusHas n (Over F)) (fun _ => True)
      (pxeInstallComplete server token type body) := by
  match body with
  | none => exact .pure trivial
  | some req =>
  refine .ite (fun _ => .pure trivial) fun _ => ?_
  refine findVirtualMachineByProvisionToken_maintains.bind fun r _ => ?_
  match r with
  | .error _ | .ok none => exact .pure trivial
  | .ok (some v) =>
  refine .ite (fun _ => .pure trivial) fun _ => ?_
  refine .ite (fun _ => .pure trivial) fun _ => ?_
  refine .ite (fun _ => ?_) fun _ => ?_
  · exact .ite (fun _ => .pure trivial) fun _ => .pure trivial
  refine ensureVirtualMachineSSHReachable_maintains.bind fun r _ => ?_
  match r with
  | .error _ => exact .pure trivial
  | .ok _ =>
  refine maintains_silent (fun _ => rfl) fun now => ?_
  refine maintains_updateExisting (fun _ => ⟨rfl, Or.inl rfl⟩) fun r => ?_
  match r with
  | .error _ | .ok false | .ok true => exact .pure trivial

theorem windowsTarget_maintains :
    Maintains clockedStep (StatusHas n K)
      (fun r => ∀ v, r = .ok (some v) → v.name = n → K (marshalStatus v))
      (windowsTarget server token attemptID) := by
  have hnone : ∀ r : Except Response (Option VirtualMachine), (∀ v, r ≠ .ok (some v)) →
      Maintains clockedStep (StatusHas n K)
        (fun r => ∀ v, r = .ok (some v) → v.name = n → K (marshalStatus v)) (pure r) :=
    fun r hr => .pure fun v h => absurd h (hr v)
  refine .ite (fun _ => hnone _ (by simp)) fun _ => ?_
  refine findVirtualMachineByProvisionToken_maintains.bind fun r hr => ?_
  match r, hr with
  | .error _, _ | .ok none, _ => exact hnone _ (by simp)
  | .ok (some v), hr =>
  refine .ite (fun _ => hnone _ (by simp)) fun _ => ?_
  refine .ite (fun _ => hnone _ (by simp)) fun _ => ?_
  refine maintains_silent (fun _ => rfl) fun now => ?_
  refine .ite (fun _ => hnone _ (by simp)) fun _ => ?_
  refine .ite (fun _ => hnone _ (by simp)) fun _ => ?_
  refine maintains_silent (fun _ => rfl) fun r => ?_
  match r with
  | .error _ => exact hnone _ (by simp)
  | .ok img =>
  refine .ite (fun _ => hnone _ (by simp)) fun _ => ?_
  exact .pure fun u hu hname => hr u (congrArg _ (Except.ok.inj hu)) hname

/-- The stages of a Windows installation are reported for active windows only. -/
theorem pxeWindowsState_maintains {body : Option WindowsStateReq} :
    Maintains clockedStep (StatusHas n (Over F)) (fun _ => True)
      (pxeWindowsState server token attemptID body) := by
  refine windowsTarget_maintains.bind fun r hr => ?_
  match r, hr with
  | .error _, _ | .ok none, _ => exact .pure trivial
  | .ok (some v), hr =>
  match body with
  | none => exact .pure trivial
  | some req =>
  simp only
  split
  · exact .pure trivial
  refine .ite (fun _ => ?_) fun hactive => ?_
  · exact .ite (fun _ => .pure trivial) fun _ => .pure trivial
  have hother : v.name ≠ n := by
    intro hname
    have hover : v.provisioning.active = false := (hr v rfl hname).1
    simp [hover] at hactive
  split
  · exact .pure trivial
  refine maintains_silent (fun _ => rfl) fun now => ?_
  refine maintains_swap (fun hname => absurd hname hother) fun r => ?_
  match r with
  | .error _ | .ok false | .ok true => exact .pure trivial

/-! ### Runs -/

/-- **The step lemma**: a call leaves an ended window ended. Of a window that was ended only because the
deployment has failed, this is said of the calls that the deployer does not make. -/
theorem WindowStep.over {i : WindowCall} (h : WindowStep n token s i s') (hi : F → ¬i.Deploys)
    (hmark : MarkFound n s i) (hs : StatusHas n (Over F) s) : StatusHas n (Over F) s' := by
  have done : ∀ {β : Type} {p : Prog Res β} {K : VMStatus → Prop},
      Maintains clockedStep (StatusHas n K) (fun _ => True) p →
      StatusHas n K s → Reaches clockedStep (p >>= fun _ => Pure.pure ()) s s' → StatusHas n K s' := by
    intro β p K hp hs hreach
    have hp' : Maintains clockedStep (StatusHas n K) (fun _ => True) (p >>= fun _ => Pure.pure ()) :=
      hp.bind fun _ _ => .pure trivial
    exact hp'.reaches hs hreach
  cases i with
  | sync => exact runtimeSync_maintains.reaches hs h
  | markMissing lastAction lastErr => exact done (markMissing_maintains) hs h
  | failDeploy lastAction lastErr =>
    exact done (failDeploy_maintains) hs h
  | installComplete server type body =>
    exact done (pxeInstallComplete_maintains) hs h
  | windowsState server attemptID body =>
    exact done (pxeWindowsState_maintains) hs h
  | domainDefined deployed =>
    obtain rfl : F = False := eq_false fun hF => hi hF trivial
    exact done (markDomainDefined_maintains rfl) hs h
  | deployStatus phase lastAction p =>
    obtain rfl : F = False := eq_false fun hF => hi hF trivial
    -- the mark of the end is found
    have hmarked : StatusHas n OverMarked s := by
      intro row hrow
      have hover := hs row hrow
      refine ⟨hover, ?_⟩
      rcases hover.2 with hcompleted | hobserved | hF
      · exact Or.inl hcompleted
      · cases hc : row.status.provisioning.completedAt with
        | some t => exact Or.inl rfl
        | none => exact Or.inr (hmark row hrow hover.1 hc hobserved)
      · exact hF.elim
    have hs' := done (updateDeployStatus_maintains) hmarked h
    exact fun row hrow => (hs' row hrow).1

/-- The run lemma. -/
theorem over_of_steps {js : List WindowCall}
    (hrun : Steps (Under (WindowStep n token) (MarkFound n)) s js s')
    (hjs : ∀ j ∈ js, F → ¬j.Deploys) (hs : StatusHas n (Over F) s) : StatusHas n (Over F) s' := by
  induction hrun with
  | nil => exact hs
  | cons hstep _ ih =>
    refine ih (fun j hj => hjs j (List.mem_cons_of_mem _ hj)) ?_
    exact hstep.1.over (hjs _ List.mem_cons_self) hstep.2 hs

/-- **A rightly ended window stays ended**, in every run in which the deployer makes no call after its
`FailDeploy` and `UpdateDeployStatus` finds the mark of the end of a window whose domain was
defined. -/
theorem ended_stays_ended {i : WindowCall} {js : List WindowCall} {s₁ s₂ : World × Time}
    (hend : EndsRightly n token s i s₁)
    (hrun : Steps (Under (WindowStep n token) (MarkFound n)) s₁ js s₂)
    (horder : DeployOrder (i :: js)) {row : VMRow} (hrow : s₂.1.db.vms[n]? = some row) :
    row.status.provisioning.active = false := by
  obtain ⟨-, row₁, hrow₁, hactive, hwhy⟩ := hend
  have hover : StatusHas n (Over i.Fails) s₁ := by
    intro row hrow
    obtain rfl := Option.mem_unique hrow₁ hrow
    refine ⟨hactive, ?_⟩
    rcases hwhy with hcompleted | ⟨-, hobserved, -⟩ | hfails | ⟨-, observed, -, hobserved, -⟩
    · exact Or.inl hcompleted
    · exact Or.inr (Or.inl hobserved)
    · exact Or.inr (Or.inr hfails)
    · exact Or.inr (Or.inl (by rw [hobserved]; rfl))
  exact (over_of_steps hrun (List.pairwise_cons.mp horder).1 hover row hrow).1

/-! ### An installation that has timed out -/

/-- A window that is armed until time 10, and whose domain was defined at time 1. -/
def windowSnapshot : ProvisioningStatus :=
  { active := true, attemptID := "a1", startedAt := some 0, deadlineAt := some 10
    completionToken := "t1", domainObservedAt := some 1 }

/-- A virtual machine with that window, and its hypervisor. -/
def windowWorld : World :=
  let v : VirtualMachine :=
    { name := "vm1", hypervisorRef := "h1", phase := .provisioning, provisioning := windowSnapshot }
  { db :=
      { vms := (∅ : Table VMRow).insert "vm1" (v.toRow 0)
        hypervisors := (∅ : Table Hypervisor).insert "h1" { name := "h1" } } }

/-- The replies of an undisturbed system at time `t`. -/
def answerAt (t : Time) (o : Op) (s : World × Time) : Res o :=
  match o with
  | .now => t
  | o => World.answer Query.domainRuns o s.1

/-- The state after a call at a time. -/
def windowCallAt (s : World × Time) (i : WindowCall) (t : Time) : Option (World × Time) :=
  (evaluate clockedStep (answerAt t) (i.prog "vm1" "t1") s).map (·.2)

theorem WindowStep.of_callAt {i : WindowCall} {t : Time} (h : windowCallAt s i t = some s') :
    WindowStep "vm1" "t1" s i s' := by
  obtain ⟨x, hx, rfl⟩ := Option.map_eq_some_iff.mp h
  exact .of_evaluate hx

/-- The status of `vm1`. -/
def windowStatus (s : World × Time) : Option VMStatus := s.1.db.vms["vm1"]?.map (·.status)

/-- The deployer's last call. -/
def deployDone : WindowCall := .deployStatus .provisioning "create+pxe" windowSnapshot

/-- At time 20 the sync finds that the installation has timed out. The deployer's last call at time 22
leaves the window ended, but not if the sync has found the domain once more before it. -/
theorem windowWorld_plays :
    ((windowCallAt (windowWorld, 0) .sync 20).any fun s₁ =>
      ((windowStatus s₁).any fun status =>
        status.phase = .error ∧ status.provisioning.active = false ∧
          status.provisioning.domainObservedAt.isSome ∧
          status.provisioning.deadlineAt.any (· < s₁.2)) &&
      ((windowCallAt s₁ deployDone 22).any fun s₂ => (windowStatus s₂).isSome) &&
      (windowCallAt s₁ .sync 21).any fun s₂ => (windowCallAt s₂ deployDone 22).any fun s₃ =>
        (windowStatus s₃).any (·.provisioning.active)) = true := by
  decide

/-- The runs of `Gomi.Vm.windowWorld_plays`. -/
theorem windowWorld_runs : ∃ s₁ row₁, EndsRightly "vm1" "t1" (windowWorld, 0) .sync s₁ ∧
    s₁.1.db.vms["vm1"]? = some row₁ ∧ row₁.status.phase = .error ∧
    (∃ s₂ row₂, WindowStep "vm1" "t1" s₁ deployDone s₂ ∧ s₂.1.db.vms["vm1"]? = some row₂) ∧
    ∃ s₂ s₃ row₃, WindowStep "vm1" "t1" s₁ .sync s₂ ∧ WindowStep "vm1" "t1" s₂ deployDone s₃ ∧
      s₃.1.db.vms["vm1"]? = some row₃ ∧ row₃.status.provisioning.active = true := by
  have hplays := windowWorld_plays
  simp only [windowStatus, Option.any_eq_true, Option.isSome_iff_exists, Bool.and_eq_true,
    decide_eq_true_eq, Option.map_eq_some_iff] at hplays
  obtain ⟨s₁, h₁, ⟨⟨_, ⟨row₁, hrow₁, rfl⟩, hphase, hactive, hobserved, hdeadline⟩,
    s₂, h₂, _, row₂, hrow₂, -⟩, s₂', h₂', s₃, h₃, _, ⟨row₃, hrow₃, rfl⟩, hactive₃⟩ := hplays
  refine ⟨s₁, row₁, ⟨WindowStep.of_callAt h₁, row₁, hrow₁, hactive, ?_⟩, hrow₁, hphase, ?_, ?_⟩
  · exact Or.inr (Or.inl ⟨rfl, Option.isSome_iff_exists.mpr hobserved,
      (Option.any_eq_true _ _).mpr (by simpa using hdeadline)⟩)
  · exact ⟨s₂, row₂, WindowStep.of_callAt h₂, hrow₂⟩
  · exact ⟨s₂', s₃, row₃, WindowStep.of_callAt h₂', WindowStep.of_callAt h₃, hrow₃, hactive₃⟩

theorem timed_out_kept : ∃ s₁ s₂ row, EndsRightly "vm1" "t1" (windowWorld, 0) .sync s₁ ∧
    Steps (Under (WindowStep "vm1" "t1") (MarkFound "vm1")) s₁ [deployDone] s₂ ∧
    DeployOrder [.sync, deployDone] ∧ s₂.1.db.vms["vm1"]? = some row ∧
    row.status.provisioning.active = false := by
  obtain ⟨s₁, row₁, hend, hrow₁, hphase, ⟨s₂, row₂, hstep, hrow₂⟩, -⟩ := windowWorld_runs
  have hmark : MarkFound "vm1" s₁ deployDone := by
    intro row hrow _ _ _
    obtain rfl := Option.mem_unique hrow₁ hrow
    exact Or.inl hphase
  have hrun : Steps (Under (WindowStep "vm1" "t1") (MarkFound "vm1")) s₁ [deployDone] s₂ :=
    Steps.cons ⟨hstep, hmark⟩ (Steps.nil s₂)
  have horder : DeployOrder [.sync, deployDone] := by
    simp [DeployOrder, WindowCall.Fails]
  exact ⟨s₁, s₂, row₂, hend, hrun, horder, hrow₂, ended_stays_ended hend hrun horder hrow₂⟩

/-- **The window of an installation that has timed out is armed again**: the sync finds that the
deadline has passed, and then that the domain runs, and the deployer finishes. -/
theorem timed_out_rearmed : ∃ s₁ s₃ row, EndsRightly "vm1" "t1" (windowWorld, 0) .sync s₁ ∧
    Steps (WindowStep "vm1" "t1") s₁ [.sync, deployDone] s₃ ∧
    DeployOrder [.sync, .sync, deployDone] ∧ s₃.1.db.vms["vm1"]? = some row ∧
    row.status.provisioning.active = true := by
  obtain ⟨s₁, -, hend, -, -, -, s₂, s₃, row₃, h₂, h₃, hrow₃, hactive⟩ := windowWorld_runs
  refine ⟨s₁, s₃, row₃, hend, Steps.cons h₂ (Steps.cons h₃ (Steps.nil s₃)), ?_, hrow₃, hactive⟩
  simp [DeployOrder, WindowCall.Fails]

end Gomi.Vm
