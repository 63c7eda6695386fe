import Gomi.Store.Database

/-!
# The statements of the two stores

`internal/infra/sql`: what each SQL statement or transaction of the machine store
and of the bare-metal store does to the database. Each is a function from a
database to its answer and the database it leaves, and each is one atomic step of
the system. `Register`, `Acquire` and `UpdateDynamicIPAddress` are sequences of
several statements in the source; only their statements are here, and the sequences
are programs of `Gomi.Store.Client`.
-/

namespace Gomi

/-- What a statement does: its answer, and the database it leaves. -/
abbrev Statement (α : Type) : Type := Database → Except Err α × Database

/-! ### Hosts -/

/-- `SELECT … WHERE name = ?`. -/
def getHost (name : String) : Statement Host := fun db =>
  match db.hosts[name]? with
  | some r => (.ok (r.scan name), db)
  | none => (.error .hostNotFound, db)

/-- `SELECT … WHERE owner = ?`. -/
def findOwner (owner : String) : Statement Host := fun db =>
  match db.hostOfOwner owner with
  | some (name, r) => (.ok (r.scan name), db)
  | none => (.error .hostNotFound, db)

/-- The insert of `Register`. A conflict of names does nothing; a host without a
machine violates the foreign key. -/
def insertHost (name pool publicKey targetDisk : String) : Statement Unit := fun db =>
  if db.hosts[name]?.isSome then (.ok (), db)
  else if hm : db.machines[name]?.isSome then
    (.ok (), db.enroll name { pool, publicKey, targetDisk } hm rfl)
  else (.error (.msg "FOREIGN KEY constraint failed"), db)

/-- The guarded updates of host rows: `UPDATE … SET f WHERE name = ? AND cond RETURNING …`, with
no row reported as a conflict. -/
def updateHostWhere (name : String) (cond : HostRow → Bool) (f : HostRow → HostRow)
    (hf : ∀ r, (f r).owner = r.owner ∨ (f r).owner = none) : Statement Host := fun db =>
  match db.hosts[name]? with
  | some r =>
    if cond r then (.ok ((f r).scan name), db.modifyHost name f hf) else (.error .conflict, db)
  | none => (.error .conflict, db)

/-- `UpdatePool`. -/
def updatePool (name pool : String) (revision : ℤ) : Statement Host := fun db =>
  if validateRegistration name pool ≠ .ok () ∨ revision ≤ 0 then (.error .conflict, db)
  else
    updateHostWhere name
      (fun r => r.revision = revision ∧ r.owner = none ∧ r.state = .available)
      (·.inPool pool) (fun r => Or.inl (r.inPool_owner pool)) db

/-- `Transition`. -/
def transition (h : Host) (next : HostState) (attempt : String) : Statement Host := fun db =>
  match validateTransition h next attempt with
  | .error e => (.error e, db)
  | .ok () =>
    updateHostWhere h.name
      (fun r => r.owner = some h.owner ∧ r.revision = h.revision ∧ r.state = h.state ∧
        r.attemptID = h.attemptID)
      (·.moved next attempt) (fun r => Or.inl (r.moved_owner next attempt)) db

/-- `CompleteRelease`. -/
def completeRelease (h : Host) : Statement Host := fun db =>
  if h.state ≠ .releasing ∨ h.owner = "" then (.error .conflict, db)
  else
    updateHostWhere h.name
      (fun r => r.owner = some h.owner ∧ r.revision = h.revision ∧ r.state = .releasing)
      (·.released) (fun r => Or.inr r.released_owner) db

/-- The guarded update of `Acquire`: the first available host of the pool. An owner
that has a host already violates its uniqueness. -/
def claimFirst (pool owner : String) : Statement Host := fun db =>
  match db.hosts.first fun _ r => r.pool = pool ∧ r.owner = none ∧ r.state = .available with
  | none => (.error .hostNotFound, db)
  | some (name, r) =>
    if hfree : db.hostOfOwner owner = none then
      (.ok ((r.claimedBy owner).scan name),
        db.claimHost name (·.claimedBy owner) owner (·.claimedBy_owner owner) hfree)
    else (.error (.msg "UNIQUE constraint failed: bare_metal_hosts.owner"), db)

/-- The transaction of `Unregister`: the enrollment goes, and with it the sealed
bootstrap of its machine, unless the machine is being installed. -/
def unregister (name : String) (revision : ℤ) : Statement Unit := fun db =>
  if name = "" ∨ revision ≤ 0 then (.error .conflict, db)
  else match db.hosts[name]?, db.machines[name]? with
    | some r, some m =>
      if r.revision = revision ∧ r.owner = none ∧ r.state = .available then
        if m.status.provision.any (·.active) then (.error .conflict, db)
        else (.ok (), (db.modifyMachine name fun m =>
          { m with spec := { m.spec with sealedBootstrap := none } }).eraseHost name)
      else (.error .conflict, db)
    | _, _ => (.error .conflict, db)

/-! ### Machines -/

variable (lib : Lib)

/-- The state that `CommitDeployment` leads to, if its arguments permit it. -/
def commitTarget (h : Host) (m : Machine) : Option HostState :=
  match m.provision, m.sealedBootstrap with
  | some p, some b =>
    if h.owner = "" ∨ m.name ≠ h.name ∨ !p.active ∨ p.attemptID = "" ∨ b.owner ≠ h.owner then none
    else if b.cleanup then
      if h.state = .available ∨ h.state = .releasing then none else some .releasing
    else if h.state ≠ .claimed ∧ h.state ≠ .failed ∧ h.state ≠ .deploying then none
    else some .deploying
  | _, _ => none

/-- **What a permitted commit looks like**: the machine is the host's, its attempt is
active and has an id, its bootstrap is sealed for the owner, and the state of the host is
one from which such a deployment may start. -/
theorem commitTarget_eq_some {h : Host} {m : Machine} {next : HostState} :
    commitTarget h m = some next ↔
      ∃ p b, m.provision = some p ∧ m.sealedBootstrap = some b ∧ h.owner ≠ "" ∧ m.name = h.name ∧
        p.active = true ∧ p.attemptID ≠ "" ∧ b.owner = h.owner ∧
        (b.cleanup = true ∧ h.state ≠ .available ∧ h.state ≠ .releasing ∧ next = .releasing ∨
          b.cleanup = false ∧ (h.state = .claimed ∨ h.state = .failed ∨ h.state = .deploying) ∧
            next = .deploying) := by
  unfold commitTarget
  cases hp : m.provision with
  | none => simp
  | some p =>
    cases hb : m.sealedBootstrap with
    | none => simp
    | some b =>
      simp only [Option.some.injEq, exists_eq_left', exists_and_left]
      by_cases hbad : h.owner = "" ∨ m.name ≠ h.name ∨ (!p.active) = true ∨ p.attemptID = "" ∨
          b.owner ≠ h.owner
      · rw [if_pos hbad]
        constructor
        · exact fun hn => absurd hn (by simp)
        · rintro ⟨ho, hname, hactive, hattempt, hb, -⟩
          simp [ho, hname, hactive, hattempt, hb] at hbad
      · rw [if_neg hbad]
        push Not at hbad
        obtain ⟨ho, hname, hactive, hattempt, howner⟩ := hbad
        have hactive : p.active = true := by simpa using hactive
        cases hc : b.cleanup <;> cases hs : h.state <;>
          simp [ho, hname, hactive, hattempt, howner] <;> exact eq_comm

/-- `CommitDeployment`: the attempt of the machine and the fence of the claim, in one
transaction. -/
def commitDeployment (h : Host) (m : Machine) : Statement Host := fun db =>
  match commitTarget h m with
  | none => (.error .conflict, db)
  | some next => match db.hosts[h.name]?, db.machines[m.name]? with
    | some r, some row =>
      if r.owner = some h.owner ∧ r.state = h.state ∧ r.revision = h.revision then
        (.ok { h with state := next, attemptID := m.attempt, revision := h.revision + 1 },
          (db.modifyHost h.name (·.moved next m.attempt)
            (fun r => Or.inl (r.moved_owner next m.attempt))).setMachine m.name
            (m.toRow lib row.createdAt))
      else (.error .conflict, db)
    | _, _ => (.error .conflict, db)

/-- The condition of `Upsert` on the host of the same name: a claimed host accepts
only writes of its own attempt. -/
def fenceAdmits (host : Option HostRow) (attempt : String) : Bool :=
  match host with
  | some r => r.owner = none ∨ r.attemptID = attempt
  | none => true

/-- `Upsert`. -/
def upsert (m : Machine) : Statement Unit := fun db =>
  match db.machines[m.name]? with
  | none => (.ok (), db.setMachine m.name (m.toRow lib m.createdAt))
  | some row =>
    if fenceAdmits db.hosts[m.name]? m.attempt then
      (.ok (), db.setMachine m.name (m.toRow lib row.createdAt))
    else (.error .conflict, db)

/-- `Insert`. -/
def insertMachine (m : Machine) : Statement Unit := fun db =>
  if db.machines[m.name]?.isSome then (.error .alreadyExists, db)
  else (.ok (), db.setMachine m.name (m.toRow lib m.createdAt))

/-- `SELECT … WHERE name = ?`. -/
def getMachine (name : String) : Statement Machine := fun db =>
  match db.machines[name]? with
  | some row => (.ok (row.scan name), db)
  | none => (.error .notFound, db)

/-- `SELECT … ORDER BY name`. -/
def listMachines : Statement (List Machine) := fun db =>
  (.ok (db.machines.toList.map fun kv => kv.2.scan kv.1), db)

/-- `DELETE … WHERE name = ?`; an enrolled machine is held by the foreign key of its
host. -/
def deleteMachine (name : String) : Statement Unit := fun db =>
  if db.machines[name]? = none then (.error .notFound, db)
  else if h : db.hosts[name]? = none then (.ok (), db.eraseMachine name h)
  else (.error (.msg "FOREIGN KEY constraint failed"), db)

/-- The transaction `updateMachineStatus`. -/
def updateMachineStatus (name : String) (updatedAt : Time) (mutate : MachineStatus → MachineStatus) :
    Statement Unit := fun db =>
  match db.machines[name]? with
  | none => (.error .notFound, db)
  | some _ =>
    (.ok (), db.modifyMachine name fun row => { row with status := mutate row.status, updatedAt })

/-- `UpdatePowerActionStatus`. -/
def updatePowerActionStatus (name : String) (action : PowerAction) (lastError : Option String)
    (updatedAt : Time) : Statement Unit :=
  updateMachineStatus name updatedAt fun status =>
    { status with
      lastPowerAction := match action with
        | .powerOn => "power-on"
        | .powerOff => "power-off"
      lastError := lastError.getD status.lastError }

/-- `UpdatePowerStateStatus`. -/
def updatePowerStateStatus (name : String) (state : PowerState) (stateAt updatedAt : Time) :
    Statement Unit :=
  updateMachineStatus name updatedAt fun status =>
    { status with powerState := state, powerStateAt := some stateAt }

/-- The update of `UpdateDynamicIPAddress`: whether a row was changed. SQL lower-cases
ASCII letters only. -/
def updateDynamicIP (name expectedMAC ip : String) (updatedAt : Time) : Statement Bool := fun db =>
  match db.machines[name]? with
  | none => (.ok false, db)
  | some row =>
    if row.mac.toList.map Char.toLower = (Go.toLower expectedMAC).toList ∧
        row.spec.ipAssignment ≠ .static then
      (.ok true, db.modifyMachine name fun row => { row with ip, updatedAt })
    else (.ok false, db)

/-- `UpdateProvisioningAttempt`: a compare-and-swap of the status and the address. -/
def updateProvisioningAttempt (before after : Machine) : Statement Bool := fun db =>
  match before.provision, after.provision with
  | some p, some q =>
    if before.name ≠ after.name ∨ p.completionToken ≠ q.completionToken ∨
        p.attemptID ≠ q.attemptID then (.ok false, db)
    else match db.machines[before.name]? with
      | none => (.ok false, db)
      | some row =>
        if row.spec = marshalSpec lib before ∧ row.status = marshalStatus lib before ∧
            row.ip = before.ip then
          (.ok true, db.modifyMachine before.name fun row =>
            { row with status := marshalStatus lib after, ip := after.ip,
                       updatedAt := after.updatedAt })
        else (.ok false, db)
  | _, _ => (.ok false, db)

end Gomi
