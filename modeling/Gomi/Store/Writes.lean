import Gomi.Store.System

/-!
# What a step can do to a row

Every proof about runs has to know what an operation can do to the row of a host and
to the row of a machine, and under which conditions. This file says it once, row by
row:

* `Gomi.HostWrite n o r x y` – the operation `o`, replied to with `r`, changed the row
  of host `n` from `x` to `y`;
* `Gomi.MachineWrite lib n o r h x y` – it changed the row of machine `n` from `x` to
  `y`, while the row of host `n` was `h`.

`Gomi.step_host` and `Gomi.step_machine` are the two inversions: a row that a step
changes was changed by one of these. In the other direction, a write that was
acknowledged did happen (`Gomi.step_commit_ok` and its siblings).
-/

namespace Gomi

open Database

variable {lib : Lib} {w w' : World}
variable {db : Database} {n : String}

/-! ### Statements -/

variable {α : Type} {stmt : Statement α} {name : String} {h : Host} {m : Machine}

theorem execute_eq_some [DecidableEq (Except Err α)] {reply : Except Err α}
    (h : w.execute stmt reply = some w') :
    (reply = (stmt w.db).1 ∧ w' = { w with db := (stmt w.db).2 }) ∨
      (∃ t, reply = .error (.msg t)) ∧ w' = w :=
  reply_cases h

/-- An acknowledged statement has taken effect. -/
theorem execute_ok [DecidableEq (Except Err α)] {a : α} (h : w.execute stmt (.ok a) = some w') :
    (stmt w.db).1 = .ok a ∧ w' = { w with db := (stmt w.db).2 } := by
  rcases execute_eq_some h with ⟨hr, hw⟩ | ⟨⟨t, ht⟩, -⟩
  · exact ⟨hr.symm, hw⟩
  · cases ht

/-- The statements that write nothing. -/
theorem execute_read [DecidableEq (Except Err α)] {reply : Except Err α}
    (hread : ∀ db, (stmt db).2 = db) (h : w.execute stmt reply = some w') : w' = w := by
  rcases execute_eq_some h with ⟨-, hw⟩ | ⟨-, hw⟩
  · rw [hw, hread]
  · exact hw

/-- What a statement leaves alone stays. -/
theorem execute_same [DecidableEq (Except Err α)] {β : Type} {reply : Except Err α}
    (part : Database → β) (h : w.execute stmt reply = some w')
    (hstmt : part (stmt w.db).2 = part w.db) : part w'.db = part w.db := by
  rcases execute_eq_some h with ⟨-, rfl⟩ | ⟨-, rfl⟩
  · exact hstmt
  · rfl

/-- A row that a statement writes if it is the one with the name `n`. -/
theorem execute_row [DecidableEq (Except Err α)] {β : Type} {reply answer : Except Err α}
    {a : String} {y : β} {Q : β → β → Prop} (heq : stmt w.db = (answer, db)) (row : Database → β)
    (h : w.execute stmt reply = some w') (hstmt : row db = if n = a then y else row w.db)
    (hwrite : n = a → reply = answer → Q (row w.db) y) :
    row w'.db = row w.db ∨ Q (row w.db) (row w'.db) := by
  rcases execute_eq_some h with ⟨hr, rfl⟩ | ⟨-, rfl⟩
  · rw [heq] at hr ⊢
    split at hstmt
    · rename_i hname
      exact Or.inr (hstmt ▸ hwrite hname hr)
    · exact Or.inl hstmt
  · exact Or.inl rfl

theorem getHost_read (name : String) (db : Database) : (getHost name db).2 = db := by
  unfold getHost
  split <;> rfl

theorem findOwner_read (owner : String) (db : Database) : (findOwner owner db).2 = db := by
  unfold findOwner
  split <;> rfl

theorem getMachine_read (name : String) (db : Database) : (getMachine name db).2 = db := by
  unfold getMachine
  split <;> rfl

theorem listMachines_read (db : Database) : (listMachines db).2 = db := rfl

/-- The environment leaves the database alone. -/
theorem draw_db {k : ℕ} {r : Except Err (List UInt8)} (h : w.draw k r = some w') :
    w'.db = w.db := by
  unfold World.draw at h
  split at h
  · split at h
    · rw [← Option.some.inj h]
    · cases h
  · rw [Option.some.inj h]
  · cases h

/-! ### Hosts -/

/-- **What an operation can do to the row of host `n`.** -/
inductive HostWrite (n : String) : (o : Op) → Res o → Option HostRow → Option HostRow → Prop
  /-- The insert of `Register`. -/
  | enroll (pool publicKey targetDisk : String) :
      HostWrite n (.insertHost n pool publicKey targetDisk) (Except.ok ()) none
        (some { pool, publicKey, targetDisk })
  /-- `UpdatePool`, of a host that is not claimed. -/
  | pool {pool : String} {revision : ℤ} {r : HostRow} (hpos : 0 < revision)
      (hrev : r.revision = revision) (howner : r.owner = none) (hstate : r.state = .available) :
      HostWrite n (.updatePool n pool revision) (Except.ok ((r.inPool pool).scan n)) (some r)
        (some (r.inPool pool))
  /-- `Unregister`, of a host that is not claimed. -/
  | unregister {revision : ℤ} {r : HostRow} (hpos : 0 < revision) (hrev : r.revision = revision)
      (howner : r.owner = none) (hstate : r.state = .available) :
      HostWrite n (.unregister n revision) (Except.ok ()) (some r) none
  /-- The guarded update of `Acquire`. -/
  | claim {pool owner : String} {r : HostRow} (hpool : r.pool = pool) (howner : r.owner = none)
      (hstate : r.state = .available) :
      HostWrite n (.claimFirst pool owner) (Except.ok ((r.claimedBy owner).scan n)) (some r)
        (some (r.claimedBy owner))
  /-- `Transition`. -/
  | transition {h : Host} {next : HostState} {attempt : String} {r : HostRow} (hname : h.name = n)
      (hvalid : validateTransition h next attempt = .ok ()) (howner : r.owner = some h.owner)
      (hrev : r.revision = h.revision) (hstate : r.state = h.state)
      (hattempt : r.attemptID = h.attemptID) :
      HostWrite n (.transition h next attempt) (Except.ok ((r.moved next attempt).scan n)) (some r)
        (some (r.moved next attempt))
  /-- `CompleteRelease`. -/
  | release {h : Host} {r : HostRow} (hname : h.name = n) (hreleasing : h.state = .releasing)
      (howner : r.owner = some h.owner) (hrev : r.revision = h.revision)
      (hstate : r.state = .releasing) :
      HostWrite n (.completeRelease h) (Except.ok (r.released.scan n)) (some r) (some r.released)
  /-- `CommitDeployment`. -/
  | commit {h : Host} {m : Machine} {next : HostState} {r : HostRow} (hname : h.name = n)
      (htarget : commitTarget h m = some next) (howner : r.owner = some h.owner)
      (hstate : r.state = h.state) (hrev : r.revision = h.revision) :
      HostWrite n (.commitDeployment h m)
        (Except.ok { h with state := next, attemptID := m.attempt, revision := h.revision + 1 })
        (some r) (some (r.moved next m.attempt))

theorem updateHostWhere_cases (name : String) (cond : HostRow → Bool) (f : HostRow → HostRow)
    (hf : ∀ r, (f r).owner = r.owner ∨ (f r).owner = none) (db : Database) :
    (∃ r, db.hosts[name]? = some r ∧ cond r = true ∧
      updateHostWhere name cond f hf db = (.ok ((f r).scan name), db.modifyHost name f hf)) ∨
      updateHostWhere name cond f hf db = (.error .conflict, db) := by
  unfold updateHostWhere
  cases hr : db.hosts[name]? with
  | none => exact Or.inr rfl
  | some r =>
    by_cases hc : cond r = true
    · exact Or.inl ⟨r, rfl, hc, if_pos hc⟩
    · exact Or.inr (if_neg hc)

theorem updatePool_cases {pool : String} {revision : ℤ} :
    (∃ r, db.hosts[name]? = some r ∧ 0 < revision ∧ r.revision = revision ∧ r.owner = none ∧
      r.state = .available ∧ updatePool name pool revision db =
        (.ok ((r.inPool pool).scan name), db.modifyHost name (·.inPool pool)
          fun r => Or.inl (r.inPool_owner pool))) ∨
      updatePool name pool revision db = (.error .conflict, db) := by
  unfold updatePool
  by_cases hv : validateRegistration name pool ≠ .ok () ∨ revision ≤ 0
  · exact Or.inr (if_pos hv)
  · rw [if_neg hv]
    rcases updateHostWhere_cases name
      (fun r => r.revision = revision ∧ r.owner = none ∧ r.state = .available) (·.inPool pool)
      (fun r => Or.inl (r.inPool_owner pool)) db with ⟨r, hr, hc, heq⟩ | heq
    · simp only [decide_eq_true_eq] at hc
      exact Or.inl ⟨r, hr, by omega, hc.1, hc.2.1, hc.2.2, heq⟩
    · exact Or.inr heq

theorem transition_cases {next : HostState} {attempt : String} :
    (∃ r, db.hosts[h.name]? = some r ∧ validateTransition h next attempt = .ok () ∧
      r.owner = some h.owner ∧ r.revision = h.revision ∧ r.state = h.state ∧
      r.attemptID = h.attemptID ∧ transition h next attempt db =
        (.ok ((r.moved next attempt).scan h.name),
          db.modifyHost h.name (·.moved next attempt)
            fun r => Or.inl (r.moved_owner next attempt))) ∨
      ∃ e, transition h next attempt db = (.error e, db) := by
  unfold transition
  cases hv : validateTransition h next attempt with
  | error e => exact Or.inr ⟨e, rfl⟩
  | ok _ =>
    rcases updateHostWhere_cases h.name
      (fun r => r.owner = some h.owner ∧ r.revision = h.revision ∧ r.state = h.state ∧
        r.attemptID = h.attemptID) (·.moved next attempt)
      (fun r => Or.inl (r.moved_owner next attempt)) db with ⟨r, hr, hc, heq⟩ | heq
    · simp only [decide_eq_true_eq] at hc
      exact Or.inl ⟨r, hr, rfl, hc.1, hc.2.1, hc.2.2.1, hc.2.2.2, heq⟩
    · exact Or.inr ⟨_, heq⟩

theorem completeRelease_cases :
    (∃ r, db.hosts[h.name]? = some r ∧ h.state = .releasing ∧ r.owner = some h.owner ∧
      r.revision = h.revision ∧ r.state = .releasing ∧ completeRelease h db =
        (.ok (r.released.scan h.name), db.modifyHost h.name (·.released)
          fun r => Or.inr r.released_owner)) ∨
      completeRelease h db = (.error .conflict, db) := by
  unfold completeRelease
  by_cases hv : h.state ≠ .releasing ∨ h.owner = ""
  · exact Or.inr (if_pos hv)
  · rw [if_neg hv]
    rcases updateHostWhere_cases h.name
      (fun r => r.owner = some h.owner ∧ r.revision = h.revision ∧ r.state = .releasing) (·.released)
      (fun r => Or.inr r.released_owner) db with ⟨r, hr, hc, heq⟩ | heq
    · simp only [decide_eq_true_eq] at hc
      push Not at hv
      exact Or.inl ⟨r, hr, hv.1, hc.1, hc.2.1, hc.2.2, heq⟩
    · exact Or.inr heq

theorem claimFirst_cases (pool owner : String) (db : Database) :
    (∃ n r, ∃ hfree : db.hostOfOwner owner = none, db.hosts[n]? = some r ∧ r.pool = pool ∧
      r.owner = none ∧ r.state = .available ∧ claimFirst pool owner db =
        (.ok ((r.claimedBy owner).scan n),
          db.claimHost n (·.claimedBy owner) owner (·.claimedBy_owner owner) hfree)) ∨
      ∃ e, claimFirst pool owner db = (.error e, db) := by
  unfold claimFirst
  split
  · exact Or.inr ⟨_, rfl⟩
  · rename_i n r hfirst
    obtain ⟨hr, hp⟩ := Table.first_eq_some hfirst
    simp only [decide_eq_true_eq] at hp
    split
    · rename_i hfree
      exact Or.inl ⟨n, r, hfree, hr, hp.1, hp.2.1, hp.2.2, rfl⟩
    · exact Or.inr ⟨_, rfl⟩

theorem insertHost_cases (name pool publicKey targetDisk : String) (db : Database) :
    (∃ hm : db.machines[name]?.isSome, db.hosts[name]? = none ∧
      insertHost name pool publicKey targetDisk db =
        (.ok (), db.enroll name { pool, publicKey, targetDisk } hm rfl)) ∨
      (insertHost name pool publicKey targetDisk db).2 = db := by
  unfold insertHost
  split
  · exact Or.inr rfl
  · rename_i hh
    split
    · rename_i hm
      exact Or.inl ⟨hm, by simpa using hh, rfl⟩
    · exact Or.inr rfl

theorem unregister_cases (name : String) (revision : ℤ) (db : Database) :
    (∃ r m, db.hosts[name]? = some r ∧ db.machines[name]? = some m ∧ 0 < revision ∧
      r.revision = revision ∧ r.owner = none ∧ r.state = .available ∧
      m.status.provision.any (·.active) = false ∧ unregister name revision db =
        (.ok (), (db.modifyMachine name fun m =>
          { m with spec := { m.spec with sealedBootstrap := none } }).eraseHost name)) ∨
      unregister name revision db = (.error .conflict, db) := by
  unfold unregister
  by_cases hv : name = "" ∨ revision ≤ 0
  · exact Or.inr (if_pos hv)
  · rw [if_neg hv]
    cases hr : db.hosts[name]? with
    | none => exact Or.inr rfl
    | some r =>
      obtain ⟨m, hm⟩ := db.machine_of_host hr
      rw [hm]
      by_cases hc : r.revision = revision ∧ r.owner = none ∧ r.state = .available
      · cases ha : m.status.provision.any (·.active) with
        | true => exact Or.inr (by simp [hc, ha])
        | false =>
          exact Or.inl ⟨r, m, rfl, rfl, by omega, hc.1, hc.2.1, hc.2.2, ha, by simp [hc, ha]⟩
      · exact Or.inr (by simp [hc])

theorem commitDeployment_cases (h : Host) (m : Machine) (db : Database) :
    (∃ r row next, db.hosts[h.name]? = some r ∧ db.machines[m.name]? = some row ∧
      commitTarget h m = some next ∧ r.owner = some h.owner ∧ r.state = h.state ∧
      r.revision = h.revision ∧ commitDeployment lib h m db =
        (.ok { h with state := next, attemptID := m.attempt, revision := h.revision + 1 },
          (db.modifyHost h.name (·.moved next m.attempt)
            fun r => Or.inl (r.moved_owner next m.attempt)).setMachine m.name
            (m.toRow lib row.createdAt))) ∨
      commitDeployment lib h m db = (.error .conflict, db) := by
  unfold commitDeployment
  cases ht : commitTarget h m with
  | none => exact Or.inr rfl
  | some next =>
    cases hr : db.hosts[h.name]? with
    | none => exact Or.inr rfl
    | some r =>
      cases hrow : db.machines[m.name]? with
      | none => exact Or.inr rfl
      | some row =>
        by_cases hc : r.owner = some h.owner ∧ r.state = h.state ∧ r.revision = h.revision
        · exact Or.inl ⟨r, row, next, rfl, rfl, rfl, hc.1, hc.2.1, hc.2.2, if_pos hc⟩
        · exact Or.inr (if_neg hc)

/-- **Inversion of a step, for hosts**: a step that changes the row of host `n` is one
of the writes of `Gomi.HostWrite`. -/
theorem step_host {o : Op} {r : Res o} (h : step lib o w r = some w') :
    w'.db.hosts[n]? = w.db.hosts[n]? ∨ HostWrite n o r w.db.hosts[n]? w'.db.hosts[n]? := by
  have same {α : Type} [DecidableEq (Except Err α)] {stmt : Statement α} {reply : Except Err α}
      (hstmt : (stmt w.db).2.hosts[n]? = w.db.hosts[n]?) (hx : w.execute stmt reply = some w') :
      w'.db.hosts[n]? = w.db.hosts[n]? ∨ HostWrite n o r w.db.hosts[n]? w'.db.hosts[n]? :=
    Or.inl (execute_same (·.hosts[n]?) hx hstmt)
  cases o with
  | getHost => exact Or.inl (by rw [execute_read (getHost_read _) h])
  | findOwner => exact Or.inl (by rw [execute_read (findOwner_read _) h])
  | getMachine => exact Or.inl (by rw [execute_read (getMachine_read _) h])
  | listMachines => exact Or.inl (by rw [execute_read listMachines_read h])
  -- the machine statements leave the hosts alone
  | upsert | insertMachine | deleteMachine | updatePowerActionStatus | updatePowerStateStatus |
    updateDynamicIP | updateProvisioningAttempt =>
    refine same ?_ h
    simp only [upsert, insertMachine, deleteMachine, updatePowerActionStatus, updatePowerStateStatus,
      updateMachineStatus, updateDynamicIP, updateProvisioningAttempt]
    (repeat' split) <;> rfl
  | now | ask q => exact Or.inl (by rw [Option.some.inj h])
  | rand k => exact Or.inl (by rw [draw_db h])
  | insertHost name pool publicKey targetDisk =>
    rcases insertHost_cases name pool publicKey targetDisk w.db with ⟨hm, hnone, heq⟩ | heq
    · refine execute_row heq (·.hosts[n]?) h enroll_hosts ?_
      rintro rfl rfl
      rw [hnone]
      exact .enroll ..
    · exact same (by rw [heq]) h
  | updatePool name pool revision =>
    rcases updatePool_cases with
      ⟨row, hrow, hpos, hrev, howner, hstate, heq⟩ | heq
    · refine execute_row heq (·.hosts[n]?) h modifyHost_hosts ?_
      rintro rfl rfl
      rw [hrow]
      exact .pool hpos hrev howner hstate
    · exact same (by rw [heq]) h
  | unregister name revision =>
    rcases unregister_cases name revision w.db with
      ⟨row, m, hrow, -, hpos, hrev, howner, hstate, -, heq⟩ | heq
    · refine execute_row heq (·.hosts[n]?) h eraseHost_hosts ?_
      rintro rfl rfl
      rw [hrow]
      exact .unregister hpos hrev howner hstate
    · exact same (by rw [heq]) h
  | claimFirst pool owner =>
    rcases claimFirst_cases pool owner w.db with
      ⟨name, row, hfree, hrow, hpool, howner, hstate, heq⟩ | ⟨e, heq⟩
    · refine execute_row heq (·.hosts[n]?) h claimHost_hosts ?_
      rintro rfl rfl
      rw [hrow]
      exact .claim hpool howner hstate
    · exact same (by rw [heq]) h
  | transition h₀ next attempt =>
    rcases transition_cases with
      ⟨row, hrow, hvalid, howner, hrev, hstate, hattempt, heq⟩ | ⟨e, heq⟩
    · refine execute_row heq (·.hosts[n]?) h modifyHost_hosts ?_
      rintro rfl rfl
      rw [hrow]
      exact .transition rfl hvalid howner hrev hstate hattempt
    · exact same (by rw [heq]) h
  | completeRelease h₀ =>
    rcases completeRelease_cases with
      ⟨row, hrow, hreleasing, howner, hrev, hstate, heq⟩ | heq
    · refine execute_row heq (·.hosts[n]?) h modifyHost_hosts ?_
      rintro rfl rfl
      rw [hrow]
      exact .release rfl hreleasing howner hrev hstate
    · exact same (by rw [heq]) h
  | commitDeployment h₀ m =>
    rcases @commitDeployment_cases lib h₀ m w.db with
      ⟨row, mrow, next, hrow, -, htarget, howner, hstate, hrev, heq⟩ | heq
    · refine execute_row heq (·.hosts[n]?) h (Table.get_modify ..) ?_
      rintro rfl rfl
      rw [hrow]
      exact .commit rfl htarget howner hstate hrev
    · exact same (by rw [heq]) h

/-! ### Machines -/

variable (lib) in
/-- **What an operation can do to the row of machine `n`**, while the row of host `n` is
the one given. -/
inductive MachineWrite (n : String) :
    (o : Op) → Res o → Option HostRow → Option MachineRow → Option MachineRow → Prop
  /-- `CommitDeployment`. -/
  | commit {h : Host} {m : Machine} {next : HostState} {host : Option HostRow} {row : MachineRow}
      (hname : m.name = n) (htarget : commitTarget h m = some next) :
      MachineWrite n (.commitDeployment h m)
        (Except.ok { h with state := next, attemptID := m.attempt, revision := h.revision + 1 })
        host (some row) (some (m.toRow lib row.createdAt))
  /-- `Upsert` of a name that is not stored. -/
  | upsertNew {m : Machine} {host : Option HostRow} (hname : m.name = n) :
      MachineWrite n (.upsert m) (Except.ok ()) host none (some (m.toRow lib m.createdAt))
  /-- `Upsert` of a stored machine, past the fence. -/
  | upsert {m : Machine} {host : Option HostRow} {row : MachineRow} (hname : m.name = n)
      (hfence : fenceAdmits host m.attempt = true) :
      MachineWrite n (.upsert m) (Except.ok ()) host (some row) (some (m.toRow lib row.createdAt))
  /-- `Insert`. -/
  | insert {m : Machine} {host : Option HostRow} (hname : m.name = n) :
      MachineWrite n (.insertMachine m) (Except.ok ()) host none (some (m.toRow lib m.createdAt))
  /-- `Delete`, of a machine that is not enrolled. -/
  | delete {row : MachineRow} :
      MachineWrite n (.deleteMachine n) (Except.ok ()) none (some row) none
  /-- The two updates of the power status, which leave everything else alone. -/
  | power {o : Op} {r : Res o} {host : Option HostRow} {row row' : MachineRow}
      (hop : (∃ a e t, o = .updatePowerActionStatus n a e t) ∨
        ∃ s a t, o = .updatePowerStateStatus n s a t)
      (hspec : row'.spec = row.spec) (hprovision : row'.status.provision = row.status.provision)
      (hphase : row'.status.phase = row.status.phase) :
      MachineWrite n o r host (some row) (some row')
  /-- `UpdateDynamicIPAddress`. -/
  | dynamicIP {mac ip : String} {t : Time} {host : Option HostRow} {row : MachineRow} :
      MachineWrite n (.updateDynamicIP n mac ip t) (Except.ok true) host (some row)
        (some { row with ip, updatedAt := t })
  /-- `UpdateProvisioningAttempt`, whose snapshot is current. -/
  | compareAndSwap {before after : Machine} {p q : ProvisionProgress} {host : Option HostRow}
      {row : MachineRow} (hname : before.name = n) (hname' : after.name = n)
      (hbefore : before.provision = some p) (hafter : after.provision = some q)
      (htoken : p.completionToken = q.completionToken) (hattempt : p.attemptID = q.attemptID)
      (hspec : row.spec = marshalSpec lib before) (hstatus : row.status = marshalStatus lib before)
      (hip : row.ip = before.ip) :
      MachineWrite n (.updateProvisioningAttempt before after) (Except.ok true) host (some row)
        (some { row with status := marshalStatus lib after, ip := after.ip,
                         updatedAt := after.updatedAt })
  /-- `Unregister`. -/
  | unregister {revision : ℤ} {r : HostRow} {row : MachineRow}
      (hinactive : row.status.provision.any (·.active) = false) :
      MachineWrite n (.unregister n revision) (Except.ok ()) (some r) (some row)
        (some { row with spec := { row.spec with sealedBootstrap := none } })

theorem updateMachineStatus_machine {t : Time} {f : MachineStatus → MachineStatus}
    {reply : Except Err Unit} (h : w.execute (updateMachineStatus name t f) reply = some w')
    (n : String) :
    w'.db.machines[n]? = w.db.machines[n]? ∨ name = n ∧ ∃ row, w.db.machines[n]? = some row ∧
      w'.db.machines[n]? = some { row with status := f row.status, updatedAt := t } := by
  rcases execute_eq_some h with ⟨-, rfl⟩ | ⟨-, rfl⟩
  · unfold updateMachineStatus
    split
    · exact Or.inl rfl
    · rename_i row hrow
      rw [modifyMachine_machines]
      split
      · subst name
        exact Or.inr ⟨rfl, row, hrow, by rw [hrow]; rfl⟩
      · exact Or.inl rfl
  · exact Or.inl rfl

theorem upsert_cases (m : Machine) (db : Database) :
    (db.machines[m.name]? = none ∧
      upsert lib m db = (.ok (), db.setMachine m.name (m.toRow lib m.createdAt))) ∨
      (∃ row, db.machines[m.name]? = some row ∧ fenceAdmits db.hosts[m.name]? m.attempt = true ∧
        upsert lib m db = (.ok (), db.setMachine m.name (m.toRow lib row.createdAt))) ∨
      upsert lib m db = (.error .conflict, db) := by
  unfold upsert
  cases hrow : db.machines[m.name]? with
  | none => exact Or.inl ⟨rfl, rfl⟩
  | some row =>
    by_cases hf : fenceAdmits db.hosts[m.name]? m.attempt = true
    · exact Or.inr (Or.inl ⟨row, rfl, hf, if_pos hf⟩)
    · exact Or.inr (Or.inr (if_neg hf))

theorem insertMachine_cases (m : Machine) (db : Database) :
    (db.machines[m.name]? = none ∧
      insertMachine lib m db = (.ok (), db.setMachine m.name (m.toRow lib m.createdAt))) ∨
      insertMachine lib m db = (.error .alreadyExists, db) := by
  unfold insertMachine
  cases hrow : db.machines[m.name]? with
  | none => exact Or.inl ⟨rfl, rfl⟩
  | some => exact Or.inr rfl

theorem deleteMachine_cases (name : String) (db : Database) :
    (∃ row, ∃ hhost : db.hosts[name]? = none, db.machines[name]? = some row ∧
      deleteMachine name db = (.ok (), db.eraseMachine name hhost)) ∨
      ∃ e, deleteMachine name db = (.error e, db) := by
  unfold deleteMachine
  cases hrow : db.machines[name]? with
  | none => exact Or.inr ⟨_, if_pos rfl⟩
  | some row =>
    rw [if_neg (by simp)]
    by_cases hhost : db.hosts[name]? = none
    · exact Or.inl ⟨row, hhost, rfl, dif_pos hhost⟩
    · exact Or.inr ⟨_, dif_neg hhost⟩

theorem updateDynamicIP_cases {mac ip : String} {t : Time} :
    (∃ row, db.machines[name]? = some row ∧ updateDynamicIP name mac ip t db =
      (.ok true, db.modifyMachine name fun row => { row with ip, updatedAt := t })) ∨
      updateDynamicIP name mac ip t db = (.ok false, db) := by
  unfold updateDynamicIP
  cases hrow : db.machines[name]? with
  | none => exact Or.inr rfl
  | some row =>
    by_cases hc : row.mac.toList.map Char.toLower = (Go.toLower mac).toList ∧
        row.spec.ipAssignment ≠ .static
    · exact Or.inl ⟨row, rfl, if_pos hc⟩
    · exact Or.inr (if_neg hc)

theorem updateProvisioningAttempt_cases (before after : Machine) (db : Database) :
    (∃ p q row, before.provision = some p ∧ after.provision = some q ∧ before.name = after.name ∧
      p.completionToken = q.completionToken ∧ p.attemptID = q.attemptID ∧
      db.machines[before.name]? = some row ∧ row.spec = marshalSpec lib before ∧
      row.status = marshalStatus lib before ∧ row.ip = before.ip ∧
      updateProvisioningAttempt lib before after db =
        (.ok true, db.modifyMachine before.name fun row =>
          { row with status := marshalStatus lib after, ip := after.ip,
                     updatedAt := after.updatedAt })) ∨
      updateProvisioningAttempt lib before after db = (.ok false, db) := by
  unfold updateProvisioningAttempt
  cases hp : before.provision with
  | none => exact Or.inr rfl
  | some p =>
    cases hq : after.provision with
    | none => exact Or.inr rfl
    | some q =>
      by_cases hc : before.name ≠ after.name ∨ p.completionToken ≠ q.completionToken ∨
          p.attemptID ≠ q.attemptID
      · exact Or.inr (if_pos hc)
      · simp only [if_neg hc]
        push Not at hc
        cases hrow : db.machines[before.name]? with
        | none => exact Or.inr rfl
        | some row =>
          by_cases hcas : row.spec = marshalSpec lib before ∧
              row.status = marshalStatus lib before ∧ row.ip = before.ip
          · exact Or.inl ⟨p, q, row, rfl, rfl, hc.1, hc.2.1, hc.2.2, rfl, hcas.1, hcas.2.1,
              hcas.2.2, if_pos hcas⟩
          · exact Or.inr (if_neg hcas)

/-- **Inversion of a step, for machines**: a step that changes the row of machine `n` is
one of the writes of `Gomi.MachineWrite`. -/
theorem step_machine {o : Op} {r : Res o} (h : step lib o w r = some w') :
    w'.db.machines[n]? = w.db.machines[n]? ∨
      MachineWrite lib n o r w.db.hosts[n]? w.db.machines[n]? w'.db.machines[n]? := by
  have same {α : Type} [DecidableEq (Except Err α)] {stmt : Statement α} {reply : Except Err α}
      (hstmt : (stmt w.db).2.machines[n]? = w.db.machines[n]?) (hx : w.execute stmt reply = some w') :
      w'.db.machines[n]? = w.db.machines[n]? ∨
        MachineWrite lib n o r w.db.hosts[n]? w.db.machines[n]? w'.db.machines[n]? :=
    Or.inl (execute_same (·.machines[n]?) hx hstmt)
  cases o with
  | getHost => exact Or.inl (by rw [execute_read (getHost_read _) h])
  | findOwner => exact Or.inl (by rw [execute_read (findOwner_read _) h])
  | getMachine => exact Or.inl (by rw [execute_read (getMachine_read _) h])
  | listMachines => exact Or.inl (by rw [execute_read listMachines_read h])
  -- the other host statements leave the machines alone
  | insertHost | updatePool | claimFirst | transition | completeRelease =>
    refine same ?_ h
    simp only [insertHost, updatePool, claimFirst, transition, completeRelease, updateHostWhere]
    (repeat' split) <;> rfl
  | now | ask q => exact Or.inl (by rw [Option.some.inj h])
  | rand => exact Or.inl (by rw [draw_db h])
  | updatePowerActionStatus name a e t =>
    rcases updateMachineStatus_machine h n with heq | ⟨rfl, row, hrow, heq⟩
    · exact Or.inl heq
    · rw [hrow, heq]
      exact Or.inr (.power (Or.inl ⟨a, e, t, rfl⟩) rfl rfl rfl)
  | updatePowerStateStatus name s a t =>
    rcases updateMachineStatus_machine h n with heq | ⟨rfl, row, hrow, heq⟩
    · exact Or.inl heq
    · rw [hrow, heq]
      exact Or.inr (.power (Or.inr ⟨s, a, t, rfl⟩) rfl rfl rfl)
  | unregister name revision =>
    rcases unregister_cases name revision w.db with
      ⟨host, row, hhost, hrow, -, -, -, -, hinactive, heq⟩ | heq
    · refine execute_row heq (·.machines[n]?) h modifyMachine_machines ?_
      rintro rfl rfl
      rw [hrow, hhost]
      exact .unregister hinactive
    · exact same (heq ▸ rfl) h
  | commitDeployment h₀ m =>
    rcases @commitDeployment_cases lib h₀ m w.db with
      ⟨host, row, next, -, hrow, htarget, -, -, -, heq⟩ | heq
    · refine execute_row heq (·.machines[n]?) h setMachine_machines ?_
      rintro rfl rfl
      rw [hrow]
      exact .commit rfl htarget
    · exact same (heq ▸ rfl) h
  | upsert m =>
    rcases @upsert_cases lib m w.db with ⟨hnone, heq⟩ | ⟨row, hrow, hfence, heq⟩ | heq
    · refine execute_row heq (·.machines[n]?) h setMachine_machines ?_
      rintro rfl rfl
      rw [hnone]
      exact .upsertNew rfl
    · refine execute_row heq (·.machines[n]?) h setMachine_machines ?_
      rintro rfl rfl
      rw [hrow]
      exact .upsert rfl hfence
    · exact same (heq ▸ rfl) h
  | insertMachine m =>
    rcases @insertMachine_cases lib m w.db with ⟨hnone, heq⟩ | heq
    · refine execute_row heq (·.machines[n]?) h setMachine_machines ?_
      rintro rfl rfl
      rw [hnone]
      exact .insert rfl
    · exact same (heq ▸ rfl) h
  | deleteMachine name =>
    rcases deleteMachine_cases name w.db with ⟨row, hhost, hrow, heq⟩ | ⟨e, heq⟩
    · refine execute_row heq (·.machines[n]?) h eraseMachine_machines ?_
      rintro rfl rfl
      rw [hrow, hhost]
      exact .delete
    · exact same (heq ▸ rfl) h
  | updateDynamicIP =>
    rcases updateDynamicIP_cases with ⟨row, hrow, heq⟩ | heq
    · refine execute_row heq (·.machines[n]?) h modifyMachine_machines ?_
      rintro rfl rfl
      rw [hrow]
      exact .dynamicIP
    · exact same (heq ▸ rfl) h
  | updateProvisioningAttempt b a =>
    rcases @updateProvisioningAttempt_cases lib b a w.db with
      ⟨p, q, row, hp, hq, hname, htoken, hattempt, hrow, hspec, hstatus, hip, heq⟩ | heq
    · refine execute_row heq (·.machines[n]?) h modifyMachine_machines ?_
      rintro rfl rfl
      rw [hrow]
      exact .compareAndSwap rfl hname.symm hp hq htoken hattempt hspec hstatus hip
    · exact same (heq ▸ rfl) h

/-! ### Acknowledged operations -/

theorem step_getHost_ok (hs : step lib (.getHost name) w (Except.ok h) = some w') :
    w' = w ∧ ∃ r, w.db.hosts[name]? = some r ∧ h = r.scan name := by
  obtain ⟨hok, -⟩ := execute_ok hs
  refine ⟨execute_read (getHost_read name) hs, ?_⟩
  unfold getHost at hok
  split at hok
  · rename_i r hr
    exact ⟨r, hr, (Except.ok.inj hok).symm⟩
  · cases hok

theorem step_findOwner_ok {owner : String}
    (hs : step lib (.findOwner owner) w (Except.ok h) = some w') :
    w' = w ∧ ∃ r, w.db.hosts[h.name]? = some r ∧ r.owner = some owner ∧ h = r.scan h.name := by
  obtain ⟨hok, -⟩ := execute_ok hs
  refine ⟨execute_read (findOwner_read owner) hs, ?_⟩
  unfold findOwner at hok
  split at hok
  · rename_i n r hr
    obtain ⟨hr, ho⟩ := hostOfOwner_eq_some.mp hr
    cases hok
    exact ⟨r, hr, ho, rfl⟩
  · cases hok

theorem step_getMachine_ok (hs : step lib (.getMachine name) w (Except.ok m) = some w') :
    w' = w ∧ ∃ row, w.db.machines[name]? = some row ∧ m = row.scan name := by
  obtain ⟨hok, -⟩ := execute_ok hs
  refine ⟨execute_read (getMachine_read name) hs, ?_⟩
  unfold getMachine at hok
  split at hok
  · rename_i row hrow
    exact ⟨row, hrow, (Except.ok.inj hok).symm⟩
  · cases hok

theorem step_claimFirst_ok {pool owner : String}
    (hs : step lib (.claimFirst pool owner) w (Except.ok h) = some w') :
    ∃ r, w.db.hosts[h.name]? = some r ∧ r.owner = none ∧ h = (r.claimedBy owner).scan h.name ∧
      w'.db.hosts[h.name]? = some (r.claimedBy owner) := by
  obtain ⟨hok, rfl⟩ := execute_ok hs
  rcases claimFirst_cases pool owner w.db with ⟨n, r, hfree, hr, -, ho, -, heq⟩ | ⟨e, heq⟩
  · simp only [heq] at hok ⊢
    cases hok
    refine ⟨r, hr, ho, rfl, ?_⟩
    rw [claimHost_hosts, if_pos (HostRow.scan_name ..).symm, HostRow.scan_name, hr]
    rfl
  · rw [heq] at hok
    cases hok

theorem step_commit_ok {h' : Host}
    (hs : step lib (.commitDeployment h m) w (Except.ok h') = some w') :
    ∃ r row next, w.db.hosts[h.name]? = some r ∧ w.db.machines[h.name]? = some row ∧
      commitTarget h m = some next ∧ r.owner = some h.owner ∧ r.state = h.state ∧
      r.revision = h.revision ∧ w'.db.hosts[h.name]? = some (r.moved next m.attempt) ∧
      w'.db.machines[h.name]? = some (m.toRow lib row.createdAt) := by
  obtain ⟨hok, rfl⟩ := execute_ok hs
  rcases @commitDeployment_cases lib h m w.db with
    ⟨r, row, next, hr, hrow, htarget, howner, hstate, hrev, heq⟩ | heq
  · obtain ⟨p, b, -, -, -, hname, -⟩ := commitTarget_eq_some.mp htarget
    refine ⟨r, row, next, hr, hname ▸ hrow, htarget, howner, hstate, hrev, ?_, ?_⟩
    · simp [heq, modifyHost_hosts, hr]
    · simp [heq, setMachine_machines, hname]
  · rw [heq] at hok
    cases hok

theorem step_upsert_ok (hs : step lib (.upsert m) w (Except.ok ()) = some w') :
    ∃ t, w'.db.machines[m.name]? = some (m.toRow lib t) := by
  obtain ⟨hok, rfl⟩ := execute_ok hs
  rcases @upsert_cases lib m w.db with ⟨-, heq⟩ | ⟨row, -, -, heq⟩ | heq
  · exact ⟨m.createdAt, by simp [heq, setMachine_machines]⟩
  · exact ⟨row.createdAt, by simp [heq, setMachine_machines]⟩
  · rw [heq] at hok
    cases hok

theorem step_deleteMachine_ok (hs : step lib (.deleteMachine name) w (Except.ok ()) = some w') :
    w'.db.machines[name]? = none := by
  obtain ⟨hok, rfl⟩ := execute_ok hs
  rcases deleteMachine_cases name w.db with ⟨row, hhost, -, heq⟩ | ⟨e, heq⟩
  · simp [heq, eraseMachine_machines]
  · rw [heq] at hok
    cases hok

end Gomi
