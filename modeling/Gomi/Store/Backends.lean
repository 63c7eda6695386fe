import Gomi.Swap
import Gomi.Store.Writes
import Gomi.Vm.Statements

/-!
# The compare-and-swap of the two backends

`UpdateProvisioningAttempt` exists four times: for machines and for virtual machines, in
the SQL store (`internal/infra/sql/provisioning_attempt.go`, `Gomi.updateProvisioningAttempt`
and `Gomi.Vm.updateProvisioningAttempt`) and in the memory store
(`internal/infra/memory/provisioning_attempt.go`, the two definitions of this file). The
memory store keeps whole records, compares them and replaces them. The SQL store compares
some columns and writes some.

Each of the four is a `Gomi.swap` of the stored record, so that
`Gomi.swap_agrees_iff` settles for which records the backends agree
(`Gomi.backends_agree_iff`). They do not always: `Gomi.backends_disagree`.

JSON texts come in here through one assumption, `Gomi.Machine.RoundTrips`: what is stored
of a record is what is read back.
-/

namespace Gomi

variable {lib : Lib}

/-! ### Machines -/

/-- The row that is read as a given record. -/
def Machine.decoded (m : Machine) : MachineRow :=
  { hostname := m.hostname, mac := m.mac, ip := m.ip, arch := m.arch, firmware := m.firmware
    spec :=
      { sealedBootstrap := m.sealedBootstrap, targetDisk := m.targetDisk, power := m.power,
        network := m.network, osPreset := m.osPreset, cloudInitRef := m.cloudInitRef,
        cloudInitRefs := m.cloudInitRefs, ipAssignment := m.ipAssignment,
        subnetRef := m.subnetRef, role := m.role, bridgeName := m.bridgeName,
        sshKeyRefs := m.sshKeyRefs, loginUser := m.loginUser }
    status :=
      { phase := m.phase, provision := m.provision, lastPowerAction := m.lastPowerAction,
        lastDeployedCloudInitRef := m.lastDeployedCloudInitRef, lastError := m.lastError,
        powerState := m.powerState, powerStateAt := m.powerStateAt }
    createdAt := m.createdAt, updatedAt := m.updatedAt }

theorem MachineRow.decoded_scan (n : String) (r : MachineRow) : (r.scan n).decoded = r := rfl

theorem Machine.scan_decoded (m : Machine) : m.decoded.scan m.name = m := rfl

/-- The JSON columns of a record hold what the record does. -/
def Machine.RoundTrips (lib : Lib) (m : Machine) : Prop :=
  marshalSpec lib m = m.decoded.spec ∧ marshalStatus lib m = m.decoded.status

/-- Whether two records are of one name and of one installation attempt. -/
def Machine.sameAttempt (before after : Machine) : Bool :=
  match before.provision, after.provision with
  | some p, some q =>
    before.name = after.name ∧ p.completionToken = q.completionToken ∧ p.attemptID = q.attemptID
  | _, _ => false

/-- What the SQL store compares of a machine. -/
def Machine.compared (m : Machine) : MachineSpec × MachineStatus × String :=
  (m.decoded.spec, m.decoded.status, m.ip)

/-- What the SQL store does not compare. -/
def Machine.uncompared (m : Machine) : String × String × String × Firmware × Time × Time :=
  (m.hostname, m.mac, m.arch, m.firmware, m.createdAt, m.updatedAt)

/-- What the SQL store does not write. -/
def Machine.unwritten (m : Machine) : String × String × String × Firmware × MachineSpec × Time :=
  (m.hostname, m.mac, m.arch, m.firmware, m.decoded.spec, m.createdAt)

/-- The stored record after the SQL store wrote `after`. -/
def Machine.overwrittenBy (cur after : Machine) : Machine :=
  MachineRow.scan cur.name
    { cur.decoded with status := after.decoded.status, ip := after.ip, updatedAt := after.updatedAt }

theorem Machine.eq_of_compared {m m' : Machine} (hname : m.name = m'.name)
    (hc : m.compared = m'.compared) (hu : m.uncompared = m'.uncompared) : m = m' := by
  have hrow : m.decoded = m'.decoded := by
    simp only [compared, uncompared, Prod.mk.injEq] at hc hu
    obtain ⟨hspec, hstatus, hip⟩ := hc
    obtain ⟨hhost, hmac, harch, hfirmware, hcreated, hupdated⟩ := hu
    unfold decoded at *
    simp_all
  rw [← m.scan_decoded, ← m'.scan_decoded, hrow, hname]

theorem Machine.overwrittenBy_eq_iff {cur after : Machine} (hname : cur.name = after.name) :
    cur.overwrittenBy after = after ↔ cur.unwritten = after.unwritten := by
  constructor
  · intro h
    rw [← h]
    rfl
  · intro h
    simp only [unwritten, Prod.mk.injEq] at h
    obtain ⟨hhost, hmac, harch, hfirmware, hspec, hcreated⟩ := h
    rw [overwrittenBy, hname]
    conv_rhs => rw [← after.scan_decoded]
    congr 1
    unfold decoded at *
    simp_all

/-- Machine `UpdateProvisioningAttempt` of the memory store. -/
def Memory.updateProvisioningAttempt (before after : Machine) (machines : Table Machine) :
    Bool × Table Machine :=
  match machines[before.name]? with
  | none => (false, machines)
  | some current =>
    if !before.sameAttempt after ∨ current ≠ before then (false, machines)
    else (true, machines.insert after.name after)

/-- A machine of the database, as it is read. -/
def Database.machine? (db : Database) (n : String) : Option Machine :=
  db.machines[n]?.map (·.scan n)

/-- A table in which a record is replaced, if it is the expected one. -/
theorem swapWhole_table {α : Type} [DecidableEq α] {admits : α → α → Bool} {table : Table α} {n : String}
    {cur before after : α} (hcur : table[n]? = some cur) :
    (if !admits before after ∨ cur ≠ before then (false, table) else (true, table.insert n after)).1 =
        (swapWhole admits cur before after).1 ∧
      (if !admits before after ∨ cur ≠ before then (false, table)
        else (true, table.insert n after)).2[n]? = some (swapWhole admits cur before after).2 := by
  unfold swapWhole swap
  by_cases h : admits before after = true ∧ cur = before
  · simp [h.1, h.2]
  · have hneg : (!admits before after) = true ∨ cur ≠ before := by
      rcases not_and_or.mp h with h | h
      · exact Or.inl (by simpa using h)
      · exact Or.inr h
    simp only [id, if_neg h, if_pos hneg]
    exact ⟨trivial, hcur⟩

section

variable {db : Database} {machines : Table Machine} {n : String} {cur before after : Machine}

/-- **The memory store swaps whole records.** -/
theorem Memory.updateProvisioningAttempt_eq (hcur : machines[n]? = some cur) (hb : before.name = n)
    (ha : after.name = n) :
    (Memory.updateProvisioningAttempt before after machines).1 =
        (swapWhole Machine.sameAttempt cur before after).1 ∧
      (Memory.updateProvisioningAttempt before after machines).2[n]? =
        some (swapWhole Machine.sameAttempt cur before after).2 := by
  subst hb
  unfold Memory.updateProvisioningAttempt
  rw [hcur, ha]
  exact swapWhole_table hcur

/-- The SQL statement on a stored row, with its two conditions joined. -/
theorem updateProvisioningAttempt_eq_ite {row : MachineRow} (hrow : db.machines[n]? = some row)
    (hb : before.name = n) (hbefore : before.RoundTrips lib) :
    updateProvisioningAttempt lib before after db =
      if before.sameAttempt after = true ∧ (row.scan n).compared = before.compared then
        (.ok true, db.modifyMachine n fun row =>
          { row with status := marshalStatus lib after, ip := after.ip,
                     updatedAt := after.updatedAt })
      else (.ok false, db) := by
  subst hb
  have hkey : (row.spec = marshalSpec lib before ∧ row.status = marshalStatus lib before ∧
      row.ip = before.ip) ↔ (row.scan before.name).compared = before.compared := by
    rw [hbefore.1, hbefore.2, Machine.compared, Machine.compared, MachineRow.decoded_scan]
    simp only [Prod.mk.injEq]
    exact Iff.rfl
  unfold updateProvisioningAttempt Machine.sameAttempt
  cases hp : before.provision with
  | none => simp
  | some p =>
    cases hq : after.provision with
    | none => simp
    | some q =>
      simp only [hrow, hkey, decide_eq_true_eq]
      by_cases hsame : before.name = after.name ∧ p.completionToken = q.completionToken ∧
          p.attemptID = q.attemptID
      · have hdiff : ¬(before.name ≠ after.name ∨ p.completionToken ≠ q.completionToken ∨
            p.attemptID ≠ q.attemptID) := by
          push Not
          exact hsame
        rw [if_neg hdiff]
        simp only [hsame, and_self, true_and]
      · have hdiff : before.name ≠ after.name ∨ p.completionToken ≠ q.completionToken ∨
            p.attemptID ≠ q.attemptID := by
          by_contra hnone
          push Not at hnone
          exact hsame hnone
        rw [if_pos hdiff, if_neg fun h => hsame h.1]

/-- **The SQL store swaps some columns of the record.** -/
theorem updateProvisioningAttempt_eq (hcur : db.machine? n = some cur) (hb : before.name = n)
    (hbefore : before.RoundTrips lib) (hafter : after.RoundTrips lib) :
    (updateProvisioningAttempt lib before after db).1 =
        .ok (swap Machine.sameAttempt Machine.compared Machine.overwrittenBy cur before after).1 ∧
      (updateProvisioningAttempt lib before after db).2.machine? n =
        some (swap Machine.sameAttempt Machine.compared Machine.overwrittenBy cur before after).2 := by
  obtain ⟨row, hrow, rfl⟩ := Option.map_eq_some_iff.mp hcur
  rw [updateProvisioningAttempt_eq_ite hrow hb hbefore, swap]
  split
  · refine ⟨rfl, ?_⟩
    rw [Database.machine?, Database.modifyMachine_machines, if_pos rfl, hrow, hafter.2]
    rfl
  · exact ⟨rfl, hcur⟩

end

/-! ### Virtual machines -/

namespace Vm

/-- What the SQL store compares of a virtual machine. -/
def VirtualMachine.compared (v : VirtualMachine) : VMSpec × VMStatus × String :=
  (marshalSpec v, marshalStatus v, v.hypervisorRef)

/-- What the SQL store does not compare. -/
def VirtualMachine.uncompared (v : VirtualMachine) : Time × Time := (v.createdAt, v.updatedAt)

/-- What the SQL store does not write. -/
def VirtualMachine.unwritten (v : VirtualMachine) : VMSpec × String × Time :=
  (marshalSpec v, v.hypervisorRef, v.createdAt)

/-- The stored record after the SQL store wrote `after`. -/
def VirtualMachine.overwrittenBy (cur after : VirtualMachine) : VirtualMachine :=
  VMRow.scan cur.name
    { cur.toRow cur.createdAt with status := marshalStatus after, updatedAt := after.updatedAt }

theorem VirtualMachine.eq_of_compared {v v' : VirtualMachine} (hname : v.name = v'.name)
    (hc : v.compared = v'.compared) (hu : v.uncompared = v'.uncompared) : v = v' := by
  have hrow : v.toRow v.createdAt = v'.toRow v'.createdAt := by
    simp only [compared, uncompared, Prod.mk.injEq] at hc hu
    rw [toRow, toRow, hc.1, hc.2.1, hc.2.2, hu.1, hu.2]
  calc v = (v.toRow v.createdAt).scan v.name := rfl
    _ = (v'.toRow v'.createdAt).scan v'.name := by rw [hrow, hname]
    _ = v' := rfl

theorem VirtualMachine.overwrittenBy_eq_iff {cur after : VirtualMachine}
    (hname : cur.name = after.name) :
    cur.overwrittenBy after = after ↔ cur.unwritten = after.unwritten := by
  constructor
  · intro h
    rw [← h]
    rfl
  · intro h
    simp only [unwritten, Prod.mk.injEq] at h
    rw [overwrittenBy, toRow, hname, h.1, h.2.1, h.2.2]
    rfl

/-- `UpdateProvisioningAttempt` of the memory store of virtual machines. -/
def Memory.updateProvisioningAttempt (before after : VirtualMachine) (vms : Table VirtualMachine) :
    Bool × Table VirtualMachine :=
  match vms[before.name]? with
  | none => (false, vms)
  | some current =>
    if !sameAttempt before after ∨ current ≠ before then (false, vms)
    else (true, vms.insert after.name after)

/-- A virtual machine of the database, as it is read. -/
def Database.vm? (db : Database) (n : String) : Option VirtualMachine :=
  db.vms[n]?.map (·.scan n)

variable {db : Database} {vms : Table VirtualMachine} {n : String}
  {cur before after : VirtualMachine}

theorem Memory.updateProvisioningAttempt_eq (hcur : vms[n]? = some cur) (hb : before.name = n)
    (ha : after.name = n) :
    (Memory.updateProvisioningAttempt before after vms).1 =
        (swapWhole sameAttempt cur before after).1 ∧
      (Memory.updateProvisioningAttempt before after vms).2[n]? =
        some (swapWhole sameAttempt cur before after).2 := by
  subst hb
  unfold Memory.updateProvisioningAttempt
  rw [hcur, ha]
  exact swapWhole_table hcur

theorem updateProvisioningAttempt_eq (hcur : db.vm? n = some cur) (hb : before.name = n) :
    (updateProvisioningAttempt before after db).1 =
        .ok (swap sameAttempt VirtualMachine.compared VirtualMachine.overwrittenBy cur before
          after).1 ∧
      (updateProvisioningAttempt before after db).2.vm? n =
        some (swap sameAttempt VirtualMachine.compared VirtualMachine.overwrittenBy cur before
          after).2 := by
  obtain ⟨row, hrow, rfl⟩ := Option.map_eq_some_iff.mp hcur
  subst hb
  have hkey : (row.spec = marshalSpec before ∧ row.status = marshalStatus before ∧
      row.hypervisorRef = before.hypervisorRef) ↔
        (row.scan before.name).compared = before.compared := by
    rw [VirtualMachine.compared, VirtualMachine.compared]
    simp only [Prod.mk.injEq]
    exact Iff.rfl
  rw [updateProvisioningAttempt, swap, hrow]
  by_cases hsame : sameAttempt before after = true
  · simp only [hsame, Bool.not_true, Bool.false_eq_true, if_false, hkey, true_and]
    split
    · refine ⟨rfl, ?_⟩
      simp only [Database.vm?, Table.get_insert, if_true]
      rfl
    · exact ⟨rfl, hcur⟩
  · rw [if_pos (by simpa using hsame), if_neg fun h => hsame h.1]
    exact ⟨rfl, hcur⟩

end Vm

/-! ### Agreement -/

/-- Two backends agree on a compare-and-swap and keep its contract: what the SQL store answers and
leaves, against the memory store. -/
def BackendsAgree {α : Type} (cur before after : α) (sql : Except Err Bool × Option α)
    (mem : Bool × Option α) : Prop :=
  (sql.1 = .ok mem.1 ∧ sql.2 = mem.2) ∧ (mem.1 = true ↔ cur = before) ∧
    (mem.1 = true → mem.2 = some after)

theorem backendsAgree_swap {α κ : Type} [DecidableEq κ] [DecidableEq α] {admits : α → α → Bool}
    {key : α → κ} {write : α → α → α} {cur before after : α} {sql : Except Err Bool × Option α}
    {mem : Bool × Option α}
    (hsql : sql.1 = .ok (swap admits key write cur before after).1 ∧
      sql.2 = some (swap admits key write cur before after).2)
    (hmem : mem.1 = (swapWhole admits cur before after).1 ∧
      mem.2 = some (swapWhole admits cur before after).2) :
    BackendsAgree cur before after sql mem ↔
      (cur = before → admits before after = true ∧ write cur after = after) ∧
        (admits before after = true → key cur = key before → cur = before) := by
  rw [← swap_agrees_iff, BackendsAgree, hsql.1, hsql.2, hmem.1, hmem.2, IsSwap]
  simp only [Except.ok.injEq, Option.some.injEq, Prod.ext_iff]

/-- **When the two backends agree**, for machines and for virtual machines: both answer the same and
leave the same record, the answer is `true` exactly if the stored record is `before`, and then the
record left is `after`, if and only if

* a stored record that is `before` comes with an `after` of the same attempt that differs from it
  only in what the SQL store writes, and
* a stored record that agrees with such a `before` in what the SQL store compares agrees with it in
  the rest. -/
theorem backends_agree_iff (lib : Lib) (n : String) :
    (∀ (db : Database) (machines : Table Machine) (cur before after : Machine),
      db.machine? n = some cur → machines[n]? = some cur → before.name = n → after.name = n →
      before.RoundTrips lib → after.RoundTrips lib →
      (BackendsAgree cur before after
          ((updateProvisioningAttempt lib before after db).1,
            (updateProvisioningAttempt lib before after db).2.machine? n)
          ((Memory.updateProvisioningAttempt before after machines).1,
            (Memory.updateProvisioningAttempt before after machines).2[n]?) ↔
        (cur = before → before.sameAttempt after = true ∧ before.unwritten = after.unwritten) ∧
          (before.sameAttempt after = true → cur.compared = before.compared →
            cur.uncompared = before.uncompared))) ∧
    (∀ (db : Vm.Database) (vms : Table Vm.VirtualMachine) (cur before after : Vm.VirtualMachine),
      db.vm? n = some cur → vms[n]? = some cur → before.name = n → after.name = n →
      (BackendsAgree cur before after
          ((Vm.updateProvisioningAttempt before after db).1,
            (Vm.updateProvisioningAttempt before after db).2.vm? n)
          ((Vm.Memory.updateProvisioningAttempt before after vms).1,
            (Vm.Memory.updateProvisioningAttempt before after vms).2[n]?) ↔
        (cur = before → Vm.sameAttempt before after = true ∧ before.unwritten = after.unwritten) ∧
          (Vm.sameAttempt before after = true → cur.compared = before.compared →
            cur.uncompared = before.uncompared))) := by
  constructor
  · intro db machines cur before after hdb hmem hb ha hbefore hafter
    have hname : cur.name = n := by
      obtain ⟨row, -, rfl⟩ := Option.map_eq_some_iff.mp hdb
      rfl
    rw [backendsAgree_swap (updateProvisioningAttempt_eq hdb hb hbefore hafter)
      (Memory.updateProvisioningAttempt_eq hmem hb ha)]
    refine and_congr (imp_congr_right ?_) (imp_congr_right fun _ => imp_congr_right fun hc => ?_)
    · rintro rfl
      rw [Machine.overwrittenBy_eq_iff (hb.trans ha.symm)]
    · exact ⟨fun h => h ▸ rfl, Machine.eq_of_compared (hname.trans hb.symm) hc⟩
  · intro db vms cur before after hdb hmem hb ha
    have hname : cur.name = n := by
      obtain ⟨row, -, rfl⟩ := Option.map_eq_some_iff.mp hdb
      rfl
    rw [backendsAgree_swap (Vm.updateProvisioningAttempt_eq hdb hb)
      (Vm.Memory.updateProvisioningAttempt_eq hmem hb ha)]
    refine and_congr (imp_congr_right ?_) (imp_congr_right fun _ => imp_congr_right fun hc => ?_)
    · rintro rfl
      rw [Vm.VirtualMachine.overwrittenBy_eq_iff (hb.trans ha.symm)]
    · exact ⟨fun h => h ▸ rfl, Vm.VirtualMachine.eq_of_compared (hname.trans hb.symm) hc⟩

/-! ### A machine and a virtual machine that are being installed -/

/-- A machine in an attempt. -/
def Machine.installing : Machine :=
  { Machine.sample "m1" with
    phase := .provisioning
    provision := some { active := true, attemptID := "attempt-1", completionToken := "token-1" } }

/-- A virtual machine in an attempt. -/
def Vm.VirtualMachine.installing : Vm.VirtualMachine :=
  { name := "vm1", hypervisorRef := "h1", phase := .provisioning
    provisioning := { active := true, attemptID := "attempt-1", completionToken := "token-1" } }

/-- The database and the memory store that hold a machine. -/
def Machine.stored (m : Machine) : Database × Table Machine :=
  (Database.empty.setMachine m.name m.decoded, (∅ : Table Machine).insert m.name m)

/-- The database and the memory store that hold a virtual machine. -/
def Vm.VirtualMachine.stored (v : Vm.VirtualMachine) : Vm.Database × Table Vm.VirtualMachine :=
  ({ vms := (∅ : Table Vm.VMRow).insert v.name (v.toRow v.createdAt) },
    (∅ : Table Vm.VirtualMachine).insert v.name v)

/-- A machine and a virtual machine whose installation fails: the backends agree. -/
theorem backends_agree_installing :
    let m := Machine.installing
    let m' := { m with phase := .error, lastError := "failed", updatedAt := 1 }
    let v := Vm.VirtualMachine.installing
    let v' := { v with phase := .error, lastError := "failed", updatedAt := 1 }
    BackendsAgree m m m'
        ((updateProvisioningAttempt (Lib.sample []) m m' m.stored.1).1,
          (updateProvisioningAttempt (Lib.sample []) m m' m.stored.1).2.machine? "m1")
        ((Memory.updateProvisioningAttempt m m' m.stored.2).1,
          (Memory.updateProvisioningAttempt m m' m.stored.2).2["m1"]?) ∧
      BackendsAgree v v v'
        ((Vm.updateProvisioningAttempt v v' v.stored.1).1,
          (Vm.updateProvisioningAttempt v v' v.stored.1).2.vm? "vm1")
        ((Vm.Memory.updateProvisioningAttempt v v' v.stored.2).1,
          (Vm.Memory.updateProvisioningAttempt v v' v.stored.2).2["vm1"]?) := by
  refine ⟨((backends_agree_iff (Lib.sample []) "m1").1 _ _ _ _ _ ?_ ?_ rfl rfl ⟨rfl, rfl⟩
    ⟨rfl, rfl⟩).mpr ⟨fun _ => ⟨rfl, rfl⟩, fun _ _ => rfl⟩,
    ((backends_agree_iff (Lib.sample []) "vm1").2 _ _ _ _ _ ?_ ?_ rfl rfl).mpr
      ⟨fun _ => ⟨rfl, rfl⟩, fun _ _ => rfl⟩⟩
  all_goals decide

/-- **The backends disagree** on a record that was written again without a change, as far as the
compared columns go: the SQL store takes it for the expected one, the memory store does not. -/
theorem backends_disagree :
    let m := Machine.installing
    let before := { m with updatedAt := 1 }
    let after := { before with phase := .error }
    let v := Vm.VirtualMachine.installing
    let vbefore := { v with updatedAt := 1 }
    let vafter := { vbefore with phase := .error }
    (m.stored.1.machine? "m1" = some m ∧ m.stored.2["m1"]? = some m ∧
        before.RoundTrips (Lib.sample []) ∧ after.RoundTrips (Lib.sample []) ∧
        (updateProvisioningAttempt (Lib.sample []) before after m.stored.1).1 = .ok true ∧
        (Memory.updateProvisioningAttempt before after m.stored.2).1 = false) ∧
      v.stored.1.vm? "vm1" = some v ∧ v.stored.2["vm1"]? = some v ∧
        (Vm.updateProvisioningAttempt vbefore vafter v.stored.1).1 = .ok true ∧
        (Vm.Memory.updateProvisioningAttempt vbefore vafter v.stored.2).1 = false := by
  refine ⟨⟨?_, ?_, ⟨rfl, rfl⟩, ⟨rfl, rfl⟩, ?_, ?_⟩, ?_, ?_, ?_, ?_⟩
  all_goals decide

end Gomi
