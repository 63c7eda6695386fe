import Gomi.Vm.System

/-!
# What a step can do to the row of a virtual machine

The counterpart of `Gomi.Store.Writes`. Which virtual machine an operation has changed can be read
off the operation and its reply: `Gomi.Vm.storedBy`. `Gomi.Vm.step_vm` is the inversion: a step
that has stored nothing of `n` leaves the row of `n` alone, and one that has did to it what
`Gomi.Vm.VMWrite` lists. Likewise `Gomi.Vm.shownBy` are the records that an operation has read, and
`Gomi.Vm.step_shown` says that they were stored at that moment.

For a hypervisor only its existence matters: `Gomi.Vm.step_hypervisor`.
-/

namespace Gomi.Vm

variable {w w' : World} {n : String}

/-! ### Statements -/

variable {α : Type} {stmt : Statement α} {o : Op} {r : Res o}

theorem execute_eq_some [DecidableEq (Except Err α)] {reply : Except Err α}
    (h : w.execute stmt reply = some w') :
    (reply = (stmt w.db).1 ∧ w' = { w with db := (stmt w.db).2 }) ∨
      (∃ t, reply = .error (.msg t)) ∧ w' = w :=
  reply_cases h

/-- An acknowledged statement has taken effect. -/
theorem execute_ok [DecidableEq (Except Err α)] {a : α} (h : w.execute stmt (.ok a) = some w') :
    (stmt w.db).1 = .ok a ∧ w' = { w with db := (stmt w.db).2 } := by
  rcases execute_eq_some h with ⟨hr, hw⟩ | ⟨⟨t, ht⟩, -⟩
  · exact ⟨hr.symm, hw⟩
  · cases ht

/-- The statements that write nothing. -/
theorem execute_read [DecidableEq (Except Err α)] {reply : Except Err α}
    (hread : ∀ db, (stmt db).2 = db) (h : w.execute stmt reply = some w') : w' = w := by
  rcases execute_eq_some h with ⟨-, hw⟩ | ⟨-, hw⟩
  · rw [hw, hread]
  · exact hw

theorem get_read (name : String) (db : Database) : (get name db).2 = db := by
  unfold get
  split <;> rfl

theorem getHypervisor_read (name : String) (db : Database) : (getHypervisor name db).2 = db := by
  unfold getHypervisor
  split <;> rfl

/-- A step of the random generator leaves the database alone. -/
theorem draw_db {k : ℕ} {r : Except Err (List UInt8)} (h : w.draw k r = some w') :
    w'.db = w.db := by
  unfold World.draw at h
  split at h
  · split at h
    · rw [← Option.some.inj h]
    · cases h
  · rw [← Option.some.inj h]
  · cases h

/-! ### Virtual machines -/

/-- The virtual machine whose row an operation has written, inserted or deleted. -/
def storedBy : (o : Op) → Res o → Option String
  | .upsert v, .ok _ => some v.name
  | .insert v, .ok _ => some v.name
  | .updateExisting v, .ok true => some v.name
  | .updateProvisioningAttempt before _, .ok true => some before.name
  | .deleteCreatedToken name _, .ok true => some name
  | .deleteOwned name _, .ok true => some name
  | .delete name, .ok _ => some name
  | _, _ => none

/-- **What an operation can do to the row of virtual machine `n`.** -/
inductive VMWrite (n : String) : (o : Op) → Res o → Option VMRow → Option VMRow → Prop
  /-- `Upsert`. -/
  | upsert {v : VirtualMachine} {x : Option VMRow} (hname : v.name = n) :
      VMWrite n (.upsert v) (Except.ok ()) x
        (some (v.toRow ((x.map (·.createdAt)).getD v.createdAt)))
  /-- `Insert`, of a name that is free. -/
  | insert {v : VirtualMachine} (hname : v.name = n) :
      VMWrite n (.insert v) (Except.ok ()) none (some (v.toRow v.createdAt))
  /-- `UpdateExisting`. -/
  | update {v : VirtualMachine} {row : VMRow} (hname : v.name = n) :
      VMWrite n (.updateExisting v) (Except.ok true) (some row) (some (v.toRow row.createdAt))
  /-- `UpdateProvisioningAttempt`, whose snapshot is current. -/
  | swap {before after : VirtualMachine} {row : VMRow} (hname : before.name = n)
      (hsame : sameAttempt before after = true) (hspec : row.spec = marshalSpec before)
      (hstatus : row.status = marshalStatus before)
      (href : row.hypervisorRef = before.hypervisorRef) :
      VMWrite n (.updateProvisioningAttempt before after) (Except.ok true) (some row)
        (some { row with status := marshalStatus after, updatedAt := after.updatedAt })
  /-- `DeleteCreatedToken`, of a row with that token. -/
  | rollback {token : String} {row : VMRow}
      (htoken : row.status.provisioning.completionToken = token) :
      VMWrite n (.deleteCreatedToken n token) (Except.ok true) (some row) none
  /-- `DeleteOwned`, of a row of that hypervisor. -/
  | deleteOwned {ref : String} {row : VMRow} (href : row.hypervisorRef = ref) :
      VMWrite n (.deleteOwned n ref) (Except.ok true) (some row) none
  /-- `Delete`. -/
  | delete {row : VMRow} : VMWrite n (.delete n) (Except.ok ()) (some row) none

/-- The two ways a conditional delete can go. -/
theorem deleteWhere_cases (name : String) (cond : VMRow → Bool) (db : Database) :
    (∃ row, db.vms[name]? = some row ∧ cond row = true ∧
      deleteWhere name cond db = (.ok true, { db with vms := db.vms.erase name })) ∨
      (∀ row, db.vms[name]? = some row → cond row = false) ∧
        deleteWhere name cond db = (.ok false, db) := by
  unfold deleteWhere
  cases hrow : db.vms[name]? with
  | none => exact Or.inr ⟨by simp, rfl⟩
  | some row =>
    cases hc : cond row with
    | true => exact Or.inl ⟨row, rfl, hc, by simp [hc]⟩
    | false => exact Or.inr ⟨by simp [hc], by simp [hc]⟩

/-- What an operation and its reply say of virtual machine `n`: its row is as it was, or it
was written as `Gomi.Vm.VMWrite` lists. -/
def VMStep (n : String) (o : Op) (r : Res o) (x y : Option VMRow) : Prop :=
  (storedBy o r ≠ some n ∧ y = x) ∨ storedBy o r = some n ∧ VMWrite n o r x y

/-- An operation that has stored nothing. -/
theorem VMStep.idle (hst : storedBy o r = none) (hvms : w'.db.vms = w.db.vms) (n : String) :
    VMStep n o r w.db.vms[n]? w'.db.vms[n]? :=
  Or.inl ⟨by rw [hst]; exact Option.some_ne_none n |>.symm, by rw [hvms]⟩

/-- An operation that has stored the row of `k`. -/
theorem VMStep.write {k : String} {y : Option VMRow} (hst : storedBy o r = some k)
    (hwrite : VMWrite k o r w.db.vms[k]? y)
    (hvms : ∀ n, w'.db.vms[n]? = if k = n then y else w.db.vms[n]?) (n : String) :
    VMStep n o r w.db.vms[n]? w'.db.vms[n]? := by
  rw [VMStep, hst, hvms n]
  by_cases hn : k = n
  · subst hn
    rw [if_pos rfl]
    exact Or.inr ⟨rfl, hwrite⟩
  · rw [if_neg hn]
    exact Or.inl ⟨fun h => hn (Option.some.inj h), rfl⟩

/-- A conditional delete, for an operation that is acknowledged exactly when a row went. -/
theorem VMStep.deleteWhere {k : String} {cond : VMRow → Bool} {reply : Except Err Bool}
    (hx : w.execute (deleteWhere k cond) reply = some w')
    (hst : storedBy o r = if reply = .ok true then some k else none)
    (hwrite : ∀ row, cond row = true → reply = .ok true → VMWrite k o r (some row) none)
    (n : String) : VMStep n o r w.db.vms[n]? w'.db.vms[n]? := by
  rcases execute_eq_some hx with ⟨hr, rfl⟩ | ⟨⟨t, rfl⟩, rfl⟩
  · rcases deleteWhere_cases k cond w.db with ⟨row, hrow, hc, heq⟩ | ⟨-, heq⟩
    · rw [heq] at hr ⊢
      refine .write (by rw [hst, if_pos hr]) ?_ (Table.get_erase _ _) n
      rw [hrow]
      exact hwrite row hc hr
    · rw [heq] at hr ⊢
      exact .idle (by rw [hst, if_neg (by simp [hr])]) rfl n
  · exact .idle (by rw [hst, if_neg (by simp)]) rfl n

/-- The compare-and-swap, at a current snapshot and at any other. -/
theorem updateProvisioningAttempt_cases (before after : VirtualMachine) (db : Database) :
    (∃ row, db.vms[before.name]? = some row ∧ sameAttempt before after = true ∧
      row.spec = marshalSpec before ∧ row.status = marshalStatus before ∧
      row.hypervisorRef = before.hypervisorRef ∧ updateProvisioningAttempt before after db =
        (.ok true, { db with
          vms := db.vms.insert before.name
            { row with status := marshalStatus after, updatedAt := after.updatedAt } })) ∨
      updateProvisioningAttempt before after db = (.ok false, db) := by
  unfold updateProvisioningAttempt
  cases hsame : sameAttempt before after with
  | false => exact Or.inr rfl
  | true =>
    cases hrow : db.vms[before.name]? with
    | none => exact Or.inr rfl
    | some row =>
      by_cases hcur : row.spec = marshalSpec before ∧ row.status = marshalStatus before ∧
          row.hypervisorRef = before.hypervisorRef
      · exact Or.inl ⟨row, rfl, rfl, hcur.1, hcur.2.1, hcur.2.2, if_pos hcur⟩
      · exact Or.inr (if_neg hcur)

/-- **A step, seen by virtual machine `n`.** -/
theorem step_vm (hs : step o w r = some w') (n : String) :
    VMStep n o r w.db.vms[n]? w'.db.vms[n]? := by
  cases o with
  | upsert =>
    rcases execute_eq_some hs with ⟨rfl, rfl⟩ | ⟨⟨t, rfl⟩, rfl⟩
    · exact .write rfl (.upsert rfl) (Table.get_insert _ _ · _) n
    · exact .idle rfl rfl n
  | insert v =>
    rcases execute_eq_some hs with ⟨rfl, rfl⟩ | ⟨⟨t, rfl⟩, rfl⟩
    · cases hrow : w.db.vms[v.name]? with
      | some =>
        simp only [insert, hrow, Option.isSome_some, if_true]
        exact .idle rfl rfl n
      | none =>
        rw [show insert v w.db = (.ok (), _) from if_neg (by simp [hrow])]
        refine .write rfl ?_ (Table.get_insert _ _ · _) n
        rw [hrow]
        exact .insert rfl
    · exact .idle rfl rfl n
  | updateExisting v =>
    rcases execute_eq_some hs with ⟨rfl, rfl⟩ | ⟨⟨t, rfl⟩, rfl⟩
    · cases hrow : w.db.vms[v.name]? with
      | none =>
        simp only [updateExisting, hrow]
        exact .idle rfl rfl n
      | some =>
        rw [updateExisting, hrow]
        refine .write rfl ?_ (Table.get_insert _ _ · _) n
        rw [hrow]
        exact .update rfl
    · exact .idle rfl rfl n
  | updateProvisioningAttempt before after =>
    rcases execute_eq_some hs with ⟨rfl, rfl⟩ | ⟨⟨t, rfl⟩, rfl⟩
    · rcases updateProvisioningAttempt_cases before after w.db with
        ⟨row, hrow, hsame, hspec, hstatus, href, heq⟩ | heq
      · rw [heq]
        refine .write rfl ?_ (Table.get_insert _ _ · _) n
        rw [hrow]
        exact .swap rfl hsame hspec hstatus href
      · rw [heq]
        exact .idle rfl rfl n
    · exact .idle rfl rfl n
  | deleteCreatedToken =>
    refine .deleteWhere hs ?_ (fun row hc hr => ?_) n
    · rcases r with e | _ | _ <;> rfl
    · subst hr
      exact .rollback (of_decide_eq_true hc)
  | deleteOwned =>
    refine .deleteWhere hs ?_ (fun row hc hr => ?_) n
    · rcases r with e | _ | _ <;> rfl
    · subst hr
      exact .deleteOwned (of_decide_eq_true hc)
  | delete name =>
    rcases execute_eq_some hs with ⟨rfl, rfl⟩ | ⟨⟨t, rfl⟩, rfl⟩
    · cases hrow : w.db.vms[name]? with
      | none =>
        simp only [delete, hrow]
        exact .idle rfl rfl n
      | some =>
        rw [delete, hrow]
        refine .write rfl ?_ (Table.get_erase _ _) n
        rw [hrow]
        exact .delete
    · exact .idle rfl rfl n
  | get name => exact .idle rfl (by rw [execute_read (get_read name) hs]) n
  | list | listByHypervisor h | listHypervisors =>
    exact .idle rfl (by rw [execute_read (fun _ => rfl) hs]) n
  | getHypervisor name =>
    exact .idle rfl (by rw [execute_read (getHypervisor_read name) hs]) n
  | upsertHypervisor =>
    rcases execute_eq_some hs with ⟨-, rfl⟩ | ⟨-, rfl⟩ <;> exact .idle rfl rfl n
  | deleteHypervisor =>
    refine .idle rfl ?_ n
    rcases execute_eq_some hs with ⟨-, rfl⟩ | ⟨-, rfl⟩
    · unfold deleteHypervisor
      split <;> rfl
    · rfl
  | now | ask q => exact .idle rfl (by rw [Option.some.inj hs]) n
  | rand => exact .idle rfl (by rw [draw_db hs]) n

/-! ### Reads -/

/-- The records an operation has read. -/
def shownBy : (o : Op) → Res o → List VirtualMachine
  | .get _, .ok v => [v]
  | .list, .ok vs => vs
  | .listByHypervisor _, .ok vs => vs
  | _, _ => []

/-- The rows that a list is made of are stored. -/
theorem mem_toList_vms {db : Database} {kv : String × VMRow} (h : kv ∈ db.vms.toList) :
    db.vms[kv.1]? = some kv.2 :=
  Std.ExtTreeMap.mem_toList_iff_getElem?_eq_some.mp h

/-- **What a step has read was stored**, and the step has changed nothing. -/
theorem step_shown (hs : step o w r = some w') {v : VirtualMachine} (hv : v ∈ shownBy o r) :
    w' = w ∧ ∃ row, w.db.vms[v.name]? = some row ∧ v = row.scan v.name := by
  cases o with
  | get name =>
    refine ⟨execute_read (get_read name) hs, ?_⟩
    rcases r with e | u
    · cases hv
    obtain rfl : v = u := by simpa [shownBy] using hv
    obtain ⟨hr, -⟩ := execute_ok hs
    cases hrow : w.db.vms[name]? with
    | none => exact absurd hr (by simp [get, hrow])
    | some row =>
      obtain rfl : row.scan name = v := by simpa [get, hrow] using hr
      exact ⟨row, hrow, rfl⟩
  | list =>
    refine ⟨execute_read (fun _ => rfl) hs, ?_⟩
    rcases r with e | vs
    · cases hv
    obtain ⟨hr, -⟩ := execute_ok hs
    cases hr
    obtain ⟨kv, hkv, rfl⟩ := List.mem_map.mp hv
    exact ⟨kv.2, mem_toList_vms hkv, rfl⟩
  | listByHypervisor =>
    refine ⟨execute_read (fun _ => rfl) hs, ?_⟩
    rcases r with e | vs
    · cases hv
    obtain ⟨hr, -⟩ := execute_ok hs
    cases hr
    obtain ⟨kv, hkv, rfl⟩ := List.mem_map.mp hv
    exact ⟨kv.2, mem_toList_vms (List.mem_filter.mp hkv).1, rfl⟩
  | _ => cases hv

/-! ### Hypervisors -/

/-- **A step, seen by hypervisor `h`**: it is there afterwards if it was before, unless it was deleted,
and it is there now only if it was before or has been written. -/
theorem step_hypervisor (hs : step o w r = some w') (h : String) :
    w'.db.hypervisors[h]?.isSome = w.db.hypervisors[h]?.isSome ∨
      (∃ g, g.name = h ∧ (⟨o, r⟩ : Call Res) = ⟨.upsertHypervisor g, Except.ok ()⟩ ∧
        w'.db.hypervisors[h]?.isSome = true) ∨
      (⟨o, r⟩ : Call Res) = ⟨.deleteHypervisor h, Except.ok ()⟩ ∧
        w'.db.hypervisors[h]?.isSome = false := by
  have unchanged : ∀ {α : Type} [DecidableEq (Except Err α)] {stmt : Statement α}
      {reply : Except Err α}, (stmt w.db).2.hypervisors = w.db.hypervisors →
      w.execute stmt reply = some w' → w'.db.hypervisors[h]?.isSome = w.db.hypervisors[h]?.isSome := by
    intro α _ stmt reply hstmt hx
    rcases execute_eq_some hx with ⟨-, rfl⟩ | ⟨-, rfl⟩
    · rw [hstmt]
    · rfl
  have whereUnchanged : ∀ k cond, (deleteWhere k cond w.db).2.hypervisors = w.db.hypervisors := by
    intro k cond
    rcases deleteWhere_cases k cond w.db with ⟨_, _, _, heq⟩ | ⟨-, heq⟩ <;> rw [heq]
  cases o with
  | upsert => exact Or.inl (unchanged rfl hs)
  | insert =>
    refine Or.inl (unchanged ?_ hs)
    unfold insert
    split <;> rfl
  | updateExisting =>
    refine Or.inl (unchanged ?_ hs)
    unfold updateExisting
    split <;> rfl
  | updateProvisioningAttempt before after =>
    refine Or.inl (unchanged ?_ hs)
    rcases updateProvisioningAttempt_cases before after w.db with ⟨_, _, _, _, _, _, heq⟩ | heq <;>
      rw [heq]
  | deleteCreatedToken name token | deleteOwned name ref =>
    exact Or.inl (unchanged (whereUnchanged _ _) hs)
  | delete =>
    refine Or.inl (unchanged ?_ hs)
    unfold delete
    split <;> rfl
  | get name => exact Or.inl (by rw [execute_read (get_read name) hs])
  | list | listByHypervisor k | listHypervisors =>
    exact Or.inl (by rw [execute_read (fun _ => rfl) hs])
  | getHypervisor name => exact Or.inl (by rw [execute_read (getHypervisor_read name) hs])
  | upsertHypervisor g =>
    rcases execute_eq_some hs with ⟨rfl, rfl⟩ | ⟨-, rfl⟩
    · simp only [upsertHypervisor, Table.get_insert]
      by_cases hg : g.name = h
      · exact Or.inr (Or.inl ⟨g, hg, rfl, by simp [hg]⟩)
      · exact Or.inl (by simp [hg])
    · exact Or.inl rfl
  | deleteHypervisor name =>
    rcases execute_eq_some hs with ⟨rfl, rfl⟩ | ⟨-, rfl⟩
    · cases hrow : w.db.hypervisors[name]? with
      | none =>
        simp only [deleteHypervisor, hrow]
        exact Or.inl trivial
      | some =>
        simp only [deleteHypervisor, hrow, Table.get_erase]
        by_cases hn : name = h
        · subst hn
          exact Or.inr (Or.inr ⟨rfl, by simp⟩)
        · exact Or.inl (by simp [hn])
    · exact Or.inl rfl
  | now | ask q => exact Or.inl (by rw [Option.some.inj hs])
  | rand => exact Or.inl (by rw [draw_db hs])

end Gomi.Vm
