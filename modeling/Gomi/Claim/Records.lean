import Gomi.Claim.Handlers

/-!
# What is stored of a machine

Of a machine record, decisions about a claim depend on a few fields only. They are its
`Gomi.View`; `Gomi.World.record` is the view of the record that is stored under a name.
A write of a record is said in terms of views once and for all (`Gomi.RecordWrite`,
`Gomi.step_record`): a request changes the view of a machine by a commit, by a full write
past the fence, by a compare-and-swap, by a creation or a deletion, or by unregistering
its host, and every other step leaves it alone.

`Gomi.Traced` are the traces of the system: those in which every request keeps to what it
may do. Every run of requests leaves one (`Gomi.Run.traced`), and a record that a client
has read was stored at some point of it (`Gomi.Traced.read`).
-/

namespace Gomi

open Machine

variable {lib : Lib} {q : Request} {cs : List (Call Res)} {w w' : World} {m m' : Machine}
  {n : String}

/-! ### Views -/

/-- The view that is stored when a record is written. -/
def View.stored (lib : Lib) (v : View) : View :=
  { v with sealedBootstrap := v.sealedBootstrap.map (·.marshal lib) }

@[simp] theorem View.stored_attempt {v : View} : (v.stored lib).attempt = v.attempt := rfl

@[simp] theorem Machine.view_attempt : m.view.attempt = m.attempt := rfl

/-- The view of a row. -/
def MachineRow.view (row : MachineRow) : View := (row.scan "").view

/-- The view of what is stored of machine `n`. -/
def World.record (w : World) (n : String) : Option View := w.db.machines[n]?.map MachineRow.view

theorem World.record_eq_some {v : View} :
    w.record n = some v ↔ ∃ row, w.db.machines[n]? = some row ∧ row.view = v :=
  Option.map_eq_some_iff

/-- The view of a row is read off its spec and its status. -/
theorem MachineRow.view_eq {row : MachineRow}
    (hsealed : row.spec.sealedBootstrap = m.sealedBootstrap.map (·.marshal lib))
    (hdisk : row.spec.targetDisk = m.targetDisk) (hpreset : row.spec.osPreset = m.osPreset)
    (hstatus : row.status = marshalStatus lib m) : row.view = m.view.stored lib := by
  have hprovision : row.status.provision = m.provision.map (·.marshal lib) := by rw [hstatus]; rfl
  have hphase : row.status.phase = m.phase := by rw [hstatus]; rfl
  unfold MachineRow.view Machine.view View.stored Machine.attempt Machine.token Machine.active
    imageApplied completed progress MachineRow.scan
  rw [hsealed, hdisk, hpreset, hprovision, hphase]
  cases m.provision <;> rfl

theorem Machine.toRow_view {t : Time} : (m.toRow lib t).view = m.view.stored lib :=
  MachineRow.view_eq rfl rfl rfl rfl

@[simp] theorem View.stored_stored {v : View} : (v.stored lib).stored lib = v.stored lib := by
  unfold View.stored
  cases v.sealedBootstrap with
  | none => rfl
  | some b => simp [SealedBootstrap.marshal, lib.marshalRaw_marshalRaw]

/-! ### Writes -/

variable (lib) in
/-- **What a request can do to the view of machine `n`**, while the row of host `n` is the one
given. -/
inductive RecordWrite (n : String) :
    (o : Op) → Res o → Option HostRow → Option View → Option View → Prop
  /-- `CommitDeployment`. -/
  | commit {h h' : Host} {m : Machine} {host : Option HostRow} {v : View} (hname : h.name = n)
      (hname' : m.name = n) :
      RecordWrite n (.commitDeployment h m) (Except.ok h') host (some v) (some (m.view.stored lib))
  /-- `Upsert`, past the fence. -/
  | upsert {m : Machine} {host : Option HostRow} {x : Option View} (hname : m.name = n)
      (hfence : ∀ r, host = some r → r.owner = none ∨ r.attemptID = m.attempt) :
      RecordWrite n (.upsert m) (Except.ok ()) host x (some (m.view.stored lib))
  /-- `UpdateProvisioningAttempt`, whose snapshot is current. -/
  | swap {before after : Machine} {host : Option HostRow} (hname : before.name = n)
      (hattempt : after.attempt = before.attempt) :
      RecordWrite n (.updateProvisioningAttempt before after) (Except.ok true) host
        (some (before.view.stored lib)) (some (after.view.stored lib))
  /-- `Insert`, of a name that is free. -/
  | insert {m : Machine} {host : Option HostRow} (hname : m.name = n) :
      RecordWrite n (.insertMachine m) (Except.ok ()) host none (some (m.view.stored lib))
  /-- `Delete`, of a machine that is not enrolled. -/
  | delete {v : View} : RecordWrite n (.deleteMachine n) (Except.ok ()) none (some v) none
  /-- `Unregister`. -/
  | unregister {revision : ℤ} {r : HostRow} {v : View} :
      RecordWrite n (.unregister n revision) (Except.ok ()) (some r) (some v)
        (some { v with sealedBootstrap := none })

theorem Allowed.of_swap (h : Allowed lib q cs (.updateProvisioningAttempt m m')) :
    q.kind = .report ∧ (∃ c ∈ cs, c.Reads m) ∧ Rewrites q m m' := by
  cases h with
  | read ho => cases ho
  | swap hq hread hrewrites => exact ⟨hq, hread, hrewrites⟩

/-- **A step of a request, seen by machine `n`.** -/
theorem step_record {o : Op} {r : Res o} (ha : Allowed lib q cs o) (hs : step lib o w r = some w') :
    w'.record n = w.record n ∨
      RecordWrite lib n o r w.db.hosts[n]? (w.record n) (w'.record n) := by
  unfold World.record
  rcases step_machine hs with heq | hwrite
  · rw [heq]
    exact Or.inl rfl
  · generalize hx : w.db.machines[n]? = x at hwrite ⊢
    generalize hy : w'.db.machines[n]? = y at hwrite ⊢
    generalize hhost : w.db.hosts[n]? = host at hwrite ⊢
    cases hwrite with
    | @commit h m next host row hname htarget =>
      obtain ⟨p, b, -, -, -, hsame, -⟩ := commitTarget_eq_some.mp htarget
      rw [Option.map_some, Option.map_some, toRow_view]
      exact Or.inr (.commit (hsame ▸ hname) hname)
    | upsertNew hname =>
      rw [Option.map_some, toRow_view]
      refine Or.inr (.upsert hname fun r hr => ?_)
      -- a host has a machine
      obtain ⟨row, hrow⟩ := w.db.machine_of_host (hhost.trans hr)
      cases hx.symm.trans hrow
    | @upsert m host row hname hfence =>
      rw [Option.map_some, Option.map_some, toRow_view]
      refine Or.inr (.upsert hname fun r hr => ?_)
      rw [hr] at hfence
      simpa [fenceAdmits] using hfence
    | insert hname =>
      rw [Option.map_some, toRow_view]
      exact Or.inr (.insert hname)
    | delete => exact Or.inr .delete
    | power hop hspec hprovision hphase =>
      refine Or.inl (congrArg some ?_)
      unfold MachineRow.view Machine.view Machine.attempt Machine.token Machine.active
        imageApplied completed progress MachineRow.scan
      rw [hspec, hprovision, hphase]
    | dynamicIP => exact Or.inl rfl
    | @compareAndSwap before after p p' host row hname hname' hbefore hafter htoken hattempt hspec
        hstatus hip =>
      obtain ⟨-, -, hrewrites⟩ := ha.of_swap
      have hcontinues := hrewrites.continues
      have hold : row.view = before.view.stored lib := by
        refine MachineRow.view_eq ?_ ?_ ?_ hstatus <;> rw [hspec] <;> rfl
      have hnew : ({ row with
          status := marshalStatus lib after, ip := after.ip, updatedAt := after.updatedAt } :
          MachineRow).view = after.view.stored lib := by
        refine MachineRow.view_eq ?_ ?_ ?_ rfl <;> dsimp only <;> rw [hspec]
        · rw [hcontinues.sealedBootstrap]
          rfl
        · exact hcontinues.targetDisk.symm
        · exact hcontinues.osPreset.symm
      rw [Option.map_some, Option.map_some, hold, hnew]
      refine Or.inr (.swap hname ?_)
      rw [attempt_eq, attempt_eq, progress_of_provision hbefore,
        progress_of_provision hafter, hattempt]
    | unregister => exact Or.inr .unregister

/-- **A call that wrote the record of machine `n`.** Updates of single columns are none. -/
inductive Call.Stores (n : String) : Call Res → Prop
  | commit {h h' : Host} {m : Machine} (hname : m.name = n) :
      Call.Stores n ⟨.commitDeployment h m, Except.ok h'⟩
  | upsert {m : Machine} (hname : m.name = n) : Call.Stores n ⟨.upsert m, Except.ok ()⟩
  | swap {before after : Machine} (hname : before.name = n) :
      Call.Stores n ⟨.updateProvisioningAttempt before after, Except.ok true⟩
  | insert {m : Machine} (hname : m.name = n) : Call.Stores n ⟨.insertMachine m, Except.ok ()⟩
  | delete : Call.Stores n ⟨.deleteMachine n, Except.ok ()⟩
  | unregister {revision : ℤ} : Call.Stores n ⟨.unregister n revision, Except.ok ()⟩

theorem RecordWrite.stores {o : Op} {r : Res o} {host : Option HostRow} {x y : Option View}
    (h : RecordWrite lib n o r host x y) : Call.Stores n ⟨o, r⟩ := by
  cases h with
  | commit _ hname => exact .commit hname
  | upsert hname => exact .upsert hname
  | swap hname => exact .swap hname
  | insert hname => exact .insert hname
  | delete => exact .delete
  | unregister => exact .unregister

/-! ### Traces -/

/-- The traces of the system under the requests `reqs`, from the state `w₀`. -/
abbrev Traced (lib : Lib) (reqs : ℕ → Request) (w₀ : World) (T : List (Event Res)) (w : World) :
    Prop :=
  Lawful (step lib) w₀ (fun t => Allowed lib (reqs t)) T w

variable {reqs : ℕ → Request} {s : Server} {w₀ : World} {T : List (Event Res)} {t : ℕ}
variable {c : Call Res}

/-- **Every run of requests leaves a trace of the system.** -/
theorem Run.traced {c : ℕ → Prog Res (Option Response)}
    (h : Run (step lib) (fun t => (reqs t).prog lib s) w₀ T c w) : Traced lib reqs w₀ T w :=
  h.lawful fun t => (reqs t).obeys

/-- **The invariant rule** (`Gomi.Lawful.invariant`) for the traces of the system. -/
theorem Traced.invariant {I : List (Event Res) → World → Prop} (hT : Traced lib reqs w₀ T w)
    (h0 : I [] w₀)
    (hstep : ∀ T e w w', Traced lib reqs w₀ T w →
      (∀ T₁ T₂ w₁, T = T₁ ++ T₂ → Traced lib reqs w₀ T₁ w₁ → I T₁ w₁) →
      Allowed lib (reqs e.tid) (localOf e.tid T) e.op → step lib e.op w e.res = some w' →
      Traced lib reqs w₀ (T ++ [e]) w' → I (T ++ [e]) w') : I T w :=
  Lawful.invariant h0 hstep hT

/-- A record that is read is the stored one. -/
theorem Call.Reads.record (hc : c.Reads m) (hs : step lib c.op w c.res = some w') :
    w.record m.name = some m.view := by
  rcases hc with ⟨name, rfl⟩ | ⟨ms, rfl, hm⟩
  · obtain ⟨-, row, hrow, rfl⟩ := step_getMachine_ok hs
    exact World.record_eq_some.mpr ⟨row, hrow, rfl⟩
  · obtain ⟨hok, -⟩ := execute_ok hs
    cases hok
    obtain ⟨⟨n, row⟩, hrow, rfl⟩ := List.mem_map.mp hm
    exact World.record_eq_some.mpr ⟨row, Table.mem_toList.mp hrow, rfl⟩

/-- **What a client has read was stored**, and the calls that it made later come later. -/
theorem Traced.read (hT : Traced lib reqs w₀ T w) (hc : c.Reads m)
    (hcs : (c :: cs).Sublist (localOf t T)) :
    ∃ T₁ e T₂ w₁, T = T₁ ++ e :: T₂ ∧ e.tid = t ∧ e.toCall = c ∧ Traced lib reqs w₀ T₁ w₁ ∧
      w₁.record m.name = some m.view ∧ cs.Sublist (localOf t T₂) := by
  obtain ⟨T₁, e, T₂, rfl, htid, hcall, hrest⟩ := localOf_cons_sublist hcs
  obtain ⟨w₁, w₂, hT₁, -, hs, -, -⟩ := hT.at_event
  subst hcall
  exact ⟨T₁, e, T₂, w₁, rfl, htid, rfl, hT₁, hc.record hs, hrest⟩

end Gomi
