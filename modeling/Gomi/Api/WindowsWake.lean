import Gomi.Api.Redeploy
import Gomi.Pxe.Windows
import Gomi.Store.Writes

/-!
# The power result of a Windows redeployment

`internal/infra/api/windows_wol.go`. The power cycle of a redeployment runs in the background and
ends at any time, so `recordWindowsRedeployPowerAction` must not record its result on an attempt that
it does not belong to. It reads the record, looks at it, and swaps it against one with the result; if
another client was faster, it starts over, three times at most.

The swap compares the columns `spec`, `status` and `ip`, and writes `status`, `ip` and `updated_at`.
`Gomi.power_result_isolated` says that this is enough: whatever other clients do, a write of the
result finds the record as it was when it was looked at, and leaves everything in place that it does
not record. The one column that is written without having been compared is `updated_at`: it holds the
time of the write, which is not carried over from the record that was read.
-/

namespace Gomi

open Go Prog

/-! ### The code -/

/-- The text of a power action. -/
def PowerAction.text : PowerAction → String
  | .powerOn => "power-on"
  | .powerOff => "power-off"

/-- Whether the installer of a Windows attempt has reported something. -/
def ProvisionProgress.installerProgressed (p : ProvisionProgress) : Bool :=
  p.artifacts["windowsInstallStarted"]? = some "true" ∨ p.imageApplied = true ∨
    (p.completedAt.isSome ∧ p.completionSource = "windows")

/-- `windowsWakeProgress`. -/
def windowsWakeProgress (current expected : Machine) : Except Err Bool :=
  let changed := Err.msg "Windows deployment attempt changed during power-on"
  match expected.provision, current.provision with
  | some e, some p =>
    if e.attemptID = "" ∨ p.attemptID ≠ e.attemptID ∨ current.name ≠ expected.name ∨
        !equalFold current.mac expected.mac ∨ !current.isWindows then .error changed
    else .ok p.installerProgressed
  | _, _ => .error changed

/-- The record with the result of a power action; a success leaves the last error alone. -/
def Machine.withPowerResult (m : Machine) (action : PowerAction) (lastError : Option String)
    (now : Time) : Machine :=
  { m with lastPowerAction := action.text, lastError := lastError.getD m.lastError, updatedAt := now }

/-- The rounds of `recordWindowsRedeployPowerAction`. -/
def recordWindowsRounds (expected : Machine) (action : PowerAction) (lastError : Option String) :
    ℕ → Prog Res Unit
  | 0 => return ()
  | k + 1 => do
    match ← Client.getMachine expected.name with
    | .error _ => return ()
    | .ok current =>
    match windowsWakeProgress current expected with
    | .error _ => return ()
    | .ok progressed =>
    if !current.provision.any (·.active) then return () else
    if lastError.isSome ∧ (progressed = true ∨ current.lastError ≠ "") then return () else
    let now ← Client.now
    match ← Client.updateProvisioningAttempt current (current.withPowerResult action lastError now) with
    | .error _ => return ()
    | .ok true => return ()
    | .ok false => recordWindowsRounds expected action lastError k

/-- `recordWindowsRedeployPowerAction`. -/
def recordWindowsRedeployPowerAction (expected : Machine) (action : PowerAction)
    (lastError : Option String) : Prog Res Unit :=
  recordWindowsRounds expected action lastError 3

/-! ### What a recording may do -/

variable {lib : Lib} {expected current : Machine} {action : PowerAction} {lastError : Option String}

/-- A record that the result of a power action may be recorded on. -/
structure Recordable (expected : Machine) (lastError : Option String) (m : Machine) : Prop where
  /-- It is that of the machine. -/
  name : m.name = expected.name
  /-- It is that of the attempt, which is active and which, if an error is to be recorded, the
  installer has reported nothing about. -/
  provision : ∃ p, m.provision = some p ∧ p.attemptID = expected.attempt ∧ p.attemptID ≠ "" ∧
    p.active = true ∧ (lastError.isSome → p.installerProgressed = false)
  /-- No error is replaced. -/
  noError : lastError.isSome → m.lastError = ""

/-- **The operations of a recording**: it writes only by a swap of the record that it has just read,
and that it may record on. -/
def RecordAllowed (expected : Machine) (action : PowerAction) (lastError : Option String)
    (cs : List (Call Res)) : Op → Prop
  | .getMachine _ | .now => True
  | .updateProvisioningAttempt before after => ∃ cs₀ now,
    cs = cs₀ ++ [⟨.getMachine expected.name, Except.ok before⟩, ⟨.now, now⟩] ∧
      Recordable expected lastError before ∧ after = before.withPowerResult action lastError now
  | _ => False

theorem recordable_of_checks {progressed : Bool}
    (hwake : windowsWakeProgress current expected = .ok progressed)
    (hactive : ¬(!current.provision.any (·.active)) = true)
    (herr : ¬(lastError.isSome = true ∧ (progressed = true ∨ current.lastError ≠ ""))) :
    Recordable expected lastError current := by
  unfold windowsWakeProgress at hwake
  split at hwake
  case h_2 => cases hwake
  rename_i e p he hp
  split at hwake
  · cases hwake
  rename_i hok
  cases hwake
  push Not at herr hok
  obtain ⟨hne, hattempt, hname, -⟩ := hok
  refine ⟨hname, ⟨p, hp, ?_, hattempt ▸ hne, ?_, ?_⟩, fun h => (herr h).2⟩
  · simp [Machine.attempt, he, hattempt]
  · simpa [hp] using hactive
  · intro h
    simpa using (herr h).1

theorem recordWindowsRounds_obeys (k : ℕ) (cs : List (Call Res)) :
    Obeys (RecordAllowed expected action lastError) (fun _ _ => True)
      (recordWindowsRounds expected action lastError k) cs := by
  induction k generalizing cs with
  | zero => exact .pure trivial
  | succ k ih =>
    refine .perform_bind trivial fun r => ?_
    match r with
    | .error _ => exact .pure trivial
    | .ok current =>
    simp only
    cases hwake : windowsWakeProgress current expected with
    | error => exact .pure trivial
    | ok =>
    refine .ite (fun _ => .pure trivial) fun hactive => ?_
    refine .ite (fun _ => .pure trivial) fun herr => ?_
    refine .perform_bind trivial fun now => ?_
    refine .perform_bind ⟨cs, now, by simp, recordable_of_checks hwake hactive herr, rfl⟩ ?_
    intro written
    match written with
    | .error _ | .ok true => exact .pure trivial
    | .ok false => exact ih _

/-! ### What a swap does -/

/-- **A row that a power result was written to**: it was read as `row₀`, it was `row` when the result
was written at time `now`, and is `row'` from then on. -/
structure RecordedOn (expected : Machine) (action : PowerAction) (lastError : Option String)
    (now : Time) (row₀ row row' : MachineRow) : Prop where
  /-- The row is that of the attempt, which is active. -/
  attempt : ∃ p, row.status.provision = some p ∧ p.attemptID = expected.attempt ∧
    p.attemptID ≠ "" ∧ p.active = true ∧ (lastError.isSome → p.installerProgressed = false)
  /-- An error is recorded only where there was none. -/
  noError : lastError.isSome → row.status.lastError = ""
  /-- What is replaced is what was read. -/
  read : row.status.lastPowerAction = row₀.status.lastPowerAction ∧
    row.status.lastError = row₀.status.lastError
  /-- Nothing else is replaced. -/
  kept : row' = { row with
    status := { row.status with
      lastPowerAction := action.text, lastError := lastError.getD row.status.lastError }
    updatedAt := now }

theorem marshalStatus_withPowerResult (m : Machine) (now : Time) :
    marshalStatus lib (m.withPowerResult action lastError now) =
      { marshalStatus lib m with
        lastPowerAction := action.text
        lastError := lastError.getD (marshalStatus lib m).lastError } := rfl

/-- The step lemma: a swap that a recording may make leaves the database alone, or writes the result
to the row of the machine. -/
theorem recorded_of_swap {row₀ : MachineRow} {now : Time} {w w' : World} {r : Except Err Bool}
    (hrec : Recordable expected lastError (row₀.scan expected.name))
    (hs : step lib (.updateProvisioningAttempt (row₀.scan expected.name)
      ((row₀.scan expected.name).withPowerResult action lastError now)) w r = some w') :
    w'.db = w.db ∨ ∃ row row', RecordedOn expected action lastError now row₀ row row' ∧
      w.db.machines[expected.name]? = some row ∧ w'.db.hosts = w.db.hosts ∧
      ∀ n, w'.db.machines[n]? = if expected.name = n then some row' else w.db.machines[n]? := by
  rcases execute_eq_some hs with ⟨-, rfl⟩ | ⟨-, rfl⟩
  swap
  · exact Or.inl rfl
  rcases @updateProvisioningAttempt_cases lib (row₀.scan expected.name)
    ((row₀.scan expected.name).withPowerResult action lastError now) w.db with
    ⟨-, -, row, -, -, -, -, -, hrow, -, hstatus, hip, heq⟩ | heq
  swap
  · exact Or.inl (by rw [heq])
  obtain ⟨p, hp, hattempt, hne, hactive, hprogress⟩ := hrec.provision
  have hrow : w.db.machines[expected.name]? = some row := hrow
  refine Or.inr ⟨row, _, ⟨?_, ?_, ?_, rfl⟩, hrow, by rw [heq]; rfl, fun n => ?_⟩
  · -- the stored text of the provisioning record differs at most in its curtin configuration
    refine ⟨p.marshal lib, ?_, hattempt, hne, hactive, hprogress⟩
    rw [hstatus, marshalStatus, hp]
    rfl
  · intro h
    rw [hstatus]
    exact hrec.noError h
  · rw [hstatus]
    exact ⟨rfl, rfl⟩
  · rw [heq, Database.modifyMachine, Table.get_modify]
    split
    · rename_i hn
      have hn : expected.name = n := hn
      subst hn
      rw [hrow, Option.map_some, marshalStatus_withPowerResult, ← hstatus]
      have hip : ((row₀.scan expected.name).withPowerResult action lastError now).ip = row.ip :=
        hip.symm
      rw [hip, if_pos rfl]
      rfl
    · rename_i hn
      have hn : expected.name ≠ n := hn
      rw [if_neg hn]

/-! ### Runs -/

section Runs

variable {α : Type} {pool : ℕ → Prog Res α} {w₀ w w' : World} {T : List (Event Res)} {e : Event Res}
  {c c' : ℕ → Prog Res α} {a : α}

/-- A step of a recording leaves the database alone, or writes the result to the row that it has
read. -/
theorem RecordAllowed.step_cases {cs : List (Call Res)} {o : Op} {r : Res o}
    (h : RecordAllowed expected action lastError cs o) (hs : step lib o w r = some w') :
    w'.db = w.db ∨ ∃ cs₀ m now,
      cs = cs₀ ++ [⟨.getMachine expected.name, Except.ok m⟩, ⟨.now, now⟩] ∧
      ∀ row₀ : MachineRow, m = row₀.scan expected.name →
        ∃ row row', RecordedOn expected action lastError now row₀ row row' ∧
          w.db.machines[expected.name]? = some row ∧ w'.db.hosts = w.db.hosts ∧
          ∀ n, w'.db.machines[n]? =
            if expected.name = n then some row' else w.db.machines[n]? := by
  cases o with
  | getMachine n => exact Or.inl (congrArg World.db (execute_read (getMachine_read n) hs))
  | now => exact Or.inl (congrArg World.db (Option.some.inj hs).symm)
  | updateProvisioningAttempt before =>
    obtain ⟨cs₀, now, hcs, hrec, rfl⟩ := h
    by_cases hdb : w'.db = w.db
    · exact Or.inl hdb
    refine Or.inr ⟨cs₀, before, now, hcs, ?_⟩
    rintro row₀ rfl
    exact (recorded_of_swap hrec hs).resolve_left hdb
  | _ => exact h.elim

/-- **A late power result touches only its own attempt.** Whatever the other clients of a run are: a
step by which a recording changes the database changes only the row of its machine. This row has the
attempt of the power cycle, which is active; an error is recorded only where there is none and the
installer has reported nothing. The client had read the row before, at `w₁`, and what it replaces is
what it read then, so that it does not undo what any client has written in between; it leaves
everything else as it finds it. -/
theorem power_result_isolated
    (hpool : pool e.tid = do recordWindowsRedeployPowerAction expected action lastError; return a)
    (hrun : Run (step lib) pool w₀ T c w) (hrun' : Run (step lib) pool w₀ (T ++ [e]) c' w')
    (hdb : w'.db ≠ w.db) :
    ∃ T₁ T₂ e₁ c₁ w₁ row₀ row row' now, T = T₁ ++ e₁ :: T₂ ∧ e₁.tid = e.tid ∧
      Run (step lib) pool w₀ T₁ c₁ w₁ ∧ w₁.db.machines[expected.name]? = some row₀ ∧
      e₁.toCall = ⟨.getMachine expected.name, Except.ok (row₀.scan expected.name)⟩ ∧
      RecordedOn expected action lastError now row₀ row row' ∧
      w.db.machines[expected.name]? = some row ∧ w'.db.hosts = w.db.hosts ∧
      ∀ n, w'.db.machines[n]? = if expected.name = n then some row' else w.db.machines[n]? := by
  -- the step, and that the client is allowed to make it
  obtain ⟨c₂, w₂, k, w₃, hrun₂, hcall, hs, -, hafter⟩ := hrun'.split
  obtain rfl : w₂ = w := Option.mem_unique hrun₂.after_eq hrun.after_eq
  cases hafter
  have hobeys : Obeys (RecordAllowed expected action lastError) (fun _ _ => True)
      (pool e.tid) [] := by
    rw [hpool]
    exact (recordWindowsRounds_obeys 3 []).bind fun _ _ _ _ => .pure trivial
  have hallowed := hobeys.of_path (hcall ▸ hrun₂.path e.tid)
  obtain ⟨cs₀, m, now, hcs, hwrite⟩ := (hallowed.step_cases hs).resolve_left hdb
  -- the read that the write is about
  have hread : [(⟨.getMachine expected.name, Except.ok m⟩ : Call Res)].Sublist
      (localOf e.tid T) := by
    rw [hcs]
    exact List.Sublist.trans (by simp) (List.sublist_append_right cs₀ _)
  obtain ⟨T₁, e₁, T₂, hT, htid, hcall₁, -⟩ := localOf_cons_sublist hread
  obtain ⟨c₁, w₁, -, w₃, hrun₁, -, hs₁, -, -⟩ := (hT ▸ hrun₂).split
  obtain ⟨t₁, o₁, r₁⟩ := e₁
  obtain ⟨rfl, hr⟩ := Call.mk.inj hcall₁
  obtain rfl := eq_of_heq hr
  have hfound := (execute_ok hs₁).1
  unfold getMachine at hfound
  split at hfound
  case h_2 => cases hfound
  rename_i row₀ hrow₀
  cases hfound
  obtain ⟨row, row', hrecorded, hrow, hhosts, hrows⟩ := hwrite row₀ rfl
  exact ⟨T₁, T₂, _, c₁, w₁, row₀, row, row', now, hT, htid, hrun₁, hrow₀, rfl, hrecorded, hrow,
    hhosts, hrows⟩

end Runs

/-! ### A recording that has to start over -/

/-- A Windows machine that is being installed. -/
def Machine.sampleWindows : Machine :=
  { Machine.sample "m1" with
    osPreset := { family := "windows", version := "11", imageRef := "windows" }
    phase := .provisioning
    provision := some { active := true, attemptID := "a1", completionToken := "t1" } }

/-- A failed wake-up to be recorded, and a power action that succeeds. -/
def wakeClients : ℕ → Prog Res Unit
  | 0 => do
    recordWindowsRedeployPowerAction Machine.sampleWindows .powerOn (some "no answer")
    return ()
  | _ => recordMachinePowerAction "m1" .powerOff none

/-- The machine before `Gomi.wakeClients` run. -/
def wakeWorld : World :=
  { db := Database.empty.setMachine "m1" (Machine.sampleWindows.toRow (Lib.sample []) 0) }

/-- The failure is about to be written when the other power action is recorded, so its first swap is
refused and its second one succeeds. -/
theorem wakeClients_play :
    ((play (step (Lib.sample []))
        ([0, 0, 1, 1, 0, 0, 0].map fun t => (t, World.answer (Lib.sample []) Query.silent))
        ([], wakeClients, wakeWorld)).any fun x => x.1.length = 7 &&
      (play (step (Lib.sample [])) [(0, World.answer (Lib.sample []) Query.silent)] x).any fun y =>
        y.1.length = 8 && y.1[7]?.any (·.tid = 0) && x.2.2.db.machines["m1"]?.any fun row =>
          y.2.2.db.machines["m1"]?.any fun row' =>
            row.status.lastPowerAction = "power-off" ∧ row.status.lastError = "" ∧
              row'.status.lastError = "no answer") = true := by
  decide

theorem power_result_retried : ∃ T e c c' w w',
    Run (step (Lib.sample [])) wakeClients wakeWorld T c w ∧
    Run (step (Lib.sample [])) wakeClients wakeWorld (T ++ [e]) c' w' ∧ e.tid = 0 ∧ w'.db ≠ w.db ∧
    ∃ T₁ T₂ e₁ c₁ w₁ row₀ row row' now, T = T₁ ++ e₁ :: T₂ ∧ e₁.tid = e.tid ∧
      Run (step (Lib.sample [])) wakeClients wakeWorld T₁ c₁ w₁ ∧
      w₁.db.machines["m1"]? = some row₀ ∧
      e₁.toCall = ⟨.getMachine "m1", Except.ok (row₀.scan "m1")⟩ ∧
      RecordedOn Machine.sampleWindows .powerOn (some "no answer") now row₀ row row' ∧
      w.db.machines["m1"]? = some row ∧ w'.db.hosts = w.db.hosts ∧
      ∀ n, w'.db.machines[n]? = if "m1" = n then some row' else w.db.machines[n]? := by
  obtain ⟨T, c, w, T', c', w', hrun, hlen, hrun', hcheck⟩ := exists_runs_of_play wakeClients_play
  obtain ⟨hcheck, hrows⟩ := Bool.and_eq_true_iff.mp hcheck
  obtain ⟨hlen', htid⟩ := Bool.and_eq_true_iff.mp hcheck
  have hlen : T.length = 7 := of_decide_eq_true hlen
  have hlen' : (T ++ T').length = 8 := of_decide_eq_true hlen'
  obtain ⟨e, rfl⟩ : ∃ e, T' = [e] := List.length_eq_one_iff.mp (by
    rw [List.length_append, hlen] at hlen'
    omega)
  have htid : e.tid = 0 := by
    have hget : (T ++ [e])[7]? = some e := by
      rw [← hlen, List.getElem?_append_right le_rfl]
      simp
    have htid : (T ++ [e])[7]?.any (·.tid = 0) = true := htid
    rw [hget] at htid
    simpa using htid
  have hdb : w'.db ≠ w.db := by
    intro heq
    obtain ⟨row, hrow, hrest⟩ := (Option.any_eq_true _ _).mp hrows
    obtain ⟨row', hrow', hrest⟩ := (Option.any_eq_true _ _).mp hrest
    obtain ⟨-, herr, herr'⟩ := of_decide_eq_true hrest
    have hrow' : w'.db.machines["m1"]? = some row' := hrow'
    rw [heq] at hrow'
    obtain rfl := Option.mem_unique hrow hrow'
    exact absurd (herr.symm.trans herr') (by decide)
  exact ⟨T, e, c, c', w, w', hrun, hrun', htid, hdb,
    power_result_isolated (by rw [htid]; rfl) hrun hrun' hdb⟩

end Gomi
