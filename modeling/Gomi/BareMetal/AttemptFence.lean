import Gomi.Store.Client
import Gomi.Store.Writes

/-!
# The attempt fence

`CommitDeployment` writes the attempt of an installation into two tables: into the
record of the machine and, as `attempt_id`, into the row of its host. Nobody who writes
machine records reads the other table. What keeps the two together is the condition of
`Upsert` (`Gomi.fenceAdmits`): a claimed host accepts only records of its own attempt.

So from a commit on, and for as long as the row has the attempt it committed, the machine
is stored with this attempt (`Gomi.Fenced`), whatever any client of the two stores does.
A record that was read under another attempt and is written back is refused.
-/

namespace Gomi

variable {lib : Lib} {w w' : World} {n a : String}

/-- Host `n` is claimed with attempt `a`, and its machine is stored with this attempt. -/
def Fenced (n a : String) (db : Database) : Prop :=
  ∃ r row, db.hosts[n]? = some r ∧ r.owner ≠ none ∧ r.attemptID = a ∧
    db.machines[n]? = some row ∧ row.attempt = a

/-! ### One step -/

variable {o : Op} {res : Res o} {T : List (Event Res)}

/-- **The fence holds one write**: a write of the machine of a claimed host, other than
its next commit, leaves a record of the attempt the host is claimed with. -/
theorem MachineWrite.attempt_kept {r : HostRow} {row : MachineRow} {y : Option MachineRow}
    (h : MachineWrite lib n o res (some r) (some row) y) (howner : r.owner ≠ none)
    (hattempt : row.attempt = r.attemptID) (hcommit : ∀ h m, o ≠ .commitDeployment h m) :
    ∃ row', y = some row' ∧ row'.attempt = r.attemptID := by
  cases h with
  | commit => exact absurd rfl (hcommit _ _)
  | @upsert m _ _ hname hfence =>
    refine ⟨_, rfl, ?_⟩
    have hfree : r.owner = none ∨ r.attemptID = m.attempt := by simpa [fenceAdmits] using hfence
    rw [Machine.toRow_attempt]
    exact (hfree.resolve_left howner).symm
  | power hop hspec hprovision hphase =>
    refine ⟨_, rfl, ?_⟩
    rw [MachineRow.attempt, hprovision]
    exact hattempt
  | dynamicIP | unregister => exact ⟨_, rfl, hattempt⟩
  | @compareAndSwap before after p q _ _ hname hname' hbefore hafter htoken hid hspec hstatus hip =>
    refine ⟨_, rfl, ?_⟩
    rw [← hattempt]
    simp [MachineRow.attempt, hstatus, marshalStatus, hbefore, hafter, ProvisionProgress.marshal,
      hid]

/-- **The fence holds one step**, if the attempt of the host is the same after it. -/
theorem step_fenced {r' : HostRow} (ha : a ≠ "") (hs : step lib o w res = some w')
    (hw : Fenced n a w.db) (hr' : w'.db.hosts[n]? = some r') (hattempt' : r'.attemptID = a) :
    Fenced n a w'.db := by
  obtain ⟨r, row, hr, howner, hattempt, hrow, hrowa⟩ := hw
  have howner' : r'.owner ≠ none := by
    rcases step_host hs with heq | hwrite
    · rw [hr', hr] at heq
      rw [Option.some.inj heq]
      exact howner
    · rw [hr, hr'] at hwrite
      cases hwrite with
      | pool hpos hrev hnone | claim hpool hnone => exact absurd hnone howner
      | transition => exact howner
      | release => exact absurd hattempt'.symm ha
      | commit => exact howner
  suffices hmachine : ∃ row', w'.db.machines[n]? = some row' ∧ row'.attempt = a by
    obtain ⟨row', hrow', hrowa'⟩ := hmachine
    exact ⟨r', row', hr', howner', hattempt', hrow', hrowa'⟩
  rcases step_machine hs with heq | hwrite
  · exact ⟨row, heq.trans hrow, hrowa⟩
  · rw [hr, hrow] at hwrite
    by_cases hcommit : ∃ h m, o = .commitDeployment h m
    · -- a commit writes the same attempt into both tables
      obtain ⟨h, m, rfl⟩ := hcommit
      generalize hy : w'.db.machines[n]? = y at hwrite
      cases hwrite with
      | @commit _ _ next _ _ hname htarget =>
        obtain ⟨p, b, -, -, -, hmh, -⟩ := commitTarget_eq_some.mp htarget
        obtain ⟨r₁, row₁, next₁, -, -, -, -, -, -, hhost, -⟩ := step_commit_ok hs
        rw [← hmh, hname, hr'] at hhost
        refine ⟨_, rfl, ?_⟩
        rw [Machine.toRow_attempt, ← hattempt', Option.some.inj hhost]
        rfl
      | power hop => simp at hop
    · push Not at hcommit
      obtain ⟨row', hy, hrowa'⟩ :=
        hwrite.attempt_kept howner (hrowa.trans hattempt.symm) hcommit
      exact ⟨row', hy, hrowa'.trans hattempt⟩

/-! ### Runs -/

/-- An acknowledged commit of attempt `a` on host `n`. -/
def Event.Commits (n a : String) (e : Event Res) : Prop :=
  ∃ h m h', e.toCall = ⟨.commitDeployment h m, Except.ok h'⟩ ∧ h.name = n ∧ m.attempt = a

variable (lib) in
/-- **The attempt of host `n` was set by `CommitDeployment`**: a commit set it to `a`, and
it has been `a` since. -/
def SetByCommit (w₀ : World) (T : List (Event Res)) (n a : String) : Prop :=
  ∃ T₁ e T₂, T = T₁ ++ e :: T₂ ∧ e.Commits n a ∧
    ∀ T' w', T' <+: T₂ → after (step lib) w₀ (T₁ ++ e :: T') = some w' →
      ∃ r, w'.db.hosts[n]? = some r ∧ r.attemptID = a

/-- A commit raises the fence. -/
theorem Event.Commits.fenced {e : Event Res} (he : e.Commits n a)
    (hs : step lib e.op w e.res = some w') : a ≠ "" ∧ Fenced n a w'.db := by
  obtain ⟨tid, op, res⟩ := e
  obtain ⟨h, m, h', heq, rfl, rfl⟩ := he
  obtain ⟨rfl, hres⟩ := Call.mk.inj heq
  obtain rfl := eq_of_heq hres
  obtain ⟨r, row, next, -, -, htarget, howner, -, -, hhost, hmachine⟩ := step_commit_ok hs
  obtain ⟨p, b, hp, -, -, -, -, hne, -⟩ := commitTarget_eq_some.mp htarget
  refine ⟨by simpa [Machine.attempt, hp] using hne, _, _, hhost, ?_, rfl, hmachine,
    Machine.toRow_attempt ..⟩
  rw [HostRow.moved_owner, howner]
  simp

/-- **The fence holds a whole run**, as long as the host keeps its attempt. -/
theorem after_fenced (ha : a ≠ "") (hT : after (step lib) w T = some w') (hw : Fenced n a w.db)
    (hsince : ∀ T' w₁, T' <+: T → after (step lib) w T' = some w₁ →
      ∃ r, w₁.db.hosts[n]? = some r ∧ r.attemptID = a) : Fenced n a w'.db := by
  induction T generalizing w with
  | nil =>
    cases hT
    exact hw
  | cons e T ih =>
    obtain ⟨w₁, hs, hT⟩ := after_cons_eq_some.mp hT
    have hone : after (step lib) w [e] = some w₁ := after_cons_eq_some.mpr ⟨w₁, hs, rfl⟩
    obtain ⟨r, hr, hra⟩ := hsince [e] w₁ (by simp) hone
    refine ih hT (step_fenced ha hs hw hr hra) fun T' w₂ hT' hw₂ => ?_
    exact hsince (e :: T') w₂ (List.cons_prefix_cons.mpr ⟨rfl, hT'⟩)
      (after_cons_eq_some.mpr ⟨w₁, hs, hw₂⟩)

/-- An attempt that has just been committed was set by `CommitDeployment`. -/
theorem SetByCommit.of_last {w₀ : World} {e : Event Res} (he : e.Commits n a) :
    SetByCommit lib w₀ (T ++ [e]) n a := by
  refine ⟨T, e, [], rfl, he, fun T' w' hT' hw' => ?_⟩
  obtain rfl := List.prefix_nil.mp hT'
  obtain ⟨w₁, w₂, -, hs, hw₂⟩ := after_split hw'
  cases hw₂
  obtain ⟨-, r, -, hr, -, hattempt, -⟩ := he.fenced hs
  exact ⟨r, hr, hattempt⟩

/-- An attempt stays set by a commit when an event leaves the database alone. -/
theorem SetByCommit.snoc {w₀ : World} {e : Event Res} (h : SetByCommit lib w₀ T n a)
    (hT : after (step lib) w₀ T = some w) (hs : step lib e.op w e.res = some w')
    (hdb : w'.db = w.db) : SetByCommit lib w₀ (T ++ [e]) n a := by
  obtain ⟨T₁, d, T₂, rfl, hd, hsince⟩ := h
  refine ⟨T₁, d, T₂ ++ [e], by simp, hd, fun T' w₁ hT' hw₁ => ?_⟩
  rcases List.prefix_concat_iff.mp hT' with rfl | hT'
  · have hlast : after (step lib) w₀ ((T₁ ++ d :: T₂) ++ [e]) = some w' :=
      after_append_eq_some.mpr ⟨w, hT, after_cons_eq_some.mpr ⟨w', hs, rfl⟩⟩
    obtain rfl : w' = w₁ := Option.some.inj (hlast.symm.trans (by simpa using hw₁))
    rw [hdb]
    exact hsince T₂ w List.prefix_rfl hT
  · exact hsince T' w₁ hT' hw₁

/-- The host of an attempt that was set by a commit is fenced. -/
theorem SetByCommit.fenced {w₀ : World} (h : SetByCommit lib w₀ T n a)
    (hT : after (step lib) w₀ T = some w) : Fenced n a w.db := by
  obtain ⟨T₁, e, T₂, rfl, he, hsince⟩ := h
  obtain ⟨w₁, w₂, hw₁, hs, hw₂⟩ := after_split hT
  obtain ⟨ha, hfenced⟩ := he.fenced hs
  refine after_fenced ha hw₂ hfenced fun T' w₃ hT' hw₃ => hsince T' w₃ hT' ?_
  exact after_append_eq_some.mpr ⟨w₁, hw₁, after_cons_eq_some.mpr ⟨w₂, hs, hw₃⟩⟩

/-- The writes of a machine record that was read earlier: which machine it is of, and the
attempt it was read with. -/
def Op.snapshot : Op → Option (String × String)
  | .upsert m => some (m.name, m.attempt)
  | .updateProvisioningAttempt before _ => some (before.name, before.attempt)
  | _ => none

/-- **A stale record is not written.** -/
theorem Fenced.refuses {b : String} (h : Fenced n a w.db) (ho : o.snapshot = some (n, b))
    (hb : b ≠ a) (hs : step lib o w res = some w') : w'.db = w.db := by
  obtain ⟨r, row, hr, howner, hattempt, hrow, hrowa⟩ := h
  cases o <;> simp only [Op.snapshot, Option.some.injEq, Prod.mk.injEq, reduceCtorEq] at ho
  case upsert m =>
    obtain ⟨rfl, rfl⟩ := ho
    rcases execute_eq_some hs with ⟨-, rfl⟩ | ⟨-, rfl⟩
    · rcases @upsert_cases lib m w.db with ⟨hnone, -⟩ | ⟨row', -, hfence, -⟩ | heq
      · cases hnone.symm.trans hrow
      · have hfree : r.owner = none ∨ r.attemptID = m.attempt := by
          simpa [fenceAdmits, hr] using hfence
        exact absurd ((hfree.resolve_left howner).symm.trans hattempt) hb
      · rw [heq]
    · rfl
  case updateProvisioningAttempt before after =>
    obtain ⟨rfl, rfl⟩ := ho
    rcases execute_eq_some hs with ⟨-, rfl⟩ | ⟨-, rfl⟩
    · rcases @updateProvisioningAttempt_cases lib before after w.db with
        ⟨p, q, row', hp, -, -, -, -, hrow', -, hstatus, -, -⟩ | heq
      · obtain rfl := Option.mem_unique hrow hrow'
        refine absurd ?_ hb
        rw [← hrowa]
        simp [MachineRow.attempt, Machine.attempt, hstatus, marshalStatus, hp,
          ProvisionProgress.marshal]
      · rw [heq]
    · rfl

/-- **The attempt fence**, for every run of every pool of clients of the two stores:
while a host has an attempt that was set by `CommitDeployment`, it has an owner, its
machine is stored with this attempt, and the write of a record that was read with another
attempt changes nothing. -/
theorem attempt_fence {α : Type} {pool : ℕ → Prog Res α} {c : ℕ → Prog Res α} {w₀ : World}
    {T : List (Event Res)} (hrun : Run (step lib) pool w₀ T c w)
    (hset : SetByCommit lib w₀ T n a) :
    (∃ r row, w.db.hosts[n]? = some r ∧ r.owner ≠ none ∧ r.attemptID = a ∧
      w.db.machines[n]? = some row ∧ (row.scan n).attempt = a) ∧
      ∀ (o : Op) (res : Res o) (b : String) (w' : World), o.snapshot = some (n, b) → b ≠ a →
        step lib o w res = some w' → w'.db = w.db :=
  have hfenced := hset.fenced hrun.after_eq
  ⟨hfenced, fun _ _ _ _ ho hb hs => hfenced.refuses ho hb hs⟩

/-- A database with one enrolled host, which is claimed. -/
def claimedDatabase : Database :=
  (claimFirst "pool" "capi-a"
    (insertHost "m1" "pool" sampleKey "/dev/sda" (Database.empty.setMachine "m1" {})).2).2

/-- The host of `Gomi.claimedDatabase`, as it is read. -/
def claimedHost : Host :=
  { name := "m1", pool := "pool", owner := "capi-a", state := .claimed, revision := 2,
    publicKey := sampleKey, targetDisk := "/dev/sda" }

/-- The machine of `Gomi.claimedHost` with an installation that can be committed. -/
def installingMachine : Machine :=
  { name := "m1", sealedBootstrap := some { owner := "capi-a" },
    provision := some { active := true, attemptID := "attempt-1" } }

/-- A record of the same machine that was read during an older attempt. -/
def olderMachine : Machine :=
  { installingMachine with provision := some { active := true, attemptID := "attempt-0" } }

/-- One client commits the installation, another one writes the older record. -/
def fencedClients : ℕ → Prog Res Unit
  | 0 => do
    let _ ← Prog.perform (Op.commitDeployment claimedHost installingMachine)
    return ()
  | _ => do
    let _ ← Prog.perform (Op.upsert olderMachine)
    return ()

/-- The commit. -/
def fencingCommit : Event Res :=
  ⟨0, .commitDeployment claimedHost installingMachine,
    Except.ok { claimedHost with state := .deploying, attemptID := "attempt-1", revision := 3 }⟩

/-- The write of the older record, which is refused. -/
def olderWrite : Event Res := ⟨1, .upsert olderMachine, Except.error .conflict⟩

/-- The older record is written after the commit, and nothing is changed by it nor by any other such
write. -/
theorem attempt_fence_claimed :
    ∃ (c : ℕ → Prog Res Unit) (w : World),
      Run (step (Lib.sample [])) fencedClients { db := claimedDatabase } [fencingCommit, olderWrite] c w ∧
      olderWrite.op.snapshot = some ("m1", "attempt-0") ∧
      SetByCommit (Lib.sample []) { db := claimedDatabase } [fencingCommit, olderWrite] "m1" "attempt-1" ∧
      (∃ r row, w.db.hosts["m1"]? = some r ∧ r.owner ≠ none ∧ r.attemptID = "attempt-1" ∧
        w.db.machines["m1"]? = some row ∧ (row.scan "m1").attempt = "attempt-1") ∧
      ∀ (o : Op) (res : Res o) (b : String) (w' : World), o.snapshot = some ("m1", b) →
        b ≠ "attempt-1" → step (Lib.sample []) o w res = some w' → w'.db = w.db := by
  have hdone : ((step (Lib.sample []) fencingCommit.op { db := claimedDatabase } fencingCommit.res).bind
      fun w => step (Lib.sample []) olderWrite.op w olderWrite.res).isSome = true := by
    decide +kernel
  obtain ⟨w, hw⟩ := Option.isSome_iff_exists.mp hdone
  obtain ⟨w₁, hs₁, hs₂⟩ := Option.bind_eq_some_iff.mp hw
  have hrun₁ := (Run.nil : Run (step (Lib.sample [])) fencedClients { db := claimedDatabase } _ _ _).snoc
    (t := 0) rfl hs₁
  have hrun := hrun₁.snoc (t := 1) rfl hs₂
  have hset₁ : SetByCommit (Lib.sample []) { db := claimedDatabase } ([] ++ [fencingCommit]) "m1"
      "attempt-1" := .of_last ⟨_, _, _, rfl, rfl, rfl⟩
  have hset := hset₁.snoc hrun₁.after_eq hs₂
    ((hset₁.fenced hrun₁.after_eq).refuses rfl (by decide) hs₂)
  exact ⟨_, w, hrun, rfl, hset, attempt_fence hrun hset⟩

end Gomi
