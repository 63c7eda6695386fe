import Gomi.Store.Client
import Gomi.Store.Writes

/-!
# The revision fence

Every write of a host row that is enrolled increments its revision, and every write that is called
with a host compares the revision. So a write succeeds only if the row is what was
read – as long as the row is the *same enrollment*. The fence compares numbers, not
enrollments: `Unregister` deletes the row and a new `Register` starts again from
revision 1, and by as many writes as before the revision comes back to the one that was
read.

`Gomi.revision_fence` says that this is the only way around the fence: between a read and
a write that succeeds with its revision nobody wrote the row exactly if nobody
unregistered the host.
-/

namespace Gomi

variable {lib : Lib} {w w' : World} {n : String}

/-! ### Reads and writes of a host -/

/-- The call returned the host `h`. -/
inductive Call.Returns : Call Res → Host → Prop
  /-- Bare-metal `Get`. -/
  | get (name : String) (h : Host) : Returns ⟨.getHost name, Except.ok h⟩ h
  /-- `FindOwner`. -/
  | find (owner : String) (h : Host) : Returns ⟨.findOwner owner, Except.ok h⟩ h
  /-- `Acquire`. -/
  | claim (pool owner : String) (h : Host) : Returns ⟨.claimFirst pool owner, Except.ok h⟩ h
  /-- `UpdatePool`. -/
  | pool (name pool : String) (rev : ℤ) (h : Host) : Returns ⟨.updatePool name pool rev, Except.ok h⟩ h
  /-- `Transition`. -/
  | transition (h₀ : Host) (next : HostState) (attempt : String) (h : Host) :
      Returns ⟨.transition h₀ next attempt, Except.ok h⟩ h
  /-- `CompleteRelease`. -/
  | release (h₀ h : Host) : Returns ⟨.completeRelease h₀, Except.ok h⟩ h
  /-- `CommitDeployment`. -/
  | commit (h₀ : Host) (m : Machine) (h : Host) : Returns ⟨.commitDeployment h₀ m, Except.ok h⟩ h

/-- The call was an acknowledged write of the host `n`, called with revision `rev`. -/
inductive Call.Writes (n : String) (rev : ℤ) : Call Res → Prop
  /-- `UpdatePool`. -/
  | pool (pool : String) (h' : Host) : Writes n rev ⟨.updatePool n pool rev, Except.ok h'⟩
  /-- `Unregister`. -/
  | unregister : Writes n rev ⟨.unregister n rev, Except.ok ()⟩
  /-- `Transition`. -/
  | transition {h : Host} (next : HostState) (attempt : String) (h' : Host) (hname : h.name = n)
      (hrev : h.revision = rev) : Writes n rev ⟨.transition h next attempt, Except.ok h'⟩
  /-- `CompleteRelease`. -/
  | release {h : Host} (h' : Host) (hname : h.name = n) (hrev : h.revision = rev) :
      Writes n rev ⟨.completeRelease h, Except.ok h'⟩
  /-- `CommitDeployment`. -/
  | commit {h : Host} (m : Machine) (h' : Host) (hname : h.name = n) (hrev : h.revision = rev) :
      Writes n rev ⟨.commitDeployment h m, Except.ok h'⟩

/-- The call was an acknowledged `Unregister` of host `n`. -/
def Call.Unregisters (n : String) (c : Call Res) : Prop :=
  ∃ rev, c = ⟨.unregister n rev, Except.ok ()⟩

variable {c : Call Res} {T : List (Event Res)}

/-- A host that is returned has the revision of its row. -/
theorem Call.Returns.row {h : Host} (hc : c.Returns h) (hs : step lib c.op w c.res = some w') :
    ∃ r, w'.db.hosts[h.name]? = some r ∧ r.revision = h.revision := by
  cases hc with
  | get =>
    obtain ⟨rfl, r, hr, rfl⟩ := step_getHost_ok hs
    exact ⟨r, hr, rfl⟩
  | find =>
    obtain ⟨rfl, r, hr, -, hscan⟩ := step_findOwner_ok hs
    exact ⟨r, hr, by rw [hscan, HostRow.scan_revision]⟩
  | claim =>
    obtain ⟨r, -, -, hscan, hr⟩ := step_claimFirst_ok hs
    exact ⟨_, hr, by rw [hscan, HostRow.scan_revision]⟩
  | pool name pool =>
    obtain ⟨hok, rfl⟩ := execute_ok hs
    rcases updatePool_cases with ⟨r, hr, -, -, -, -, heq⟩ | heq
    · rw [heq] at hok
      obtain rfl := Except.ok.inj hok
      exact ⟨r.inPool pool, by simp [heq, Database.modifyHost_hosts, hr], by rw [HostRow.scan_revision]⟩
    · rw [heq] at hok
      cases hok
  | transition h₀ next attempt =>
    obtain ⟨hok, rfl⟩ := execute_ok hs
    rcases transition_cases with ⟨r, hr, -, -, -, -, -, heq⟩ | ⟨e, heq⟩
    · rw [heq] at hok
      obtain rfl := Except.ok.inj hok
      exact ⟨r.moved next attempt, by simp [heq, Database.modifyHost_hosts, hr], by rw [HostRow.scan_revision]⟩
    · rw [heq] at hok
      cases hok
  | release h₀ =>
    obtain ⟨hok, rfl⟩ := execute_ok hs
    rcases completeRelease_cases with ⟨r, hr, -, -, -, -, heq⟩ | heq
    · rw [heq] at hok
      obtain rfl := Except.ok.inj hok
      exact ⟨r.released, by simp [heq, Database.modifyHost_hosts, hr], by rw [HostRow.scan_revision]⟩
    · rw [heq] at hok
      cases hok
  | commit h₀ m =>
    obtain ⟨hok, rfl⟩ := execute_ok hs
    rcases commitDeployment_cases h₀ m w.db with ⟨r, row, next, hr, -, -, -, -, hrev, heq⟩ | heq
    · rw [heq] at hok
      obtain rfl := Except.ok.inj hok
      exact ⟨r.moved next m.attempt, by simp [heq, Database.modifyHost_hosts, hr], by rw [← hrev]; rfl⟩
    · rw [heq] at hok
      cases hok

/-- A write that succeeds was called with the revision of the row. -/
theorem Call.Writes.row {rev : ℤ} (hc : c.Writes n rev) (hs : step lib c.op w c.res = some w') :
    ∃ r, w.db.hosts[n]? = some r ∧ r.revision = rev := by
  cases hc with
  | pool =>
    obtain ⟨hok, -⟩ := execute_ok hs
    rcases updatePool_cases with ⟨r, hr, -, hrev, -, -, -⟩ | heq
    · exact ⟨r, hr, hrev⟩
    · rw [heq] at hok
      cases hok
  | unregister =>
    obtain ⟨hok, -⟩ := execute_ok hs
    rcases unregister_cases n rev w.db with ⟨r, m, hr, -, -, hrev, -⟩ | heq
    · exact ⟨r, hr, hrev⟩
    · rw [heq] at hok
      cases hok
  | @transition h next attempt h' hname hrev =>
    obtain ⟨hok, -⟩ := execute_ok hs
    rcases transition_cases with ⟨r, hr, -, -, hrev', -⟩ | ⟨e, heq⟩
    · exact ⟨r, hname ▸ hr, hrev'.trans hrev⟩
    · rw [heq] at hok
      cases hok
  | @release h h' hname hrev =>
    obtain ⟨hok, -⟩ := execute_ok hs
    rcases completeRelease_cases with ⟨r, hr, -, -, hrev', -⟩ | heq
    · exact ⟨r, hname ▸ hr, hrev'.trans hrev⟩
    · rw [heq] at hok
      cases hok
  | @commit h m h' hname hrev =>
    obtain ⟨r, -, -, hr, -, -, -, -, hrev', -⟩ := step_commit_ok hs
    exact ⟨r, hname ▸ hr, hrev'.trans hrev⟩

/-! ### Revisions along a run -/

/-- **A write increments the revision**, unless it removes the row. -/
theorem HostWrite.revision {o : Op} {res : Res o} {r : HostRow} {y : Option HostRow}
    (h : HostWrite n o res (some r) y) :
    Call.Unregisters n ⟨o, res⟩ ∧ y = none ∨ ∃ r', y = some r' ∧ r'.revision = r.revision + 1 := by
  cases h with
  | pool | claim | transition | release | commit => exact Or.inr ⟨_, rfl, rfl⟩
  | @unregister rev _ => exact Or.inl ⟨⟨rev, rfl⟩, rfl⟩

/-- An `Unregister` that succeeds removes the row. -/
theorem Call.Unregisters.row (hc : c.Unregisters n) (hs : step lib c.op w c.res = some w') :
    w'.db.hosts[n]? = none := by
  obtain ⟨rev, rfl⟩ := hc
  obtain ⟨hok, rfl⟩ := execute_ok hs
  rcases unregister_cases n rev w.db with ⟨r, m, -, -, -, -, -, -, -, heq⟩ | heq
  · simp [heq, Database.eraseHost_hosts]
  · rw [heq] at hok
    cases hok

variable (lib) in
/-- Nobody writes the row of host `n` during `T`: it is throughout what it is at the
start. Every write of a row changes it, since it removes the row or increments its
revision. -/
def HostUntouched (w : World) (T : List (Event Res)) (n : String) : Prop :=
  ∀ T' w', T' <+: T → after (step lib) w T' = some w' → w'.db.hosts[n]? = w.db.hosts[n]?

/-- **Revisions only grow within an enrollment**, and a revision that has not grown
belongs to a row that nobody has written. -/
theorem revision_le {r : HostRow} (hT : after (step lib) w T = some w')
    (hr : w.db.hosts[n]? = some r) (hreg : ∀ e ∈ T, ¬ e.toCall.Unregisters n) :
    ∃ r', w'.db.hosts[n]? = some r' ∧ r.revision ≤ r'.revision ∧
      (r'.revision = r.revision → HostUntouched lib w T n) := by
  induction T generalizing w r with
  | nil =>
    cases hT
    refine ⟨r, hr, le_rfl, fun _ T' w₁ hT' hw₁ => ?_⟩
    obtain rfl := List.prefix_nil.mp hT'
    cases hw₁
    rfl
  | cons e T ih =>
    obtain ⟨w₁, hs, hT⟩ := after_cons_eq_some.mp hT
    have hreg' := fun e' he' => hreg e' (List.mem_cons_of_mem _ he')
    rcases step_host hs with heq | hwrite
    · -- the event leaves the row alone
      obtain ⟨r', hr', hle, huntouched⟩ := ih hT (heq.trans hr) hreg'
      refine ⟨r', hr', hle, fun hrev T' w₂ hT' hw₂ => ?_⟩
      cases T' with
      | nil =>
        cases hw₂
        rfl
      | cons e' T' =>
        obtain ⟨rfl, hpre⟩ := List.cons_prefix_cons.mp hT'
        obtain ⟨w₁', hs', hw₂⟩ := after_cons_eq_some.mp hw₂
        obtain rfl := Option.mem_unique hs hs'
        exact (huntouched hrev T' w₂ hpre hw₂).trans heq
    · -- the event increments the revision, so it has grown for good
      rw [hr] at hwrite
      rcases hwrite.revision with ⟨hun, -⟩ | ⟨r₁, hr₁, hrev₁⟩
      · exact absurd hun (hreg e List.mem_cons_self)
      · obtain ⟨r', hr', hle, -⟩ := ih hT hr₁ hreg'
        exact ⟨r', hr', by omega, fun hrev => by omega⟩

/-- **The revision fence.** In every run of every pool of clients of the two stores,
between a read of a host and a write that succeeds with its revision nobody wrote the row
of this host – exactly if nobody unregistered it. -/
theorem revision_fence {α : Type} {pool c : ℕ → Prog Res α} {w₀ w₁ : World}
    {A B C : List (Event Res)} {e₁ e₂ : Event Res} {h : Host}
    (hrun : Run (step lib) pool w₀ (A ++ e₁ :: (B ++ e₂ :: C)) c w)
    (hread : e₁.toCall.Returns h) (hw₁ : after (step lib) w₀ (A ++ [e₁]) = some w₁)
    (hwrite : e₂.toCall.Writes h.name h.revision) :
    HostUntouched lib w₁ B h.name ↔ ∀ e ∈ B, ¬ e.toCall.Unregisters h.name := by
  -- the states at the read, before the write and after it
  obtain ⟨w₁', w₁'', hA, hs₁, hB⟩ := after_split hrun.after_eq
  obtain rfl : w₁ = w₁'' := Option.some.inj
    (hw₁.symm.trans (after_append_eq_some.mpr ⟨_, hA, after_cons_eq_some.mpr ⟨_, hs₁, rfl⟩⟩))
  obtain ⟨w₂, w₂', hB, hs₂, -⟩ := after_split hB
  obtain ⟨r, hr, hrev⟩ := hread.row hs₁
  constructor
  · intro huntouched e he hun
    obtain ⟨B₁, B₂, rfl⟩ := List.append_of_mem he
    obtain ⟨w₃, w₃', hB₁, hs₃, -⟩ := after_split hB
    have hprefix : B₁ ++ [e] <+: B₁ ++ e :: B₂ := by simp
    have hrow := huntouched _ w₃' hprefix
      (after_append_eq_some.mpr ⟨_, hB₁, after_cons_eq_some.mpr ⟨_, hs₃, rfl⟩⟩)
    rw [hun.row hs₃, hr] at hrow
    cases hrow
  · intro hreg
    obtain ⟨r', hr', -, huntouched⟩ := revision_le hB hr hreg
    obtain ⟨r₂, hr₂, hrev₂⟩ := hwrite.row hs₂
    obtain rfl := Option.mem_unique hr' hr₂
    exact huntouched (hrev₂.trans hrev.symm)

/-! ### A host that is enrolled again -/

/-- A host that was read when it had just been claimed. -/
def readHost : Host :=
  { name := "m1", pool := "pool", owner := "capi-a", state := .claimed, revision := 2,
    publicKey := sampleKey, targetDisk := "/dev/sda" }

/-- An installation that was prepared for `Gomi.readHost`. -/
def preparedMachine : Machine :=
  { name := "m1", targetDisk := "/dev/sda", sealedBootstrap := some { owner := "capi-a" },
    provision := some { active := true, attemptID := "attempt-1" } }

/-- The claim of `Gomi.readHost` is cancelled, the host is unregistered, enrolled with
another disk and claimed by the same owner, before the prepared installation is
committed. -/
def reenrollingCalls : ℕ → StoreCall
  | 0 => .register "m1" "pool" sampleKey "/dev/sda"
  | 1 => .acquire "pool" "capi-a"
  | 2 => .transition readHost .releasing ""
  | 3 => .completeRelease { readHost with state := .releasing, revision := 3 }
  | 4 => .unregister "m1" 4
  | 5 => .register "m1" "pool" sampleKey "/dev/sdb"
  | 6 => .acquire "pool" "capi-a"
  | 7 => .commitDeployment readHost preparedMachine
  | _ => .acquire "pool" "capi-b"

/-- The machine is stored, nothing is enrolled. -/
def unenrolledWorld : World := { db := Database.empty.setMachine "m1" {} }

/-- The run of a schedule of `Gomi.reenrollingCalls`. -/
def reenrollingRun (sched : List ℕ) :
    Option (List (Event Res) × (ℕ → Prog Res (Except Err (Option Host))) × World) :=
  play (step (Lib.sample []))
    (sched.map fun t => (t, World.answer (Lib.sample []) Query.silent))
    ([], fun t => (reenrollingCalls t).prog (Lib.sample []), unenrolledWorld)

/-- The trace of a schedule of `Gomi.reenrollingCalls`. -/
def reenrollingTrace (sched : List ℕ) : List (Event Res) :=
  ((reenrollingRun sched).map (·.1)).getD []

theorem run_reenrolling (sched : List ℕ) (h : (reenrollingRun sched).isSome = true)
    (hT : reenrollingTrace sched = T) :
    ∃ c w, Run (step (Lib.sample [])) (fun t => (reenrollingCalls t).prog (Lib.sample []))
      unenrolledWorld T c w := by
  obtain ⟨⟨T', c, w⟩, hx⟩ := Option.isSome_iff_exists.mp h
  have htrace : T' = T := by simpa [reenrollingTrace, hx] using hT
  exact ⟨c, w, htrace ▸ run_of_play hx⟩

/-- The disk that host `m1` is enrolled with after a trace. -/
def diskAfter (T : List (Event Res)) : Option String :=
  (after (step (Lib.sample [])) unenrolledWorld T).bind fun w => w.db.hosts["m1"]?.map (·.targetDisk)

theorem diskAfter_eq {disk : String} (h : diskAfter T = some disk) :
    ∃ w r, after (step (Lib.sample [])) unenrolledWorld T = some w ∧
      w.db.hosts["m1"]? = some r ∧ r.targetDisk = disk := by
  obtain ⟨w, hw, hdisk⟩ := Option.bind_eq_some_iff.mp h
  obtain ⟨r, hr, rfl⟩ := Option.map_eq_some_iff.mp hdisk
  exact ⟨w, r, hw, hr, rfl⟩

/-- The events before the claim that `Gomi.readHost` was read from. -/
def beforeRead : List (Event Res) := reenrollingTrace [0, 0, 1]

/-- The claim that `Gomi.readHost` was read from. -/
def readEvent : Event Res := ⟨1, .claimFirst "pool" "capi-a", Except.ok readHost⟩

/-- The events between the claim and the commit. -/
def meanwhile : List (Event Res) := (reenrollingTrace [0, 0, 1, 1, 2, 3, 4, 5, 5, 6, 6]).drop 4

/-- The commit of the installation that was prepared for `Gomi.readHost`. -/
def staleCommit : Event Res :=
  ⟨7, .commitDeployment readHost preparedMachine,
    Except.ok { readHost with state := .deploying, attemptID := "attempt-1", revision := 3 }⟩

/-- **The fence is passed by a host that was enrolled again**: the commit of an
installation that was prepared for one enrollment succeeds on another, with another
disk. -/
theorem revision_fence_reenrolled :
    ∃ c w w₁ w₂ r, Run (step (Lib.sample [])) (fun t => (reenrollingCalls t).prog (Lib.sample []))
        unenrolledWorld (beforeRead ++ readEvent :: (meanwhile ++ staleCommit :: [])) c w ∧
      readEvent.toCall.Returns readHost ∧
      after (step (Lib.sample [])) unenrolledWorld (beforeRead ++ [readEvent]) = some w₁ ∧
      staleCommit.toCall.Writes readHost.name readHost.revision ∧
      ¬ HostUntouched (Lib.sample []) w₁ meanwhile readHost.name ∧
      after (step (Lib.sample [])) w₁ meanwhile = some w₂ ∧
      w₂.db.hosts[readHost.name]? = some r ∧ r.targetDisk ≠ readHost.targetDisk := by
  obtain ⟨c, w, hrun⟩ :
      ∃ c w, Run (step (Lib.sample [])) (fun t => (reenrollingCalls t).prog (Lib.sample []))
        unenrolledWorld (beforeRead ++ readEvent :: (meanwhile ++ staleCommit :: [])) c w :=
    run_reenrolling [0, 0, 1, 1, 2, 3, 4, 5, 5, 6, 6, 7] (by decide +kernel) (by decide +kernel)
  obtain ⟨w₁, r₁, hw₁, hr₁, hdisk₁⟩ :=
    diskAfter_eq (show diskAfter (beforeRead ++ [readEvent]) = some "/dev/sda" by decide +kernel)
  obtain ⟨w₂, r₂, hw₂, hr₂, hdisk₂⟩ :=
    diskAfter_eq (show diskAfter ((beforeRead ++ [readEvent]) ++ meanwhile) = some "/dev/sdb" by
      decide +kernel)
  obtain ⟨w₁', hw₁', hmeanwhile⟩ := after_append_eq_some.mp hw₂
  obtain rfl := Option.mem_unique hw₁ hw₁'
  have hne : r₂.targetDisk ≠ readHost.targetDisk := by
    rw [hdisk₂]
    decide
  refine ⟨c, w, w₁, w₂, r₂, hrun, .claim .., hw₁, .commit _ _ rfl rfl, fun huntouched => ?_,
    hmeanwhile, hr₂, hne⟩
  have hrow := huntouched meanwhile w₂ (List.prefix_refl _) hmeanwhile
  rw [show readHost.name = "m1" from rfl, hr₂, hr₁] at hrow
  rw [Option.some.inj hrow, hdisk₁] at hdisk₂
  exact absurd hdisk₂ (by decide)

/-- Another client looks for its own host. -/
def otherLookup : Event Res := ⟨8, .findOwner "capi-b", Except.error .hostNotFound⟩

/-- The claim of `Gomi.readHost` is cancelled. -/
def cancellation : Event Res :=
  ⟨2, .transition readHost .releasing "",
    Except.ok { readHost with state := .releasing, revision := 3 }⟩

theorem revision_fence_cancellation :
    ∃ w₁, after (step (Lib.sample [])) unenrolledWorld (beforeRead ++ [readEvent]) = some w₁ ∧
      HostUntouched (Lib.sample []) w₁ [otherLookup] readHost.name := by
  obtain ⟨c, w, hrun⟩ :
      ∃ c w, Run (step (Lib.sample [])) (fun t => (reenrollingCalls t).prog (Lib.sample []))
        unenrolledWorld (beforeRead ++ readEvent :: ([otherLookup] ++ cancellation :: [])) c w :=
    run_reenrolling [0, 0, 1, 1, 8, 2] (by decide +kernel) (by decide +kernel)
  obtain ⟨w₁, r₁, hw₁, -⟩ :=
    diskAfter_eq (show diskAfter (beforeRead ++ [readEvent]) = some "/dev/sda" by decide +kernel)
  refine ⟨w₁, hw₁, (revision_fence hrun (.claim ..) hw₁ (.transition _ _ _ rfl rfl)).mpr ?_⟩
  intro e he hun
  obtain rfl := List.mem_singleton.mp he
  obtain ⟨rev, heq⟩ := hun
  exact absurd (congrArg Call.op heq) (by simp [otherLookup, Event.toCall])

end Gomi
