import Gomi.Record.Isolation

/-!
# What a callback was told

An installer that was answered takes it that its news is stored for good: once
`PXEDeployEvents` has acknowledged an applied image, the machine is never sent the
installer again, and once `PXEInstallComplete` has answered, the attempt is over. Both are
as durable as the record they are kept in, so a request that has read the record before
can take them back: a change of settings removes the mark of the image
(`Gomi.image_forgotten`), and a round of the sync loop makes a completed attempt active again
(`Gomi.completion_undone`).

Where rewrites are isolated, both are final (`Gomi.image_applied_durable`,
`Gomi.completion_final`): they are what every rewrite keeps of the record of an attempt.
-/

namespace Gomi

open Go

variable {lib : Lib} {s : Server} {reqs : ℕ → Request} {w₀ w : World} {T T₁ T₂ : List (Event Res)}
  {e : Event Res} {m : Machine} {n : String} {r : Response}

/-- An answer is as the handler specifies it. -/
theorem Answers.handler {p : Prog Res Response} {P : List (Call Res) → Op → Prop}
    {Q : List (Call Res) → Response → Prop}
    (h : Answers (step lib) (fun t => (reqs t).prog lib s) w₀ T e (some r))
    (hp : (reqs e.tid).prog lib s = do return some (← p)) (hQ : p.Obeys P Q []) :
    Q (localOf e.tid (T ++ [e])) r := by
  obtain ⟨c, w, hrun, hret⟩ := h
  have hpath := hrun.path e.tid
  rw [hret] at hpath
  have hobeys : ((reqs e.tid).prog lib s).Obeys P (fun cs a => ∀ r, a = some r → Q cs r) [] := by
    rw [hp]
    refine hQ.bind fun cs a _ ha => .pure fun r hr => ?_
    cases hr
    exact ha
  exact hobeys.of_path_ret hpath r rfl

/-- The answer comes after what was stored. -/
theorem Traced.stored_before {t : ℕ} (hT : Traced lib reqs w₀ (T ++ e :: T₂) w)
    (hmem : (⟨.upsert m, Except.ok ()⟩ : Call Res) ∈ localOf t (T ++ [e])) :
    ∃ A B w₁, T ++ e :: T₂ = A ++ B ∧ Traced lib reqs w₀ A w₁ ∧
      w₁.record m.name = some (m.view.stored lib) := by
  obtain ⟨w₁, w₂, -, -, -, hT', -⟩ := hT.at_event
  obtain ⟨A, u, B, w₃, hsplit, -, -, hA, hrecord⟩ := Traced.stored hT' rfl hmem
  refine ⟨A ++ [u], B ++ T₂, w₃, ?_, hA, hrecord⟩
  calc T ++ e :: T₂ = T ++ [e] ++ T₂ := by simp
    _ = A ++ [u] ++ (B ++ T₂) := by rw [hsplit]; simp

/-! ### Applied images -/

/-- **An acknowledged image is durable.** Once `PXEDeployEvents` has answered 200 to an
`image_applied` event, the event was recorded, and in every run that goes on from there and in which
the rewrites of that machine are isolated, every record of that attempt says that the image is
applied. -/
theorem image_applied_durable (h₀ : w₀.LabelsDrawn) {token attemptID source : String}
    {req : DeployEventReq} (hq : reqs e.tid = .deployEvents token attemptID source (some req))
    (htype : req.eventType = deployEventImageApplied)
    (hanswer : Answers (step lib) (fun t => (reqs t).prog lib s) w₀ T e (some r))
    (hok : r.status = 200) :
    ∃ m, (⟨.upsert m, Except.ok ()⟩ : Call Res) ∈ localOf e.tid (T ++ [e]) ∧
      trimSpace m.attempt = req.carried attemptID ∧
      ∀ T₂ c w v, Run (step lib) (fun t => (reqs t).prog lib s) w₀ (T ++ e :: T₂) c w →
        Isolated reqs m.name (T ++ e :: T₂) → w.record m.name = some v →
        trimSpace v.attempt = req.carried attemptID → v.imageApplied = true := by
  have hconfirms := hanswer.handler (by rw [hq]; rfl)
    (pxeDeployEvents_obeys (q := reqs e.tid) hq)
  obtain ⟨req', m, hreq, hstored, hattempt, happlied⟩ := hconfirms hok
  cases hreq
  refine ⟨m, hstored, hattempt, fun T₂ c w v hrun hiso hv hlabel => ?_⟩
  have hT := hrun.traced
  obtain ⟨A, B, w₁, hsplit, hA, hrecord⟩ := Traced.stored_before hT hstored
  rw [hsplit] at hT hiso
  refine Traced.attempt_kept (K := fun v => v.imageApplied = true) h₀ hT hA hiso
    (fun _ _ h => h) (fun _ _ _ hrewrites => hrewrites.kept) hrecord ?_ hv ?_
  · exact happlied htype
  · rw [hlabel, ← hattempt]
    rfl

/-- A redeployment, the event and the completion of its installer, a change of settings and a round of
the sync loop. -/
def durableRequests : ℕ → Request
  | 0 => .machineMethod "m1:redeploy" "admin" (some {})
  | 1 => .deployEvents (hexEncode (List.replicate 32 0)) (attemptText (List.replicate 16 1)) ""
      (some { type := "image_applied" })
  | 2 => .installComplete (hexEncode (List.replicate 32 0)) "curtin" (some {})
  | 3 => .settings "m1" (some { type := .manual })
  | _ => .sync

/-- An execution of a schedule of `Gomi.durableRequests`. -/
def durableRun (schedule : List ℕ) :=
  proceed schedule ([], fun t => (durableRequests t).prog (Lib.sample []) {},
    World.single (Lib.sample []) (Machine.sample "m1"))

/-- The settings are read before the event is stored, and written afterwards. -/
theorem durableRun_event_raced :
    ((durableRun (List.replicate 7 0 ++ List.replicate 3 3 ++ List.replicate 5 1)).any fun x =>
      answered 1 (fun a => a.any fun r => r.status = 200) x &&
        (proceed (List.replicate 2 3) x).any fun y => (y.2.2.record "m1").any fun v =>
          v.attempt = attemptText (List.replicate 16 1) ∧ v.imageApplied = false) = true := by
  decide +kernel

/-- The settings of machine `m1` are read, its installer reports the applied image and is answered
200, and the settings are written: the record of the attempt has lost the mark. -/
theorem image_forgotten :
    ∃ (T T₂ : List (Event Res)) (e : Event Res) (r : Response)
      (c : ℕ → Prog Res (Option Response)) (w : World) (v : View),
      durableRequests e.tid = .deployEvents (hexEncode (List.replicate 32 0))
        (attemptText (List.replicate 16 1)) "" (some { type := "image_applied" }) ∧
      Answers (step (Lib.sample [])) (fun t => (durableRequests t).prog (Lib.sample []) {})
        (World.single (Lib.sample []) (Machine.sample "m1")) T e (some r) ∧ r.status = 200 ∧
      Run (step (Lib.sample [])) (fun t => (durableRequests t).prog (Lib.sample []) {})
        (World.single (Lib.sample []) (Machine.sample "m1")) (T ++ e :: T₂) c w ∧
      w.record "m1" = some v ∧ v.attempt = attemptText (List.replicate 16 1) ∧
      v.imageApplied = false := by
  obtain ⟨_, _, _, T₂, c, w, hfirst, hlast, hrun, hrecord⟩ := exists_runs_of_play durableRun_event_raced
  obtain ⟨T, e, a, rfl, htid, hanswer, hrest⟩ := hfirst.answers hlast
  simp only [Option.any_eq_true, decide_eq_true_eq] at hrest hrecord
  obtain ⟨r, rfl, hstatus⟩ := hrest
  obtain ⟨v, hv, hview⟩ := hrecord
  rw [List.append_assoc] at hrun
  exact ⟨T, T₂, e, r, c, w, v, by rw [htid]; rfl, hanswer, hstatus, hrun, hv, hview⟩

/-- The event is stored, and the settings are read and written afterwards. -/
theorem durableRun_event_settled :
    ((durableRun (List.replicate 7 0 ++ List.replicate 5 1)).any fun x =>
      answered 1 (fun a => a.any fun r => r.status = 200) x &&
        (proceed (List.replicate 5 3) x).any fun y =>
          (y.1.all fun e => e.upserted.all (·.name = "m1")) &&
            isolated durableRequests "m1" y.1) = true := by
  decide +kernel

/-- A change of settings after the event keeps the mark. -/
theorem image_applied_durable_settled :
    ∃ (T T₂ : List (Event Res)) (e : Event Res) (r : Response)
      (c : ℕ → Prog Res (Option Response)) (w : World),
      Answers (step (Lib.sample [])) (fun t => (durableRequests t).prog (Lib.sample []) {})
        (World.single (Lib.sample []) (Machine.sample "m1")) T e (some r) ∧ r.status = 200 ∧
      Run (step (Lib.sample [])) (fun t => (durableRequests t).prog (Lib.sample []) {})
        (World.single (Lib.sample []) (Machine.sample "m1")) (T ++ e :: T₂) c w ∧
      (∀ n, Isolated durableRequests n (T ++ e :: T₂)) ∧
      ∃ m, (⟨.upsert m, Except.ok ()⟩ : Call Res) ∈ localOf e.tid (T ++ [e]) ∧
        ∀ v, w.record m.name = some v → trimSpace v.attempt = attemptText (List.replicate 16 1) →
          v.imageApplied = true := by
  obtain ⟨_, _, _, T₂, c, w, hfirst, hlast, hrun, hcheck⟩ :=
    exists_runs_of_play durableRun_event_settled
  obtain ⟨T, e, a, rfl, htid, hanswer, hrest⟩ := hfirst.answers hlast
  simp only [Option.any_eq_true, decide_eq_true_eq] at hrest
  obtain ⟨r, rfl, hstatus⟩ := hrest
  obtain ⟨hnames, hcheck⟩ := Bool.and_eq_true_iff.mp hcheck
  have hiso := isolated_all hnames hcheck
  rw [List.append_assoc] at hrun hiso
  obtain ⟨m, hstored, -, hkept⟩ := image_applied_durable (World.single_labelsDrawn rfl)
    (by rw [htid]; rfl) (by decide) hanswer hstatus
  exact ⟨T, T₂, e, r, c, w, hanswer, hstatus, hrun, hiso, m, hstored,
    fun v hv hlabel => hkept T₂ _ _ v hrun (hiso _) hv (hlabel.trans (by decide))⟩

/-! ### Completed attempts -/

/-- The view of a record whose attempt is over and has not failed. -/
def View.Done (v : View) : Prop := v.active = false ∧ v.phase ≠ .provisioning ∧ v.phase ≠ .error

/-- A completed attempt is over. -/
theorem Traced.completed_done (hw₀ : ∀ n v, w₀.record n = some v → v.completed = true → v.Done)
    (hT : Traced lib reqs w₀ T w) (hiso : Isolated reqs n T) {v : View} (hv : w.record n = some v)
    (hcompleted : v.completed = true) : v.Done := by
  have hT₀ : Traced lib reqs w₀ [] w₀ := ⟨rfl, fun A e B h => absurd h (by simp)⟩
  have hT' : Traced lib reqs w₀ ([] ++ T) w := hT
  refine Traced.record_invariant (K := fun v => v.completed = true → v.Done) hT' hT₀ hiso
    (hw₀ n) ?_ v hv hcompleted
  intro A e B w₂ x u _ hTA hstep hx hu
  cases hstep with
  | same => exact hx u rfl hu
  | @start m x hstarts _ _ =>
    -- a new attempt is not completed
    obtain ⟨-, -, -, -, hnot, -⟩ := hstarts.drawn (hTA.allowed ([] ++ A) e [] (by simp))
    cases hu.symm.trans hnot
  | @rewrite v m m' hstored hrewrites _ =>
    rcases hrewrites.continues.completed hu with hm | hdone
    · have hv : v.Done := hx v rfl ((congrArg View.completed hstored).trans hm)
      have hactive : v.active = m.active := congrArg View.active hstored
      have hphase : v.phase = m.phase := congrArg View.phase hstored
      exact hrewrites.continues.done ⟨hactive ▸ hv.1, hphase ▸ hv.2⟩
    · exact hdone
  | @unregister v => exact hx v rfl hu

/-- **Completion is final.** Once `PXEInstallComplete` has answered with the record of a machine, in
every run that goes on from there and in which the rewrites of that machine are isolated, no record
of that attempt is active, in phase `Provisioning` or in phase `Error`. -/
theorem completion_final (h₀ : w₀.LabelsDrawn)
    (hw₀ : ∀ n v, w₀.record n = some v → v.completed = true → v.Done) {token type : String}
    {body : Option InstallCompleteReq} (hq : reqs e.tid = .installComplete token type body)
    (hanswer : Answers (step lib) (fun t => (reqs t).prog lib s) w₀ T e (some r))
    (hbody : r.body = .machine m) {c : ℕ → Prog Res (Option Response)}
    (hrun : Run (step lib) (fun t => (reqs t).prog lib s) w₀ (T ++ e :: T₂) c w)
    (hiso : Isolated reqs m.name (T ++ e :: T₂)) {v : View} (hv : w.record m.name = some v)
    (hlabel : trimSpace v.attempt = trimSpace m.attempt) :
    v.active = false ∧ v.phase ≠ .provisioning ∧ v.phase ≠ .error := by
  have hconfirms := hanswer.handler (by rw [hq]; rfl)
    (pxeInstallComplete_obeys (q := reqs e.tid) (by rw [hq]; rfl))
  have hT := hrun.traced
  have hkept : ∀ {A B : List (Event Res)} {w₁ : World} {v₁ : View}, T ++ e :: T₂ = A ++ B →
      Traced lib reqs w₀ A w₁ → w₁.record m.name = some v₁ → v₁.Done → v₁.attempt = m.attempt →
      v.Done := by
    intro A B w₁ v₁ hsplit hA hv₁ hdone hattempt
    rw [hsplit] at hT hiso
    refine Traced.attempt_kept (K := View.Done) h₀ hT hA hiso (fun _ _ h => h)
      (fun _ _ _ hrewrites => hrewrites.continues.done) hv₁ hdone hv ?_
    rw [hlabel, hattempt]
  rcases hconfirms m hbody with ⟨hstored, hdone⟩ | ⟨⟨call, hcall, hreads⟩, hinactive, hcompleted⟩
  · obtain ⟨A, B, w₁, hsplit, hA, hrecord⟩ := Traced.stored_before hT hstored
    exact hkept hsplit hA hrecord hdone rfl
  · -- the record was completed before, and it was read
    obtain ⟨w₁, w₂, -, -, -, hT', -⟩ := hT.at_event
    obtain ⟨A, w₃, hA, hrecord, u, B, hsplit, -⟩ := Traced.readAt hT' hreads hcall
    have hwhole : T ++ e :: T₂ = A ++ (u :: B ++ T₂) := by
      calc T ++ e :: T₂ = T ++ [e] ++ T₂ := by simp
        _ = A ++ (u :: B ++ T₂) := by rw [hsplit]; simp
    refine hkept hwhole hA hrecord ?_ rfl
    exact Traced.completed_done hw₀ hA (hwhole ▸ hiso).initial_part hrecord hcompleted

/-- The sync loop lists the machine before its installation is completed, and writes the record
afterwards. -/
theorem durableRun_completion_raced :
    ((durableRun (List.replicate 7 0 ++ List.replicate 4 4 ++ List.replicate 4 2)).any fun x =>
      answered 2 (fun a => a.any fun r => r.status = 200 ∧ r.machine?.any fun m =>
        m.name = "m1" ∧ m.isWindows = false ∧ m.attempt = attemptText (List.replicate 16 1)) x &&
        (proceed [4] x).any fun y => (y.2.2.record "m1").any fun v =>
          v.attempt = attemptText (List.replicate 16 1) ∧ v.active = true ∧
            v.phase = .provisioning) = true := by
  decide +kernel

/-- A round of the sync loop lists machine `m1`, the installation of the machine is completed and the
installer is answered with the completed record, and the round writes the record that it has listed:
the attempt is active and in phase `Provisioning` again. -/
theorem completion_undone :
    ∃ (T T₂ : List (Event Res)) (e : Event Res) (r : Response) (m : Machine)
      (c : ℕ → Prog Res (Option Response)) (w : World) (v : View),
      durableRequests e.tid = .installComplete (hexEncode (List.replicate 32 0)) "curtin" (some {}) ∧
      Answers (step (Lib.sample [])) (fun t => (durableRequests t).prog (Lib.sample []) {})
        (World.single (Lib.sample []) (Machine.sample "m1")) T e (some r) ∧ r.status = 200 ∧
      r.body = .machine m ∧ m.name = "m1" ∧ m.isWindows = false ∧
      Run (step (Lib.sample [])) (fun t => (durableRequests t).prog (Lib.sample []) {})
        (World.single (Lib.sample []) (Machine.sample "m1")) (T ++ e :: T₂) c w ∧
      w.record "m1" = some v ∧ v.attempt = m.attempt ∧ v.active = true ∧
      v.phase = .provisioning := by
  obtain ⟨_, _, _, T₂, c, w, hfirst, hlast, hrun, hrecord⟩ :=
    exists_runs_of_play durableRun_completion_raced
  obtain ⟨T, e, a, rfl, htid, hanswer, hrest⟩ := hfirst.answers hlast
  simp only [Option.any_eq_true, decide_eq_true_eq] at hrest hrecord
  obtain ⟨r, rfl, hstatus, m, hm, hname, hlinux, hattempt⟩ := hrest
  obtain ⟨v, hv, hlabel, hactive, hphase⟩ := hrecord
  rw [List.append_assoc] at hrun
  exact ⟨T, T₂, e, r, m, c, w, v, by rw [htid]; rfl, hanswer, hstatus,
    Response.machine?_eq_some.mp hm, hname, hlinux, hrun, hv, hlabel.trans hattempt.symm, hactive,
    hphase⟩

/-- The installation is completed, and the settings are read and written afterwards. -/
theorem durableRun_completion_settled :
    ((durableRun (List.replicate 7 0 ++ List.replicate 4 2)).any fun x =>
      answered 2 (fun a => a.any fun r => r.status = 200 ∧ r.machine?.any fun m =>
        m.name = "m1" ∧ m.attempt = attemptText (List.replicate 16 1)) x &&
        (proceed (List.replicate 5 3) x).any fun y =>
          isolated durableRequests "m1" y.1 && (y.2.2.record "m1").any fun v =>
            trimSpace v.attempt = trimSpace (attemptText (List.replicate 16 1))) = true := by
  decide +kernel

/-- A change of settings after the completion leaves the attempt completed. -/
theorem completion_final_settled :
    ∃ (T T₂ : List (Event Res)) (e : Event Res) (r : Response) (m : Machine) (w : World) (v : View),
      Answers (step (Lib.sample [])) (fun t => (durableRequests t).prog (Lib.sample []) {})
        (World.single (Lib.sample []) (Machine.sample "m1")) T e (some r) ∧ r.body = .machine m ∧
      Isolated durableRequests m.name (T ++ e :: T₂) ∧ w.record m.name = some v ∧
      v.active = false ∧ v.phase ≠ .provisioning ∧ v.phase ≠ .error := by
  obtain ⟨_, _, _, T₂, c, w, hfirst, hlast, hrun, hcheck⟩ :=
    exists_runs_of_play durableRun_completion_settled
  obtain ⟨T, e, a, rfl, htid, hanswer, hrest⟩ := hfirst.answers hlast
  simp only [Bool.and_eq_true, Option.any_eq_true, decide_eq_true_eq] at hrest hcheck
  obtain ⟨r, rfl, -, m, hm, hname, hattempt⟩ := hrest
  rw [← hname, ← hattempt] at hcheck
  obtain ⟨hiso, v, hv, hlabel⟩ := hcheck
  have hiso := isolated_sound hiso
  have hbody := Response.machine?_eq_some.mp hm
  rw [List.append_assoc] at hrun hiso
  refine ⟨T, T₂, e, r, m, w, v, hanswer, hbody, hiso, hv,
    completion_final (World.single_labelsDrawn rfl) ?_ (by rw [htid]; rfl) hanswer hbody hrun hiso hv
      hlabel⟩
  -- the machine was never installed
  intro n v hv hcompleted
  obtain ⟨-, rfl⟩ := World.single_record hv
  exact absurd hcompleted (by decide)

end Gomi
