import Gomi.Claim.Allowed

/-!
# The rewrites of a record

What each callback, the sync loop and the changes of settings make of a record continues
the record (`Gomi.Machine.Continues`): it stays the record of the same machine with the
same sealed bootstrap, disk, system and token, no attempt becomes active or fails after
it was completed, and a claim that could move on still can. What they do to the attempt id and to the artifact
`imageApplied` is said beside it.
-/

namespace Gomi

open Go Machine ProvisionProgress

variable {lib : Lib} {m m' : Machine} {p : ProvisionProgress}
variable {report : InstallCompleteReport} {stage : WindowsStage}

/-! ### Artifacts -/

/-- An artifact of another name does not say that an image was applied. -/
theorem ProvisionProgress.imageApplied_insert {key value : String}
    (hkey : key ≠ imageAppliedArtifact) :
    (p.artifacts.insert key value)[imageAppliedArtifact]? = p.artifacts[imageAppliedArtifact]? := by
  rw [Std.ExtTreeMap.getElem?_insert, if_neg (fun h => hkey (Std.LawfulEqCmp.eq_of_compare h))]

/-- Whether an image was applied is read off one artifact. -/
theorem ProvisionProgress.imageApplied_congr {p' : ProvisionProgress}
    (h : p'.artifacts[imageAppliedArtifact]? = p.artifacts[imageAppliedArtifact]?) :
    p'.imageApplied = p.imageApplied := by
  simp only [imageApplied, h]

/-- An applied image is applied. -/
theorem ProvisionProgress.imageApplied_appliedAt {now : Time} {message : String} :
    ({ p.appliedAt lib now with message } : ProvisionProgress).imageApplied = true := by
  have hget : ({ p.appliedAt lib now with message } : ProvisionProgress).artifacts[
      imageAppliedArtifact]? = some "true" := by
    simp only [appliedAt]
    rw [Std.ExtTreeMap.getElem?_insert, if_neg (by decide), Std.ExtTreeMap.getElem?_insert_self]
  simp only [imageApplied, hget]
  decide

/-! ### Records -/

section

variable (hname : m'.name = m.name) (hsealed : m'.sealedBootstrap = m.sealedBootstrap)
  (hdisk : m'.targetDisk = m.targetDisk) (hpreset : m'.osPreset = m.osPreset)

include hname hsealed hdisk hpreset

/-- A record whose state is unchanged continues. -/
theorem Machine.continues_of_progress (hphase : m'.phase = m.phase)
    (htoken : m'.progress.completionToken = m.progress.completionToken)
    (hactive : m'.progress.active = m.progress.active)
    (hcompleted : m'.progress.completedAt = m.progress.completedAt) : m.Continues m' where
  name := hname
  sealedBootstrap := hsealed
  targetDisk := hdisk
  osPreset := hpreset
  token := htoken
  active h := hactive.symm.trans h
  settled h := by
    rw [Machine.Settled, active, completed, hactive, hcompleted, hphase]
    exact h
  done h := by
    rw [Machine.Done, active, hactive, hphase]
    exact h
  completed h := by
    rw [completed, hcompleted] at h
    exact Or.inl h

/-- A record whose attempt has failed while it was running continues. -/
theorem Machine.continues_of_failure
    (htoken : m'.progress.completionToken = m.progress.completionToken)
    (hactive : m'.progress.active = false)
    (hcompleted : m'.progress.completedAt = m.progress.completedAt) (hphase : m'.phase = .error)
    (hrunning : ¬ m.Done) : m.Continues m' where
  name := hname
  sealedBootstrap := hsealed
  targetDisk := hdisk
  osPreset := hpreset
  token := htoken
  active h := absurd (hactive.symm.trans h) (by simp)
  settled _ := Or.inr (Or.inl hphase)
  done h := absurd h hrunning
  completed h := by
    rw [completed, hcompleted] at h
    exact Or.inl h

/-- A record whose attempt was completed continues. -/
theorem Machine.continues_of_completion
    (htoken : m'.progress.completionToken = m.progress.completionToken)
    (hactive : m'.progress.active = false) (hcompleted : m'.progress.completedAt.isSome = true)
    (hphase : m'.phase = .ready) : m.Continues m' := by
  have hdone : m'.Done := ⟨hactive, by simp [hphase], by simp [hphase]⟩
  exact
    { name := hname, sealedBootstrap := hsealed, targetDisk := hdisk, osPreset := hpreset
      token := htoken, active := fun h => absurd (hactive.symm.trans h) (by simp)
      settled := fun _ => Or.inr (Or.inr ⟨hphase, hcompleted⟩), done := fun _ => hdone
      completed := fun _ => Or.inr hdone }

end

/-- An attempt that is active is not over. -/
theorem Machine.not_done (hp : m.provision = some p) (hactive : p.active = true) : ¬ m.Done := by
  rintro ⟨hover, -⟩
  rw [active, progress_of_provision hp, hactive] at hover
  cases hover

/-- The time of a write is no part of a record that matters. -/
theorem Machine.Continues.stamp (h : m.Continues m') (t : Time) :
    m.Continues { m' with updatedAt := t } :=
  ⟨h.name, h.sealedBootstrap, h.targetDisk, h.osPreset, h.token, h.active, h.settled, h.done,
    h.completed⟩

/-- A registration token is no part of a record that matters. -/
theorem Machine.withHypervisorToken_view (m : Machine) (token expiresAt : String) :
    (m.withHypervisorToken token expiresAt).view = m.view := by
  have happlied : (m.withHypervisorToken token expiresAt).imageApplied = m.imageApplied := by
    refine imageApplied_congr ?_
    unfold withHypervisorToken progress
    cases m.provision with
    | none => rfl
    | some =>
      simp only [Option.map_some, Option.getD_some]
      rw [Std.ExtTreeMap.getElem?_insert, if_neg (by decide)]
      exact imageApplied_insert (by decide)
  unfold view
  rw [happlied]
  unfold Machine.withHypervisorToken Machine.attempt Machine.token Machine.active Machine.completed
    progress
  cases m.provision <;> rfl

/-! ### Deploy events -/

variable {req : DeployEventReq} {eventType : String} {now : Time}

theorem Machine.failedBy_imageApplied (hp : m.provision = some p) :
    (m.failedBy (p.signalled lib req eventType now) req now).imageApplied = m.imageApplied := by
  refine imageApplied_congr ?_
  rw [progress_of_provision hp]
  simp only [failedBy, progress, Option.getD_some,
    signalled_artifacts]
  split
  · exact imageApplied_insert (by decide)
  · rfl

/-! ### Completion -/

theorem Machine.applyInstallCompleteReport_eq (m : Machine) (r : InstallCompleteReport) :
    ∃ ip, m.applyInstallCompleteReport r = { m with ip } := by
  unfold applyInstallCompleteReport
  split
  · exact ⟨_, rfl⟩
  · exact ⟨m.ip, rfl⟩

/-! ### The Windows installer -/

theorem Machine.continues_afterStage (hp : m.provision = some p) (hactive : p.active = true) :
    m.Continues (m.afterStage lib p stage report now) := by
  have hprogress := progress_of_provision hp
  cases stage with
  | installStarted | imageApplied =>
    refine continues_of_progress rfl rfl rfl rfl rfl ?_ ?_ ?_ <;> rw [hprogress] <;> rfl
  | failed =>
    refine continues_of_failure rfl rfl rfl rfl ?_ rfl ?_ rfl (not_done hp hactive) <;>
      rw [hprogress] <;> rfl
  | complete =>
    unfold afterStage
    dsimp only
    obtain ⟨ip, hip⟩ := applyInstallCompleteReport_eq _ report
    rw [hip]
    refine continues_of_completion rfl rfl rfl rfl ?_ rfl rfl rfl
    rw [hprogress]
    rfl

theorem Machine.afterStage_attempt (hp : m.provision = some p) :
    (m.afterStage lib p stage report now).attempt = m.attempt := by
  rw [attempt_eq m, progress_of_provision hp]
  cases stage with
  | complete =>
    unfold afterStage
    dsimp only
    obtain ⟨ip, hip⟩ := applyInstallCompleteReport_eq _ report
    rw [hip]
    rfl
  | _ => rfl

/-- Only the stage of that name says that the image was applied. -/
theorem Machine.afterStage_imageApplied (hp : m.provision = some p) (hstage : stage ≠ .imageApplied) :
    (m.afterStage lib p stage report now).imageApplied = m.imageApplied := by
  rw [imageApplied, imageApplied, progress_of_provision hp]
  cases stage with
  | installStarted =>
    exact imageApplied_congr
      (imageApplied_insert (by decide))
  | imageApplied => exact absurd rfl hstage
  | failed => rfl
  | complete =>
    unfold afterStage
    dsimp only
    obtain ⟨ip, hip⟩ := applyInstallCompleteReport_eq _ report
    rw [hip]
    rfl

/-! ### The sync loop -/

theorem Machine.continues_timedOut (hp : m.provision = some p) (hactive : p.active = true) :
    m.Continues (m.timedOut p now) := by
  refine continues_of_failure rfl rfl rfl rfl ?_ rfl ?_ rfl (not_done hp hactive) <;>
    rw [progress_of_provision hp] <;> rfl

variable {artifacts : List (String × String)}
  {built : Except Err (List (String × String) × String)}

theorem buildArtifacts_ne {baseURL installCfg cfg : String}
    (h : buildArtifacts m baseURL installCfg = .ok (artifacts, cfg)) :
    ∀ kv ∈ artifacts, kv.1 ≠ imageAppliedArtifact := by
  unfold buildArtifacts at h
  split at h
  · cases h
  · obtain ⟨rfl, rfl⟩ := Prod.mk.inj (Except.ok.inj h)
    intro kv hkv
    simp only [List.mem_cons, List.not_mem_nil, or_false] at hkv
    rcases hkv with rfl | rfl | rfl | rfl | rfl | rfl <;> simp [imageAppliedArtifact]

theorem continues_syncState (hphase : m.phase = .provisioning) :
    m.Continues (syncState m built now) := by
  cases built with
  | error =>
    refine continues_of_failure rfl rfl rfl rfl ?_ ?_ ?_ rfl fun h => h.2.1 hphase <;>
      · unfold syncState progress
        cases m.provision <;> rfl
  | ok =>
    refine continues_of_progress rfl rfl rfl rfl rfl ?_ ?_ ?_ <;>
      · unfold syncState progress
        cases m.provision <;> rfl

theorem syncState_attempt : (syncState m built now).attempt = m.attempt := by
  rcases built with e | ⟨artifacts, cfg⟩ <;>
    · unfold syncState attempt
      cases m.provision <;> rfl

theorem syncState_imageApplied {baseURL installCfg : String} :
    (syncState m (buildArtifacts m baseURL installCfg) now).imageApplied = m.imageApplied := by
  rcases hbuilt : buildArtifacts m baseURL installCfg with e | ⟨artifacts, cfg⟩
  · unfold syncState Machine.imageApplied Machine.progress
    cases m.provision <;> rfl
  · refine imageApplied_congr ?_
    unfold syncState progress
    cases m.provision with
    | none => rfl
    | some =>
      refine (Std.ExtTreeMap.getElem?_insert ..).trans ?_
      rw [if_neg (by decide)]
      refine Std.ExtTreeMap.getElem?_insertMany_list_of_contains_eq_false ?_
      simpa using fun value hmem => buildArtifacts_ne hbuilt _ hmem rfl

end Gomi
