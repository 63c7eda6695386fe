import Gomi.Bootenv.Publish

/-!
# Builds

What a whole build does, from `start` to `finishBuild`. Until the first link is switched it has written
nothing but at paths of its own (`Gomi.Bootenv.Own`): the directory of its artifacts, the one it works
in and its log. A build that fails then has changed neither the links nor the build that is
published, unless that one has the same directory; see `Gomi.Bootenv.Publish` for what goes wrong
otherwise.
-/

namespace Gomi.Bootenv

open Go Files Prog Config

variable {lib : Lib} {cfg : Config} {s s₀ s₁ s' : Moment} {α β : Type} {Q : α → Moment → Prop}
  {P : Path → Prop} {buildID : String}
variable {r : Except Err β} {name : String} {o : Files.Op} {manifest : PrebuiltManifest}
  {force : Bool}

/-! ### The paths of a build -/

/-- The paths that are a build's own. -/
def Own (cfg : Config) (buildID : String) (q : Path) : Prop :=
  cfg.artifactDir buildID <+: q ∨ cfg.buildDir buildID <+: q ∨ q = cfg.logPath buildID

/-- A text that is not taken for the link. -/
def Proper (buildID : String) : Prop := buildID ≠ "current" ∧ buildID ≠ "current.tmp"

theorem proper_compactStamp (t : Time) : Proper (compactStamp t) :=
  ⟨compactStamp_ne t (by decide), compactStamp_ne t (by decide)⟩

theorem Own.apart (h : Proper buildID) : Apart cfg (Own cfg buildID) := by
  intro q hq
  have hcurrent : cfg.current = cfg.dataDir ++ ["artifacts", cfg.name, "current"] := by
    simp [current, artifactsDir]
  have htmp : suffixed cfg.current ".tmp" = cfg.dataDir ++ ["artifacts", cfg.name, "current.tmp"] := by
    simp [current_tmp, artifactsDir]
  rw [htmp, hcurrent]
  constructor
  · rintro rfl
    rcases hq with hq | hq | hq
    · exact h.1 (by simpa [artifactDir, artifactsDir] using hq)
    · exact absurd hq (by simp [buildDir])
    · exact absurd hq (by simp [logPath])
  · rintro rfl
    rcases hq with hq | hq | hq
    · exact h.2 (by simpa [artifactDir, artifactsDir] using hq)
    · exact absurd hq (by simp [buildDir])
    · exact absurd hq (by simp [logPath])

/-- Other builds have other directories. -/
theorem not_own {other : String} (h : other ≠ buildID) :
    ¬Own cfg buildID (cfg.artifactDir other ++ [name]) := by
  rintro (hq | hq | hq)
  · have heq : buildID = other := by simpa [artifactDir] using hq
    exact h heq.symm
  · exact absurd hq (by simp [artifactDir, artifactsDir, buildDir])
  · exact absurd hq (by simp [artifactDir, artifactsDir, logPath])


theorem own_artifact : Own cfg buildID (cfg.artifactDir buildID ++ [name]) :=
  Or.inl (List.prefix_append _ _)

theorem own_of_storedAt {a : Artifact} {q : Path}
    (h : StoredAt (cfg.artifactDir buildID ++ [a.fileName]) q) : Own cfg buildID q := by
  rcases h with rfl | rfl | rfl
  · exact own_artifact
  all_goals
    rw [suffixed, List.dropLast_concat]
    exact own_artifact

/-! ### How a build settles -/

theorem Published.congr {w w' : World} (h : Published lib cfg w buildID)
    (hcurrent : w'.data cfg.current = w.data cfg.current)
    (hlinux : ∀ a, w'.files (cfg.linux a) = w.files (cfg.linux a))
    (hdata : ∀ name, w'.data (cfg.artifactDir buildID ++ [name]) =
      w.data (cfg.artifactDir buildID ++ [name])) : Published lib cfg w' buildID := by
  refine ⟨hcurrent.trans h.current, fun a => (hlinux a).trans (h.linux a), ?_⟩
  obtain ⟨raw, manifest, hraw, hparse, hartifacts⟩ := h.complete
  refine ⟨raw, manifest, (hdata _).trans hraw, hparse, fun a => ?_⟩
  obtain ⟨content, hcontent, hverified⟩ := hartifacts a
  exact ⟨content, (hdata _).trans hcontent, hverified⟩

/-- **Only the build's own paths have changed.** -/
structure Kept (cfg : Config) (buildID : String) (s₀ s : Moment) : Prop where
  linux : ∀ a, s.1.files (cfg.linux a) = s₀.1.files (cfg.linux a)
  data : ∀ q, ¬Own cfg buildID q → s.1.data q = s₀.1.data q

theorem Frame.kept (h : Frame cfg (Own cfg buildID) s₀ s) : Kept cfg buildID s₀ s :=
  ⟨fun a => by rw [h.files], h.data⟩

/-- **How a build settles**: it is published, or it has failed late, or it has left everything else
alone. -/
structure Settles (lib : Lib) (cfg : Config) (buildID : String) (s₀ : Moment) (r : Except Err β)
    (s : Moment) : Prop where
  links : OnlyCurrent cfg s.1.data
  published : ∀ x, r = .ok x → Published lib cfg s.1 buildID
  failed : ∀ e, r = .error e → progress s.2 = .late ∨ Kept cfg buildID s₀ s

/-- A failure before anything is published. -/
theorem Frame.settles {e : Err} (h : Frame cfg (Own cfg buildID) s₀ s) :
    Settles lib cfg buildID s₀ (.error e : Except Err β) s :=
  ⟨h.links, by simp, fun _ _ => Or.inr h.kept⟩

/-- The answer does not matter, only whether it is an error. -/
theorem Settles.map {γ : Type} {r' : Except Err γ} (h : Settles lib cfg buildID s₀ r s)
    (hok : ∀ x, r' = .ok x → ∃ y, r = .ok y) (herror : ∀ e, r' = .error e → ∃ e', r = .error e') :
    Settles lib cfg buildID s₀ r' s := by
  refine ⟨h.links, fun x hx => ?_, fun e he => ?_⟩
  · obtain ⟨y, hy⟩ := hok x hx
    exact h.published y hy
  · obtain ⟨e', he'⟩ := herror e he
    exact h.failed e' he'

/-- What is done at the end: a call on paths of the build, but not on those that are published. -/
theorem Settles.data_step {r' : Files.Res o} (h : Settles lib cfg buildID s₀ r s)
    (hproper : Proper buildID) (ht : Files.step o s.1.data r' = some s'.1.data)
    (hfiles : s'.1.files = s.1.files) (hprogress : progress s'.2 = progress s.2)
    (hsymlink : ∀ target p, o ≠ .symlink target p) (hrename : ∀ p q, o ≠ .rename p q)
    (htouch : ∀ q, o.Touches s.1.data r' q → Own cfg buildID q ∧
      ∀ x, r = .ok x → ¬cfg.artifactDir buildID <+: q) : Settles lib cfg buildID s₀ r s' := by
  refine ⟨?_, fun x hx => ?_, fun e he => ?_⟩
  · exact h.links.step ht (fun target q heq => absurd heq (hsymlink target q))
      fun p q heq => absurd heq (hrename p q)
  · refine (h.published x hx).congr ?_ (fun a => by rw [hfiles]) fun name => ?_
    · exact step_other ht fun hq => (Own.apart hproper _ (htouch _ hq).1).1 rfl
    · exact step_other ht fun hq => (htouch _ hq).2 x hx (List.prefix_append _ _)
  · rw [hprogress]
    refine (h.failed e he).imp_right fun hkept => ⟨fun a => ?_, fun q hq => ?_⟩
    · rw [hfiles]
      exact hkept.linux a
    · exact (step_other ht fun hqt => hq (htouch q hqt).1).trans (hkept.data q hq)

/-! ### The parts of a build -/

section Build

variable (hproper : Proper buildID)

include hproper

/-- **The artifacts are installed, all of them or none.** -/
theorem installPrebuilt_ends {base : String} {raw : List UInt8}
    (h : Frame cfg (Own cfg buildID) s₀ s) (hmanifest : ∀ a, (manifest.artifacts a).isSome)
    (hparse : lib.parseManifest raw = some manifest) :
    Ends (Settles lib cfg buildID s₀) (installPrebuilt lib cfg buildID base raw manifest) s := by
  have hapart : Apart cfg (Own cfg buildID) := Own.apart hproper
  refine h.looks_bind trivial fun made s₁ h₁ _ _ => ?_
  refine .ite (fun _ => .pure h₁.settles) fun _ => ?_
  refine h₁.ask_bind trivial fun order s₂ h₂ _ => ?_
  have horder : order.val.Nodup ∧ ∀ a, a ∈ order.val :=
    ⟨order.2.nodup_iff.mpr (by decide), fun a => order.2.mem_iff.mpr (by cases a <;> decide)⟩
  have hown : ∀ q, (∃ a ∈ order.val, StoredAt (cfg.artifactDir buildID ++ [a.fileName]) q) →
      Own cfg buildID q := fun q ⟨a, _, hq⟩ => own_of_storedAt hq
  refine (fetchArtifacts_ends hmanifest horder.1 (fun q hq => hapart q (hown q hq))
    (Frame.refl h₂.links h₂.progress)).bind fun r s₃ h₃ => ?_
  obtain ⟨hframe₃, hfetched⟩ := h₃
  have h₃ := h₂.trans hframe₃ hown
  rcases r with _ | _
  · exact .pure h₃.settles
  have hresolve : s₃.1.data.resolve (cfg.artifactDir buildID ++ ["manifest.json"]) =
      cfg.artifactDir buildID ++ ["manifest.json"] := h₃.links.resolve hapart (own_artifact)
  refine h₃.data_bind hapart (by simp) ?_ (by simp) fun (written : Written) s₄ h₄ ht₄ => ?_
  · intro _ q hq
    rw [show q = _ from hq, hresolve]
    exact own_artifact
  refine .ite (fun _ => .pure h₄.settles) fun hwritten => ?_
  obtain rfl : written = .done := not_not.mp hwritten
  -- the directory of the build is complete now
  have hcomplete : Complete lib cfg s₄.1.data buildID := by
    refine ⟨raw, manifest, ?_, hparse, fun a => ?_⟩
    · rw [← Option.some.inj ht₄, Tree.written, hresolve, Tree.set_self]
    · obtain ⟨content, hcontent, hverified⟩ := hfetched rfl a (horder.2 a)
      refine ⟨content, ?_, hverified⟩
      rw [step_other ht₄, hcontent]
      intro hq
      have hname : a.fileName = "manifest.json" := by simpa using Eq.trans hq hresolve
      cases a <;> exact absurd hname (by decide)
  refine (publishPXECompatibilityFiles_ends h₄.progress).bind fun r s₅ h₅ => ?_
  have hlinks₅ : OnlyCurrent cfg s₅.1.data := by
    rw [h₅.data]
    exact h₄.links
  rcases r with _ | _
  · refine .pure ⟨hlinks₅, by simp, fun _ _ => ?_⟩
    refine (h₅.failed (by simp)).imp_right fun hsame => ⟨fun a => ?_, fun q hq => ?_⟩
    · rw [hsame.2 a, h₄.files]
    · rw [h₅.data]
      exact h₄.data q hq
  have hbegan := h₅.began (Or.inr ⟨rfl, by decide⟩)
  refine (publishCurrent_ends (fun q hq => hapart q (hq ▸ own_artifact)) hbegan hlinks₅).mono
    fun r s₆ h₆ => ?_
  refine ⟨h₆.links, fun x hx => ?_, fun e he => Or.inl (h₆.failed (by simp [he]))⟩
  have hdata : ∀ name, name ≠ "status.json" → s₆.1.data (cfg.artifactDir buildID ++ [name]) =
      s₄.1.data (cfg.artifactDir buildID ++ [name]) := by
    intro name hname
    rw [h₆.data _ (hapart _ (own_artifact)).1 (hapart _ (own_artifact)).2 (by simpa using hname),
      h₅.data]
  refine ⟨h₆.linked hx, fun a => ?_, ?_⟩
  · rw [h₆.files]
    exact h₅.linked rfl a (by cases a <;> decide)
  · obtain ⟨raw, manifest, hraw, hparse, hartifacts⟩ := hcomplete
    refine ⟨raw, manifest, (hdata _ (by decide)).trans hraw, hparse, fun a => ?_⟩
    obtain ⟨content, hcontent, hverified⟩ := hartifacts a
    exact ⟨content, (hdata _ (by cases a <;> decide)).trans hcontent, hverified⟩

/-- A call at the end of a build. -/
theorem Settles.data_bind {f : Files.Res o → Prog Res α} (h : Settles lib cfg buildID s₀ r s)
    (hsymlink : ∀ target p, o ≠ .symlink target p) (hrename : ∀ p q, o ≠ .rename p q)
    (hneutral : ∀ r', fails (.data o) r' = false)
    (htouch : ∀ r' q, o.Touches s.1.data r' q → Own cfg buildID q ∧
      ∀ x, r = .ok x → ¬cfg.artifactDir buildID <+: q)
    (hf : ∀ r' s', Settles lib cfg buildID s₀ r s' → Ends Q (f r') s') :
    Ends Q (Client.data o >>= f) s := by
  refine .data_bind fun r' s' hfiles ht hprogress => hf r' s' ?_
  rw [Progress.next_of_neutral rfl (hneutral r')] at hprogress
  exact h.data_step hproper ht hfiles hprogress hsymlink hrename (htouch r')

omit hproper in
theorem isSome_of_validate (h : validatePrebuiltManifest cfg manifest = .ok ()) (a : Artifact) :
    (manifest.artifacts a).isSome := by
  obtain ⟨_, h⟩ := check_bind_eq_ok.mp h
  obtain ⟨⟨⟩, hkernel, h⟩ := bind_eq_ok.mp h
  obtain ⟨⟨⟩, hinitrd, hrootfs⟩ := bind_eq_ok.mp h
  have hsome : ∀ {b : Artifact}, validateArtifact manifest b = .ok () →
      (manifest.artifacts b).isSome := by
    intro b hb
    unfold validateArtifact at hb
    split at hb
    · cases hb
    · rename_i hb'
      rw [hb']
      rfl
  cases a with
  | kernel => exact hsome hkernel
  | initrd => exact hsome hinitrd
  | rootfs => exact hsome hrootfs

theorem fetchPrebuilt_ends (h : Frame cfg (Own cfg buildID) s₀ s) :
    Ends (Settles lib cfg buildID s₀) (fetchPrebuilt lib cfg buildID) s := by
  refine .bind (Q := fun _ s' => Frame cfg (Own cfg buildID) s₀ s') ?_ fun r s₁ h₁ => ?_
  · refine .ite (fun _ => ?_) fun _ => ?_
    · refine h.ask_bind trivial fun r s₁ h₁ _ => ?_
      match r with
      | none => exact .pure h₁
      | some (status, body) => exact .ite (fun _ => .pure h₁) fun _ => .pure h₁
    · refine h.ask_bind trivial fun r s₁ h₁ _ => ?_
      match r with
      | none | some content => exact .pure h₁
  match r with
  | .error _ => exact .pure h₁.settles
  | .ok raw =>
  dsimp only
  split
  · exact .pure h₁.settles
  rename_i manifest hparse
  split
  · exact .pure h₁.settles
  rename_i hvalid
  refine (installPrebuilt_ends hproper h₁ (isSome_of_validate hvalid) hparse).bind fun r s₂ h₂ => ?_
  match r with
  | .error e =>
    refine h₂.data_bind hproper (by simp) (by simp) (fun _ => rfl) (fun _ q hq => ⟨Or.inl hq, by simp⟩)
      fun _ s₃ h₃ => .pure ?_
    exact h₃.map (by simp) fun _ _ => ⟨e, rfl⟩
  | .ok _ =>
    have hown : Own cfg buildID (cfg.buildDir buildID ++ [".prebuilt"]) :=
      Or.inr (Or.inl (List.prefix_append _ _))
    refine h₂.data_bind hproper (by simp) (by simp) (fun _ => ?_) (fun _ q hq => ?_)
      fun _ s₃ h₃ => .pure (h₃.map (fun _ _ => ⟨_, rfl⟩) (by simp))
    · simp [fails]
    · rw [show q = _ from hq, h₂.links.resolve (Own.apart hproper) hown]
      refine ⟨hown, fun _ _ hprefix => ?_⟩
      exact absurd hprefix (by simp [artifactDir, artifactsDir, buildDir])

/-- **A build settles.** -/
theorem buildIn_ends (h : Frame cfg (Own cfg buildID) s₀ s) :
    Ends (Settles lib cfg buildID s₀) (buildIn lib cfg buildID) s := by
  have hown : Own cfg buildID (cfg.logPath buildID) := Or.inr (Or.inr rfl)
  refine h.looks_bind trivial fun made s₁ h₁ _ _ => ?_
  refine .ite (fun _ => .pure h₁.settles) fun _ => ?_
  refine h₁.data_bind (Own.apart hproper) (by simp) ?_ (by simp) fun created s₂ h₂ _ => ?_
  · intro _ q hq
    rw [show q = _ from hq, h₁.links.resolve (Own.apart hproper) hown]
    exact hown
  refine .ite (fun _ => .pure h₂.settles) fun _ => ?_
  exact .ite (fun _ => .pure h₂.settles) fun _ => fetchPrebuilt_ends hproper h₂

end Build

/-! ### From the start to the end -/

/-- Nothing was done but to look and to ask. -/
structure Quiet (s s' : Moment) : Prop where
  world : s'.1 = s.1
  progress : progress s'.2 = progress s.2
  startTime : startTime s'.2 = startTime s.2

theorem startTime_snoc {calls : List (Call Res)} {c : Call Res} :
    startTime (calls ++ [c]) = (startTime calls).or (Call.reading c) := by
  rw [startTime, List.findSome?_append]
  simp [startTime]

theorem Quiet.trans {s₂ : Moment} (h : Quiet s s₁) (h' : Quiet s₁ s₂) : Quiet s s₂ :=
  ⟨h'.world.trans h.world, h'.progress.trans h.progress, h'.startTime.trans h.startTime⟩

/-- The rule for an operation that looks or asks. -/
theorem Quiet.bind {o : Op} {f : Res o → Prog Res α}
    (hworld : ∀ {w w' : World} {r : Res o}, step o w r = some w' → w' = w)
    (hneutral : ∀ r, switches o r = false ∧ fails o r = false ∧ Call.reading ⟨o, r⟩ = none)
    (hf : ∀ r s₁, step o s.1 r = some s₁.1 → Quiet s s₁ → Ends Q (f r) s₁) :
    Ends Q (Prog.perform o >>= f) s := by
  refine .perform_bind fun r s₁ hs => ⟨trivial, ?_⟩
  obtain ⟨hstep, hcalls⟩ := traced_eq_some hs
  obtain ⟨hswitches, hfails, hreading⟩ := hneutral r
  refine hf r s₁ hstep ⟨hworld hstep, ?_, ?_⟩
  · rw [hcalls, progress_snoc, Progress.next_of_neutral hswitches hfails]
  · rw [hcalls, startTime_snoc, hreading, Option.or_none]

theorem filesPresent_ends (dir : Path) {names : List Artifact} :
    Ends (fun _ s' => Quiet s s') (filesPresent dir names) s := by
  induction names generalizing s with
  | nil => exact .pure ⟨rfl, rfl, rfl⟩
  | cons a rest ih =>
    refine Quiet.bind (fun h => ?_) (fun _ => ⟨rfl, rfl, rfl⟩) fun r s₁ _ h₁ => ?_
    · obtain ⟨t, ht, rfl⟩ := Option.map_eq_some_iff.mp h
      rw [step_looks ht trivial]
    match r with
    | none | some .directory => exact .pure h₁
    | some (.file size) =>
      exact .ite (fun _ => .pure h₁) fun _ => ih.mono fun _ _ h => h₁.trans h

theorem currentArtifactDir_ends : Ends (fun _ s' => Quiet s s') (currentArtifactDir cfg) s := by
  refine Quiet.bind (fun h => ?_) (fun _ => ⟨rfl, rfl, rfl⟩) fun r s₁ _ h₁ => ?_
  · obtain ⟨t, ht, rfl⟩ := Option.map_eq_some_iff.mp h
    rw [step_looks ht trivial]
  match r with
  | none => exact .pure h₁
  | some resolved =>
    refine (filesPresent_ends resolved).bind fun present s₂ h₂ => ?_
    exact .ite (fun _ => .pure (h₁.trans h₂)) fun _ => .pure (h₁.trans h₂)

/-- The status is the one that is remembered while a build is running. -/
theorem status_ends : Ends (fun st s' => Quiet s s' ∧
    (s.1.running = true → s.1.status = some { phase := .building } → st.phase = .building))
      (status cfg) s := by
  refine Quiet.bind (step_asks trivial) (fun _ => ⟨rfl, rfl, rfl⟩) fun r s₁ hs h₁ => ?_
  have hr : r = (s.1.status, s.1.running) := by
    simp only [step] at hs
    split at hs
    · assumption
    · cases hs
  obtain ⟨_ | st, running⟩ := r
  · have hnone : s.1.status = none := (Prod.mk.inj hr).1.symm
    refine currentArtifactDir_ends.bind fun dir s₂ h₂ => ?_
    cases dir <;>
      exact .pure ⟨h₁.trans h₂, fun _ hsome => absurd (hnone.symm.trans hsome) (by simp)⟩
  · obtain ⟨hst, hrunning⟩ := Prod.mk.inj hr
    refine .ite (fun _ => .pure ⟨h₁, fun _ hsaved => ?_⟩) fun hnot => ?_
    · rw [hsaved] at hst
      rw [Option.some.inj hst]
    · refine currentArtifactDir_ends.bind fun dir s₂ h₂ => ?_
      have hstopped : s.1.running ≠ true := fun h => hnot (Or.inl (hrunning.trans h))
      cases dir <;> exact .pure ⟨h₁.trans h₂, fun h => absurd h hstopped⟩

/-- What a build has done, in terms of the time at which it was started. -/
def BuildSettles (lib : Lib) (cfg : Config) (s₀ : Moment) (r : Except Err Status) (s : Moment) : Prop :=
  ∃ t, startTime s.2 = some t ∧ Settles lib cfg (compactStamp t) s₀ r s

theorem build_ends (hlinks : OnlyCurrent cfg s.1.data) (hprogress : progress s.2 = .untouched)
    (hstart : startTime s.2 = none) (hrunning : s.1.running = true)
    (hstatus : s.1.status = some { phase := .building }) :
    Ends (BuildSettles lib cfg s) (build lib cfg force) s := by
  refine .bind (Q := fun st s' => Quiet s s' ∧ st.phase = .building) ?_ fun st s₁ h₁ => ?_
  · refine .ite (fun _ => .pure ⟨⟨rfl, rfl, rfl⟩, rfl⟩) fun _ => ?_
    exact status_ends.mono fun st s₁ h => ⟨h.1, h.2 hrunning hstatus⟩
  obtain ⟨hquiet, hphase⟩ := h₁
  refine .ite (fun hready => absurd hready (by simp [hphase])) fun _ => ?_
  refine .perform_bind fun (now : Time) s₂ hs => ⟨trivial, ?_⟩
  obtain ⟨hstep, hcalls⟩ := traced_eq_some hs
  have htime : startTime s₂.2 = some now := by
    rw [hcalls, startTime_snoc, hquiet.startTime, hstart]
    rfl
  have hw : s₂.1.data = s.1.data ∧ s₂.1.files = s.1.files := by
    simp only [step] at hstep
    split at hstep
    · rw [← Option.some.inj hstep, hquiet.world]
      exact ⟨rfl, rfl⟩
    · cases hstep
  have hproper := proper_compactStamp now
  have hframe : Frame cfg (Own cfg (compactStamp now)) s s₂ := by
    refine ⟨hw.2, fun q _ => by rw [hw.1], by rwa [hw.1], ?_⟩
    rw [hcalls, progress_snoc, Progress.next_of_neutral rfl rfl, hquiet.progress, hprogress]
  -- the time at which the build was started is the first one that was read
  refine .mono (Q := fun r s' => Settles lib cfg (compactStamp now) s r s' ∧
    startTime s'.2 = some now) ?_ fun r s' h => ⟨now, h.2, h.1⟩
  refine .stable (J := fun u : Moment => startTime u.2 = some now) (fun {o u r u'} hs hJ => ?_) ?_ htime
  · rw [(traced_eq_some hs).2, startTime_snoc, hJ]
    rfl
  refine hframe.looks_bind trivial fun made s₃ h₃ _ _ => ?_
  refine .ite (fun _ => .pure h₃.settles) fun _ => ?_
  refine (buildIn_ends hproper h₃).bind fun r s₄ h₄ => ?_
  refine h₄.data_bind hproper (by simp) (by simp) (fun _ => rfl) (fun _ q hq => ?_)
    fun _ s₅ h₅ => .pure h₅
  refine ⟨Or.inr (Or.inl hq), fun _ _ hprefix => ?_⟩
  -- the directory in which a build works is not that of its artifacts
  rcases List.prefix_or_prefix_of_prefix hq hprefix with h | h
  · exact absurd h (by simp [artifactDir, artifactsDir, buildDir])
  · exact absurd h (by simp [artifactDir, artifactsDir, buildDir])

/-- **What a call of `start` has done**: nothing, or a build. -/
theorem start_ends (hlinks : OnlyCurrent cfg s.1.data) (hprogress : progress s.2 = .untouched)
    (hstart : startTime s.2 = none) :
    Ends (fun r s' => match r with
        | none => s'.1 = s.1
        | some r => BuildSettles lib cfg s r s') (start lib cfg force) s := by
  refine .bind (Q := fun _ s' => Quiet s s') ?_ fun st s₁ h₁ => ?_
  · refine .ite (fun _ => .pure ⟨rfl, rfl, rfl⟩) fun _ => ?_
    exact status_ends.mono fun st s₁ h => h.1
  refine .ite (fun _ => .pure h₁.world) fun _ => ?_
  refine Quiet.bind (step_asks trivial) (fun _ => ⟨rfl, rfl, rfl⟩) fun r s₂ _ h₂ => ?_
  obtain ⟨saved, running⟩ := r
  refine .ite (fun _ => .pure (h₁.trans h₂).world) fun _ => ?_
  have hquiet := h₁.trans h₂
  refine .perform_bind fun _ s₃ hs => ⟨trivial, ?_⟩
  obtain ⟨hstep, hcalls⟩ := traced_eq_some hs
  have hw := Option.some.inj hstep
  have hdata : s₃.1.data = s.1.data := by rw [← hw, hquiet.world]
  have hfiles : s₃.1.files = s.1.files := by rw [← hw, hquiet.world]
  refine (build_ends (by rwa [hdata]) ?_ ?_ (by rw [← hw]) (by rw [← hw])).bind fun r s₄ h₄ => ?_
  · rw [hcalls, progress_snoc, Progress.next_of_neutral rfl rfl, hquiet.progress, hprogress]
  · rw [hcalls, startTime_snoc, hquiet.startTime, hstart]
    rfl
  obtain ⟨t, ht, hsettles⟩ := h₄
  -- what is remembered at the end is not on the disk
  have hfinish : ∀ {s' : Moment} (st : Status), traced step (.finish st) s₄ () = some s' →
      BuildSettles lib cfg s r s' := by
    intro s' st hs
    obtain ⟨hstep, hcalls⟩ := traced_eq_some hs
    have hw := Option.some.inj hstep
    refine ⟨t, by rw [hcalls, startTime_snoc, ht]; rfl, ?_, fun x hx => ?_, fun e he => ?_⟩
    · rw [← hw]
      exact hsettles.links
    · rw [← hw]
      exact (hsettles.published x hx).congr rfl (fun _ => rfl) fun _ => rfl
    · rw [hcalls, progress_snoc, Progress.next_of_neutral rfl rfl]
      refine (hsettles.failed e he).imp_right fun hkept => ⟨fun a => ?_, fun q hq => ?_⟩
      · rw [← hw, ← hfiles]
        exact hkept.linux a
      · rw [← hw, ← hdata]
        exact hkept.data q hq
  match r with
  | .ok st => exact .perform_bind fun _ s₅ hs => ⟨trivial, .pure (hfinish st hs)⟩
  | .error _ => exact .perform_bind fun _ s₅ hs => ⟨trivial, .pure (hfinish _ hs)⟩

/-! ### Runs -/

variable {w₀ w w' : World} {b : Build}

theorem BuildStep.ends (hlinks : OnlyCurrent cfg w.data) (h : BuildStep lib cfg w b w') :
    match b.result with
    | none => w' = w
    | some r => BuildSettles lib cfg (w, []) r (w', b.calls) :=
  (start_ends (s := (w, [])) hlinks rfl rfl).ends h

/-- The only link of the data directory remains `current`. -/
theorem OnlyCurrent.buildStep (hlinks : OnlyCurrent cfg w.data) (h : BuildStep lib cfg w b w') :
    OnlyCurrent cfg w'.data := by
  have hends := h.ends hlinks
  split at hends
  · rw [hends]
    exact hlinks
  · obtain ⟨t, -, hsettles⟩ := hends
    exact hsettles.links

/-- **A failed build leaves everything in its place**: if it failed before a link was switched, and if
the build that is published has another directory. -/
theorem Kept.unchanged (h : Kept cfg buildID (w, []) (w', b.calls)) (hproper : Proper buildID)
    (hother : w.data cfg.current ≠ some (.link (cfg.artifactDir buildID))) : Unchanged cfg w w' := by
  refine ⟨h.data _ fun hown => (Own.apart hproper _ hown).1 rfl, h.linux, fun other name hother' => ?_⟩
  refine h.data _ (not_own ?_)
  rintro rfl
  exact hother hother'

theorem Unchanged.published (h : Unchanged cfg w w') (hpublished : Published lib cfg w buildID) :
    Published lib cfg w' buildID :=
  hpublished.congr h.current h.linux fun name => h.artifacts buildID name hpublished.current

/-- **Publishing is all or nothing.** In every run of builds that all meet the condition, a build that
failed has changed neither the links nor what they lead to, and after a build that succeeded all of
them lead to its complete and verified artifacts. -/
theorem published_or_unchanged {builds : List Build} (hlinks : w₀.data.NoLinks)
    (hrun : Steps (Under (BuildStep lib cfg) (Calm cfg)) w₀ builds w)
    (hstep : BuildStep lib cfg w b w') (hcalm : Calm cfg w b) :
    (∀ e, b.result = some (.error e) → Unchanged cfg w w' ∧
      ∀ buildID, Published lib cfg w buildID → Published lib cfg w' buildID) ∧
    (∀ st, b.result = some (.ok st) → ∃ t, startTime b.calls = some t ∧
      Published lib cfg w' (compactStamp t)) := by
  have hlinks : OnlyCurrent cfg w.data := by
    refine hrun.invariant (I := fun u => OnlyCurrent cfg u.data) (fun h hu => hu.buildStep h.1) ?_
    exact fun q target hq => absurd hq (hlinks q target)
  have hends := hstep.ends hlinks
  constructor
  · intro e he
    rw [he] at hends
    obtain ⟨t, ht, hsettles⟩ := hends
    have hkept := (hsettles.failed e rfl).resolve_left hcalm.1
    have hunchanged := hkept.unchanged (proper_compactStamp t) (hcalm.2 t ht)
    exact ⟨hunchanged, fun _ => hunchanged.published⟩
  · intro st hst
    rw [hst] at hends
    obtain ⟨t, ht, hsettles⟩ := hends
    exact ⟨t, ht, hsettles.published st rfl⟩

/-! ### Failures -/

/-- A library that knows one manifest, whose artifacts all are a file of one byte, which is 0. -/
def sampleLib : Lib where
  sha256 content :=
    if content = [0] then
      [110, 52, 11, 156, 255, 179, 122, 152, 156, 165, 68, 230, 187, 120, 10, 44,
        120, 144, 29, 63, 179, 55, 56, 118, 133, 17, 163, 6, 23, 175, 160, 29]
    else []
  parseManifest raw :=
    if raw = [1] then
      some ⟨"ubuntu-minimal-cloud-amd64", fun a => some { path := a.fileName, sha256 :=
        "sha256:6e340b9cffb37a989ca544e6bb780a2c78901d3fb33738768511a30617afa01d" }⟩
    else none
  statusJSON _ _ _ := []
  parseURLPath _ := none

def sampleConfig : Config where
  dataDir := ["data"]
  filesDir := ["files"]
  sourceURL := "https://source"

/-- The replies at one time: what can be fetched is `available`, and a link is not made at `broken`. -/
def answer (t : Time) (available : String → Bool) (broken : Path) (o : Op) (s : Moment) : Res o :=
  match o with
  | .now => t
  | .data o => s.1.data.grant o
  | .files (.symlink _ p) => decide (p ≠ broken)
  | .files o => s.1.files.grant o
  | .get url =>
    if available url then some (200, if hasSuffix url ".json" then [1] else [0]) else none
  | .openSource _ => none
  | .cancelled => false
  | .mapOrder => ⟨artifacts, List.Perm.refl _⟩
  | .observe => (s.1.status, s.1.running)
  | .announce => ()
  | .finish _ => ()

/-- A build with these replies. -/
def sampleBuild (t : Time) (available : String → Bool) (broken : Path) (w : World) :
    Option (Option (Except Err Status) × Moment) :=
  evaluate (traced step) (answer t available broken) (start sampleLib sampleConfig true) (w, [])

theorem BuildStep.of_sample {t : Time} {available : String → Bool} {broken : Path}
    {x : Option (Except Err Status) × Moment} (h : sampleBuild t available broken w = some x) :
    BuildStep sampleLib sampleConfig w ⟨true, x.2.2, x.1⟩ x.2.1 := Exec.of_evaluate h

def succeeded (r : Option (Except Err Status)) : Bool := r.any fun r => r.toOption.isSome

def failed (r : Option (Except Err Status)) : Bool := r.any fun r => !r.toOption.isSome

/-- The first build succeeds. A second later nothing can be fetched. Or the second link of the PXE server
cannot be made. Or the build is started in the same second, and only the manifest can be fetched. -/
theorem sampleBuild_plays :
    ((sampleBuild 0 (fun _ => true) [] {}).any fun x₁ =>
      (succeeded x₁.1 && decide (startTime x₁.2.2 = some 0) && decide (progress x₁.2.2 ≠ .late)) &&
      ((sampleBuild 1000000000 (fun _ => false) [] x₁.2.1).any fun x₂ => failed x₂.1 &&
        decide (startTime x₂.2.2 = some 1000000000) && decide (progress x₂.2.2 ≠ .late)) &&
      ((sampleBuild 1000000000 (fun _ => true) (suffixed (sampleConfig.linux .initrd) ".tmp") x₁.2.1).any
        fun x₂ => failed x₂.1 && decide (startTime x₂.2.2 = some 1000000000) &&
          decide (x₂.2.1.files (sampleConfig.linux .kernel) ≠
            some (.link (sampleConfig.artifactDir (compactStamp 0) ++ ["boot-kernel"])))) &&
      ((sampleBuild 1 (fun url => hasSuffix url ".json") [] x₁.2.1).any fun x₂ => failed x₂.1 &&
        decide (progress x₂.2.2 ≠ .late) && decide (x₂.2.1.data (sampleConfig.artifactDir (compactStamp 0) ++ ["boot-kernel"]) = none))) =
      true := by
  decide +kernel

theorem exists_ok {r : Option (Except Err Status)} (h : succeeded r = true) : ∃ st, r = some (.ok st) := by
  obtain ⟨r, rfl, hr⟩ := (Option.any_eq_true _ _).mp h
  cases r with
  | ok st => exact ⟨st, rfl⟩
  | error e => cases hr

theorem exists_error {r : Option (Except Err Status)} (h : failed r = true) :
    ∃ e, r = some (.error e) := by
  obtain ⟨r, rfl, hr⟩ := (Option.any_eq_true _ _).mp h
  cases r with
  | ok st => cases hr
  | error e => exact ⟨e, rfl⟩

/-- A sample build that succeeds is published. -/
theorem published_of_sample {x : Option (Except Err Status) × Moment}
    (h : sampleBuild 0 (fun _ => true) [] {} = some x) (hok : succeeded x.1 = true)
    (htime : startTime x.2.2 = some 0) : Published sampleLib sampleConfig x.2.1 (compactStamp 0) := by
  obtain ⟨st, hst⟩ := exists_ok hok
  have hends := (BuildStep.of_sample h).ends (by simp [OnlyCurrent])
  rw [hst] at hends
  obtain ⟨t, ht, hsettles⟩ := hends
  obtain rfl : t = 0 := Option.mem_unique ht htime
  exact hsettles.published st rfl

/-- A build is published, and the next one fails. -/
theorem published_kept : ∃ w₁ b₁ b₂ w₂,
    Steps (Under (BuildStep sampleLib sampleConfig) (Calm sampleConfig)) {} [b₁] w₁ ∧
    Published sampleLib sampleConfig w₁ (compactStamp 0) ∧
    BuildStep sampleLib sampleConfig w₁ b₂ w₂ ∧ Calm sampleConfig w₁ b₂ ∧
    Published sampleLib sampleConfig w₂ (compactStamp 0) := by
  have hplays := sampleBuild_plays
  simp only [Option.any_eq_true, Bool.and_eq_true, decide_eq_true_eq] at hplays
  obtain ⟨x₁, h₁, ⟨⟨⟨⟨hok, htime₁⟩, hprogress₁⟩, x₂, h₂, ⟨herror, htime₂⟩, hprogress₂⟩, -⟩, -⟩ := hplays
  have hpublished := published_of_sample h₁ hok htime₁
  have hcalm : Calm sampleConfig x₁.2.1 ⟨true, x₂.2.2, x₂.1⟩ := by
    refine ⟨hprogress₂, fun t ht => ?_⟩
    obtain rfl := Option.mem_unique ht htime₂
    rw [hpublished.current]
    decide +kernel
  obtain ⟨e, he⟩ := exists_error herror
  have hrun : Steps (Under (BuildStep sampleLib sampleConfig) (Calm sampleConfig)) {}
      [⟨true, x₁.2.2, x₁.1⟩] x₁.2.1 := .cons ⟨.of_sample h₁, hprogress₁, by simp⟩ (.nil _)
  refine ⟨_, _, _, x₂.2.1, hrun, hpublished, .of_sample h₂, hcalm, ?_⟩
  exact ((published_or_unchanged (by simp [Tree.NoLinks]) hrun (.of_sample h₂) hcalm).1 e he).2 _
    hpublished

/-- **A build that failed has torn the published one down**: because a link could not be made after
another one was switched, a second later, and because it was started in the same second. -/
theorem publish_torn : ∃ w₁ b₁, BuildStep sampleLib sampleConfig {} b₁ w₁ ∧
    Published sampleLib sampleConfig w₁ (compactStamp 0) ∧
    (∃ b₂ w₂ e, BuildStep sampleLib sampleConfig w₁ b₂ w₂ ∧ b₂.result = some (.error e) ∧
      startTime b₂.calls = some 1000000000 ∧ ¬Published sampleLib sampleConfig w₂ (compactStamp 0)) ∧
    ∃ b₂ w₂ e, BuildStep sampleLib sampleConfig w₁ b₂ w₂ ∧ b₂.result = some (.error e) ∧
      progress b₂.calls ≠ .late ∧ ¬Published sampleLib sampleConfig w₂ (compactStamp 0) := by
  have hplays := sampleBuild_plays
  simp only [Option.any_eq_true, Bool.and_eq_true, decide_eq_true_eq] at hplays
  obtain ⟨x₁, h₁, ⟨⟨⟨⟨hok, htime₁⟩, -⟩, -⟩, x₂, h₂, ⟨herror₂, htime₂⟩, hlink⟩, x₃, h₃,
    ⟨herror₃, hprogress₃⟩, hgone⟩ := hplays
  obtain ⟨e₂, he₂⟩ := exists_error herror₂
  obtain ⟨e₃, he₃⟩ := exists_error herror₃
  refine ⟨x₁.2.1, _, .of_sample h₁, published_of_sample h₁ hok htime₁,
    ⟨_, x₂.2.1, e₂, .of_sample h₂, he₂, htime₂, fun hpublished => hlink (hpublished.linux .kernel)⟩,
    _, x₃.2.1, e₃, .of_sample h₃, he₃, hprogress₃, fun hpublished => ?_⟩
  -- the artifacts of the published build are gone
  obtain ⟨raw, manifest, -, -, hartifacts⟩ := hpublished.complete
  obtain ⟨content, hcontent, -⟩ := hartifacts .kernel
  cases hgone.symm.trans hcontent

end Gomi.Bootenv
