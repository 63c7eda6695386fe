import Gomi.Bootenv.Manager
import Gomi.Transition

/-!
# All or nothing

After a build that succeeded, the link `current` and the files of the PXE server lead to it. A build
that failed should leave them where they were. It does not always: the four links are switched one
after another, a status file is written after that, and if any of this fails then the directory of the
build is removed, although links lead to it (`Gomi.Bootenv.publish_torn`). And the name of that
directory is the second in which the build was started, so that a build which fails removes the one
that was published earlier in the same second.

`Gomi.Bootenv.published_or_unchanged` is what holds: if the directory of the build is not the one that
is published, and if no call of the publication fails once the first link is switched, then a build
that failed has changed neither the links nor what they lead to.
-/

namespace Gomi.Bootenv

open Go Files Prog

/-! ### What is published -/

/-- A file is what the manifest says. -/
def Verified (lib : Lib) (manifest : PrebuiltManifest) (a : Artifact) (content : List UInt8) : Prop :=
  ∃ artifact, manifest.artifacts a = some artifact ∧ matchesDigest lib artifact.sha256 content = true ∧
    (0 < artifact.size → (content.length : ℤ) = artifact.size)

/-- The artifacts of a build are complete, and are what its manifest says. -/
def Complete (lib : Lib) (cfg : Config) (data : Tree) (buildID : String) : Prop :=
  ∃ raw manifest, data (cfg.artifactDir buildID ++ ["manifest.json"]) = some (.file (raw ++ [10]) true) ∧
    lib.parseManifest raw = some manifest ∧
    ∀ a : Artifact, ∃ content,
      data (cfg.artifactDir buildID ++ [a.fileName]) = some (.file content true) ∧
      Verified lib manifest a content

/-- **A build is published**: all four links lead to its artifacts, which are complete and
verified. -/
structure Published (lib : Lib) (cfg : Config) (w : World) (buildID : String) : Prop where
  current : w.data cfg.current = some (.link (cfg.artifactDir buildID))
  linux : ∀ a : Artifact, w.files (cfg.linux a) = some (.link (cfg.artifactDir buildID ++ [a.fileName]))
  complete : Complete lib cfg w.data buildID

/-- **The links are what they were, and so is what they lead to.** -/
structure Unchanged (cfg : Config) (w w' : World) : Prop where
  current : w'.data cfg.current = w.data cfg.current
  linux : ∀ a : Artifact, w'.files (cfg.linux a) = w.files (cfg.linux a)
  artifacts : ∀ buildID name, w.data cfg.current = some (.link (cfg.artifactDir buildID)) →
    w'.data (cfg.artifactDir buildID ++ [name]) = w.data (cfg.artifactDir buildID ++ [name])

/-! ### Builds -/

/-- A build, with the calls that it made and how it ended. -/
structure Build where
  force : Bool
  calls : List (Call Res)
  result : Option (Except Err Status)

/-- **One build**, from its start to its end. -/
def BuildStep (lib : Lib) (cfg : Config) (w : World) (b : Build) (w' : World) : Prop :=
  Exec (traced step) (start lib cfg b.force) (w, []) (.ret b.result) (w', b.calls)

/-- A link of the PXE server is switched. -/
def switches : (o : Op) → Res o → Bool
  | .files (.rename _ _), (r : Bool) => r
  | _, _ => false

/-- A link is not made or not switched, or the status file is not written. -/
def fails : (o : Op) → Res o → Bool
  | .data (.symlink _ _), (r : Bool) => !r
  | .data (.rename _ _), (r : Bool) => !r
  | .data (.writeFile p _), (r : Written) => p.getLast? = some "status.json" ∧ r ≠ .done
  | .files (.symlink _ _), (r : Bool) => !r
  | .files (.rename _ _), (r : Bool) => !r
  | _, _ => false

/-- How far a publication is. -/
inductive Progress where
  /-- No link of the PXE server is switched. -/
  | untouched
  /-- One is switched. -/
  | switched
  /-- Something has failed after that. -/
  | late
  deriving DecidableEq

def Progress.next (x : Progress) (c : Call Res) : Progress :=
  match x with
  | .untouched => if switches c.op c.res then .switched else .untouched
  | .switched => if fails c.op c.res then .late else .switched
  | .late => .late

/-- How far a publication is after some calls. -/
def progress (calls : List (Call Res)) : Progress := calls.foldl Progress.next .untouched

/-- The time that was read. -/
def Call.reading : Call Res → Option Time
  | ⟨.now, (t : Time)⟩ => some t
  | _ => none

/-- The time at which a build was started. -/
def startTime (calls : List (Call Res)) : Option Time := calls.findSome? Call.reading

/-- **The condition**, on the replies that a build got and on the state before it: nothing fails once a
link is switched, and the build that is published was not started in the same second. -/
def Calm (cfg : Config) (w : World) (b : Build) : Prop :=
  progress b.calls ≠ .late ∧ ∀ t, startTime b.calls = some t →
    w.data cfg.current ≠ some (.link (cfg.artifactDir (compactStamp t)))

/-! ### Calls -/

/-- The state during a build, with the calls so far. -/
abbrev Moment : Type := World × List (Call Res)

variable {lib : Lib} {cfg : Config} {s s₀ s₁ : Moment} {α : Type} {Q : α → Moment → Prop}
  {P : Path → Prop} {buildID : String}
variable {c : Call Res} {a b : Artifact} {names : List Artifact} {t : Tree} {url : String}

/-- What holds when a program ends. -/
abbrev Ends (Q : α → Moment → Prop) (p : Prog Res α) (s : Moment) : Prop :=
  Ensures (traced step) (fun _ => True) Q p s

theorem progress_snoc {calls : List (Call Res)} :
    progress (calls ++ [c]) = (progress calls).next c := by
  rw [progress, List.foldl_append]
  rfl

/-- The rule for an operation. -/
theorem Ends.bind_perform {o : Op} {f : Res o → Prog Res α}
    (h : ∀ r s₁, step o s.1 r = some s₁.1 → progress s₁.2 = (progress s.2).next ⟨o, r⟩ →
      Ends Q (f r) s₁) :
    Ends Q (Prog.perform o >>= f) s := by
  refine .perform_bind fun r s₁ hs => ⟨trivial, ?_⟩
  obtain ⟨hstep, hcalls⟩ := traced_eq_some hs
  exact h r s₁ hstep (by rw [hcalls, progress_snoc])

theorem Progress.next_of_neutral (hs : switches c.op c.res = false) (hf : fails c.op c.res = false)
    {x : Progress} : x.next c = x := by
  cases x with
  | untouched => simp [Progress.next, hs]
  | switched => simp [Progress.next, hf]
  | late => rfl

variable {o : Files.Op} {f : Files.Res o → Prog Res α} {artifactDir : Path}

/-- A call on the data directory switches no link of the PXE server. -/
theorem Progress.next_data {r : Res (.data o)} :
    Progress.next .untouched ⟨.data o, r⟩ = .untouched := rfl

/-! ### Before the publication -/

/-- In the data directory, `current` is the only link, apart from the one that will take its
place. -/
def OnlyCurrent (cfg : Config) (t : Tree) : Prop :=
  ∀ q target, t q = some (.link target) → q = cfg.current ∨ q = suffixed cfg.current ".tmp"

/-- **So far nothing was written but at the given paths**, and no link was switched. -/
structure Frame (cfg : Config) (P : Path → Prop) (s₀ s : Moment) : Prop where
  files : s.1.files = s₀.1.files
  data : ∀ q, ¬P q → s.1.data q = s₀.1.data q
  links : OnlyCurrent cfg s.1.data
  progress : progress s.2 = .untouched

/-- The paths are not those of the link. -/
def Apart (cfg : Config) (P : Path → Prop) : Prop :=
  ∀ q, P q → q ≠ cfg.current ∧ q ≠ suffixed cfg.current ".tmp"

theorem Frame.refl (hlinks : OnlyCurrent cfg s.1.data) (hprogress : Bootenv.progress s.2 = .untouched) :
    Frame cfg P s s := ⟨rfl, fun _ _ => rfl, hlinks, hprogress⟩

theorem Frame.trans {P' : Path → Prop} (h : Frame cfg P s₀ s) (h' : Frame cfg P' s s₁)
    (hP : ∀ q, P' q → P q) : Frame cfg P s₀ s₁ :=
  ⟨h'.files.trans h.files, fun q hq => (h'.data q fun hq' => hq (hP q hq')).trans (h.data q hq),
    h'.links, h'.progress⟩

/-- A call that changes nothing. -/
theorem Frame.same (h : Frame cfg P s₀ s) (hsame : s₁.1 = s.1)
    (hprogress : Bootenv.progress s₁.2 = .untouched) : Frame cfg P s₀ s₁ :=
  ⟨hsame ▸ h.files, hsame ▸ h.data, hsame ▸ h.links, hprogress⟩

/-- A path that is not the one of the link leads to itself. -/
theorem OnlyCurrent.resolve (h : OnlyCurrent cfg t) (hP : Apart cfg P) {p : Path} (hp : P p) :
    t.resolve p = p := by
  refine Tree.resolve_eq_self fun target htarget => ?_
  rcases h p target htarget with hq | hq
  · exact (hP p hp).1 hq
  · exact (hP p hp).2 hq

/-- A link is made or moved only where the link is, and not from there. -/
theorem OnlyCurrent.step {r : Files.Res o} {t' : Tree} (h : OnlyCurrent cfg t)
    (ht : Files.step o t r = some t')
    (hsymlink : ∀ target q, o = .symlink target q → q = suffixed cfg.current ".tmp")
    (hrename : ∀ p q, o = .rename p q → q = cfg.current ∨
      p ≠ cfg.current ∧ p ≠ suffixed cfg.current ".tmp") : OnlyCurrent cfg t' := by
  intro q target hq
  rcases step_link ht hq with hq | ho | ⟨p, ho, hp⟩
  · exact h q target hq
  · exact Or.inr (hsymlink target q ho)
  · rcases hrename p q ho with hcurrent | ⟨hne, hne'⟩
    · exact Or.inl hcurrent
    · rcases h p target hp with heq | heq
      · exact absurd heq hne
      · exact absurd heq hne'

/-- The rule for a call on a build's data, while links may be switched. -/
theorem Ends.data_bind
    (hf : ∀ (r : Res (.data o)) s₁, s₁.1.files = s.1.files → Files.step o s.1.data r = some s₁.1.data →
      progress s₁.2 = (progress s.2).next ⟨.data o, r⟩ → Ends Q (f r) s₁) :
    Ends Q (Client.data o >>= f) s := by
  refine .bind_perform fun r s₁ hs hprogress => ?_
  obtain ⟨t, ht, hw⟩ := Option.map_eq_some_iff.mp hs
  refine hf r s₁ (by rw [← hw]) ?_ hprogress
  rw [← hw]
  exact ht

/-- The rule for a call on the data directory. -/
theorem Frame.data_bind (h : Frame cfg P s₀ s) (hP : Apart cfg P)
    (ho : ∀ target p, o ≠ .symlink target p) (htouch : ∀ r q, o.Touches s.1.data r q → P q)
    (hrename : ∀ p q, o = .rename p q → P p)
    (hf : ∀ r s₁, Frame cfg P s₀ s₁ → Files.step o s.1.data r = some s₁.1.data → Ends Q (f r) s₁) :
    Ends Q (Client.data o >>= f) s := by
  refine .data_bind fun r s₁ hfiles ht hprogress => ?_
  refine hf r s₁ ⟨hfiles.trans h.files, fun q hq => ?_, ?_, ?_⟩ ht
  · exact (step_other ht fun hqt => hq (htouch r q hqt)).trans (h.data q hq)
  · refine h.links.step ht (fun target q heq => absurd heq (ho target q)) fun p q heq => ?_
    exact Or.inr (hP p (hrename p q heq))
  · rw [hprogress, h.progress, Progress.next_data]

/-- The operations that only ask. -/
def Op.Asks : Op → Prop
  | .get _ | .openSource _ | .cancelled | .mapOrder | .observe => True
  | _ => False

theorem step_asks {o : Op} {w w' : World} {r : Res o} (ho : o.Asks) (h : step o w r = some w') :
    w' = w := by
  cases o with
  | get _ | openSource _ | cancelled | mapOrder => exact (Option.some.inj h).symm
  | observe =>
    simp only [step] at h
    split at h
    · exact (Option.some.inj h).symm
    · cases h
  | now | data _ | files _ | announce | finish _ => exact ho.elim

/-- The rule for an operation that only asks. -/
theorem Frame.ask_bind {o : Op} {f : Res o → Prog Res α} (h : Frame cfg P s₀ s) (ho : o.Asks)
    (hf : ∀ r s₁, Frame cfg P s₀ s₁ → s₁.1 = s.1 → Ends Q (f r) s₁) :
    Ends Q (Prog.perform o >>= f) s := by
  refine .bind_perform fun r s₁ hs hprogress => ?_
  have hsame := step_asks ho hs
  refine hf r s₁ (h.same hsame ?_) hsame
  rw [hprogress, h.progress]
  cases o with
  | get _ | openSource _ | cancelled | mapOrder | observe => rfl
  | now | data _ | files _ | announce | finish _ => exact ho.elim

/-- The rule for a call that only looks. -/
theorem Frame.looks_bind (h : Frame cfg P s₀ s) (ho : o.Looks)
    (hf : ∀ r s₁, Frame cfg P s₀ s₁ → s₁.1 = s.1 → Files.step o s.1.data r = some s.1.data →
      Ends Q (f r) s₁) : Ends Q (Client.data o >>= f) s := by
  refine .bind_perform fun r s₁ hs hprogress => ?_
  obtain ⟨t, ht, hw⟩ := Option.map_eq_some_iff.mp hs
  obtain rfl := step_looks ht ho
  refine hf r s₁ (h.same hw.symm ?_) hw.symm ht
  rw [hprogress, h.progress, Progress.next_data]

/-! ### Transfers -/

section Transfers

variable {tmp dst : Path} {content : List UInt8}

/-- Nothing else was written, and if that succeeded then the file is complete. -/
def Arrived (cfg : Config) (P : Path → Prop) (s₀ : Moment) (dst : Path) (r : Except Err Unit)
    (s : Moment) : Prop :=
  Frame cfg P s₀ s ∧ (r = .ok () → ∃ content, s.1.data dst = some (.file content true))

/-- **A file that was written under another name first is complete.** -/
theorem writeVia_ends {chmod : Bool} (h : Frame cfg P s₀ s) (hP : Apart cfg P) (htmp : P tmp)
    (hdst : P dst) (hne : dst ≠ tmp) :
    Ends (Arrived cfg P s₀ dst) (writeVia chmod tmp dst content) s := by
  have hresolve : ∀ {u : Moment}, Frame cfg P s₀ u → ∀ q, q = u.1.data.resolve tmp → P q := by
    rintro u hu q rfl
    rwa [hu.links.resolve hP htmp]
  refine h.data_bind hP (by simp) (fun _ => hresolve h) (by simp) fun created s₁ h₁ _ => ?_
  refine .ite (fun _ => .pure ⟨h₁, by simp⟩) fun _ => ?_
  refine .bind (Q := Arrived cfg P s₀ dst) ?_ fun r s₂ h₂ => ?_
  · refine h₁.data_bind hP (by simp) (fun _ => hresolve h₁) (by simp) fun written s₂ h₂ ht => ?_
    match written with
    | .cut _ | .failed =>
      exact h₂.looks_bind trivial fun _ s₃ h₃ _ _ => .pure ⟨h₃, by simp⟩
    | .done =>
    have hfile : s₂.1.data tmp = some (.file content true) := by
      rw [← Option.some.inj ht, Tree.written, h₁.links.resolve hP htmp, Tree.set_self]
    refine h₂.looks_bind trivial fun closed s₃ h₃ hsame _ => ?_
    refine .ite (fun _ => .pure ⟨h₃, by simp⟩) fun _ => ?_
    refine .bind (Q := fun _ s' => Frame cfg P s₀ s' ∧ s'.1 = s₃.1) ?_ fun changed s₄ h₄ => ?_
    · refine .ite (fun _ => ?_) fun _ => .pure ⟨h₃, rfl⟩
      exact h₃.looks_bind trivial fun _ s₄ h₄ hsame _ => .pure ⟨h₄, hsame⟩
    refine .ite (fun _ => .pure ⟨h₄.1, by simp⟩) fun _ => ?_
    refine h₄.1.data_bind hP (by simp) ?_ ?_ fun renamed s₅ h₅ ht => ?_
    · rintro - q (rfl | rfl)
      · exact htmp
      · exact hdst
    · rintro p q hpq
      obtain ⟨rfl, rfl⟩ : tmp = p ∧ dst = q := by simpa using hpq
      exact htmp
    cases renamed with
    | false => exact .pure ⟨h₅, by simp⟩
    | true =>
      obtain ⟨x, hx, ht⟩ := step_rename ht
      refine .pure ⟨h₅, fun _ => ⟨content, ?_⟩⟩
      rw [ht, Tree.set_self, ← hx, h₄.2, hsame, hfile]
  · refine h₂.1.data_bind hP (by simp) ?_ (by simp) fun _ s₃ h₃ ht => .pure ⟨h₃, fun hr => ?_⟩
    · intro _ q hq
      rw [show q = tmp from hq]
      exact htmp
    · obtain ⟨content, hfile⟩ := h₂.2 hr
      exact ⟨content, (step_other ht hne).trans hfile⟩

/-- The paths at which an artifact is stored. -/
def StoredAt (dst q : Path) : Prop := q = dst ∨ q = suffixed dst ".download" ∨ q = suffixed dst ".tmp"

theorem downloadFileOnce_ends (h : Frame cfg P s₀ s) (hP : Apart cfg P)
    (hdst : ∀ q, StoredAt dst q → P q) :
    Ends (Arrived cfg P s₀ dst) (downloadFileOnce url dst) s := by
  refine h.looks_bind trivial fun made s₁ h₁ _ _ => ?_
  refine .ite (fun _ => .pure ⟨h₁, by simp⟩) fun _ => ?_
  refine h₁.ask_bind trivial fun r s₂ h₂ _ => ?_
  match r with
  | none => exact .pure ⟨h₂, by simp⟩
  | some (status, body) =>
  refine .ite (fun _ => .pure ⟨h₂, by simp⟩) fun _ => ?_
  exact writeVia_ends h₂ hP (hdst _ (Or.inr (Or.inl rfl))) (hdst _ (Or.inl rfl))
    (Ne.symm (suffixed_ne (by decide)))

/-- However often a download is tried, the last attempt counts. -/
theorem downloadFile_ends {n : ℕ} (h : Frame cfg P s₀ s) (hP : Apart cfg P)
    (hdst : ∀ q, StoredAt dst q → P q) :
    Ends (Arrived cfg P s₀ dst) (downloadFile url dst n) s := by
  induction n generalizing s with
  | zero => exact downloadFileOnce_ends h hP hdst
  | succ n ih =>
    refine (downloadFileOnce_ends h hP hdst).bind fun r s₁ h₁ => ?_
    match r with
    | .ok _ => exact .pure h₁
    | .error _ =>
      refine h₁.1.ask_bind trivial fun (cancelled : Bool) s₂ h₂ _ => ?_
      exact .ite (fun _ => .pure ⟨h₂, by simp⟩) fun _ => ih h₂

/-- **What was copied is complete.** -/
theorem copyLocation_ends {src : String} (h : Frame cfg P s₀ s) (hP : Apart cfg P)
    (hdst : ∀ q, StoredAt dst q → P q) :
    Ends (Arrived cfg P s₀ dst) (copyLocation lib src dst) s := by
  refine .ite (fun _ => ?_) fun _ => ?_
  · refine (downloadFile_ends h hP hdst).bind fun r s₁ h₁ => ?_
    match r with
    | .error _ => exact .pure ⟨h₁.1, by simp⟩
    | .ok _ =>
      refine h₁.1.looks_bind trivial fun changed s₂ h₂ hsame _ => ?_
      refine .ite (fun _ => .pure ⟨h₂, by simp⟩) fun _ => .pure ⟨h₂, fun _ => ?_⟩
      rw [hsame]
      exact h₁.2 rfl
  · refine h.ask_bind trivial fun r s₁ h₁ _ => ?_
    match r with
    | none => exact .pure ⟨h₁, by simp⟩
    | some content =>
    refine h₁.looks_bind trivial fun made s₂ h₂ _ _ => ?_
    refine .ite (fun _ => .pure ⟨h₂, by simp⟩) fun _ => ?_
    exact writeVia_ends h₂ hP (hdst _ (Or.inr (Or.inr rfl))) (hdst _ (Or.inl rfl))
      (Ne.symm (suffixed_ne (by decide)))

/-- **A file that was verified has the digest.** -/
theorem verifySHA256_ends {digest : String} (h : Frame cfg P s₀ s) (hP : Apart cfg P) (hdst : P dst)
    (hfile : s.1.data dst = some (.file content true)) :
    Ends (fun r s' => Frame cfg P s₀ s' ∧ s'.1 = s.1 ∧ (r = .ok () →
      matchesDigest lib digest content = true)) (verifySHA256 lib dst digest) s := by
  refine .ite (fun hempty => ?_) fun _ => ?_
  · exact .pure ⟨h, rfl, fun _ => by simp [matchesDigest, hempty]⟩
  refine h.looks_bind trivial fun r s₁ h₁ hsame ht => ?_
  match r with
  | none => exact .pure ⟨h₁, hsame, by simp⟩
  | some c =>
  have hc : c = content := by
    simp only [Files.step, Tree.lookup, h.links.resolve hP hdst, hfile] at ht
    split at ht
    · rename_i hc
      exact hc.symm
    · cases ht
  subst hc
  exact .ite (fun hmatch => .pure ⟨h₁, hsame, fun _ => hmatch⟩) fun _ =>
    Ensures.pure ⟨h₁, hsame, by simp⟩

theorem verifySize_ends {name : String} {size : ℤ} (h : Frame cfg P s₀ s) (hP : Apart cfg P)
    (hdst : P dst) (hfile : s.1.data dst = some (.file content true)) :
    Ends (fun r s' => Frame cfg P s₀ s' ∧ s'.1 = s.1 ∧ (r = .ok () →
      0 < size → (content.length : ℤ) = size)) (verifySize dst name size) s := by
  refine .ite (fun hsize => ?_) fun _ => ?_
  · exact .pure ⟨h, rfl, fun _ hpos => absurd hsize (not_le.mpr hpos)⟩
  refine h.looks_bind trivial fun r s₁ h₁ hsame ht => ?_
  match r with
  | none | some .directory => exact .pure ⟨h₁, hsame, by simp⟩
  | some (.file n) =>
  have hn : content.length = n := by
    simp only [Files.step, Tree.lookup, h.links.resolve hP hdst, hfile] at ht
    split at ht
    · rename_i hn
      exact hn
    · cases ht
  refine .ite (fun hsize => .pure ⟨h₁, hsame, fun _ _ => ?_⟩) fun _ =>
    Ensures.pure ⟨h₁, hsame, by simp⟩
  rw [hn]
  exact hsize

end Transfers

/-! ### The artifacts -/

/-- The artifact is there, complete and verified. -/
def Fetched (lib : Lib) (manifest : PrebuiltManifest) (artifactDir : Path) (data : Tree) (a : Artifact) :
    Prop :=
  ∃ content, data (artifactDir ++ [a.fileName]) = some (.file content true) ∧
    Verified lib manifest a content

/-- Artifacts are not stored at each other's paths. -/
theorem not_storedAt (hab : a ≠ b) (artifactDir : Path) :
    ¬StoredAt (artifactDir ++ [b.fileName]) (artifactDir ++ [a.fileName]) := by
  simp only [StoredAt, suffixed, List.dropLast_concat, List.getLastD_concat, List.append_cancel_left_eq]
  cases a <;> cases b <;> first | exact absurd rfl hab | decide

/-- **All artifacts that were fetched are complete and verified**, in whatever order. -/
theorem fetchArtifacts_ends {base : String} {manifest : PrebuiltManifest}
    (hmanifest : ∀ a, (manifest.artifacts a).isSome) {order : List Artifact} (hnodup : order.Nodup)
    (hP : Apart cfg fun q => ∃ a ∈ order, StoredAt (artifactDir ++ [a.fileName]) q)
    (h : Frame cfg (fun q => ∃ a ∈ order, StoredAt (artifactDir ++ [a.fileName]) q) s₀ s) :
    Ends (fun r s' => Frame cfg (fun q => ∃ a ∈ order, StoredAt (artifactDir ++ [a.fileName]) q) s₀ s' ∧
        (r = .ok () → ∀ a ∈ order, Fetched lib manifest artifactDir s'.1.data a))
      (fetchArtifacts lib base manifest artifactDir order) s := by
  induction order generalizing s s₀ with
  | nil => exact .pure ⟨h, by simp⟩
  | cons a rest ih =>
    obtain ⟨ha, hnodup⟩ := List.nodup_cons.mp hnodup
    have hat : ∀ q, StoredAt (artifactDir ++ [a.fileName]) q →
        ∃ b ∈ a :: rest, StoredAt (artifactDir ++ [b.fileName]) q :=
      fun q hq => ⟨a, List.mem_cons_self, hq⟩
    refine (copyLocation_ends h hP hat).bind fun r s₁ h₁ => ?_
    match r with
    | .error _ => exact .pure ⟨h₁.1, by simp⟩
    | .ok _ =>
    obtain ⟨h₁, hcopied⟩ := h₁
    obtain ⟨content, hfile⟩ := hcopied rfl
    refine (verifySHA256_ends h₁ hP (hat _ (Or.inl rfl)) hfile).bind fun r s₂ h₂ => ?_
    match r with
    | .error _ => exact .pure ⟨h₂.1, by simp⟩
    | .ok _ =>
    obtain ⟨h₂, hsame₂, hdigest⟩ := h₂
    rw [← hsame₂] at hfile
    refine (verifySize_ends h₂ hP (hat _ (Or.inl rfl)) hfile).bind fun r s₃ h₃ => ?_
    match r with
    | .error _ => exact .pure ⟨h₃.1, by simp⟩
    | .ok _ =>
    obtain ⟨h₃, hsame₃, hsize⟩ := h₃
    rw [← hsame₃] at hfile
    have hrest : ∀ q, (∃ b ∈ rest, StoredAt (artifactDir ++ [b.fileName]) q) →
        ∃ b ∈ a :: rest, StoredAt (artifactDir ++ [b.fileName]) q :=
      fun q ⟨b, hb, hq⟩ => ⟨b, List.mem_cons_of_mem _ hb, hq⟩
    refine (ih hnodup (fun q hq => hP q (hrest q hq)) (Frame.refl h₃.links h₃.progress)).mono ?_
    rintro r s₄ ⟨h₄, hfetched⟩
    refine ⟨h₃.trans h₄ hrest, fun hr b hb => ?_⟩
    rcases List.mem_cons.mp hb with rfl | hb
    · -- what is fetched afterwards is stored elsewhere
      refine ⟨content, ?_, ?_⟩
      · rw [h₄.data, hfile]
        rintro ⟨c, hc, hq⟩
        obtain rfl | hne := eq_or_ne b c
        · exact ha hc
        · exact not_storedAt hne artifactDir hq
      · obtain ⟨artifact, hartifact⟩ := Option.isSome_iff_exists.mp (hmanifest b)
        rw [hartifact] at hdigest hsize
        exact ⟨artifact, hartifact, hdigest rfl, hsize rfl⟩
    · exact hfetched hr b hb

/-! ### The publication -/

/-- The rule for a call on the directory of the PXE server. -/
theorem Ends.files_bind
    (hf : ∀ (r : Res (.files o)) s₁, s₁.1.data = s.1.data → Files.step o s.1.files r = some s₁.1.files →
      progress s₁.2 = (progress s.2).next ⟨.files o, r⟩ → Ends Q (f r) s₁) :
    Ends Q (Client.files o >>= f) s := by
  refine .bind_perform fun r s₁ hs hprogress => ?_
  obtain ⟨t, ht, hw⟩ := Option.map_eq_some_iff.mp hs
  refine hf r s₁ (by rw [← hw]) ?_ hprogress
  rw [← hw]
  exact ht

namespace Progress

variable {c : Call Res} {x : Progress}

/-- There is no way back. -/
theorem next_ne_untouched (hx : x ≠ .untouched) : x.next c ≠ .untouched := by
  cases x with
  | untouched => exact absurd rfl hx
  | switched =>
    rw [next]
    split <;> simp
  | late => simp [next]

theorem next_of_switches (hs : switches c.op c.res = true) : x.next c ≠ .untouched := by
  by_cases hx : x = .untouched
  · subst hx
    simp [next, hs]
  · exact next_ne_untouched hx

/-- A failure is late, or nothing was switched before it. -/
theorem next_of_fails (hs : switches c.op c.res = false) (hf : fails c.op c.res = true) :
    x.next c = .late ∨ x = .untouched ∧ x.next c = .untouched := by
  cases x with
  | untouched => exact Or.inr ⟨rfl, by simp [next, hs]⟩
  | switched => exact Or.inl (by simp [next, hf])
  | late => exact Or.inl rfl

/-- A failure after a switch is late. -/
theorem next_eq_late (hs : switches c.op c.res = false) (hf : fails c.op c.res = true)
    (hx : x ≠ .untouched) : x.next c = .late :=
  (next_of_fails hs hf).resolve_right fun h => hx h.1

end Progress

theorem linux_injective : Function.Injective cfg.linux := by
  intro a b hab
  have hname : a.fileName = b.fileName := by simpa [Config.linux] using hab
  cases a <;> cases b <;> first | rfl | exact absurd hname (by decide)

theorem linux_ne_tmp : cfg.linux b ≠ suffixed (cfg.linux a) ".tmp" := by
  have hdrop : (cfg.linux a).dropLast = cfg.filesDir ++ ["linux"] := by
    rw [Config.linux, List.dropLast_append_of_ne_nil (by simp)]
    rfl
  have hlast : (cfg.linux a).getLastD "" = a.fileName := by simp [Config.linux]
  rw [suffixed, hdrop, hlast, Config.linux]
  intro heq
  have hname : b.fileName = a.fileName ++ ".tmp" := by simpa using heq
  cases a <;> cases b <;> exact absurd hname (by decide)

/-- **What a switch of links has done**: all of them, or it is late, or none. -/
structure Linked (cfg : Config) (artifactDir : Path) (names : List Artifact) (s : Moment)
    (r : Except Err Unit) (s' : Moment) : Prop where
  data : s'.1.data = s.1.data
  others : ∀ a ∉ names, s'.1.files (cfg.linux a) = s.1.files (cfg.linux a)
  linked : r = .ok () → ∀ a ∈ names,
    s'.1.files (cfg.linux a) = some (.link (artifactDir ++ [a.fileName]))
  began : progress s.2 ≠ .untouched ∨ r = .ok () ∧ names ≠ [] → progress s'.2 ≠ .untouched
  failed : r ≠ .ok () → progress s'.2 = .late ∨ progress s'.2 = .untouched ∧
    ∀ a, s'.1.files (cfg.linux a) = s.1.files (cfg.linux a)

/-- A failure before the first link is switched. -/
theorem Linked.of_failure {s' : Moment} {e : Err} (hs : switches c.op c.res = false)
    (hf : fails c.op c.res = true) (hdata : s'.1.data = s.1.data)
    (hfiles : ∀ a, s'.1.files (cfg.linux a) = s.1.files (cfg.linux a))
    (hprogress : progress s'.2 = (progress s.2).next c) :
    Linked cfg artifactDir names s (.error e) s' := by
  refine ⟨hdata, fun a _ => hfiles a, by simp, ?_, fun _ => ?_⟩
  · rintro (hbegan | ⟨habsurd, -⟩)
    · rw [hprogress]
      exact Progress.next_ne_untouched hbegan
    · cases habsurd
  · rcases Progress.next_of_fails hs hf with hlate | ⟨-, huntouched⟩
    · exact Or.inl (hprogress.trans hlate)
    · exact Or.inr ⟨hprogress.trans huntouched, hfiles⟩

theorem publishFiles_ends (hnodup : names.Nodup) :
    Ends (Linked cfg artifactDir names s) (publishFiles cfg artifactDir names) s := by
  induction names generalizing s with
  | nil =>
    exact .pure ⟨rfl, fun _ _ => rfl, by simp, by simp, by simp⟩
  | cons a rest ih =>
    obtain ⟨ha, hnodup⟩ := List.nodup_cons.mp hnodup
    refine .files_bind fun _ s₁ hdata₁ ht₁ hprogress₁ => ?_
    rw [Progress.next_of_neutral rfl rfl] at hprogress₁
    have hfiles₁ : ∀ b, s₁.1.files (cfg.linux b) = s.1.files (cfg.linux b) :=
      fun b => step_other ht₁ (linux_ne_tmp)
    refine .files_bind fun r s₂ hdata₂ ht₂ hprogress₂ => ?_
    have hfiles₂ : ∀ b, s₂.1.files (cfg.linux b) = s.1.files (cfg.linux b) :=
      fun b => (step_other ht₂ (linux_ne_tmp)).trans (hfiles₁ b)
    rw [hprogress₁] at hprogress₂
    cases r with
    | false =>
      exact .pure (.of_failure rfl rfl (hdata₂.trans hdata₁) hfiles₂ hprogress₂)
    | true =>
    rw [Progress.next_of_neutral rfl rfl] at hprogress₂
    refine .files_bind fun r s₃ hdata₃ ht₃ hprogress₃ => ?_
    rw [hprogress₂] at hprogress₃
    -- the temporary link is removed at the end
    refine .bind (Q := fun r s' => Linked cfg artifactDir (a :: rest) s r s') ?_ fun r s₄ h₄ => ?_
    · cases r with
      | false =>
        refine .pure (.of_failure rfl rfl (hdata₃.trans (hdata₂.trans hdata₁)) (fun b => ?_)
          hprogress₃)
        rw [← Option.some.inj ht₃]
        exact hfiles₂ b
      | true =>
        obtain ⟨x, hx, hfiles₃⟩ := step_rename ht₃
        obtain ⟨-, hsym⟩ := step_symlink ht₂
        rw [hsym, Tree.set_self] at hx
        cases hx
        have hbegan : progress s₃.2 ≠ .untouched := by
          rw [hprogress₃]
          exact Progress.next_of_switches rfl
        have hself : s₃.1.files (cfg.linux a) = some (.link (artifactDir ++ [a.fileName])) := by
          rw [hfiles₃, Tree.set_self]
        have hothers : ∀ b, b ≠ a → s₃.1.files (cfg.linux b) = s.1.files (cfg.linux b) := by
          intro b hb
          rw [hfiles₃, Tree.set_of_ne _ fun heq => hb (linux_injective heq),
            Tree.set_of_ne _ (linux_ne_tmp)]
          exact hfiles₂ b
        refine (ih hnodup).mono fun r s₄ h₄ => ?_
        refine ⟨h₄.data.trans (hdata₃.trans (hdata₂.trans hdata₁)), fun b hb => ?_, fun hr b hb => ?_,
          fun _ => h₄.began (Or.inl hbegan), fun hr => ?_⟩
        · obtain ⟨hba, hb⟩ : b ≠ a ∧ b ∉ rest := by simpa using hb
          exact (h₄.others b hb).trans (hothers b hba)
        · rcases List.mem_cons.mp hb with rfl | hb
          · exact (h₄.others b ha).trans hself
          · exact h₄.linked hr b hb
        · rcases h₄.failed hr with hlate | ⟨huntouched, -⟩
          · exact Or.inl hlate
          · exact absurd huntouched (h₄.began (Or.inl hbegan))
    · refine Ends.files_bind fun _ s₅ hdata₅ ht₅ hprogress₅ => Ensures.pure ?_
      rw [Progress.next_of_neutral rfl rfl] at hprogress₅
      have hfiles₅ : ∀ b, s₅.1.files (cfg.linux b) = s₄.1.files (cfg.linux b) :=
        fun b => step_other ht₅ (linux_ne_tmp)
      refine ⟨hdata₅.trans h₄.data, fun b hb => (hfiles₅ b).trans (h₄.others b hb),
        fun hr b hb => (hfiles₅ b).trans (h₄.linked hr b hb), fun hbegan => ?_, fun hr => ?_⟩
      · rw [hprogress₅]
        exact h₄.began hbegan
      · rw [hprogress₅]
        exact (h₄.failed hr).imp_right fun h => ⟨h.1, fun b => (hfiles₅ b).trans (h.2 b)⟩

theorem publishPXECompatibilityFiles_ends (h : progress s.2 = .untouched) :
    Ends (Linked cfg artifactDir artifacts s) (publishPXECompatibilityFiles cfg artifactDir) s := by
  refine .files_bind fun made s₁ hdata ht hprogress => ?_
  have hfiles := step_looks ht trivial
  rw [Progress.next_of_neutral rfl rfl] at hprogress
  refine .ite (fun _ => .pure ?_) fun _ => ?_
  · refine ⟨hdata, fun a _ => by rw [hfiles], by simp, fun hbegan => absurd hbegan (by simp [h]),
      fun _ => Or.inr ⟨hprogress.trans h, fun a => by rw [hfiles]⟩⟩
  · refine (publishFiles_ends (by decide)).mono fun r s₂ h₂ => ?_
    refine ⟨h₂.data.trans hdata, fun a ha => by rw [h₂.others a ha, hfiles], h₂.linked, ?_, ?_⟩
    · rw [← hprogress]
      exact h₂.began
    · rw [← hfiles]
      exact h₂.failed

theorem current_tmp : suffixed cfg.current ".tmp" = cfg.artifactsDir ++ ["current.tmp"] := by
  rw [suffixed, Config.current, List.dropLast_concat, List.getLastD_concat]
  rfl

/-- What the switch of the link has done: it is switched, or it is late. -/
structure CurrentLinked (cfg : Config) (buildID : String) (s : Moment) (r : Except Err Unit)
    (s' : Moment) : Prop where
  files : s'.1.files = s.1.files
  links : OnlyCurrent cfg s'.1.data
  data : ∀ q, q ≠ cfg.current → q ≠ suffixed cfg.current ".tmp" →
    q ≠ cfg.artifactDir buildID ++ ["status.json"] → s'.1.data q = s.1.data q
  linked : r = .ok () → s'.1.data cfg.current = some (.link (cfg.artifactDir buildID))
  failed : r ≠ .ok () → progress s'.2 = .late

section Current

variable {logPath : Path} (hapart : Apart cfg (· = cfg.artifactDir buildID ++ ["status.json"]))

include hapart

/-- The status file is written, or it is late. -/
theorem writeStatusFile_ends (hbegan : progress s.2 ≠ .untouched) (hlinks : OnlyCurrent cfg s.1.data) :
    Ends (fun r s' => s'.1.files = s.1.files ∧ OnlyCurrent cfg s'.1.data ∧
        (∀ q, q ≠ cfg.artifactDir buildID ++ ["status.json"] → s'.1.data q = s.1.data q) ∧
        (r ≠ .ok () → progress s'.2 = .late))
      (writeStatusFile lib (cfg.artifactDir buildID) logPath) s := by
  refine .bind_perform fun now s₁ hs₁ hprogress₁ => ?_
  rw [Progress.next_of_neutral rfl rfl] at hprogress₁
  have hw₁ : s₁.1.data = s.1.data ∧ s₁.1.files = s.1.files := by
    simp only [step] at hs₁
    split at hs₁
    · rw [← Option.some.inj hs₁]
      exact ⟨rfl, rfl⟩
    · cases hs₁
  refine .data_bind fun (written : Written) s₂ hfiles₂ ht₂ hprogress₂ => ?_
  rw [hw₁.1] at ht₂
  have hfiles : s₂.1.files = s.1.files := hfiles₂.trans hw₁.2
  have hlinks₂ : OnlyCurrent cfg s₂.1.data := hlinks.step ht₂ (by simp) (by simp)
  have hdata : ∀ q, q ≠ cfg.artifactDir buildID ++ ["status.json"] → s₂.1.data q = s.1.data q := by
    intro q hq
    exact step_other ht₂ fun heq => hq (Eq.trans heq (hlinks.resolve hapart rfl))
  refine .ite (fun hwritten => .pure ⟨hfiles, hlinks₂, hdata, fun _ => ?_⟩)
    fun _ => .pure ⟨hfiles, hlinks₂, hdata, by simp⟩
  rw [hprogress₂]
  refine Progress.next_eq_late rfl ?_ (by rwa [hprogress₁])
  exact decide_eq_true ⟨by simp, hwritten⟩

theorem publishCurrent_ends (hbegan : progress s.2 ≠ .untouched) (hlinks : OnlyCurrent cfg s.1.data) :
    Ends (CurrentLinked cfg buildID s)
      (publishCurrent lib cfg buildID (cfg.artifactDir buildID) logPath) s := by
  refine .data_bind fun _ s₁ hfiles₁ ht₁ hprogress₁ => ?_
  rw [Progress.next_of_neutral rfl rfl] at hprogress₁
  have hlinks₁ : OnlyCurrent cfg s₁.1.data := hlinks.step ht₁ (by simp) (by simp)
  have hbegan₁ : progress s₁.2 ≠ .untouched := by rwa [hprogress₁]
  refine .data_bind fun r s₂ hfiles₂ ht₂ hprogress₂ => ?_
  have hlinks₂ : OnlyCurrent cfg s₂.1.data := by
    refine hlinks₁.step ht₂ (fun target q ho => ?_) (by simp)
    obtain ⟨-, rfl⟩ : _ ∧ suffixed cfg.current ".tmp" = q := by simpa using ho
    rfl
  have hdata₂ : ∀ q, q ≠ suffixed cfg.current ".tmp" → s₂.1.data q = s.1.data q :=
    fun q hq => (step_other ht₂ hq).trans (step_other ht₁ hq)
  cases r with
  | false =>
    refine .pure ⟨hfiles₂.trans hfiles₁, hlinks₂, fun q _ hq _ => hdata₂ q hq, by simp, fun _ => ?_⟩
    rw [hprogress₂]
    exact Progress.next_eq_late rfl rfl hbegan₁
  | true =>
  rw [Progress.next_of_neutral rfl rfl] at hprogress₂
  have hbegan₂ : progress s₂.2 ≠ .untouched := by rwa [hprogress₂]
  refine .data_bind fun r s₃ hfiles₃ ht₃ hprogress₃ => ?_
  have hlinks₃ : OnlyCurrent cfg s₃.1.data := by
    refine hlinks₂.step ht₃ (by simp) fun p q ho => ?_
    obtain ⟨-, rfl⟩ : _ ∧ cfg.current = q := by simpa using ho
    exact Or.inl rfl
  have hdata₃ : ∀ q, q ≠ cfg.current → q ≠ suffixed cfg.current ".tmp" → s₃.1.data q = s.1.data q :=
    fun q hq hq' => (step_other ht₃ fun h => h.elim hq' hq).trans (hdata₂ q hq')
  have hfiles₃ : s₃.1.files = s.1.files := hfiles₃.trans (hfiles₂.trans hfiles₁)
  -- the temporary link is removed at the end
  refine .bind (Q := CurrentLinked cfg buildID s) ?_ fun r s₄ h₄ => ?_
  · cases r with
    | false =>
      refine .pure ⟨hfiles₃, hlinks₃, fun q hq hq' _ => hdata₃ q hq hq', by simp, fun _ => ?_⟩
      rw [hprogress₃]
      exact Progress.next_eq_late rfl rfl hbegan₂
    | true =>
    obtain ⟨x, hx, hmoved⟩ := step_rename ht₃
    obtain ⟨-, hsym⟩ := step_symlink ht₂
    rw [hsym, Tree.set_self] at hx
    cases hx
    have hbegan₃ : progress s₃.2 ≠ .untouched := by
      rw [hprogress₃]
      exact Progress.next_ne_untouched hbegan₂
    refine (writeStatusFile_ends hapart hbegan₃ hlinks₃).mono fun r s₄ h₄ => ?_
    obtain ⟨hfiles₄, hlinks₄, hdata₄, hfailed⟩ := h₄
    refine ⟨hfiles₄.trans hfiles₃, hlinks₄, fun q hq hq' hq'' => ?_, fun _ => ?_, hfailed⟩
    · exact (hdata₄ q hq'').trans (hdata₃ q hq hq')
    · rw [hdata₄ _ fun heq => (hapart _ heq).1 rfl, hmoved, Tree.set_self]
  · refine Ends.data_bind fun _ s₅ hfiles₅ ht₅ hprogress₅ => Ensures.pure ?_
    rw [Progress.next_of_neutral rfl rfl] at hprogress₅
    refine ⟨hfiles₅.trans h₄.files, h₄.links.step ht₅ (by simp) (by simp), fun q hq hq' hq'' => ?_,
      fun hr => ?_, fun hr => ?_⟩
    · exact (step_other ht₅ hq').trans (h₄.data q hq hq' hq'')
    · exact (step_other ht₅ (suffixed_ne (by decide)).symm).trans (h₄.linked hr)
    · exact hprogress₅.trans (h₄.failed hr)

end Current

end Gomi.Bootenv
