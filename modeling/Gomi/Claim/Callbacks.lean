import Gomi.Claim.Rewrites

/-!
# The callbacks keep to what is allowed

Every operation that a callback of an installer or a round of the sync loop issues is one
that `Gomi.Allowed` permits, under any replies. There is one lemma for each handler and
for each helper that several of them use; the proofs follow the programs.
-/

namespace Gomi

open Go Machine ProvisionProgress

variable {lib : Lib} {s : Server} {q : Request} {cs : List (Call Res)}
variable {token attemptID mac message source : String} {report : InstallCompleteReport}

/-- A request that does nothing but what is allowed. -/
abbrev Prog.Keeps {α : Type} (lib : Lib) (q : Request) (cs : List (Call Res)) (p : Prog Res α) : Prop :=
  p.Obeys (Allowed lib q) (fun _ _ => True) cs

/-- A read is always allowed. -/
theorem Prog.Obeys.read {α : Type} {o : Op} {k : Res o → Prog Res α} {Q : List (Call Res) → α → Prop}
    (ho : o.isRead = true) (hk : ∀ r, (k r).Obeys (Allowed lib q) Q (cs ++ [⟨o, r⟩])) :
    (Prog.perform o >>= k).Obeys (Allowed lib q) Q cs :=
  .perform_bind (.read ho) hk

theorem Allowed.undemanding : Undemanding (Allowed lib q) := ⟨fun _ _ => .read rfl, fun _ => .read rfl⟩

/-! ### Rewrites -/

variable {t m m' : Machine}

theorem Rewrites.stamp (h : Rewrites q m m') (now : Time) :
    Rewrites q m { m' with updatedAt := now } :=
  ⟨h.continues.stamp now, h.applied, h.kept⟩

/-- A rewrite that keeps the artifact. -/
theorem Machine.Continues.rewrites (h : m.Continues m')
    (happlied : m'.imageApplied = m.imageApplied) : Rewrites q m m' :=
  ⟨h, fun hm => Or.inl (happlied ▸ hm), fun hm => happlied.symm ▸ hm⟩

/-- What a function of `updateProvisionProgress` has to do: it looks at nothing but the clock and
other parts of the system, and rewrites the record – with its own attempt id, or with that of the
record by which the machine was found. -/
def RewritesFrom (lib : Lib) (q : Request) (t : Machine) (fn : Machine → Prog Res Machine) : Prop :=
  ∀ m cs, (fn m).Obeys (Allowed lib q)
    (fun _ m' => Rewrites q m m' ∧ (m'.attempt = m.attempt ∨ Relabels t m')) cs

theorem updateProvisionProgress_obeys {fn : Machine → Prog Res Machine} (hq : q.kind = .report)
    (hread : ∃ c ∈ cs, c.Reads t) (hfn : RewritesFrom lib q t fn) :
    (updateProvisionProgress t.name fn).Keeps lib q cs := by
  obtain ⟨c, hc, hct⟩ := hread
  refine .read rfl ?_
  rintro (e | m)
  · exact .pure trivial
  refine (hfn m _).bind fun cs₁ m' hpre ⟨hrw, hattempt⟩ => ?_
  refine .read rfl fun now => ?_
  have hall : cs ++ [⟨.getMachine t.name, Except.ok m⟩] <+: cs₁ ++ [⟨.now, now⟩] :=
    hpre.trans (List.prefix_append ..)
  have hget : ∃ c ∈ cs₁ ++ [⟨.now, now⟩], Call.Reads m c :=
    ⟨⟨.getMachine t.name, Except.ok m⟩, hall.subset (by simp), Or.inl ⟨_, rfl⟩⟩
  have hbefore : ReadBefore (cs₁ ++ [⟨.now, now⟩]) t m :=
    ⟨c, ((List.singleton_sublist.mpr hc).append (List.Sublist.refl _)).trans hall.sublist, hct⟩
  have hup : Allowed lib q (cs₁ ++ [⟨.now, now⟩]) (.upsert { m' with updatedAt := now }) :=
    .rewrite hq hget (hrw.stamp now) (hattempt.imp_right fun h => ⟨t, hbefore, h⟩)
  exact .perform hup fun r => trivial

/-! ### Looking a machine up -/

theorem findMachineByProvisionToken_obeys :
    (findMachineByProvisionToken token).Obeys (Allowed lib q)
      (fun cs' a => ∀ m, a = .ok (some m) →
        (∃ c ∈ cs', c.Reads m) ∧ m.hasToken token = true) cs := by
  unfold findMachineByProvisionToken
  split
  · exact .pure (by simp)
  · refine .read rfl ?_
    rintro (e | items)
    · exact .pure (by simp)
    · refine .pure fun m h => ?_
      have hfind : items.find? (·.hasToken token) = some m := Except.ok.inj h
      refine ⟨⟨⟨.listMachines, Except.ok items⟩, by simp, Or.inr ⟨items, rfl, ?_⟩⟩, ?_⟩
      · exact List.mem_of_find?_eq_some hfind
      · have hm := List.find?_some hfind
        exact hm

theorem requireProvisioningMachine_obeys :
    (requireProvisioningMachine token).Obeys (Allowed lib q)
      (fun cs' a => ∀ m p, a = .ok (m, p) →
        (∃ c ∈ cs', c.Reads m) ∧ m.provision = some p) cs := by
  refine findMachineByProvisionToken_obeys.bind ?_
  rintro cs₁ (e | (_ | target)) hpre ha
  · exact .pure (by simp)
  · exact .pure (by simp)
  · dsimp only
    split
    · exact .pure (by simp)
    · rename_i p hp
      split
      · exact .pure (by simp)
      · refine .pure fun m p' h => ?_
        obtain ⟨rfl, rfl⟩ := Prod.mk.inj (Except.ok.inj h)
        exact ⟨(ha _ rfl).1, hp⟩

theorem resolvePXETarget_obeys :
    (resolvePXETarget mac).Obeys (Allowed lib q)
      (fun cs' a => ∀ m, a = .ok (some m) → ∃ c ∈ cs', c.Reads m) cs := by
  unfold resolvePXETarget
  split
  · exact .pure (by simp)
  refine .read rfl ?_
  rintro (e | (_ | _))
  · exact .pure (by simp)
  · refine .read rfl ?_
    rintro (e | items)
    · exact .pure (by simp)
    · refine .pure fun m h => ?_
      obtain ⟨hfind, -⟩ := Option.filter_eq_some_iff.mp (Except.ok.inj h)
      exact ⟨⟨.listMachines, Except.ok items⟩, by simp,
        Or.inr ⟨items, rfl, List.mem_of_find?_eq_some hfind⟩⟩
  · exact .pure (by simp)

/-! ### Deploy events -/

theorem configureBIOSBootOrder_obeys :
    (configureBIOSBootOrder s m message).Keeps lib q cs := by
  unfold configureBIOSBootOrder
  dsimp only
  split
  · refine .read rfl ?_
    rintro (e | u) <;> exact .pure trivial
  · exact .pure trivial

/-- Whether a request reports an applied image does not depend on its source. -/
theorem DeployEventReq.eventType_sourced {req : DeployEventReq} :
    (req.sourced source).eventType = deployEventImageApplied ↔
      req.eventType = deployEventImageApplied := by
  have hnamed : (req.sourced source).namedType = req.namedType := rfl
  unfold DeployEventReq.eventType
  rw [hnamed]
  by_cases hne : req.namedType = ""
  · -- then the type is `timing` or empty
    rw [hne]
    constructor <;> intro h <;> split at h <;> exact absurd h (by decide)
  · rw [if_neg (fun hc => hne hc.1), if_neg (fun hc => hne hc.1)]

theorem DeployEventReq.trimSpace_carried {req : DeployEventReq} :
    trimSpace (req.carried attemptID) = req.carried attemptID := by
  unfold DeployEventReq.carried
  split <;> exact trimSpace_trimSpace _

variable {p : ProvisionProgress} {timing : ProvisionTiming}

/-- What `validateAttemptParam` checks. -/
theorem validateAttemptParam_eq_ok {u : Unit} (h : validateAttemptParam p attemptID = .ok u) :
    trimSpace p.attemptID ≠ "" ∧ trimSpace attemptID = trimSpace p.attemptID := by
  unfold validateAttemptParam at h
  split at h
  · cases h
  · rename_i hne
    split at h
    · cases h
    · split at h
      · cases h
      · rename_i heq
        exact ⟨hne, not_not.mp heq⟩

/-- An event of the attempt `attemptID` was recorded: a record of that attempt was written, in which
the image is applied if the event says so. -/
def RecordsEvent (attemptID eventType : String) (cs : List (Call Res)) : Prop :=
  ∃ m, (⟨.upsert m, Except.ok ()⟩ : Call Res) ∈ cs ∧ m.attempt = attemptID ∧
    (eventType = deployEventImageApplied → m.imageApplied = true)

theorem updateProvisionEvent_obeys {eventType : String}
    {fn : Machine → ProvisionProgress → Prog Res Machine} (hq : q.kind = .report)
    (hfn : ∀ fresh p', fresh.provision = some p' → p'.attemptID = p.attemptID →
      p'.completionToken = p.completionToken → acceptsEvent fresh p' eventType = true →
      ∀ cs, (fn fresh p').Obeys (Allowed lib q)
        (fun _ m' => Rewrites q fresh m' ∧ m'.attempt = fresh.attempt ∧
          (eventType = deployEventImageApplied → m'.imageApplied = true)) cs) :
    (updateProvisionEvent t p eventType fn).Obeys (Allowed lib q)
      (fun cs' a => a = .ok () → RecordsEvent p.attemptID eventType cs') cs := by
  refine .read rfl ?_
  rintro (e | fresh)
  · exact .pure (by simp)
  dsimp only
  split
  · exact .pure (by simp)
  rename_i p' hp'
  split
  · exact .pure (by simp)
  rename_i hsame
  push Not at hsame
  split
  · exact .pure (by simp)
  rename_i haccepts
  refine (hfn fresh p' hp' hsame.1 hsame.2 (by simpa using haccepts) _).bind
    fun cs₁ m' hpre ⟨hrw, hattempt, happlied⟩ => ?_
  refine .read rfl fun now => ?_
  have hall : cs ++ [⟨.getMachine t.name, Except.ok fresh⟩] <+: cs₁ ++ [⟨.now, now⟩] :=
    hpre.trans (List.prefix_append ..)
  have hup : Allowed lib q (cs₁ ++ [⟨.now, now⟩]) (.upsert { m' with updatedAt := now }) :=
    .rewrite hq ⟨⟨.getMachine t.name, Except.ok fresh⟩, hall.subset (by simp), Or.inl ⟨_, rfl⟩⟩
      (hrw.stamp now) (Or.inl hattempt)
  refine .perform hup fun r hr => ⟨{ m' with updatedAt := now }, ?_, ?_, happlied⟩
  · rw [hr]
    exact List.mem_append_right _ (List.mem_singleton_self _)
  · rw [← hsame.1, ← progress_of_provision hp', ← attempt_eq]
    exact hattempt

theorem applyDeployEvent_obeys {req : DeployEventReq} {eventType : String} {now : Time}
    (hp : m.provision = some p) (haccepts : acceptsEvent m p eventType = true)
    (hreport : eventType = deployEventImageApplied → q.Reports m.attempt m.token ∧ m.attempt ≠ "") :
    (applyDeployEvent lib s req eventType now m p).Obeys (Allowed lib q)
      (fun _ m' => Rewrites q m m' ∧ m'.attempt = m.attempt ∧
        (eventType = deployEventImageApplied → m'.imageApplied = true)) cs := by
  have hattempt : m.attempt = p.attemptID := by
    rw [attempt_eq, progress_of_provision hp]
  unfold applyDeployEvent
  split
  · rename_i htype
    -- only an active attempt can fail
    have hactive : p.active = true := by
      simpa [acceptsEvent, htype, deployEventImageApplied] using haccepts
    have hcontinues : m.Continues (m.failedBy (p.signalled lib req eventType now) req now) := by
      refine continues_of_failure rfl rfl rfl rfl ?_ ?_ ?_ rfl (not_done hp hactive) <;>
        simp [hp, progress, failedBy]
    refine .pure ⟨hcontinues.rewrites (failedBy_imageApplied hp), ?_, fun h => ?_⟩
    · rw [hattempt]
      simp [failedBy, attempt]
    · exact absurd (htype.symm.trans h) (by decide)
  · split
    · rename_i htype
      refine configureBIOSBootOrder_obeys.bind fun cs₁ message _ _ => .pure ?_
      have hsame : ({ m with
          provision := some { (p.signalled lib req eventType now).appliedAt lib now with message } } :
          Machine).attempt = m.attempt := by
        rw [hattempt]
        simp [attempt, appliedAt]
      refine ⟨⟨?_, fun _ => Or.inr ⟨(hreport htype).1, (hreport htype).2, hsame⟩,
        fun _ => imageApplied_appliedAt⟩, hsame, fun _ => imageApplied_appliedAt⟩
      refine continues_of_progress rfl rfl rfl rfl rfl ?_ ?_ ?_ <;> simp [hp, progress, appliedAt]
    · rename_i htype
      have hcontinues : m.Continues { m with provision := some (p.signalled lib req eventType now) } := by
        refine continues_of_progress rfl rfl rfl rfl rfl ?_ ?_ ?_ <;> simp [hp, progress]
      refine .pure ⟨hcontinues.rewrites ?_, ?_, fun h => absurd h htype⟩
      · refine imageApplied_congr ?_
        rw [progress_of_provision hp]
        simp [progress]
      · rw [hattempt]
        simp [attempt]

/-- What a positive answer to a deploy event says: the event was recorded. -/
def ConfirmsEvent (attemptID : String) (body : Option DeployEventReq) (cs : List (Call Res))
    (r : Response) : Prop :=
  r.status = 200 → ∃ req m, body = some req ∧ (⟨.upsert m, Except.ok ()⟩ : Call Res) ∈ cs ∧
    trimSpace m.attempt = req.carried attemptID ∧
    (req.eventType = deployEventImageApplied → m.imageApplied = true)

theorem ConfirmsEvent.failed {text : String} {body : Option DeployEventReq} {status : ℕ}
    (hstatus : status ≠ 200) : ConfirmsEvent attemptID body cs (.failed status text) :=
  fun h => absurd h hstatus

theorem pxeDeployEvents_obeys {body : Option DeployEventReq}
    (hq : q = .deployEvents token attemptID source body) :
    (pxeDeployEvents lib s token attemptID source body).Obeys (Allowed lib q)
      (ConfirmsEvent attemptID body) cs := by
  have hlookup : ∀ {cs : List (Call Res)} (e : Err),
      ConfirmsEvent attemptID body cs (lookupFailed e) := by
    intro cs e
    unfold lookupFailed
    split <;> exact .failed (by decide)
  unfold pxeDeployEvents
  split
  · exact .pure (.failed (by decide))
  refine findMachineByProvisionToken_obeys.bind ?_
  rintro cs₁ (e | (_ | target)) hpre ha
  · exact .pure (hlookup e)
  · exact .pure (hlookup .notFound)
  obtain ⟨hread, htoken⟩ := ha target rfl
  dsimp only
  split
  · exact .pure (hlookup .notFound)
  rename_i p hp
  split
  · exact .pure (.failed (by decide))
  cases body with
  | none =>
    exact .pure (.failed (by decide))
  | some req =>
    dsimp only
    split
    · exact .pure (.failed (by decide))
    split
    · exact .pure (.failed (by decide))
    split
    · exact .pure (.failed (by decide))
    rename_i hparam
    obtain ⟨hne, hcarried⟩ := validateAttemptParam_eq_ok hparam
    rw [DeployEventReq.trimSpace_carried] at hcarried
    split
    · exact .pure (.failed (by decide))
    refine .read rfl fun now => ?_
    refine (updateProvisionEvent_obeys (by rw [hq]; rfl)
      fun fresh p' hp' hattempt htoken' haccepts cs => ?_).bind fun cs₂ a _ ha => ?_
    · -- the attempt and the token are those of the request
      refine applyDeployEvent_obeys hp' haccepts fun htype => ?_
      have hfresh := progress_of_provision hp'
      rw [hq, Machine.attempt_eq, Machine.token, hfresh, hattempt, htoken']
      refine ⟨⟨?_, hcarried, DeployEventReq.eventType_sourced.mp htype⟩, fun h => hne (by rw [h]; decide)⟩
      rw [hasToken, hp] at htoken
      have hsame : trimSpace p.completionToken = trimSpace token := by simpa using htoken
      exact hsame.symm
    · rcases a with e | u
      · exact .pure (.failed (by decide))
      · obtain ⟨m', hstored, hlabel, happlied⟩ := ha rfl
        refine .pure fun _ => ⟨req, m', rfl, hstored, ?_, fun htype => ?_⟩
        · exact (hlabel ▸ hcarried).symm
        · exact happlied (DeployEventReq.eventType_sourced.mpr htype)

/-! ### Inventories, configurations and files -/

/-- A record with another provisioning record that differs in its attempt id, its artifacts and
what nobody decides by. -/
theorem Machine.continues_with (htoken : p.completionToken = m.progress.completionToken)
    (hactive : p.active = m.progress.active) (hcompleted : p.completedAt = m.progress.completedAt) :
    m.Continues { m with provision := some p } :=
  continues_of_progress rfl rfl rfl rfl rfl htoken hactive hcompleted

theorem applyInventory_rewrites {inventoryID : String} {timings : Time → List ProvisionTiming}
    (hne : trimSpace t.attempt ≠ "") :
    RewritesFrom lib q t (applyInventory (trimSpace t.attempt) inventoryID timings) := by
  intro m cs
  refine .read rfl fun signalledAt => .read rfl fun finished => ?_
  exact .pure ⟨⟨continues_with rfl rfl rfl, Or.inl, id⟩, Or.inr ⟨hne, Or.inr rfl⟩⟩

theorem respondWithDeployment_obeys {target : Machine} :
    (respondWithDeployment s target attemptID).Keeps lib q cs := by
  unfold respondWithDeployment
  dsimp only
  split
  · exact .pure trivial
  refine .read rfl ?_
  rintro (e | img)
  · exact .pure trivial
  dsimp only
  split
  · exact .pure trivial
  split
  · exact .pure trivial
  split
  · exact .pure trivial
  refine .read rfl ?_
  rintro (e | u) <;> exact .pure trivial

/-- A question that is only asked if a service is there. -/
theorem askIf_obeys {b : Bool} {query : Query} {a : Answer query} :
    (if b then Client.ask query else pure a : Prog Res (Answer query)).Keeps lib q cs := by
  have hask : Allowed lib q cs (.ask query) := .read rfl
  split
  · exact .perform hask fun r => trivial
  · exact .pure trivial

theorem pxeInventory_obeys {decodes : Bool} (hq : q.kind = .report) :
    (pxeInventory s token decodes).Keeps lib q cs := by
  refine .read rfl fun requested => ?_
  split
  · exact .pure trivial
  refine requireProvisioningMachine_obeys.bind ?_
  rintro cs₁ (e | ⟨target, p⟩) _ ha
  · exact .pure trivial
  obtain ⟨⟨c, hc, hct⟩, hp⟩ := ha _ _ rfl
  have hattempt : target.attempt = p.attemptID := by
    rw [attempt_eq, progress_of_provision hp]
  dsimp only
  rw [← hattempt]
  split
  · exact .pure trivial
  rename_i hne
  refine .read rfl fun decodeStarted => ?_
  split
  · exact .pure trivial
  refine .read rfl fun decodeFinished => .read rfl
    fun storeStarted => ?_
  refine askIf_obeys.bind ?_
  rintro cs₂ (e | u) h₂ _
  · exact .pure trivial
  refine .read rfl fun storeFinished => ?_
  refine (updateProvisionProgress_obeys hq ⟨c, ?_, hct⟩ (applyInventory_rewrites hne)).bind
    fun cs₃ a _ _ => ?_
  · exact List.mem_append_left _ (h₂.subset (by simp [hc]))
  rcases a with e | u
  · exact .pure trivial
  · exact respondWithDeployment_obeys

/-- A record whose provisioning record, if there is one, differs in what nobody decides by. -/
theorem Machine.rewrites_map {f : ProvisionProgress → ProvisionProgress}
    (hattempt : ∀ p, (f p).attemptID = p.attemptID)
    (htoken : ∀ p, (f p).completionToken = p.completionToken)
    (hactive : ∀ p, (f p).active = p.active) (hcompleted : ∀ p, (f p).completedAt = p.completedAt)
    (hartifacts : ∀ p, (f p).artifacts = p.artifacts) :
    Rewrites q m { m with provision := m.provision.map f } ∧
      ({ m with provision := m.provision.map f } : Machine).attempt = m.attempt := by
  refine ⟨Machine.Continues.rewrites ?_ ?_, ?_⟩
  · refine continues_of_progress rfl rfl rfl rfl rfl ?_ ?_ ?_ <;>
      cases hp : m.provision <;> simp [progress, hp, htoken, hactive, hcompleted]
  · refine imageApplied_congr ?_
    cases hp : m.provision <;> simp [progress, hp, hartifacts]
  · cases hp : m.provision <;> simp [attempt, hp, hattempt]

theorem applyCurtinFailure_rewrites {e : Err} {started finished : Time} :
    RewritesFrom lib q t (applyCurtinFailure e started finished) := by
  intro m cs
  refine .pure (And.imp_right Or.inl ?_)
  apply rewrites_map <;> exact fun p => rfl

theorem applyCurtinConfig_rewrites {config : String} {started finished : Time}
    (hne : trimSpace t.attempt ≠ "") :
    RewritesFrom lib q t (applyCurtinConfig lib t.attempt config started finished) := by
  intro m cs
  refine .read rfl fun signalledAt => .pure ?_
  exact ⟨⟨continues_with rfl rfl rfl, Or.inl, id⟩, Or.inr ⟨hne, Or.inl rfl⟩⟩

theorem pxeCurtinConfig_obeys (hq : q.kind = .report) :
    (pxeCurtinConfig lib s token attemptID).Keeps lib q cs := by
  unfold pxeCurtinConfig
  split
  · exact .pure trivial
  refine requireProvisioningMachine_obeys.bind ?_
  rintro cs₁ (e | ⟨target, p⟩) h₁ ha
  · exact .pure trivial
  obtain ⟨⟨c, hc, hct⟩, hp⟩ := ha _ _ rfl
  have hattempt : target.attempt = p.attemptID := by
    rw [attempt_eq, progress_of_provision hp]
  dsimp only
  split
  · exact .pure trivial
  rename_i hparam
  obtain ⟨hne, -⟩ := validateAttemptParam_eq_ok hparam
  rw [← hattempt] at hne ⊢
  split
  · exact .pure trivial
  split
  · exact .pure trivial
  refine .read rfl ?_
  rintro (e | img)
  · exact .pure trivial
  refine askIf_obeys.bind fun cs₂ info h₂ _ => ?_
  have hc₂ : c ∈ cs₂ := h₂.subset (by simp [hc])
  split
  · exact .pure trivial
  refine .read rfl fun started => .read rfl ?_
  rintro (e | config)
  · refine .read rfl fun finished => ?_
    exact (updateProvisionProgress_obeys hq ⟨c, by simp [hc₂], hct⟩
      applyCurtinFailure_rewrites).bind fun cs₃ _ _ _ => .pure trivial
  · refine .read rfl fun finished => ?_
    exact (updateProvisionProgress_obeys hq ⟨c, by simp [hc₂], hct⟩
      (applyCurtinConfig_rewrites hne)).bind fun cs₃ _ _ _ => .pure trivial

theorem applyTiming_rewrites {now : Time} : RewritesFrom lib q t (applyTiming now timing) := by
  intro m cs
  refine .pure ⟨⟨continues_with rfl rfl rfl, Or.inl, id⟩, Or.inl ?_⟩
  rw [attempt_eq m]
  rfl

theorem serveProvisionedPXEFile_obeys {name : String} {sent : Bool} {sizeBytes : ℤ}
    (hq : q.kind = .report) :
    (serveProvisionedPXEFile token attemptID name message sent sizeBytes).Keeps lib q cs := by
  unfold serveProvisionedPXEFile
  dsimp only
  split
  · exact .pure trivial
  refine .read rfl fun started => .read rfl fun finished => ?_
  suffices h : (appendProvisionTimingByToken (trimSpace token) (trimSpace attemptID)
      (serverTiming name message (if sent = true then "success" else "failure") started finished
        sizeBytes)).Keeps lib q (cs ++ [⟨.now, started⟩] ++ [⟨.now, finished⟩]) from
    h.bind fun cs₁ _ _ _ => .pure trivial
  refine requireProvisioningMachine_obeys.bind ?_
  rintro cs₁ (e | ⟨target, p⟩) _ ha
  · exact .pure trivial
  obtain ⟨⟨c, hc, hct⟩, -⟩ := ha _ _ rfl
  dsimp only
  split
  · exact .pure trivial
  refine .read rfl fun now => ?_
  exact (updateProvisionProgress_obeys hq ⟨c, List.mem_append_left _ hc, hct⟩
    applyTiming_rewrites).bind fun cs₂ _ _ _ => .pure trivial

/-! ### Boot scripts and cloud-init documents -/

theorem applyMarker_rewrites : RewritesFrom lib q t (applyMarker timing) := by
  intro m cs
  refine .pure (And.imp_right Or.inl ?_)
  apply rewrites_map <;>
    · intro p
      split <;> rfl

theorem appendMachineTimingOnce_obeys (hq : q.kind = .report) (hread : ∃ c ∈ cs, c.Reads m) :
    (appendMachineTimingOnce m timing).Keeps lib q cs := by
  unfold appendMachineTimingOnce
  split
  · exact .pure trivial
  · exact (updateProvisionProgress_obeys hq hread applyMarker_rewrites).bind
      fun cs₁ _ _ _ => .pure trivial

theorem pxeBootScript_obeys (hq : q.kind = .report) :
    (pxeBootScript mac).Keeps lib q cs := by
  refine resolvePXETarget_obeys.bind ?_
  rintro cs₁ (e | (_ | m)) h₁ ha
  · exact .pure trivial
  · exact .pure trivial
  obtain ⟨c, hc, hcm⟩ := ha m rfl
  suffices h : (recordPXEBootScriptMarker m (!machineImageApplied m)).Keeps lib q cs₁ from
    h.bind fun cs₂ _ _ _ => .pure trivial
  refine .read rfl fun now => ?_
  have hread : ∃ c ∈ cs₁ ++ [⟨.now, now⟩], Call.Reads m c := ⟨c, List.mem_append_left _ hc, hcm⟩
  split
  · exact appendMachineTimingOnce_obeys hq hread
  split
  · exact appendMachineTimingOnce_obeys hq hread
  · exact .pure trivial

theorem Machine.rewrites_withRegistrationToken (token expiresAt : String) (now : Time) :
    Rewrites q m (m.withRegistrationToken token expiresAt now) := by
  unfold withRegistrationToken
  refine Machine.Continues.rewrites
    (continues_of_progress rfl rfl rfl rfl rfl rfl rfl rfl) ?_
  refine imageApplied_congr ?_
  simp only [progress, Option.getD_some]
  rw [Std.ExtTreeMap.getElem?_insert, if_neg (by decide)]
  exact imageApplied_insert (by decide)

theorem ensureHypervisorRegistrationToken_obeys (hq : q.kind = .report)
    (hread : ∃ c ∈ cs, c.Reads m) : (ensureHypervisorRegistrationToken lib s m).Keeps lib q cs := by
  unfold ensureHypervisorRegistrationToken
  dsimp only
  split
  · exact .pure trivial
  split
  · exact .pure trivial
  refine .read rfl ?_
  rintro (e | ⟨token, expiresAt⟩)
  · exact .pure trivial
  refine .read rfl fun now => ?_
  obtain ⟨c, hc, hcm⟩ := hread
  have hrw := rewrites_withRegistrationToken (q := q) (m := m) token
    (lib.formatRFC3339 expiresAt) now
  refine .perform_bind (.rewrite hq ⟨c, by simp [hc], hcm⟩ hrw
    (Or.inl (by rw [attempt_eq m]; rfl))) ?_
  rintro (e | u) <;> exact .pure trivial

theorem pxeNocloudUserData_obeys (hq : q.kind = .report) :
    (pxeNocloudUserData lib s mac).Keeps lib q cs := by
  refine resolvePXETarget_obeys.bind ?_
  rintro cs₁ (e | (_ | m)) h₁ ha
  · exact .pure trivial
  · exact .pure trivial
  obtain ⟨c, hc, hcm⟩ := ha m rfl
  dsimp only
  split
  · exact .pure trivial
  refine .read rfl ?_
  rintro (e | document)
  · exact .pure trivial
  dsimp only
  split
  · refine (ensureHypervisorRegistrationToken_obeys hq ⟨c, by simp [hc], hcm⟩).bind ?_
    rintro cs₂ (e | token) _ _ <;> exact .pure trivial
  · exact .pure trivial

/-! ### Completion -/

theorem ensureMachineSSHReachable_obeys :
    (ensureMachineSSHReachable m report).Keeps lib q cs := by
  unfold ensureMachineSSHReachable
  dsimp only
  generalize (if trimSpace report.ip = "" then trimSpace m.ip else trimSpace report.ip) = ip
  split
  · exact .pure trivial
  split
  · exact .pure trivial
  refine .read rfl ?_
  rintro (e | u) <;> exact .pure trivial

/-- What an answer with a record says to an installer that is done: the record was completed, now or
before. -/
def ConfirmsCompletion (cs : List (Call Res)) (r : Response) : Prop :=
  ∀ m, r.body = .machine m →
    ((⟨.upsert m, Except.ok ()⟩ : Call Res) ∈ cs ∧ m.Done) ∨
      (∃ c ∈ cs, c.Reads m) ∧ m.active = false ∧ m.completed = true

theorem ConfirmsCompletion.failed {text : String} {status : ℕ} :
    ConfirmsCompletion cs (.failed status text) :=
  fun m h => absurd h (by simp [Response.failed])

theorem completeInstallation_obeys (hp : m.provision = some p) (hq : q.kind = .report)
    (hread : ∃ c ∈ cs, c.Reads m) :
    (completeInstallation lib s m p source report).Obeys (Allowed lib q) ConfirmsCompletion cs := by
  obtain ⟨c, hc, hcm⟩ := hread
  refine .read rfl fun now => ?_
  refine configureBIOSBootOrder_obeys.bind fun cs₁ message h₁ _ => ?_
  dsimp only [Machine.completedBy]
  obtain ⟨ip, hip⟩ := Machine.applyInstallCompleteReport_eq _ report
  rw [hip]
  refine .perform_bind (.rewrite hq ⟨c, h₁.subset (by simp [hc]), hcm⟩
    (Machine.Continues.rewrites (continues_of_completion rfl rfl rfl rfl ?_ rfl rfl rfl) ?_)
    (Or.inl ?_)) fun r => ?_
  · rw [progress_of_provision hp]
    rfl
  · rw [Machine.imageApplied, Machine.imageApplied, Machine.progress_of_provision hp]
    rfl
  · rw [attempt_eq m, progress_of_provision hp]
    rfl
  · rcases r with e | u
    · exact .pure .failed
    · refine .pure fun m' h => Or.inl ?_
      obtain rfl := Body.machine.inj h
      exact ⟨List.mem_append_right _ (List.mem_singleton_self _), rfl, by rintro ⟨⟩, by rintro ⟨⟩⟩

theorem pxeInstallComplete_obeys {type : String} {body : Option InstallCompleteReq}
    (hq : q.kind = .report) :
    (pxeInstallComplete lib s token type body).Obeys (Allowed lib q) ConfirmsCompletion cs := by
  unfold pxeInstallComplete
  cases body with
  | none => exact .pure .failed
  | some req =>
    dsimp only
    generalize (if trimSpace token = "" then trimSpace req.token else trimSpace token) = token
    split
    · exact .pure .failed
    refine .read rfl ?_
    rintro (e | (_ | _))
    · exact .pure .failed
    · refine findMachineByProvisionToken_obeys.bind ?_
      rintro cs₁ (e | (_ | m)) h₁ ha
      · exact .pure .failed
      · exact .pure .failed
      obtain ⟨hread, -⟩ := ha m rfl
      dsimp only
      split
      · exact .pure .failed
      split
      · exact .pure .failed
      rename_i p hp
      have hprogress := Machine.progress_of_provision hp
      split
      · rename_i hinactive
        split
        · exact .pure .failed
        · rename_i hcompleted
          refine .pure fun m' h => Or.inr ?_
          obtain rfl := Body.machine.inj h
          refine ⟨hread, ?_, ?_⟩
          · simpa [Machine.active, hprogress] using hinactive
          · simpa [completed, hprogress, Option.isSome_iff_ne_none] using hcompleted
      refine ensureMachineSSHReachable_obeys.bind ?_
      rintro cs₂ (e | u) h₂ _
      · exact .pure .failed
      obtain ⟨c, hc, hcm⟩ := hread
      exact completeInstallation_obeys hp hq ⟨c, h₂.subset hc, hcm⟩
    · -- a virtual machine has no machine record
      exact .pure fun m h => absurd h (by simp)

/-! ### The Windows installer -/

theorem windowsTarget_obeys :
    (windowsTarget s token attemptID).Obeys (Allowed lib q)
      (fun cs' a => ∀ m p, a = .ok (some (m, p)) → (∃ c ∈ cs', c.Reads m) ∧
        m.provision = some p ∧ m.hasToken token = true ∧ p.attemptID = attemptID ∧ attemptID ≠ "")
      cs := by
  unfold windowsTarget
  split
  · exact .pure (by simp)
  rename_i hgiven
  push Not at hgiven
  refine .read rfl ?_
  rintro (e | (_ | _))
  · exact .pure (by simp)
  · refine findMachineByProvisionToken_obeys.bind ?_
    rintro cs₁ (e | (_ | m)) h₁ ha
    · exact .pure (by simp)
    · exact .pure (by simp)
    obtain ⟨⟨c, hc, hcm⟩, htoken⟩ := ha m rfl
    dsimp only
    split
    · exact .pure (by simp)
    rename_i p hp
    split
    · exact .pure (by simp)
    split
    · exact .pure (by simp)
    rename_i hattempt
    refine .read rfl fun now => ?_
    split
    · exact .pure (by simp)
    split
    · exact .pure (by simp)
    refine .read rfl ?_
    rintro (e | img)
    · exact .pure (by simp)
    dsimp only
    split
    · exact .pure (by simp)
    refine .pure fun m' p' h => ?_
    obtain ⟨rfl, rfl⟩ : m = m' ∧ p = p' := by simpa using h
    exact ⟨⟨c, by simp [hc], hcm⟩, hp, htoken, not_not.mp hattempt, hgiven.2⟩
  · exact .pure (by simp)

theorem pxeWindowsState_obeys {body : Option WindowsStateReq}
    (hq : q = .windowsState token attemptID body) :
    (pxeWindowsState lib s token attemptID body).Keeps lib q cs := by
  refine windowsTarget_obeys.bind ?_
  rintro cs₁ (r | (_ | ⟨m, p⟩)) h₁ ha
  · exact .pure trivial
  · exact .pure trivial
  obtain ⟨⟨c, hc, hcm⟩, hp, htoken, hattempt, hne⟩ := ha m p rfl
  cases body with
  | none =>
    exact .pure trivial
  | some req =>
    dsimp only
    split
    · exact .pure trivial
    rename_i stage hstage
    split
    · split <;> exact .pure trivial
    rename_i hactive
    split
    · exact .pure trivial
    refine .read rfl fun now => ?_
    refine .perform_bind (.swap (by rw [hq]; rfl) ⟨c, by simp [hc], hcm⟩
      ⟨continues_afterStage hp (by simpa using hactive), fun happlied => ?_,
        fun happlied => ?_⟩) fun r => ?_
    · -- the stage that says so is a report
      rcases eq_or_ne stage .imageApplied with rfl | hother
      · refine Or.inr ⟨?_, ?_, afterStage_attempt hp⟩
        · rw [hq, Machine.attempt_eq, Machine.token, Machine.progress_of_provision hp]
          have hsame : trimSpace p.completionToken = trimSpace token := by
            simpa [hasToken, hp] using htoken
          exact ⟨hsame.symm, hattempt.symm, hstage⟩
        · rw [attempt_eq, progress_of_provision hp, hattempt]
          exact hne
      · exact Or.inl ((afterStage_imageApplied hp hother).symm.trans happlied)
    · -- no stage undoes that the image was applied
      rcases eq_or_ne stage .imageApplied with rfl | hother
      · exact imageApplied_appliedAt
      · exact (afterStage_imageApplied hp hother).trans happlied
    · rcases r with e | (_ | _) <;> exact .pure trivial

/-! ### The sync loop -/

theorem Machine.rewrites_timedOut {now now' : Time} (hp : m.provision = some p)
    (hoverdue : p.overdue now = true) : Rewrites q m (m.timedOut p now') := by
  have hactive : p.active = true := by
    have := of_decide_eq_true hoverdue
    exact this.1
  refine (continues_timedOut hp hactive).rewrites ?_
  rw [imageApplied, imageApplied, progress_of_provision hp]
  rfl

theorem syncArtifacts_obeys (hq : q.kind = .report) (hread : ∃ c ∈ cs, c.Reads m) :
    (syncArtifacts s m).Keeps lib q cs := by
  obtain ⟨c, hc, hcm⟩ := hread
  unfold syncArtifacts
  split
  · exact .pure trivial
  rename_i hphase
  push Not at hphase
  refine .read rfl fun installCfg => .read rfl fun now => ?_
  refine .perform_bind (.rewrite hq ⟨c, by simp [hc], hcm⟩
    ((continues_syncState hphase.1).rewrites syncState_imageApplied) (Or.inl syncState_attempt))
    fun r => ?_
  exact .pure trivial

theorem syncMachine_obeys (hq : q.kind = .report) (hread : ∃ c ∈ cs, c.Reads m) :
    (syncMachine s m).Keeps lib q cs := by
  have hread' := hread
  obtain ⟨c, hc, hcm⟩ := hread'
  unfold syncMachine
  split
  · -- a Windows machine is compared and swapped
    refine .read rfl fun now => ?_
    split
    · exact .pure trivial
    rename_i p hp
    split
    · exact .pure trivial
    rename_i hoverdue
    exact .perform_bind (.swap hq ⟨c, by simp [hc], hcm⟩ (rewrites_timedOut hp
      (by simpa using hoverdue))) fun r => .pure trivial
  split
  · exact syncArtifacts_obeys hq hread
  rename_i p hp
  refine .read rfl fun now => ?_
  split
  · rename_i hoverdue
    refine .read rfl fun updatedAt => ?_
    refine .perform_bind (.rewrite hq ⟨c, by simp [hc], hcm⟩ (rewrites_timedOut hp hoverdue)
      (Or.inl ?_)) fun r => .pure trivial
    rw [attempt_eq m, progress_of_provision hp]
    rfl
  · exact syncArtifacts_obeys hq ⟨c, by simp [hc], hcm⟩

/-- The loop of a round: each of its machines was read. -/
theorem syncMachines_obeys (hq : q.kind = .report) {machines : List Machine}
    (hread : ∀ m ∈ machines, ∃ c ∈ cs, c.Reads m) : (syncMachines s machines).Keeps lib q cs := by
  induction machines generalizing cs with
  | nil => exact .pure trivial
  | cons m machines ih =>
    refine (syncMachine_obeys hq (hread m List.mem_cons_self)).bind fun cs₁ _ h₁ _ => ?_
    refine ih fun m' hm' => ?_
    obtain ⟨c, hc, hcm⟩ := hread m' (List.mem_cons_of_mem _ hm')
    exact ⟨c, h₁.subset hc, hcm⟩

theorem syncProvisioningStates_obeys (hq : q.kind = .report) :
    (syncProvisioningStates s).Keeps lib q cs := by
  refine .read rfl ?_
  rintro (e | machines)
  · exact .pure trivial
  refine syncMachines_obeys hq fun m hm => ?_
  exact ⟨⟨.listMachines, Except.ok machines⟩, by simp, Or.inr ⟨machines, rfl, hm⟩⟩

end Gomi
