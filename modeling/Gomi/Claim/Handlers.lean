import Gomi.Claim.Callbacks

/-!
# The handlers keep to what is allowed

Every operation that a request issues is one that `Gomi.Allowed` permits, under any
replies: `Gomi.Request.obeys`, which joins the lemmas of `Gomi.Claim.Callbacks` with those
about the handlers of claims and of ordinary machines.

A handler that starts an installation has stored nothing before. Between its reads and its
commit it runs programs that only read (`Gomi.Prog.Looks`), and those leave a request
without a write as it was (`Gomi.Prog.Looks.keeps`).
-/

namespace Gomi

open Go Machine

variable {lib : Lib} {s : Server} {q : Request} {cs : List (Call Res)} {m : Machine} {h : Host}
variable {name actor owner ref wildcard : String} {opts : Option ReinstallOptions}
  {action : PowerAction} {preset : OSPreset} {body : Option RedeployReq} {admin : Bool}

/-! ### Programs that only read -/

/-- A program that writes nothing. -/
abbrev Prog.Looks {α : Type} (p : Prog Res α) : Prop :=
  ∀ cs, p.Obeys (fun _ o => o.isRead = true) (fun _ _ => True) cs

/-- Nothing has been stored. -/
def Unwritten (cs : List (Call Res)) : Prop := ∀ c ∈ cs, c.op.stores = none

theorem Op.stores_of_isRead {o : Op} (ho : o.isRead = true) : o.stores = none := by
  cases o <;> first | rfl | cases ho

theorem unwritten_nil : Unwritten [] := fun c hc => absurd hc (by simp)

theorem Unwritten.snoc (hcs : Unwritten cs) {o : Op} {r : Res o} (ho : o.isRead = true) :
    Unwritten (cs ++ [⟨o, r⟩]) := by
  intro c hc
  rcases List.mem_append.mp hc with hc | hc
  · exact hcs c hc
  · obtain rfl := List.mem_singleton.mp hc
    exact Op.stores_of_isRead ho

/-- A program that only reads, in a request that has stored nothing. -/
theorem Prog.Obeys.unwritten {α : Type} {p : Prog Res α} {Q : List (Call Res) → α → Prop}
    (hp : p.Obeys (fun _ o => o.isRead = true) Q cs) (hcs : Unwritten cs) :
    p.Obeys (Allowed lib q) (fun cs' a => Q cs' a ∧ Unwritten cs') cs :=
  (hp.recorded fun _ _ => Op.stores_of_isRead).mono (fun _ _ ho => .read ho)
    fun _ _ ha => ⟨ha.1, ha.2 hcs⟩

theorem Prog.Looks.keeps {α : Type} {p : Prog Res α} (hp : p.Looks) (hcs : Unwritten cs) :
    p.Obeys (Allowed lib q) (fun cs' _ => Unwritten cs') cs :=
  ((hp cs).unwritten hcs).mono (fun _ _ ho => ho) fun _ _ ha => ha.2

theorem undemanding_isRead : Undemanding fun _ o => o.isRead = true := ⟨fun _ _ => rfl, fun _ => rfl⟩

theorem askIf_looks {b : Bool} {query : Query} {a : Answer query} :
    (if b then Client.ask query else pure a : Prog Res (Answer query)).Looks := by
  intro cs
  split
  · exact .perform (o := Op.ask query) rfl fun r => trivial
  · exact .pure trivial

/-- `PrepareReinstall` in a request that has stored nothing. -/
theorem prepareReinstall_attempts {timeout : Time} (hcs : Unwritten cs) :
    (prepareReinstall m actor opts timeout).Obeys (Allowed lib q)
      (fun cs' a => Unwritten cs' ∧ ∀ m', a = .ok m' →
        Attempts cs' (opts.elim m fun o => o.apply m) m') cs := by
  refine ((prepareReinstall_obeys undemanding_isRead m actor opts timeout).recorded
    fun _ _ => Op.stores_of_isRead).mono (fun _ _ ho => .read ho) fun cs' a ⟨ha, hall⟩ => ?_
  refine ⟨hall hcs, fun m' hm' => ?_⟩
  obtain ⟨power, tokenBytes, bytes, now, htoken, hbytes, -, rfl⟩ := ha m' hm'
  exact ⟨power, actor, tokenBytes, bytes, now, timeout, htoken, hbytes, rfl⟩

/-! ### Enrollment -/

theorem register_enrolls {pool publicKey targetDisk : String}
    (hread : (⟨.getMachine name, Except.ok m⟩ : Call Res) ∈ cs) (hinactive : m.active = false) :
    (register lib name pool publicKey targetDisk).Keeps lib q cs := by
  unfold register
  split
  · exact .pure trivial
  split
  · exact .pure trivial
  split
  · exact .pure trivial
  refine .perform_bind (.enroll hread hinactive) ?_
  rintro (e | u)
  · exact .pure trivial
  refine .read rfl ?_
  rintro (e | h)
  · exact .pure trivial
  dsimp only
  split <;> exact .pure trivial

theorem registerBareMetalHost_obeys {body : Option RegisterReq} :
    (registerBareMetalHost lib s name body).Keeps lib q cs := by
  unfold registerBareMetalHost
  split
  · exact .pure trivial
  cases body with
  | none =>
    exact .pure trivial
  | some req =>
    dsimp only
    split
    · exact .pure trivial
    split
    · exact .pure trivial
    split
    · exact .pure trivial
    refine .read rfl fun r => ?_
    split
    · split <;> exact .pure trivial
    · refine .read rfl fun r => ?_
      split
      · exact .pure trivial
      · exact .pure trivial
      · rename_i m
        split
        · exact .pure trivial
        split
        · exact .pure trivial
        rename_i hactive
        rw [any_active, Bool.not_eq_true] at hactive
        refine (register_enrolls (by simp) hactive).bind fun cs₁ a _ _ => ?_
        cases a <;> exact .pure trivial
    · exact .pure trivial

theorem updateBareMetalHostPool_obeys {body : Option (String × ℤ)} :
    (updateBareMetalHostPool s name body).Keeps lib q cs := by
  unfold updateBareMetalHostPool
  split
  · exact .pure trivial
  rcases body with _ | ⟨pool, revision⟩
  · dsimp only
    exact .pure trivial
  dsimp only
  split
  · exact .pure trivial
  refine .perform_bind (.pool ..) ?_
  rintro (e | h) <;> exact .pure trivial

theorem unregisterBareMetalHost_obeys {body : Option ℤ} (hq : q = .unregisterHost name body) :
    (unregisterBareMetalHost s name body).Keeps lib q cs := by
  unfold unregisterBareMetalHost
  split
  · exact .pure trivial
  cases body with
  | none =>
    exact .pure trivial
  | some =>
    dsimp only
    split
    · exact .pure trivial
    refine .read rfl fun r => ?_
    split
    · exact .pure trivial
    · exact .pure trivial
    refine .perform_bind (.unregister ⟨_, hq⟩) ?_
    rintro (e | u) <;> exact .pure trivial

/-! ### Claims -/

theorem acquireBareMetalHost_obeys {body : Option (String × String)} :
    (acquireBareMetalHost s body).Keeps lib q cs := by
  unfold acquireBareMetalHost
  split
  · exact .pure trivial
  rcases body with _ | ⟨pool, owner⟩
  · dsimp only
    exact .pure trivial
  dsimp only
  split
  · exact .pure trivial
  rename_i hvalid
  suffices hacquire : (acquire pool owner).Keeps lib q cs by
    refine hacquire.bind fun cs₁ a _ _ => ?_
    cases a <;> exact .pure trivial
  unfold acquire
  split
  · exact .pure trivial
  refine .read rfl fun r => ?_
  split
  · exact .pure trivial
  · refine .perform_bind (.claim hvalid) ?_
    rintro (e | h)
    · refine .read rfl ?_
      rintro (e' | h) <;> exact .pure trivial
    · exact .pure trivial
  · exact .pure trivial

theorem respondWithAddress_obeys : (respondWithAddress h).Keeps lib q cs := by
  refine .read rfl ?_
  rintro (e | m) <;> exact .pure trivial

theorem getBareMetalClaim_obeys : (getBareMetalClaim s owner).Keeps lib q cs := by
  unfold getBareMetalClaim
  split
  · exact .pure trivial
  refine .read rfl ?_
  rintro (e | h)
  · exact .pure trivial
  dsimp only
  split
  · exact respondWithAddress_obeys
  rename_i hstate
  have hstate : h.state = .deploying ∨ h.state = .releasing := by tauto
  refine .read rfl ?_
  rintro (e | m)
  · exact .pure trivial
  dsimp only
  split
  · exact .pure trivial
  rename_i p hp
  split
  · exact .pure trivial
  rename_i hattempt
  have hattempt := not_not.mp hattempt
  have hread : [(⟨.findOwner owner, Except.ok h⟩ : Call Res),
      ⟨.getMachine h.name, Except.ok m⟩].Sublist
      (cs ++ [⟨.findOwner owner, Except.ok h⟩] ++ [⟨.getMachine h.name, Except.ok m⟩]) := by simp
  split
  · rename_i hdone
    obtain ⟨hactive, hcompleted, hphase⟩ := hdone
    split
    · rename_i hreleasing
      refine .perform_bind (.releaseConfirmed hread hreleasing hp hattempt (by simpa using hactive)
        hcompleted hphase) ?_
      rintro (e | h') <;> exact .pure trivial
    · rename_i hother
      refine .perform_bind (.advance hread hp hattempt (Or.inl ⟨rfl, hstate.resolve_right hother⟩))
        ?_
      rintro (e | h')
      · exact .pure trivial
      · exact respondWithAddress_obeys
  · split
    · rename_i hphase
      refine .perform_bind (.advance hread hp hattempt (Or.inr ⟨rfl, hstate, hphase⟩)) ?_
      rintro (e | h')
      · exact .pure trivial
      · exact respondWithAddress_obeys
    · exact respondWithAddress_obeys

/-! ### Installations under a claim -/

theorem commitPrepared_obeys {base : Machine} (hq : q.kind = .claim) (hcs : Unwritten cs)
    (hread : [(⟨.findOwner owner, Except.ok h⟩ : Call Res),
      ⟨.getMachine h.name, Except.ok m⟩].Sublist cs) (hprepares : Prepares lib h m base) :
    (commitPrepared s actor h base).Keeps lib q cs := by
  refine (prepareReinstall_attempts hcs).bind ?_
  rintro cs₁ (e | prepared) hpre ⟨hcs₁, ha⟩
  · exact .pure trivial
  refine .perform_bind (.commit hq hcs₁ (hread.trans hpre.sublist) hprepares (ha _ rfl)) ?_
  rintro (e | h') <;> exact .pure trivial

theorem checkTemplate_looks {cloudInitRef : String} : (checkTemplate s cloudInitRef).Looks := by
  intro cs
  unfold checkTemplate
  split
  · exact .pure trivial
  split
  · exact .pure trivial
  refine .perform_bind rfl fun r => ?_
  split
  · exact .pure trivial
  · exact .pure trivial
  · split <;> exact .pure trivial

theorem deployBareMetalClaim_obeys {body : Option DeployReq} (hq : q.kind = .claim) :
    (deployBareMetalClaim lib s actor owner body).Keeps lib q [] := by
  unfold deployBareMetalClaim
  split
  · exact .pure trivial
  refine .read rfl ?_
  rintro (e | h)
  · exact .pure trivial
  cases body with
  | none =>
    exact .pure trivial
  | some req =>
    dsimp only
    split
    · exact .pure trivial
    rename_i henvelope
    refine (checkTemplate_looks.keeps (unwritten_nil.snoc rfl)).bind ?_
    rintro cs₁ (r | u) hpre hcs₁
    · exact .pure trivial
    refine .read rfl ?_
    rintro (e | m)
    · exact .pure trivial
    dsimp only
    split
    · split <;> exact .pure trivial
    rename_i hstate
    split
    · exact .pure trivial
    refine .read rfl ?_
    rintro (e | img)
    · exact .pure trivial
    dsimp only
    split
    · exact .pure trivial
    rename_i himage
    have hread : [(⟨.findOwner owner, Except.ok h⟩ : Call Res),
        ⟨.getMachine h.name, Except.ok m⟩].Sublist (cs₁ ++ [⟨.getMachine h.name, Except.ok m⟩]) :=
      hpre.sublist.append (List.Sublist.refl _)
    exact commitPrepared_obeys hq ((hcs₁.snoc rfl).snoc rfl)
      (hread.trans (List.sublist_append_left _ _)) (.deploy (not_not.mp hstate) henvelope himage)

theorem deleteBareMetalClaim_obeys (hq : q.kind = .claim) :
    (deleteBareMetalClaim lib s actor owner).Keeps lib q [] := by
  unfold deleteBareMetalClaim
  split
  · exact .pure trivial
  refine .read rfl fun r => ?_
  split
  · exact .pure trivial
  · exact .pure trivial
  rename_i h
  split
  · exact .pure trivial
  split
  · rename_i hstate
    have hread : (⟨.findOwner owner, Except.ok h⟩ : Call Res) ∈
        [] ++ [(⟨.findOwner owner, Except.ok h⟩ : Call Res)] := by simp
    refine .perform_bind (.cancel hread hstate) ?_
    rintro (e | h')
    · exact .pure trivial
    refine .perform_bind (.releaseCancelled (by simp) hstate) ?_
    rintro (e | h'') <;> exact .pure trivial
  rename_i hstate
  refine .read rfl ?_
  rintro (e | m)
  · exact .pure trivial
  dsimp only
  split
  · split <;> exact .pure trivial
  rename_i happlied
  split
  · exact .pure trivial
  rw [any_imageApplied] at happlied
  exact commitPrepared_obeys hq ((unwritten_nil.snoc rfl).snoc rfl) (List.Sublist.refl _)
    (.clean hstate (by simpa using happlied))

theorem retryBareMetalClaim_obeys {body : Option RetryReq} (hq : q.kind = .claim) :
    (retryBareMetalClaim s actor owner body).Keeps lib q [] := by
  unfold retryBareMetalClaim
  split
  · exact .pure trivial
  cases body with
  | none =>
    exact .pure trivial
  | some req =>
    dsimp only
    split
    · exact .pure trivial
    rename_i hne
    refine .read rfl ?_
    rintro (e | h)
    · exact .pure trivial
    refine .read rfl ?_
    rintro (e | m)
    · exact .pure trivial
    dsimp only
    split
    · rename_i p b hp hb
      split
      · exact .pure trivial
      rename_i hsame
      push Not at hsame
      obtain ⟨hhost, hmachine, howner⟩ := hsame
      split
      · exact .pure trivial
      rename_i hallowed
      refine .read rfl ?_
      rintro (e | img)
      · exact .pure trivial
      dsimp only
      split
      · exact .pure trivial
      rename_i himage
      exact commitPrepared_obeys hq (((unwritten_nil.snoc rfl).snoc rfl).snoc rfl)
        (List.sublist_append_left _ _) (.retry hp hb (hhost ▸ hne) (hmachine.trans hhost.symm) howner
          (by simpa using hallowed) himage)
    · exact .pure trivial

/-! ### Ordinary machines -/

theorem recordMachinePowerAction_obeys {lastError : Option String} :
    (recordMachinePowerAction name action lastError).Keeps lib q cs := by
  exact .read rfl fun now => .perform_bind (.power ..) fun r => .pure trivial

theorem runPowerAction_obeys :
    (runPowerAction name action).Keeps lib q cs := by
  refine .read rfl fun r => ?_
  split
  · exact .pure trivial
  · exact .pure trivial
  refine (fillWoLDefaults_obeys Allowed.undemanding _).bind ?_
  rintro cs₁ (e | power) _ _
  · exact .pure trivial
  dsimp only
  split
  · exact .pure trivial
  refine .read rfl ?_
  rintro (e | u) <;>
    exact recordMachinePowerAction_obeys.bind fun _ _ _ _ => .pure trivial

/-- A record whose provisioning record, state, disk and system are kept. -/
theorem Machine.rewrites_of_provision {m' : Machine} (hname : m'.name = m.name)
    (hsealed : m'.sealedBootstrap = m.sealedBootstrap) (hdisk : m'.targetDisk = m.targetDisk)
    (hpreset : m'.osPreset = m.osPreset) (hphase : m'.phase = m.phase)
    (hprovision : m'.provision = m.provision) : Rewrites q m m' ∧ m'.attempt = m.attempt := by
  have hprogress : m'.progress = m.progress := by rw [progress, hprovision]; rfl
  refine ⟨Machine.Continues.rewrites (continues_of_progress hname hsealed hdisk hpreset hphase
    ?_ ?_ ?_) ?_, ?_⟩
  · rw [hprogress]
  · rw [hprogress]
  · rw [hprogress]
  · rw [imageApplied, hprogress]
    rfl
  · rw [attempt_eq, hprogress, ← attempt_eq]

theorem updateSettings_obeys {power : PowerConfig} (hq : q.kind = .report) :
    (updateSettings name power).Keeps lib q cs := by
  refine .read rfl ?_
  rintro (e | m)
  · exact .pure trivial
  refine (fillWoLDefaults_obeys Allowed.undemanding _).bind ?_
  rintro cs₁ (e | power) hpre _
  · exact .pure trivial
  refine .read rfl fun now => ?_
  obtain ⟨hrw, hattempt⟩ := @rewrites_of_provision q m { m with power, updatedAt := now }
    rfl rfl rfl rfl rfl rfl
  refine .perform_bind (.rewrite hq ⟨⟨.getMachine name, Except.ok m⟩, ?_, Or.inl ⟨_, rfl⟩⟩ hrw
    (Or.inl hattempt)) fun r => ?_
  · exact List.mem_append_left _ (hpre.subset (by simp))
  · rcases r with e | u <;> exact .pure trivial

theorem updateMachineSettings_obeys {body : Option PowerConfig} (hq : q.kind = .report) :
    (updateMachineSettings name body).Keeps lib q cs := by
  unfold updateMachineSettings
  cases body with
  | none => exact .pure trivial
  | some =>
    refine .read rfl fun r => ?_
    split
    · exact .pure trivial
    · exact .pure trivial
    refine (fillWoLDefaults_obeys Allowed.undemanding _).bind ?_
    rintro cs₁ (e | power) _ _
    · exact .pure trivial
    dsimp only
    split
    · exact .pure trivial
    refine (updateSettings_obeys hq).bind fun cs₂ a _ _ => ?_
    split <;> exact .pure trivial

theorem subnetKnown_looks : (subnetKnown ref).Looks := by
  intro cs
  unfold subnetKnown
  split
  · exact .pure trivial
  refine .perform_bind rfl ?_
  rintro (e | u) <;> exact .pure trivial

theorem updateNetwork_obeys {ip : String} {ipAssignment : IPAssignmentMode} {subnetRef : String}
    {network : NetworkConfig} (hq : q.kind = .report) :
    (updateNetwork name ip ipAssignment subnetRef network).Keeps lib q cs := by
  refine .read rfl ?_
  rintro (e | m)
  · exact .pure trivial
  dsimp only
  split
  · exact .pure trivial
  refine .read rfl fun now => ?_
  obtain ⟨hrw, hattempt⟩ := @rewrites_of_provision q m
    { m with ip, subnetRef, network, updatedAt := now } rfl rfl rfl rfl rfl rfl
  refine .perform_bind (.rewrite hq ⟨⟨.getMachine name, Except.ok m⟩, by simp, Or.inl ⟨_, rfl⟩⟩ hrw
    (Or.inl hattempt)) ?_
  rintro (e | u) <;> exact .pure trivial

theorem updateMachineNetwork_obeys {body : Option NetworkReq} (hq : q.kind = .report) :
    (updateMachineNetwork name body).Keeps lib q cs := by
  unfold updateMachineNetwork
  cases body with
  | none => exact .pure trivial
  | some =>
    dsimp only
    split
    · exact .pure trivial
    refine ((subnetKnown_looks _).mono (fun _ _ ho => .read ho) fun _ _ h => h).bind
      fun cs₁ known _ _ => ?_
    split
    · exact .pure trivial
    refine (updateNetwork_obeys hq).bind fun cs₂ a _ _ => ?_
    split <;> exact .pure trivial

/-! ### Redeployments -/

theorem resolveOSPreset_looks :
    (resolveOSPreset s preset ref).Looks := by
  intro cs
  unfold resolveOSPreset
  split
  · exact .pure trivial
  refine .perform_bind rfl fun r => ?_
  split
  · exact .pure trivial
  · exact .pure trivial
  refine (askIf_looks _).bind ?_
  rintro cs₁ (e | u) _ _
  · exact .pure trivial
  dsimp only
  split
  · exact .pure trivial
  split <;> exact .pure trivial

theorem redeployPower_looks {current : PowerConfig} {next : Option PowerConfig} :
    (redeployPower current next).Looks := by
  intro cs
  cases next with
  | none => exact .pure trivial
  | some =>
    refine (fillWoLDefaults_obeys undemanding_isRead _).bind ?_
    rintro cs₁ (e | power) _ _
    · exact .pure trivial
    dsimp only
    split <;> exact .pure trivial

theorem redeployPreset_looks {current : OSPreset} {imageRef : Option String} :
    (redeployPreset s current imageRef).Looks := by
  intro cs
  unfold redeployPreset
  split
  · exact .pure trivial
  refine (resolveOSPreset_looks _).bind fun cs₁ a _ _ => ?_
  cases a <;> exact .pure trivial

theorem redeployRole_looks {current : Role} {role : Option Role} :
    (redeployRole name current role).Looks := by
  intro cs
  cases role with
  | none => exact .pure trivial
  | some =>
    unfold redeployRole
    dsimp only
    split
    · exact .pure trivial
    split
    · refine .perform_bind rfl fun r => ?_
      split <;> exact .pure trivial
    · exact .pure trivial

theorem redeployOptions_looks {current : Machine} {req : RedeployReq} :
    (redeployOptions s name current req).Looks := by
  intro cs
  unfold redeployOptions
  split
  · exact .pure trivial
  refine (redeployPower_looks _).bind ?_
  rintro cs₁ (r | power) _ _
  · exact .pure trivial
  refine (redeployPreset_looks _).bind ?_
  rintro cs₂ (r | osPreset) _ _
  · exact .pure trivial
  refine (subnetKnown_looks _).bind fun cs₃ known _ _ => ?_
  split
  · exact .pure trivial
  split
  · exact .pure trivial
  refine (redeployRole_looks _).bind fun cs₄ a _ _ => ?_
  cases a <;> exact .pure trivial

/-- A redeployment that was stored: the record of a new attempt, and the request has stored no other
record. -/
def Redeployed (cs : List (Call Res)) (m' : Machine) : Prop :=
  ∃ (name : String) (m : Machine) (opts : Option ReinstallOptions),
    (⟨.getMachine name, Except.ok m⟩ : Call Res) ∈ cs ∧
    Attempts cs (opts.elim m fun o => o.apply m) m' ∧
    (⟨.upsert m', Except.ok ()⟩ : Call Res) ∈ cs ∧
    ∀ c ∈ cs, c.op.stores = none ∨ c.op.stores = some m'

theorem reinstall_obeys (hq : q.kind = .redeploy) (hcs : Unwritten cs) :
    (reinstall s name actor opts).Obeys (Allowed lib q)
      (fun cs' a => ∀ m', a = .ok m' → Redeployed cs' m') cs := by
  refine .read rfl ?_
  rintro (e | m)
  · exact .pure (by simp)
  refine (prepareReinstall_attempts (hcs.snoc rfl)).bind ?_
  rintro cs₁ (e | prepared) hpre ⟨hcs₁, ha⟩
  · exact .pure (by simp)
  have hread : (⟨.getMachine name, Except.ok m⟩ : Call Res) ∈ cs₁ := hpre.subset (by simp)
  have hattempts := ha prepared rfl
  refine .perform_bind (.redeploy hq hcs₁ hread hattempts) ?_
  rintro (e | u)
  · exact .pure (by simp)
  refine .pure fun m' h => ?_
  cases h
  obtain ⟨power, actor', tokenBytes, bytes, now, timeout, htoken, hbytes, heq⟩ := hattempts
  refine ⟨name, m, opts, List.mem_append_left _ hread, ⟨power, actor', tokenBytes, bytes, now,
    timeout, List.mem_append_left _ htoken, List.mem_append_left _ hbytes, heq⟩, by simp,
    fun c hc => ?_⟩
  rcases List.mem_append.mp hc with hc | hc
  · exact Or.inl (hcs₁ c hc)
  · obtain rfl := List.mem_singleton.mp hc
    exact Or.inr rfl

theorem attachHypervisorRegistrationToken_obeys (hq : q.kind = .redeploy)
    (hstored : Redeployed cs m) :
    (attachHypervisorRegistrationToken lib s m).Keeps lib q cs := by
  obtain ⟨name, m₀, opts, hread, hattempts, hstored, honly⟩ := hstored
  unfold attachHypervisorRegistrationToken
  split
  · exact .pure trivial
  refine .read rfl ?_
  rintro (e | ⟨token, expiresAt⟩)
  · exact .pure trivial
  obtain ⟨power, actor, tokenBytes, bytes, now, timeout, htoken, hbytes, heq⟩ := hattempts
  refine .perform_bind (.attach hq (List.mem_append_left _ hread) ⟨power, actor, tokenBytes, bytes,
    now, timeout, List.mem_append_left _ htoken, List.mem_append_left _ hbytes, heq⟩
    (List.mem_append_left _ hstored) fun c hc => ?_) fun r => ?_
  · rcases List.mem_append.mp hc with hc | hc
    · exact honly c hc
    · obtain rfl := List.mem_singleton.mp hc
      exact Or.inl rfl
  · rcases r with e | u <;> exact .pure trivial

theorem redeployMachine_obeys (hq : q.kind = .redeploy) (hcs : Unwritten cs) :
    (redeployMachine lib s name actor body).Keeps lib q cs := by
  unfold redeployMachine
  cases body with
  | none => exact .pure trivial
  | some =>
    dsimp only
    split
    · exact .pure trivial
    refine .read rfl fun r => ?_
    split
    · exact .pure trivial
    · exact .pure trivial
    refine (redeployOptions_looks.keeps (hcs.snoc rfl)).bind ?_
    rintro cs₁ (r | opts) _ hcs₁
    · exact .pure trivial
    refine (reinstall_obeys hq hcs₁).bind fun cs₂ a _ ha => ?_
    split
    · exact .pure trivial
    · exact .pure trivial
    · exact attachHypervisorRegistrationToken_obeys hq (ha _ rfl)

theorem dispatchMachineCustomMethod_obeys (hq : q.kind = .redeploy) (hcs : Unwritten cs) :
    (dispatchMachineCustomMethod lib s wildcard actor body).Keeps lib q cs := by
  unfold dispatchMachineCustomMethod
  split
  · exact redeployMachine_obeys hq hcs
  · exact redeployMachine_obeys hq hcs
  · exact runPowerAction_obeys
  · exact runPowerAction_obeys
  · exact .pure trivial

theorem allocationGuard_looks : (allocationGuard s name wildcard).Looks := by
  intro cs
  unfold allocationGuard
  split
  · exact .pure trivial
  split
  · exact .pure trivial
  refine .perform_bind rfl fun r => ?_
  split <;> exact .pure trivial

/-- The guard in front of a handler. -/
theorem protectAllocatedMachine_obeys {next : Prog Res Response} (hcs : Unwritten cs)
    (hnext : ∀ cs, Unwritten cs → next.Keeps lib q cs) :
    (protectAllocatedMachine s name wildcard next).Keeps lib q cs := by
  refine (allocationGuard_looks.keeps hcs).bind fun cs₁ a _ hcs₁ => ?_
  cases a with
  | none => exact hnext cs₁ hcs₁
  | some => exact .pure trivial

/-! ### Creation and deletion -/

/-- What is created is read off the view of its provisioning record. -/
theorem Creates.congr {cs' : List (Call Res)} {m' : Machine} (h : Creates cs m)
    (hattempt : m'.attempt = m.attempt) (htoken : m'.token = m.token) (hactive : m'.active = m.active)
    (happlied : m'.imageApplied = m.imageApplied) (hcompleted : m'.completed = m.completed)
    (hcs : cs ⊆ cs') : Creates cs' m' := by
  obtain ⟨bytes, hbytes, htext⟩ := h.attempt
  obtain ⟨tokenBytes, htokenBytes, htokenText⟩ := h.token
  exact ⟨⟨bytes, hcs hbytes, hattempt.trans htext⟩, ⟨tokenBytes, hcs htokenBytes,
    htoken.trans htokenText⟩, hactive.trans h.active, happlied.trans h.imageApplied,
    hcompleted.trans h.completed⟩

theorem Creates.of_provision {cs' : List (Call Res)} {m' : Machine} (h : Creates cs m)
    (hprovision : m'.provision = m.provision) (hcs : cs ⊆ cs') : Creates cs' m' := by
  have hprogress : m'.progress = m.progress := by rw [progress, hprovision]; rfl
  refine h.congr ?_ ?_ ?_ ?_ ?_ hcs
  · rw [attempt_eq, hprogress, ← attempt_eq]
  · rw [Machine.token, hprogress]; rfl
  · rw [Machine.active, hprogress]; rfl
  · rw [Machine.imageApplied, hprogress]; rfl
  · rw [Machine.completed, hprogress]; rfl

theorem createPreset_looks : (createPreset s preset).Looks := by
  intro cs
  unfold createPreset
  split
  · exact .pure trivial
  refine (resolveOSPreset_looks _).bind fun cs₁ a _ _ => ?_
  cases a <;> exact .pure trivial

theorem createRole_looks : (createRole m).Looks := by
  intro cs
  unfold createRole
  split
  · exact .pure trivial
  refine .perform_bind rfl ?_
  rintro (e | u) <;> exact .pure trivial

theorem createRegistrationToken_creates (hm : Creates cs m) :
    (createRegistrationToken lib s m).Obeys (fun _ o => o.isRead = true)
      (fun cs' a => ∀ m', a = .ok m' → Creates cs' m') cs := by
  unfold createRegistrationToken
  split
  · refine .pure fun m' h => ?_
    cases h
    exact hm
  refine .perform_bind rfl ?_
  rintro (e | ⟨token, expiresAt⟩)
  · exact .pure (by simp)
  refine .pure fun m' h => ?_
  cases h
  have hview := m.withHypervisorToken_view token (lib.formatRFC3339 expiresAt)
  exact hm.congr (congrArg View.attempt hview) (congrArg View.token hview)
    (congrArg View.active hview) (congrArg View.imageApplied hview)
    (congrArg View.completed hview) (List.subset_append_left _ _)

theorem createExclusive_obeys (hq : q.kind = .create) (hcs : Unwritten cs) (hm : Creates cs m) :
    (createExclusive m).Keeps lib q cs := by
  refine .read rfl fun now => ?_
  refine ((fillWoLDefaults_obeys undemanding_isRead _).unwritten (hcs.snoc rfl)).bind ?_
  rintro cs₁ (e | power) hpre ⟨_, hcs₁⟩
  · exact .pure trivial
  dsimp only
  split
  · exact .pure trivial
  refine .perform_bind (.create hq hcs₁ (hm.of_provision rfl ?_)) fun r => ?_
  · exact List.Subset.trans (List.subset_append_left _ _) hpre.subset
  · rcases r with e | u <;> exact .pure trivial

theorem createMachine_obeys {machineID : String} {body : Option CreateMachineReq}
    (hq : q.kind = .create) : (Api.createMachine lib s machineID body).Keeps lib q [] := by
  unfold Api.createMachine
  split
  · exact .pure trivial
  refine (createPreset_looks.keeps unwritten_nil).bind ?_
  rintro cs₁ (e | osPreset) _ hcs₁
  · exact .pure trivial
  refine (createRole_looks.keeps hcs₁).bind ?_
  rintro cs₂ (r | m) _ hcs₂
  · exact .pure trivial
  refine ((fillWoLDefaults_obeys undemanding_isRead _).unwritten hcs₂).bind ?_
  rintro cs₃ (e | power) _ ⟨_, hcs₃⟩
  · exact .pure trivial
  dsimp only
  split
  · exact .pure trivial
  refine ((randomHex_obeys undemanding_isRead 32).unwritten hcs₃).bind ?_
  rintro cs₄ (e | token) _ ⟨hdrawn, hcs₄⟩
  · exact .pure trivial
  obtain ⟨tokenBytes, rfl, htoken⟩ := hdrawn token rfl
  refine ((generateProvisioningAttemptID_obeys undemanding_isRead).unwritten hcs₄).bind ?_
  rintro cs₅ (e | attemptID) hpre ⟨hattempt, hcs₅⟩
  · exact .pure trivial
  obtain ⟨bytes, rfl, hbytes⟩ := hattempt attemptID rfl
  refine .read rfl fun now => ?_
  have hcreates : Creates (cs₅ ++ [⟨.now, now⟩]) (Machine.withCreation { m with power }
      (hexEncode tokenBytes) (attemptText bytes) now s.provisionTimeout) := by
    refine ⟨⟨bytes, List.mem_append_left _ hbytes, rfl⟩,
      ⟨tokenBytes, List.mem_append_left _ (hpre.subset htoken), rfl⟩, rfl, ?_, rfl⟩
    simp [imageApplied, progress, withCreation, ProvisionProgress.imageApplied]
  refine ((createRegistrationToken_creates hcreates).unwritten (hcs₅.snoc rfl)).bind ?_
  rintro cs₆ (e | m) _ ⟨hm, hcs₆⟩
  · exact .pure trivial
  refine (createExclusive_obeys hq hcs₆ (hm m rfl)).bind fun cs₇ a _ _ => ?_
  split
  · refine .bind (Q := fun _ _ => True) ?_ fun _ _ _ _ => .pure trivial
    unfold invalidateHypervisorRegistrationToken
    dsimp only
    split
    · exact .pure trivial
    · exact .read rfl fun r => .pure trivial
  · exact .pure trivial
  · exact .pure trivial

theorem linkedHypervisors_looks :
    (linkedHypervisors s name admin).Looks := by
  intro cs
  unfold linkedHypervisors
  split
  · exact .pure trivial
  refine .perform_bind rfl ?_
  rintro (e | linked)
  · exact .pure trivial
  dsimp only
  split <;> exact .pure trivial

theorem deleteMachine_obeys (hq : q = .deleteMachine name admin) :
    (Api.deleteMachine s name admin).Keeps lib q cs := by
  refine .read rfl fun r => ?_
  split
  · exact .pure trivial
  · exact .pure trivial
  refine ((linkedHypervisors_looks _).mono (fun _ _ ho => .read ho) fun _ _ h => h).bind ?_
  rintro cs₁ (r | linked) _ _
  · exact .pure trivial
  refine .read rfl ?_
  rintro (e | u)
  · exact .pure trivial
  refine .perform_bind (.delete ⟨admin, hq⟩) fun r => ?_
  split <;> exact .pure trivial

/-! ### Loops over single columns -/

/-- A loop whose rounds keep to what is allowed. -/
theorem forM_obeys {α : Type} {f : α → Prog Res Unit} (hf : ∀ a cs, (f a).Keeps lib q cs)
    {l : List α} : (l.forM f).Keeps lib q cs := by
  induction l generalizing cs with
  | nil => exact .pure trivial
  | cons a l ih => exact (hf a cs).bind fun _ _ _ _ => ih

theorem pollPowerStates_obeys : pollPowerStates.Keeps lib q cs := by
  refine .read rfl ?_
  rintro (e | machines)
  · exact .pure trivial
  refine forM_obeys fun m cs => ?_
  refine .read rfl ?_
  rintro (e | state)
  · exact .pure trivial
  dsimp only
  split
  · exact .pure trivial
  exact .read rfl fun now => .perform_bind (.powerState ..) fun r => .pure trivial

theorem syncLeaseIPs_obeys : syncLeaseIPs.Keeps lib q cs := by
  refine .read rfl ?_
  rintro (e | machines)
  · exact .pure trivial
  refine .read rfl ?_
  rintro (e | leases)
  · exact .pure trivial
  refine forM_obeys fun m cs => ?_
  unfold syncLeaseIP
  split
  · exact .pure trivial
  split
  · exact .pure trivial
  split
  · exact .pure trivial
  refine .read rfl fun now => ?_
  refine .bind (Q := fun _ _ => True) ?_ fun _ _ _ _ => .pure trivial
  refine .perform_bind (.dynamicIP ..) ?_
  rintro (e | (_ | _))
  · exact .pure trivial
  · exact .read rfl fun r => .pure trivial
  · exact .pure trivial

/-! ### All requests -/

/-- A handler that answers. -/
theorem Prog.Obeys.answer {p : Prog Res Response} {Q : List (Call Res) → Response → Prop}
    (hp : p.Obeys (Allowed lib q) Q cs) :
    (do return some (← p) : Prog Res (Option Response)).Keeps lib q cs :=
  hp.bind fun _ _ _ _ => .pure trivial

/-- **Every request keeps to what is allowed.** -/
theorem Request.obeys (q : Request) :
    (q.prog lib s).Obeys (Allowed lib q) (fun _ _ => True) [] := by
  cases q with
  | registerHost => exact registerBareMetalHost_obeys.answer
  | updatePool => exact updateBareMetalHostPool_obeys.answer
  | unregisterHost => exact (unregisterBareMetalHost_obeys rfl).answer
  | acquire => exact acquireBareMetalHost_obeys.answer
  | getClaim => exact getBareMetalClaim_obeys.answer
  | deployClaim => exact (deployBareMetalClaim_obeys rfl).answer
  | deleteClaim => exact (deleteBareMetalClaim_obeys rfl).answer
  | retryClaim => exact (retryBareMetalClaim_obeys rfl).answer
  | deployEvents => exact (pxeDeployEvents_obeys rfl).answer
  | inventory => exact (pxeInventory_obeys rfl).answer
  | curtinConfig => exact (pxeCurtinConfig_obeys rfl).answer
  | file => exact (serveProvisionedPXEFile_obeys rfl).answer
  | bootScript => exact (pxeBootScript_obeys rfl).answer
  | userData => exact (pxeNocloudUserData_obeys rfl).answer
  | installComplete => exact (pxeInstallComplete_obeys rfl).answer
  | windowsState => exact (pxeWindowsState_obeys rfl).answer
  | sync => exact (syncProvisioningStates_obeys rfl).bind fun _ _ _ _ => .pure trivial
  | recordPower => exact recordMachinePowerAction_obeys.bind fun _ _ _ _ => .pure trivial
  | machineMethod =>
    refine .answer (protectAllocatedMachine_obeys unwritten_nil fun cs hcs => ?_)
    exact dispatchMachineCustomMethod_obeys rfl hcs
  | settings =>
    refine .answer (protectAllocatedMachine_obeys unwritten_nil fun cs _ => ?_)
    exact updateMachineSettings_obeys rfl
  | network =>
    refine .answer (protectAllocatedMachine_obeys unwritten_nil fun cs _ => ?_)
    exact updateMachineNetwork_obeys rfl
  | createMachine => exact (createMachine_obeys rfl).answer
  | deleteMachine =>
    refine .answer (protectAllocatedMachine_obeys unwritten_nil fun cs _ => ?_)
    exact deleteMachine_obeys rfl
  | pollPower => exact pollPowerStates_obeys.bind fun _ _ _ _ => .pure trivial
  | syncLeases => exact syncLeaseIPs_obeys.bind fun _ _ _ _ => .pure trivial

end Gomi
