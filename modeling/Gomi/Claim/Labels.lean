import Gomi.Claim.Records
import Gomi.Interleaving.Fresh

/-!
# Attempt ids are never issued twice

An attempt id is the text of a random buffer, and the generator returns no buffer twice.
But records with an attempt id travel: callbacks write back what they read, and an
inventory even writes the attempt id of one record into another. So it takes an induction
over the trace to see where a stored attempt id comes from: `Gomi.Traced.issued` says that
the installation it belongs to was started by a request that drew its bytes. Such a
request starts one installation only, whence `Gomi.Traced.fresh`: before an installation
is started, nothing was stored with its attempt id.

This is what makes the attempt id of a host a fence: whoever writes a record with the
attempt id of the host has read it after that attempt was committed.
-/

namespace Gomi

open Go Machine

variable {lib : Lib} {reqs : ℕ → Request} {w₀ w w' : World} {T T₁ T₂ : List (Event Res)}
  {e e' : Event Res} {m : Machine} {n : String} {b : List UInt8}

/-! ### Texts -/

theorem attemptText_injective : Function.Injective attemptText := fun _ _ h =>
  hexEncode_injective (String.append_right_inj _ |>.mp h)

@[simp] theorem trimSpace_attemptText (b : List UInt8) :
    trimSpace (attemptText b) = attemptText b := by
  refine trimSpace_eq_self fun c hc => ?_
  rw [attemptText, String.toList_append, List.mem_append] at hc
  rcases hc with hc | hc
  · have hfixed : ("attempt-".toList.all fun c => !isSpace c) = true := by decide
    simpa using List.all_eq_true.mp hfixed c hc
  · exact forall_mem_hexEncode (P := (isSpace · = false)) (by decide) hc

/-! ### Random buffers -/

/-- A buffer that is drawn was not drawn before. -/
theorem draw_ok {k : ℕ} (h : w.draw k (.ok b) = some w') :
    b ∉ w.drawn ∧ w'.drawn = b :: w.drawn := by
  by_cases hb : b.length = k ∧ b ∉ w.drawn
  · have hw : some { w with drawn := b :: w.drawn } = some w' := by simpa [World.draw, hb] using h
    rw [← Option.some.inj hw]
    exact ⟨hb.2, rfl⟩
  · exact absurd h (by simp [World.draw, hb])

/-- What was drawn stays drawn. -/
theorem step_drawn {o : Op} {r : Res o} (h : step lib o w r = some w') : w.drawn ⊆ w'.drawn := by
  cases o with
  | now | ask q => exact (Option.some.inj h) ▸ List.Subset.refl _
  | rand k =>
    rcases r with e | bytes
    · have hw : w' = w := by
        cases e <;> simp_all [step, World.draw]
      rw [hw]
      exact List.Subset.refl _
    · rw [(draw_ok h).2]
      exact List.subset_cons_self _ _
  | _ => rcases execute_eq_some h with ⟨-, rfl⟩ | ⟨-, rfl⟩ <;> exact List.Subset.refl _

/-- The event drew the buffer `b`. -/
def Event.Draws (b : List UInt8) (e : Event Res) : Prop :=
  ∃ k, e.toCall = ⟨.rand k, Except.ok b⟩

/-- **The random generator is a source of fresh buffers.** -/
theorem randomSource : Source (step lib) (fun w b => b ∈ w.drawn)
    fun c b => ∃ k, c = ⟨.rand k, Except.ok b⟩ := by
  refine ⟨fun hs hb => step_drawn hs hb, ?_⟩
  rintro o w r w' b hs ⟨k, hcall⟩
  obtain ⟨rfl, hr⟩ := Call.mk.inj hcall
  obtain rfl := eq_of_heq hr
  obtain ⟨hnew, hdrawn⟩ := draw_ok hs
  exact ⟨hnew, by simp [hdrawn]⟩

/-! ### Starts -/

/-- **The start of an installation**: the record of a new attempt is committed under a claim,
stored by a redeployment or inserted by a creation. -/
def Event.Starts (reqs : ℕ → Request) (m : Machine) (e : Event Res) : Prop :=
  (∃ h h', e.toCall = ⟨.commitDeployment h m, Except.ok h'⟩) ∨
    e.toCall = ⟨.upsert m, Except.ok ()⟩ ∧ (reqs e.tid).kind = .redeploy ∨
    e.toCall = ⟨.insertMachine m, Except.ok ()⟩

variable {cs : List (Call Res)} {q : Request} {t : ℕ}

/-- The view of a new attempt. -/
theorem Attempts.view {base : Machine} (h : Attempts cs base m) :
    ∃ tokenBytes bytes, (⟨.rand 32, Except.ok tokenBytes⟩ : Call Res) ∈ cs ∧
      (⟨.rand 16, Except.ok bytes⟩ : Call Res) ∈ cs ∧ m.name = base.name ∧
      m.view = { attempt := attemptText bytes, token := hexEncode tokenBytes, active := true
                 imageApplied := false, completed := false, phase := .provisioning
                 targetDisk := base.targetDisk, osPreset := base.osPreset
                 sealedBootstrap := base.sealedBootstrap } := by
  obtain ⟨power, actor, tokenBytes, bytes, now, timeout, htoken, hbytes, rfl⟩ := h
  refine ⟨tokenBytes, bytes, htoken, hbytes, ?_, ?_⟩
  · simp only [withAttempt, readied]
  · simp [Machine.view, Machine.attempt, Machine.token, Machine.active, Machine.imageApplied,
      completed, progress, withAttempt, readied, ProvisionProgress.imageApplied]

/-- What a redeployment stores has a new attempt. -/
theorem Allowed.of_redeploy (h : Allowed lib q cs (.upsert m)) (hq : q.kind = .redeploy) :
    ∃ base m', Attempts cs base m' ∧ m.view = m'.view := by
  cases h with
  | read ho => cases ho
  | rewrite hq' => cases hq.symm.trans hq'
  | redeploy hq hunwritten hread hattempts => exact ⟨_, _, hattempts, rfl⟩
  | @attach name m₀ m' opts token expiresAt hq hread hattempts =>
    exact ⟨_, m', hattempts, m'.withHypervisorToken_view token expiresAt⟩

/-- What a claim commits. -/
theorem Allowed.of_commit {h : Host} (ha : Allowed lib q cs (.commitDeployment h m)) :
    q.kind = .claim ∧ Unwritten cs ∧ ∃ owner m₀ base,
      [(⟨.findOwner owner, Except.ok h⟩ : Call Res),
        ⟨.getMachine h.name, Except.ok m₀⟩].Sublist cs ∧
      Prepares lib h m₀ base ∧ Attempts cs base m := by
  cases ha with
  | read ho => cases ho
  | commit hq hunwritten hread hprepares hattempts =>
    exact ⟨hq, hunwritten, _, _, _, hread, hprepares, hattempts⟩

/-- What a creation inserts. -/
theorem Allowed.of_insert (ha : Allowed lib q cs (.insertMachine m)) :
    q.kind = .create ∧ Unwritten cs ∧ Creates cs m := by
  cases ha with
  | read ho => cases ho
  | create hq hunwritten hcreates => exact ⟨hq, hunwritten, hcreates⟩

/-- **What a start stores**: an attempt that is not completed, whose id and token are those of buffers
that the request has drawn. -/
theorem Event.Starts.drawn (he : e.Starts reqs m) (ha : Allowed lib (reqs e.tid) cs e.op) :
    ∃ bytes tokenBytes, m.attempt = attemptText bytes ∧ m.token = hexEncode tokenBytes ∧
      m.completed = false ∧ (⟨.rand 16, Except.ok bytes⟩ : Call Res) ∈ cs ∧
      (⟨.rand 32, Except.ok tokenBytes⟩ : Call Res) ∈ cs := by
  have hattempts : ∀ {base m' : Machine}, Attempts cs base m' → m.view = m'.view →
      ∃ bytes tokenBytes, m.attempt = attemptText bytes ∧ m.token = hexEncode tokenBytes ∧
        m.completed = false ∧ (⟨.rand 16, Except.ok bytes⟩ : Call Res) ∈ cs ∧
        (⟨.rand 32, Except.ok tokenBytes⟩ : Call Res) ∈ cs := by
    intro base m' h hsame
    obtain ⟨tokenBytes, bytes, htb, hb, -, hview⟩ := h.view
    rw [← hsame] at hview
    exact ⟨bytes, tokenBytes, congrArg View.attempt hview, congrArg View.token hview,
      congrArg View.completed hview, hb, htb⟩
  rcases he with ⟨h, h', hcall⟩ | ⟨hcall, hkind⟩ | hcall
  · rw [show e.op = .commitDeployment h m from congrArg Call.op hcall] at ha
    obtain ⟨-, -, -, -, base, -, -, hatt⟩ := ha.of_commit
    exact hattempts hatt rfl
  · rw [show e.op = .upsert m from congrArg Call.op hcall] at ha
    obtain ⟨base, m', hatt, hsame⟩ := ha.of_redeploy hkind
    exact hattempts hatt hsame
  · rw [show e.op = .insertMachine m from congrArg Call.op hcall] at ha
    obtain ⟨-, -, hcreates⟩ := ha.of_insert
    obtain ⟨bytes, hb, htext⟩ := hcreates.attempt
    obtain ⟨tokenBytes, htb, htoken⟩ := hcreates.token
    exact ⟨bytes, tokenBytes, htext, htoken, hcreates.completed, hb, htb⟩

/-- What a client has drawn, it has drawn at some point. -/
theorem exists_draws {t k : ℕ}
    (hb : (⟨.rand k, Except.ok b⟩ : Call Res) ∈ localOf t T) : ∃ e ∈ T, e.tid = t ∧ e.Draws b := by
  obtain ⟨e, he, htid, hcall⟩ := mem_localOf.mp hb
  exact ⟨e, he, htid, _, hcall⟩

/-- **Whoever starts an installation has drawn its attempt id and its token.** -/
theorem Traced.starts (hT : Traced lib reqs w₀ (T₁ ++ e :: T₂) w) (he : e.Starts reqs m) :
    ∃ bytes tokenBytes, m.attempt = attemptText bytes ∧ m.token = hexEncode tokenBytes ∧
      (∃ e' ∈ T₁, e'.tid = e.tid ∧ e'.Draws bytes) ∧
      ∃ e' ∈ T₁, e'.tid = e.tid ∧ e'.Draws tokenBytes := by
  obtain ⟨bytes, tokenBytes, htext, htoken, -, hb, htb⟩ := he.drawn (hT.allowed T₁ e T₂ rfl)
  exact ⟨bytes, tokenBytes, htext, htoken, exists_draws hb, exists_draws htb⟩

/-! ### Reads and rewrites -/

variable (lib reqs w₀) in
/-- Client `t` has read the record `m` after the part `T₁` of the trace `T`. -/
def ReadAt (T : List (Event Res)) (t : ℕ) (m : Machine) (T₁ : List (Event Res)) (w₁ : World) :
    Prop :=
  Traced lib reqs w₀ T₁ w₁ ∧ w₁.record m.name = some m.view ∧
    ∃ e T₂, T = T₁ ++ e :: T₂ ∧ e.tid = t ∧ e.toCall.Reads m

theorem ReadAt.isPrefix {w₁ : World} (h : ReadAt lib reqs w₀ T t m T₁ w₁) : T₁ <+: T := by
  obtain ⟨-, -, e, T', rfl, -⟩ := h
  exact List.prefix_append ..

/-- What a client has read, it has read at some point. -/
theorem Traced.readAt {c : Call Res} (hT : Traced lib reqs w₀ T w) (hc : c.Reads m)
    (hmem : c ∈ localOf t T) : ∃ T₁ w₁, ReadAt lib reqs w₀ T t m T₁ w₁ := by
  obtain ⟨T₁, e, T₂, w₁, rfl, htid, rfl, hT₁, hrecord, -⟩ :=
    hT.read hc (List.singleton_sublist.mpr hmem)
  exact ⟨T₁, w₁, hT₁, hrecord, e, T₂, rfl, htid, hc⟩

/-- What a client has read in order, it has read in order. -/
theorem Traced.readAt_two {c c' : Call Res} {m' : Machine} (hT : Traced lib reqs w₀ T w)
    (hc : c.Reads m) (hc' : c'.Reads m') (hcs : [c, c'].Sublist (localOf t T)) :
    ∃ T₁ w₁ T₂ w₂, ReadAt lib reqs w₀ T t m T₁ w₁ ∧ ReadAt lib reqs w₀ T t m' T₂ w₂ ∧ T₁ <+: T₂ := by
  obtain ⟨T₁, e, T', w₁, rfl, htid, rfl, hT₁, hrecord, hrest⟩ := hT.read hc hcs
  obtain ⟨A, e', B, rfl, htid', rfl, -⟩ := localOf_cons_sublist hrest
  have hsplit : T₁ ++ e :: (A ++ e' :: B) = (T₁ ++ e :: A) ++ e' :: B := by simp
  obtain ⟨w₂, _, hT₂, -, hs, -, -⟩ := (hsplit ▸ hT).at_event
  exact ⟨T₁, w₁, T₁ ++ e :: A, w₂, ⟨hT₁, hrecord, e, _, rfl, htid, hc⟩,
    ⟨hT₂, hc'.record hs, e', B, hsplit, htid', hc'⟩, List.prefix_append ..⟩

variable (lib reqs w₀) in
/-- **A rewrite in a trace**: client `t` may write `m'` for the record `m` that it read after `T₂`;
the attempt id is that of the record `k`, which it read no later. -/
structure Rewriting (T : List (Event Res)) (t : ℕ) (m' k m : Machine) (T₁ T₂ : List (Event Res))
    (w₁ w₂ : World) : Prop where
  found : ReadAt lib reqs w₀ T t k T₁ w₁
  read : ReadAt lib reqs w₀ T t m T₂ w₂
  order : T₁ <+: T₂
  name : k.name = m'.name
  rewrites : Rewrites (reqs t) m m'
  label : k = m ∧ m'.attempt = m.attempt ∨ Relabels k m'

/-- Every rewrite of a trace is one. -/
theorem Traced.rewriting (hT : Traced lib reqs w₀ T w)
    (ha : Allowed lib (reqs t) (localOf t T) (.upsert m)) (hq : (reqs t).kind ≠ .redeploy) :
    ∃ k m₀ T₁ T₂ w₁ w₂, Rewriting lib reqs w₀ T t m k m₀ T₁ T₂ w₁ w₂ := by
  cases ha with
  | read ho => cases ho
  | redeploy hq' | attach hq' => exact absurd hq' hq
  | @rewrite m₀ m hq' hread hrewrites hattempt =>
    have hname := hrewrites.continues.name.symm
    rcases hattempt with hsame | ⟨k, ⟨c, hcs, hck⟩, hlabel⟩
    · obtain ⟨c, hc, hcm⟩ := hread
      obtain ⟨T₁, w₁, hread⟩ := hT.readAt hcm hc
      exact ⟨m₀, m₀, T₁, T₁, w₁, w₁, hread, hread, List.prefix_rfl, hname, hrewrites,
        Or.inl ⟨rfl, hsame⟩⟩
    · obtain ⟨T₁, w₁, T₂, w₂, h₁, h₂, horder⟩ := hT.readAt_two hck (Or.inl ⟨_, rfl⟩) hcs
      refine ⟨k, m₀, T₁, T₂, w₁, w₂, h₁, h₂, horder, ?_, hrewrites, Or.inr hlabel⟩
      -- a machine that is got by its name has that name
      obtain ⟨A, e, B, rfl, -, hcall, -⟩ :=
        localOf_cons_sublist ((List.sublist_cons_self c _).trans hcs)
      obtain ⟨w₃, w₄, -, -, hs, -, -⟩ := hT.at_event
      obtain ⟨tid, o, r⟩ := e
      obtain ⟨rfl, hr⟩ := Call.mk.inj hcall
      obtain rfl := eq_of_heq hr
      obtain ⟨-, row, -, rfl⟩ := step_getMachine_ok hs
      exact hname

theorem Rewriting.trimSpace_label {m' k : Machine} {w₁ w₂ : World}
    (h : Rewriting lib reqs w₀ T t m' k m T₁ T₂ w₁ w₂) :
    trimSpace m'.attempt = trimSpace k.attempt := by
  rcases h.label with ⟨rfl, hsame⟩ | ⟨-, hsame | hsame⟩ <;> simp [hsame]

/-! ### Where an attempt id comes from -/

/-- The attempt ids that are stored at the start are texts of buffers that were drawn. -/
def World.LabelsDrawn (w : World) : Prop :=
  ∀ n v b, w.record n = some v → trimSpace v.attempt = attemptText b → b ∈ w.drawn

/-- The buffer `b` was drawn before the trace, or machine `n` was started in it with the attempt id
of `b`. -/
def Issued (reqs : ℕ → Request) (w₀ : World) (T : List (Event Res)) (n : String) (b : List UInt8)
    (label : String) : Prop :=
  b ∈ w₀.drawn ∨ label = attemptText b ∧
    ∃ e ∈ T, ∃ m, e.Starts reqs m ∧ m.name = n ∧ m.attempt = attemptText b

theorem Issued.mono {label label' : String} (h : Issued reqs w₀ T₁ n b label) (hpre : T₁ <+: T)
    (hlabel : label = attemptText b → label' = attemptText b) : Issued reqs w₀ T n b label' := by
  rcases h with hdrawn | ⟨htext, e, he, hm⟩
  · exact Or.inl hdrawn
  · exact Or.inr ⟨hlabel htext, e, hpre.subset he, hm⟩

section Issued

variable (h₀ : w₀.LabelsDrawn)

include h₀

/-- **Where an attempt id comes from**: it was drawn before the trace, or the installation was
started in it. -/
theorem Traced.issued (hT : Traced lib reqs w₀ T w) {v : View} (hv : w.record n = some v)
    (hb : trimSpace v.attempt = attemptText b) : Issued reqs w₀ T n b v.attempt := by
  revert n v b
  refine Traced.invariant (I := fun T w => ∀ {n b} {v : View}, w.record n = some v →
    trimSpace v.attempt = attemptText b → Issued reqs w₀ T n b v.attempt) hT ?_ ?_
  · exact fun hv hb => Or.inl (h₀ _ _ _ hv hb)
  clear hT
  intro T e w w' hT ih ha hs hT' n b v hv hb
  have hhere := @ih T [] w (by simp) hT
  have hpre : T <+: T ++ [e] := List.prefix_append ..
  have hstarts : ∀ {m : Machine}, e.Starts reqs m → m.name = n → v.attempt = m.attempt →
      Issued reqs w₀ (T ++ [e]) n b v.attempt := by
    intro m hstart hname hattempt
    obtain ⟨bytes, _, htext, -⟩ := hT'.starts hstart
    rw [hattempt, htext, trimSpace_attemptText] at hb
    rw [hattempt, htext, hb]
    exact Or.inr ⟨rfl, e, by simp, m, hstart, hname, htext.trans hb⟩
  rcases step_record ha hs with heq | hwrite
  · exact (hhere (heq ▸ hv) hb).mono hpre id
  obtain ⟨t, o, r⟩ := e
  rw [hv] at hwrite
  generalize hhost : w.db.hosts[n]? = host at hwrite
  generalize hx : w.record n = x at hwrite
  generalize hy : some v = y at hwrite
  cases hwrite with
  | @commit h h' m host x hname hname' =>
    cases hy
    exact hstarts (m := m) (Or.inl ⟨h, h', rfl⟩) hname' (by rw [View.stored_attempt, view_attempt])
  | @insert m host hname =>
    cases hy
    exact hstarts (m := m) (Or.inr (Or.inr rfl)) hname (by rw [View.stored_attempt, view_attempt])
  | delete => cases hy
  | @unregister revision r v' =>
    cases hy
    exact (hhere hx hb).mono hpre id
  | @upsert m host x hname hfence =>
    cases hy
    have hattempt : (m.view.stored lib).attempt = m.attempt := by
      rw [View.stored_attempt, view_attempt]
    by_cases hq : (reqs t).kind = .redeploy
    · exact hstarts (m := m) (Or.inr (Or.inl ⟨rfl, hq⟩)) hname hattempt
    · -- the label of a rewrite was read
      obtain ⟨k, m₀, T₁, T₂, w₁, w₂, hrw⟩ := hT.rewriting ha hq
      obtain ⟨T', rfl⟩ := hrw.found.isPrefix
      have hrecord : w₁.record n = some k.view := by
        rw [← hname, ← hrw.name]
        exact hrw.found.2.1
      have hkb : trimSpace k.view.attempt = attemptText b := by
        rw [view_attempt, ← hrw.trimSpace_label, ← hattempt]
        exact hb
      refine (ih T₁ T' w₁ rfl hrw.found.1 hrecord hkb).mono
        ((List.prefix_append ..).trans hpre) fun hkb => ?_
      rw [view_attempt] at hkb
      rw [hattempt]
      rcases hrw.label with ⟨rfl, hsame⟩ | ⟨-, hsame | hsame⟩
      · exact hsame.trans hkb
      · exact hsame.trans hkb
      · exact hsame.trans (hkb ▸ trimSpace_attemptText b)
  | @swap before after host hname hattempt =>
    cases hy
    have hsame : (after.view.stored lib).attempt = (before.view.stored lib).attempt := by
      simpa using hattempt
    refine (hhere hx (hsame ▸ hb)).mono hpre fun h => hsame.trans h

/-- **Nothing has the attempt id of an installation before the request that starts it stores
anything.** -/
theorem Traced.fresh (hT : Traced lib reqs w₀ (T₁ ++ e :: T₂) w) (he : e.Starts reqs m)
    (hunwritten : Unwritten (localOf e.tid T₁)) {T : List (Event Res)} {w₁ : World} (hpre : T <+: T₁)
    (hT₁ : Traced lib reqs w₀ T w₁) {v : View} (hv : w₁.record n = some v) :
    trimSpace v.attempt ≠ m.attempt := by
  intro hlabel
  obtain ⟨bytes, _, htext, -, ⟨d, hd, hdtid, hdraws⟩, -⟩ := hT.starts he
  have hdT : d ∈ T₁ ++ e :: T₂ := List.mem_append_left _ hd
  rcases hT₁.issued h₀ hv (hlabel.trans htext) with hdrawn | ⟨-, e', he', m', hstarts, -, hm'⟩
  · exact randomSource.not_used hT.after_eq hdT hdraws hdrawn
  · -- the start in the past was made by the same client, which has stored nothing yet
    obtain ⟨A, B, rfl⟩ := List.append_of_mem he'
    obtain ⟨bytes', _, htext', -, ⟨d', hd', hdtid', hdraws'⟩, -⟩ := hT₁.starts hstarts
    obtain rfl := attemptText_injective (hm'.symm.trans htext')
    have hd'T : d' ∈ T₁ ++ e :: T₂ :=
      List.mem_append_left _ (hpre.subset (List.mem_append_left _ hd'))
    have htid : e'.tid = e.tid :=
      hdtid'.symm.trans ((randomSource.drawer_unique hT.after_eq hd'T hdT hdraws' hdraws).trans hdtid)
    have hstores : e'.op.stores = none :=
      hunwritten e'.toCall (mem_localOf.mpr ⟨e', hpre.subset he', htid, rfl⟩)
    rcases hstarts with ⟨g, g', hcall⟩ | ⟨hcall, -⟩ | hcall
    · have hop' : e'.op = .commitDeployment g m' := congrArg Call.op hcall
      exact absurd hstores (by simp [hop', Op.stores])
    · have hop' : e'.op = .upsert m' := congrArg Call.op hcall
      exact absurd hstores (by simp [hop', Op.stores])
    · have hop' : e'.op = .insertMachine m' := congrArg Call.op hcall
      exact absurd hstores (by simp [hop', Op.stores])

end Issued

end Gomi
