import Gomi.Claim.Labels

/-!
# Isolated rewrites

The record of a machine that is not claimed has no fence: a callback, a change of settings
or a round of the sync loop reads a record and writes the whole of it back later, whatever
was stored in between. `Gomi.Isolated reqs n T` says of a trace that this did no harm to
machine `n`: nobody else wrote the record between the read and the write.

Then a rewrite changes the record that is *stored*, and the history of a record is a simple
one. `Gomi.RecordStep` lists what a step can do to it: an installation is started, the
stored record is rewritten, the host is unregistered or the machine deleted.
`Gomi.Traced.recordStep` is the only place where isolation is used. What holds of a record is
then a matter of one rule, `Gomi.Traced.record_invariant`, and what holds for the rest of an
attempt one of another, `Gomi.Traced.attempt_kept`: it is what every rewrite keeps.
-/

namespace Gomi

open Go Event

variable {lib : Lib} {reqs : ℕ → Request} {w₀ w w' w₁ : World} {T T₁ T₂ : List (Event Res)}
  {e e' : Event Res} {m : Machine} {n : String}

/-! ### Isolation -/

/-- The event wrote the whole record of machine `n`, whatever was stored. -/
def Event.Overwrites (n : String) (e : Event Res) : Prop :=
  ∃ m, m.name = n ∧ e.toCall = ⟨.upsert m, Except.ok ()⟩

/-- A later write of machine `n` by the same request relies on this event: on what a rewrite has
read, and on what a redeployment has written before. -/
def Event.Grounds (reqs : ℕ → Request) (n : String) (e : Event Res) : Prop :=
  (reqs e.tid).kind = .report ∧ (∃ m, m.name = n ∧ e.toCall.Reads m) ∨ e.Overwrites n

/-- **The rewrites of machine `n` are isolated**: between an event that a request relies on and its
write of the record, nobody has written the record. -/
def Isolated (reqs : ℕ → Request) (n : String) (T : List (Event Res)) : Prop :=
  ∀ T₁ r A e T₂, T = T₁ ++ r :: (A ++ e :: T₂) → r.tid = e.tid → r.Grounds reqs n →
    e.Overwrites n → ∀ x ∈ A, ¬x.toCall.Stores n

theorem Isolated.initial_part (h : Isolated reqs n (T₁ ++ T₂)) : Isolated reqs n T₁ := by
  intro A r B e C hT
  refine h A r B e (C ++ T₂) ?_
  rw [hT]
  simp

/-- What nobody writes stays. -/
theorem Traced.record_eq (hT : Traced lib reqs w₀ (T₁ ++ T₂) w) (hT₁ : Traced lib reqs w₀ T₁ w₁)
    (hnone : ∀ x ∈ T₂, ¬x.toCall.Stores n) : w.record n = w₁.record n := by
  induction T₂ using List.reverseRecOn generalizing w with
  | nil => rw [hT₁.unique (by simpa using hT)]
  | append_singleton T₂ x ih =>
    rw [← List.append_assoc] at hT
    obtain ⟨w₂, w₃, hT₂, ha, hs, hT₃, -⟩ := hT.at_event
    obtain rfl := hT₃.unique hT
    have hkeep := ih hT₂ fun y hy => hnone y (List.mem_append_left _ hy)
    rcases step_record ha hs with heq | hwrite
    · exact heq.trans hkeep
    · exact absurd hwrite.stores (hnone x (by simp))

/-- **What a request relies on is what is stored when it writes.** -/
theorem Isolated.record_eq {r : Event Res} (hiso : Isolated reqs n (T₁ ++ r :: T₂ ++ [e]))
    (hr : r.Grounds reqs n) (he : e.Overwrites n) (htid : r.tid = e.tid)
    (hT : Traced lib reqs w₀ (T₁ ++ r :: T₂) w) (hT₁ : Traced lib reqs w₀ (T₁ ++ [r]) w₁) :
    w.record n = w₁.record n := by
  have hT' : Traced lib reqs w₀ (T₁ ++ [r] ++ T₂) w := by simpa using hT
  refine Traced.record_eq hT' hT₁ fun x hx => ?_
  exact hiso T₁ r T₂ e [] (by simp) htid hr he x hx

/-! ### What a step does to a record -/

variable (lib reqs) in
/-- **What a step of an isolated trace does to the record of machine `n`**, after the trace `T`. -/
inductive RecordStep (T : List (Event Res)) (n : String) (e : Event Res) :
    Option View → Option View → Prop
  /-- Nothing that anybody decides by. -/
  | same {x : Option View} : RecordStep T n e x x
  /-- An installation is started. -/
  | start {m : Machine} {x : Option View} (hstarts : e.Starts reqs m) (hname : m.name = n)
      (hunwritten : Unwritten (localOf e.tid T)) :
      RecordStep T n e x (some (m.view.stored lib))
  /-- The stored record is rewritten. -/
  | rewrite {v : View} {m m' : Machine} (hstored : v.stored lib = m.view.stored lib)
      (hrewrites : Rewrites (reqs e.tid) m m')
      (hlabel : m'.attempt = m.attempt ∨ m'.attempt = trimSpace m.attempt) :
      RecordStep T n e (some v) (some (m'.view.stored lib))
  /-- The host is unregistered. -/
  | unregister {v : View} : RecordStep T n e (some v) (some { v with sealedBootstrap := none })
  /-- The machine is deleted. -/
  | delete {v : View} : RecordStep T n e (some v) none

variable {t : ℕ} {K : View → Prop} {v : View}

/-- A record that was read is the stored one after it was read. -/
theorem ReadAt.split (h : ReadAt lib reqs w₀ T t m T₁ w₁) (hq : (reqs t).kind = .report)
    (hname : m.name = n) (hT : Traced lib reqs w₀ T w) :
    ∃ r T₂ w₂, T = T₁ ++ r :: T₂ ∧ r.tid = t ∧ r.Grounds reqs n ∧
      Traced lib reqs w₀ (T₁ ++ [r]) w₂ ∧ w₂.record n = some m.view := by
  obtain ⟨h₁, hrecord, r, T₂, rfl, rfl, hreads⟩ := h
  obtain ⟨w₂, w₃, h₂, ha, hs, h₃, -⟩ := hT.at_event
  obtain rfl := h₂.unique h₁
  refine ⟨r, T₂, w₃, rfl, rfl, Or.inl ⟨hq, m, hname, hreads⟩, h₃, ?_⟩
  -- a read writes nothing
  rw [← hrecord, hname]
  rcases step_record ha hs with heq | hwrite
  · exact heq
  · refine absurd hwrite.stores fun hstores => ?_
    obtain ⟨t, o, res⟩ := r
    rcases hreads with ⟨name, hcall⟩ | ⟨ms, hcall, -⟩ <;>
      (obtain ⟨rfl, -⟩ := Call.mk.inj hcall; cases hstores)

/-- A record that was read is stored when the request writes it. -/
theorem Isolated.read (hiso : Isolated reqs n (T ++ [e])) (he : e.Overwrites n)
    (h : ReadAt lib reqs w₀ T t m T₁ w₁) (htid : t = e.tid) (hq : (reqs t).kind = .report)
    (hname : m.name = n) (hT : Traced lib reqs w₀ T w) : w.record n = some m.view := by
  obtain ⟨r, T₂, w₂, rfl, hr, hgrounds, h₂, hrecord⟩ := h.split hq hname hT
  rw [← hrecord]
  exact hiso.record_eq hgrounds he (hr.trans htid) hT h₂

/-- What a redeployment has stored. -/
theorem Traced.stored (hT : Traced lib reqs w₀ T w) (hname : m.name = n)
    (hmem : (⟨.upsert m, Except.ok ()⟩ : Call Res) ∈ localOf t T) :
    ∃ T₁ r T₂ w₂, T = T₁ ++ r :: T₂ ∧ r.tid = t ∧ r.Overwrites n ∧
      Traced lib reqs w₀ (T₁ ++ [r]) w₂ ∧ w₂.record n = some (m.view.stored lib) := by
  obtain ⟨r, hr, hrt, hcall⟩ := mem_localOf.mp hmem
  obtain ⟨T₁, T₂, rfl⟩ := List.append_of_mem hr
  obtain ⟨w₁, w₂, h₁, ha, hs, h₂, -⟩ := hT.at_event
  refine ⟨T₁, r, T₂, w₂, rfl, hrt, ⟨m, hname, hcall⟩, h₂, ?_⟩
  obtain ⟨t', o, res⟩ := r
  obtain ⟨rfl, hres⟩ := Call.mk.inj hcall
  obtain rfl := eq_of_heq hres
  obtain ⟨created, hrow⟩ := step_upsert_ok hs
  exact World.record_eq_some.mpr ⟨_, hname ▸ hrow, Machine.toRow_view⟩

/-- **A step of an isolated trace.** -/
theorem Traced.recordStep (hT : Traced lib reqs w₀ T w) (hiso : Isolated reqs n (T ++ [e]))
    (ha : Allowed lib (reqs e.tid) (localOf e.tid T) e.op)
    (hs : step lib e.op w e.res = some w') :
    RecordStep lib reqs T n e (w.record n) (w'.record n) := by
  rcases step_record ha hs with heq | hwrite
  · rw [heq]
    exact .same
  have hupsert : ∀ m, m.name = n → e.toCall = ⟨.upsert m, Except.ok ()⟩ →
      RecordStep lib reqs T n e (w.record n) (some (m.view.stored lib)) := by
    intro m hname hcall
    have hover : e.Overwrites n := ⟨m, hname, hcall⟩
    have hop : e.op = .upsert m := congrArg Call.op hcall
    by_cases hq : (reqs e.tid).kind = .redeploy
    · rw [hop] at ha
      cases ha with
      | read ho => cases ho
      | rewrite hq' => cases hq.symm.trans hq'
      | redeploy hq hunwritten =>
        exact .start (Or.inr (Or.inl ⟨hcall, hq⟩)) hname hunwritten
      | @attach name m₀ m' opts token expiresAt hq hread hattempts hstored honly =>
        -- the record that the request has stored is still there, and it has the same view
        have hname' : m'.name = n := hname
        obtain ⟨T₁, r, T₂, w₂, rfl, hr, hover', h₂, hrecord⟩ := hT.stored hname' hstored
        have hkept := hiso.record_eq (Or.inr hover') hover hr hT h₂
        rw [Machine.withHypervisorToken_view, hkept, hrecord]
        exact .same
    · have hkind : (reqs e.tid).kind = .report := by
        rw [hop] at ha
        cases ha with
        | read ho => cases ho
        | rewrite hq' => exact hq'
        | redeploy hq' | attach hq' => exact absurd hq' hq
      obtain ⟨k, m₀, T₁, T₂, w₁, w₂, hrw⟩ := hT.rewriting (hop ▸ ha) hq
      have hread := hiso.read hover hrw.read rfl hkind (hrw.rewrites.continues.name.symm.trans hname) hT
      have hfound := hiso.read hover hrw.found rfl hkind (hrw.name.trans hname) hT
      -- the record by which the machine was found is the same
      have hsame : k.attempt = m₀.attempt :=
        congrArg View.attempt (Option.mem_unique hfound hread)
      rw [hread]
      refine .rewrite rfl hrw.rewrites ?_
      rcases hrw.label with ⟨-, hlabel⟩ | ⟨-, hlabel⟩
      · exact Or.inl hlabel
      · rwa [hsame] at hlabel
  obtain ⟨t, o, r⟩ := e
  generalize hhost : w.db.hosts[n]? = host at hwrite
  generalize hx : w.record n = x at hwrite hupsert ⊢
  generalize hy : w'.record n = y at hwrite ⊢
  cases hwrite with
  | @commit h h' m host v hname hname' =>
    exact .start (Or.inl ⟨h, h', rfl⟩) hname' ha.of_commit.2.1
  | @upsert m host x hname hfence => exact hupsert m hname rfl
  | @swap before after host hname hattempt =>
    obtain ⟨-, -, hrewrites⟩ := ha.of_swap
    exact .rewrite (View.stored_stored) hrewrites (Or.inl hattempt)
  | @insert m host hname => exact .start (Or.inr (Or.inr rfl)) hname ha.of_insert.2.1
  | delete => exact .delete
  | unregister => exact .unregister

/-! ### Invariants of a record -/

/-- **The invariant rule for a record**: what holds of the record of machine `n` after `T₁`, and is
kept by every step of an isolated trace, holds at its end. -/
theorem Traced.record_invariant (hT : Traced lib reqs w₀ (T₁ ++ T₂) w)
    (hT₁ : Traced lib reqs w₀ T₁ w₁) (hiso : Isolated reqs n (T₁ ++ T₂))
    (h₁ : ∀ v, w₁.record n = some v → K v)
    (hstep : ∀ A e B w₂ x v, T₂ = A ++ e :: B → Traced lib reqs w₀ (T₁ ++ A ++ [e]) w₂ →
      RecordStep lib reqs (T₁ ++ A) n e x (some v) → (∀ u, x = some u → K u) → K v) :
    ∀ v, w.record n = some v → K v := by
  induction T₂ using List.reverseRecOn generalizing w with
  | nil =>
    rw [List.append_nil] at hT
    rw [hT.unique hT₁]
    exact h₁
  | append_singleton T₂ e ih =>
    rw [← List.append_assoc] at hT hiso
    obtain ⟨w₂, w₃, hT₂, ha, hs, hT₃, -⟩ := hT.at_event
    obtain rfl := hT₃.unique hT
    have hbefore := ih hT₂ hiso.initial_part fun A x B w₄ y v hsplit hTA hstep' hy =>
      hstep A x (B ++ [e]) w₄ y v (by rw [hsplit]; simp) hTA hstep' hy
    intro v hv
    refine hstep T₂ e [] w₃ (w₂.record n) v rfl hT₃ ?_ hbefore
    rw [← hv]
    exact Traced.recordStep hT₂ hiso ha hs

/-- What a property of records does not look at. -/
def Sealless (K : View → Prop) : Prop := ∀ v b, K v → K { v with sealedBootstrap := b }

theorem Sealless.stored (hK : Sealless K) (h : K v) : K (v.stored lib) :=
  hK v _ h

/-- A property of records that does not look at the envelope passes through a rewrite. -/
theorem Sealless.rewrite {K : View → Prop} (hK : Sealless K) {v : View} {m : Machine}
    (hstored : v.stored lib = m.view.stored lib) (h : K v) : K m.view := by
  have hm : K (m.view.stored lib) := hstored ▸ hK.stored h
  exact hK _ m.sealedBootstrap hm

theorem RecordStep.trimSpace_label {m m' : Machine} (hstored : v.stored lib = m.view.stored lib)
    (hlabel : m'.attempt = m.attempt ∨ m'.attempt = trimSpace m.attempt) :
    trimSpace (m'.view.stored lib).attempt = trimSpace v.attempt := by
  have hv : v.attempt = m.attempt := congrArg View.attempt hstored
  rw [View.stored_attempt, Machine.view_attempt, hv]
  rcases hlabel with hsame | hsame <;> simp [hsame]

/-- **What a rewrite keeps holds for the rest of an attempt**: a property of the record of an attempt
that every rewrite keeps holds of every later record of that attempt. -/
theorem Traced.attempt_kept (h₀ : w₀.LabelsDrawn) (hT : Traced lib reqs w₀ (T₁ ++ T₂) w)
    (hT₁ : Traced lib reqs w₀ T₁ w₁) (hiso : Isolated reqs n (T₁ ++ T₂)) (hseal : Sealless K)
    (hrewrites : ∀ q m m', Rewrites q m m' → K m.view → K m'.view) {v₁ v : View}
    (hv₁ : w₁.record n = some v₁) (hK : K v₁) (hv : w.record n = some v)
    (hlabel : trimSpace v.attempt = trimSpace v₁.attempt) : K v := by
  refine hT.record_invariant (K := fun v => trimSpace v.attempt = trimSpace v₁.attempt → K v) hT₁
    hiso ?_ ?_ v hv hlabel
  · intro u hu _
    obtain rfl := Option.mem_unique hv₁ hu
    exact hK
  intro A e B w₂ x u hsplit hTA hstep hx hu
  cases hstep with
  | same => exact hx u rfl hu
  | @start m x hstarts hname hunwritten =>
    -- a new attempt has another id
    have hne := hTA.fresh h₀ hstarts hunwritten (List.prefix_append T₁ A) hT₁ hv₁
    obtain ⟨bytes, -, htext, -⟩ := hTA.starts hstarts
    rw [View.stored_attempt, Machine.view_attempt, htext, trimSpace_attemptText] at hu
    exact absurd (hu.symm.trans htext.symm) hne
  | @rewrite v' m m' hstored hrw hlabel' =>
    rw [RecordStep.trimSpace_label hstored hlabel'] at hu
    exact hseal.stored (hrewrites _ _ _ hrw (hseal.rewrite hstored (hx v' rfl hu)))
  | @unregister v' => exact hseal _ none (hx v' rfl hu)

/-! ### Deciding isolation -/

/-- The record that an event wrote, whatever was stored. -/
def Event.upserted : Event Res → Option Machine
  | ⟨_, .upsert m, .ok _⟩ => some m
  | _ => none

/-- Whether an event wrote the whole record of machine `n`. -/
def Event.overwrites (n : String) (e : Event Res) : Bool := e.upserted.any (·.name = n)

/-- Whether an event read a record of machine `n`. -/
def Event.reads (n : String) : Event Res → Bool
  | ⟨_, .getMachine _, .ok m⟩ => m.name = n
  | ⟨_, .listMachines, .ok ms⟩ => ms.any (·.name = n)
  | _ => false

/-- Whether an event wrote the record of machine `n`. -/
def Event.stores (n : String) : Event Res → Bool
  | ⟨_, .commitDeployment _ m, .ok _⟩ => m.name = n
  | ⟨_, .upsert m, .ok _⟩ => m.name = n
  | ⟨_, .updateProvisioningAttempt before _, .ok true⟩ => before.name = n
  | ⟨_, .insertMachine m, .ok _⟩ => m.name = n
  | ⟨_, .deleteMachine name, .ok _⟩ => name = n
  | ⟨_, .unregister name _, .ok _⟩ => name = n
  | _ => false

theorem Event.upserted_eq_some :
    e.upserted = some m ↔ e.toCall = ⟨.upsert m, Except.ok ()⟩ := by
  obtain ⟨t, o, r⟩ := e
  constructor
  · intro h
    unfold upserted at h
    split at h
    · rename_i m' u heq
      obtain ⟨-, rfl, hr⟩ := mk.inj heq
      obtain rfl := eq_of_heq hr
      cases h
      rfl
    · cases h
  · intro hcall
    obtain ⟨rfl, hr⟩ := Call.mk.inj hcall
    obtain rfl := eq_of_heq hr
    rfl

theorem Event.overwrites_of (h : e.Overwrites n) : e.overwrites n = true := by
  obtain ⟨m, hname, hcall⟩ := h
  rw [overwrites, upserted_eq_some.mpr hcall]
  simpa using hname

theorem Event.reads_of (hname : m.name = n) (h : e.toCall.Reads m) : e.reads n = true := by
  obtain ⟨t, o, r⟩ := e
  rcases h with ⟨name, hcall⟩ | ⟨ms, hcall, hm⟩ <;> obtain ⟨rfl, hr⟩ := Call.mk.inj hcall <;>
    obtain rfl := eq_of_heq hr
  · simpa [reads] using hname
  · simpa [reads] using ⟨m, hm, hname⟩

theorem Event.stores_of (h : e.toCall.Stores n) : e.stores n = true := by
  obtain ⟨t, o, r⟩ := e
  cases h with
  | commit hname | upsert hname | swap hname | insert hname => simpa [stores] using hname
  | delete | unregister => simp [stores]

/-- Whether client `t` overwrites machine `n` only while nobody has written it. -/
def undisturbed (n : String) (t : ℕ) : Bool → List (Event Res) → Bool
  | _, [] => true
  | clean, e :: T =>
    (clean || !(e.tid = t && e.overwrites n)) && undisturbed n t (clean && !e.stores n) T

/-- A check for `Gomi.Isolated`. -/
def isolated (reqs : ℕ → Request) (n : String) : List (Event Res) → Bool
  | [] => true
  | r :: T =>
    (!(((reqs r.tid).kind = .report && r.reads n) || r.overwrites n) ||
      undisturbed n r.tid true T) && isolated reqs n T

theorem undisturbed_sound {clean : Bool} {A : List (Event Res)}
    (h : undisturbed n t clean (A ++ e :: T) = true) (htid : e.tid = t) (he : e.Overwrites n) :
    clean = true ∧ ∀ x ∈ A, ¬x.toCall.Stores n := by
  induction A generalizing clean with
  | nil =>
    simp only [List.nil_append, undisturbed, htid, overwrites_of he, Bool.and_eq_true] at h
    exact ⟨by simpa using h.1, by simp⟩
  | cons x A ih =>
    simp only [List.cons_append, undisturbed, Bool.and_eq_true] at h
    obtain ⟨hclean, hA⟩ := ih h.2
    simp only [Bool.and_eq_true, Bool.not_eq_true'] at hclean
    refine ⟨hclean.1, List.forall_mem_cons.mpr ⟨fun hx => ?_, hA⟩⟩
    exact absurd (stores_of hx) (by simp [hclean.2])

theorem isolated_sound (h : isolated reqs n T = true) : Isolated reqs n T := by
  induction T with
  | nil =>
    intro T₁ r A e T₂ hT
    exact absurd hT (by simp)
  | cons r₀ T ih =>
    simp only [isolated, Bool.and_eq_true, Bool.or_eq_true] at h
    intro T₁ r A e T₂ hT htid hr he
    cases T₁ with
    | nil =>
      obtain ⟨rfl, rfl⟩ := List.cons.inj hT
      have hgrounds : ((reqs r₀.tid).kind = .report && r₀.reads n || r₀.overwrites n) = true := by
        rcases hr with ⟨hq, m, hname, hm⟩ | hover
        · simp [hq, reads_of hname hm]
        · simp [overwrites_of hover]
      have hundisturbed := h.1.resolve_left (by simp [hgrounds])
      exact (undisturbed_sound hundisturbed htid.symm he).2
    | cons x T₁ =>
      obtain ⟨-, rfl⟩ := List.cons.inj hT
      exact ih h.2 T₁ r A e T₂ rfl htid hr he

/-- In a trace that is about one machine, it is enough to look at that machine. -/
theorem isolated_all (hnames : (T.all fun e => e.upserted.all (·.name = n)) = true)
    (h : isolated reqs n T = true) (k : String) : Isolated reqs k T := by
  rcases eq_or_ne k n with rfl | hne
  · exact isolated_sound h
  intro T₁ r A e T₂ hT _ _ he
  obtain ⟨m, hname, hcall⟩ := he
  have hmem : e ∈ T := by rw [hT]; simp
  have hall := List.all_eq_true.mp hnames e hmem
  rw [upserted_eq_some.mpr hcall] at hall
  exact absurd (hname.symm.trans (by simpa using hall)) hne

/-! ### One machine -/

/-- What follows an execution when the clients of a schedule go on undisturbed. -/
def proceed (schedule : List ℕ) :
    List (Event Res) × (ℕ → Prog Res (Option Response)) × World →
      Option (List (Event Res) × (ℕ → Prog Res (Option Response)) × World) :=
  play (step (Lib.sample [])) (schedule.map fun t => (t, World.answer (Lib.sample []) Query.silent))

/-- A system with one machine, which was never installed. -/
def World.single (lib : Lib) (m : Machine) : World :=
  { db := Database.empty.setMachine m.name (m.toRow lib 0) }

theorem World.single_record (h : (World.single lib m).record n = some v) :
    n = m.name ∧ v = m.view.stored lib := by
  obtain ⟨row, hrow, rfl⟩ := World.record_eq_some.mp h
  rw [World.single, Database.setMachine_machines] at hrow
  split at hrow
  · rename_i hname
    cases hrow
    exact ⟨hname.symm, Machine.toRow_view⟩
  · cases hrow

theorem World.single_labelsDrawn (hattempt : m.attempt = "") :
    (World.single lib m).LabelsDrawn := by
  intro n v b hv hb
  obtain ⟨-, rfl⟩ := World.single_record hv
  have hempty : trimSpace "" = "" := by decide
  rw [View.stored_attempt, Machine.view_attempt, hattempt, hempty] at hb
  exact absurd (congrArg String.toList hb.symm) (by simp [attemptText])

end Gomi
