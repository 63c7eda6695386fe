import Gomi.Record.Isolation

/-!
# Deleted machines

`Upsert` inserts a record that is not there. So a request that has read a machine before it
was deleted, and writes it afterwards, brings it back: `Gomi.machine_resurrected`. Nothing
else does. A commit, a compare-and-swap and the updates of single columns need a row, and
whoever writes a record has read one of that name (`Gomi.Allowed.upsert_reads`), which is
not there to be read. Hence `Gomi.deleted_not_resurrected`: if no request that has read the
machine before the deletion writes it afterwards, the machine is gone until one of that name
is created.
-/

namespace Gomi

variable {lib : Lib} {s : Server} {q : Request} {reqs : ℕ → Request} {w₀ w w' : World}
  {T T₁ T₂ : List (Event Res)} {d e : Event Res} {m : Machine} {n : String}
  {cs : List (Call Res)} {c : ℕ → Prog Res (Option Response)}

theorem ReinstallOptions.elim_name (opts : Option ReinstallOptions) (m : Machine) :
    (opts.elim m fun o => o.apply m).name = m.name := by
  cases opts with
  | none => rfl
  | some =>
    simp only [Option.elim_some, ReinstallOptions.apply, ReinstallOptions.applyCloudInit,
      ReinstallOptions.applyAddress, resetLinuxDeploymentForWindows]
    split <;> split <;> split <;> split <;> rfl

/-- **Whoever writes a record has read one of that name.** -/
theorem Allowed.upsert_reads (h : Allowed lib q cs (.upsert m)) :
    ∃ call ∈ cs, ∃ k, k.name = m.name ∧ call.Reads k := by
  cases h with
  | read ho => cases ho
  | rewrite hq hread hrewrites =>
    obtain ⟨call, hcall, hreads⟩ := hread
    exact ⟨call, hcall, _, hrewrites.continues.name.symm, hreads⟩
  | @redeploy name k m opts hq hunwritten hread hattempts =>
    obtain ⟨-, -, -, -, hname, -⟩ := hattempts.view
    exact ⟨_, hread, k, (hname.trans (ReinstallOptions.elim_name opts k)).symm, Or.inl ⟨_, rfl⟩⟩
  | @attach name k m' opts token expiresAt hq hread hattempts =>
    obtain ⟨-, -, -, -, hname, -⟩ := hattempts.view
    exact ⟨_, hread, k, (hname.trans (ReinstallOptions.elim_name opts k)).symm, Or.inl ⟨_, rfl⟩⟩

/-- The event inserted a machine of the name `n`. -/
def Event.Inserts (n : String) (e : Event Res) : Prop :=
  ∃ m, m.name = n ∧ e.toCall = ⟨.insertMachine m, Except.ok ()⟩

/-- The event read a record of machine `n`. -/
def Event.ReadsOf (n : String) (e : Event Res) : Prop := ∃ m, m.name = n ∧ e.toCall.Reads m

/-- **A step that brings a machine back**: it is created, or its record is written. -/
theorem step_appears (ha : Allowed lib (reqs e.tid) cs e.op) (hs : step lib e.op w e.res = some w')
    (hnone : w.record n = none) :
    w'.record n = none ∨ e.Inserts n ∨ e.Overwrites n := by
  rcases step_record ha hs with heq | hwrite
  · exact Or.inl (heq.trans hnone)
  obtain ⟨t, o, r⟩ := e
  generalize w.db.hosts[n]? = host at hwrite
  generalize w'.record n = y at hwrite ⊢
  generalize w.record n = x at hwrite hnone
  cases hwrite with
  | @upsert m host x hname _ => exact Or.inr (Or.inr ⟨m, hname, rfl⟩)
  | @insert m host hname => exact Or.inr (Or.inl ⟨m, hname, rfl⟩)
  | delete | commit | swap | unregister => cases hnone

/-- **A deleted machine is not resurrected.** In every run in which no request that has read machine
`n` before it was deleted writes its record afterwards: once the deletion is committed there is no
such machine until one is created. -/
theorem deleted_not_resurrected
    (hrun : Run (step lib) (fun t => (reqs t).prog lib s) w₀ (T₁ ++ d :: T₂) c w)
    (hdelete : d.toCall = ⟨.deleteMachine n, Except.ok ()⟩)
    (hstale : ∀ r ∈ T₁, r.ReadsOf n → ∀ x ∈ T₂, x.Overwrites n → x.tid ≠ r.tid)
    (hinsert : ∀ x ∈ T₂, ¬x.Inserts n) : w.db.machines[n]? = none := by
  suffices hnone : w.record n = none by simpa [World.record] using hnone
  have hT := hrun.traced
  clear hrun
  -- the invariant speaks of every part of the trace, so that reads after the deletion find nothing
  refine Traced.invariant (I := fun T w => ∀ T₂, T = T₁ ++ d :: T₂ →
    (∀ r ∈ T₁, r.ReadsOf n → ∀ x ∈ T₂, x.Overwrites n → x.tid ≠ r.tid) →
    (∀ x ∈ T₂, ¬x.Inserts n) → w.record n = none) hT ?_ ?_ T₂ rfl hstale hinsert
  · exact fun T₂ h => absurd h (by simp)
  clear hT hstale hinsert
  intro T e w w' hT ih ha hs hT' T₂ hsplit hstale hinsert
  rcases List.eq_nil_or_concat T₂ with rfl | ⟨T₂, e', rfl⟩
  · -- the deletion itself
    obtain ⟨rfl, he⟩ := List.append_inj' hsplit rfl
    obtain rfl : e = d := by simpa using he
    obtain ⟨t, o, r⟩ := e
    obtain ⟨rfl, hr⟩ := Call.mk.inj hdelete
    obtain rfl := eq_of_heq hr
    rw [World.record, step_deleteMachine_ok hs]
    rfl
  have hsplit' : T ++ [e] = (T₁ ++ d :: T₂) ++ [e'] := by simpa using hsplit
  obtain ⟨rfl, he⟩ := List.append_inj' hsplit' rfl
  cases he
  have hbefore : ∀ A B w₁, T₂ = A ++ B → Traced lib reqs w₀ (T₁ ++ d :: A) w₁ →
      w₁.record n = none := by
    intro A B w₁ hA hTA
    refine ih (T₁ ++ d :: A) B w₁ (by rw [hA]; simp) hTA A rfl ?_ ?_
    · exact fun r hr hreads x hx => hstale r hr hreads x (by simp [hA, hx])
    · exact fun x hx => hinsert x (by simp [hA, hx])
  rcases step_appears ha hs (hbefore T₂ [] w (by simp) hT) with hnone | hins | hover
  · exact hnone
  · exact absurd hins (hinsert e (by simp))
  -- whoever writes the record has read it: before the deletion, or never
  obtain ⟨m, hname, hcall⟩ := hover
  rw [show e.op = .upsert m from congrArg Call.op hcall] at ha
  obtain ⟨call, hmem, k, hk, hreads⟩ := ha.upsert_reads
  obtain ⟨r, hr, hrt, rfl⟩ := mem_localOf.mp hmem
  rcases List.mem_append.mp hr with hr | hr
  · exact absurd hrt.symm (hstale r hr ⟨k, hk.trans hname, hreads⟩ e (by simp) ⟨m, hname, hcall⟩)
  rcases List.mem_cons.mp hr with rfl | hr
  · rw [hdelete] at hreads
    rcases hreads with ⟨name, h⟩ | ⟨ms, h, -⟩ <;> exact absurd (congrArg Call.op h) (by simp)
  · obtain ⟨A, B, hA⟩ := List.append_of_mem hr
    have hTr : Traced lib reqs w₀ ((T₁ ++ d :: A) ++ r :: B) w := by simpa [hA] using hT
    obtain ⟨w₁, w₂, hTA, -, hs', -, -⟩ := hTr.at_event
    have hfound := hreads.record hs'
    rw [hk, hname, hbefore A (r :: B) w₁ hA hTA] at hfound
    cases hfound

/-! ### A change of settings -/

/-- The deletion of machine `m1`, and two changes of its settings. -/
def deletedRequests : ℕ → Request
  | 0 => .deleteMachine "m1" true
  | _ => .settings "m1" (some { type := .manual })

/-- An execution of a schedule of `Gomi.deletedRequests`. -/
def deletedRun (schedule : List ℕ) :=
  proceed schedule ([], fun t => (deletedRequests t).prog (Lib.sample []) {},
    World.single (Lib.sample []) (Machine.sample "m1"))

/-- Whether an event inserted a machine of the name `n`. -/
def Event.inserts (n : String) : Event Res → Bool
  | ⟨_, .insertMachine m, .ok _⟩ => m.name = n
  | _ => false

theorem Event.inserts_of (h : e.Inserts n) : e.inserts n = true := by
  obtain ⟨t, o, r⟩ := e
  obtain ⟨m, hname, hcall⟩ := h
  obtain ⟨rfl, hr⟩ := Call.mk.inj hcall
  obtain rfl := eq_of_heq hr
  simpa [Event.inserts] using hname

theorem not_inserts_of_all (h : (T.all fun e => !e.inserts n) = true) : ∀ x ∈ T, ¬x.Inserts n := by
  intro x hx hins
  exact absurd (Event.inserts_of hins) (by simpa using List.all_eq_true.mp h x hx)

/-- The settings are read before the deletion, which is step 7, and written after it. -/
theorem deletedRun_raced :
    ((deletedRun (List.replicate 3 1 ++ List.replicate 5 0 ++ List.replicate 2 1)).any fun x =>
      x.1[7]? = some ⟨0, .deleteMachine "m1", Except.ok ()⟩ && (x.1.all fun e => !e.inserts "m1") &&
        x.2.2.db.machines["m1"]?.isSome) = true := by
  decide

/-- Some settings are written before the deletion, which is step 9, the others find nothing. -/
theorem deletedRun_settled :
    ((deletedRun (List.replicate 5 1 ++ List.replicate 5 0 ++ List.replicate 2 2)).any fun x =>
      x.1[9]? = some ⟨0, .deleteMachine "m1", Except.ok ()⟩ && (x.1.all fun e => !e.inserts "m1") &&
        ((x.1.drop 10).all fun e => !e.overwrites "m1") && !(x.1.drop 10).isEmpty) = true := by
  decide

/-- The settings of machine `m1` are read, the machine is deleted, and the settings are written: the
machine is back, and nobody has created one. -/
theorem machine_resurrected :
    ∃ (T₁ T₂ : List (Event Res)) (d : Event Res) (c : ℕ → Prog Res (Option Response)) (w : World),
      Run (step (Lib.sample [])) (fun t => (deletedRequests t).prog (Lib.sample []) {})
        (World.single (Lib.sample []) (Machine.sample "m1")) (T₁ ++ d :: T₂) c w ∧
      d.toCall = ⟨.deleteMachine "m1", Except.ok ()⟩ ∧ (∀ x ∈ T₂, ¬x.Inserts "m1") ∧
      ∃ row, w.db.machines["m1"]? = some row := by
  obtain ⟨T, c, w, hrun, hcheck⟩ := exists_run_of_play deletedRun_raced
  simp only [Bool.and_eq_true, decide_eq_true_eq] at hcheck
  obtain ⟨⟨he, hnone⟩, hback⟩ := hcheck
  rw [split_at_index he] at hrun
  refine ⟨_, _, _, c, w, hrun, rfl, fun x hx => not_inserts_of_all hnone x ?_,
    Option.isSome_iff_exists.mp hback⟩
  exact List.mem_of_mem_drop hx

/-- Settings that are changed before and after the deletion do not bring the machine back. -/
theorem deleted_not_resurrected_settled :
    ∃ (T₁ T₂ : List (Event Res)) (d : Event Res) (c : ℕ → Prog Res (Option Response)) (w : World),
      Run (step (Lib.sample [])) (fun t => (deletedRequests t).prog (Lib.sample []) {})
        (World.single (Lib.sample []) (Machine.sample "m1")) (T₁ ++ d :: T₂) c w ∧
      d.toCall = ⟨.deleteMachine "m1", Except.ok ()⟩ ∧ T₂ ≠ [] ∧
      (∀ r ∈ T₁, r.ReadsOf "m1" → ∀ x ∈ T₂, x.Overwrites "m1" → x.tid ≠ r.tid) ∧
      (∀ x ∈ T₂, ¬x.Inserts "m1") ∧ w.db.machines["m1"]? = none := by
  obtain ⟨T, c, w, hrun, hcheck⟩ := exists_run_of_play deletedRun_settled
  simp only [Bool.and_eq_true, decide_eq_true_eq] at hcheck
  obtain ⟨⟨⟨he, hnone⟩, hquiet⟩, hne⟩ := hcheck
  rw [split_at_index he] at hrun
  have hstale : ∀ r ∈ T.take 9, r.ReadsOf "m1" → ∀ x ∈ T.drop 10, x.Overwrites "m1" →
      x.tid ≠ r.tid := by
    intro r _ _ x hx hover
    exact absurd (Event.overwrites_of hover) (by simpa using List.all_eq_true.mp hquiet x hx)
  have hinsert : ∀ x ∈ T.drop 10, ¬x.Inserts "m1" :=
    fun x hx => not_inserts_of_all hnone x (List.mem_of_mem_drop hx)
  exact ⟨T.take 9, T.drop 10, ⟨0, .deleteMachine "m1", Except.ok ()⟩, c, w, hrun, rfl,
    by simpa using hne, hstale, hinsert, deleted_not_resurrected hrun rfl hstale hinsert⟩

end Gomi
