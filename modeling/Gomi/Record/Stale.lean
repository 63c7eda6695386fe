import Gomi.Record.Isolation

/-!
# Stale attempts

A redeployment replaces the attempt of a machine by a new one. Nothing keeps a request that
has read the old record from writing it back: `Gomi.redeploy_undone` is a run in which a
change of settings does so, and `Gomi.token_crossed` one in which an inventory writes the old
attempt id next to the new completion token.

Where rewrites are isolated, neither happens. An attempt that was replaced is never stored
again (`Gomi.replaced_not_restored`), and the attempt id and the completion token of a
record were drawn by one request (`Gomi.attempt_token_paired`). In every run they identify the
request that started the installation (`Gomi.starts_identified`).
-/

namespace Gomi

open Go

variable {lib : Lib} {s : Server} {reqs : ℕ → Request} {w₀ w w' w₁ : World}
  {T T₁ T₂ : List (Event Res)} {e e' : Event Res} {m m' : Machine} {n : String}
  {c : ℕ → Prog Res (Option Response)}

/-! ### Replaced attempts -/

/-- **A replaced attempt is not restored.** In every run in which the rewrites of machine `n` are
isolated: once a redeployment has stored its attempt, no record that is stored later has an attempt
that it replaced. -/
theorem replaced_not_restored (h₀ : w₀.LabelsDrawn)
    (hrun : Run (step lib) (fun t => (reqs t).prog lib s) w₀ (T₁ ++ e :: T₂) c w)
    (hiso : Isolated reqs n (T₁ ++ e :: T₂))
    (hq : ∃ wildcard actor body, reqs e.tid = .machineMethod wildcard actor body)
    (hcall : e.toCall = ⟨.upsert m, Except.ok ()⟩) (hname : m.name = n)
    {T₀ : List (Event Res)} {c₀ : ℕ → Prog Res (Option Response)} {v₀ v : View} (hpre : T₀ <+: T₁)
    (hrun₀ : Run (step lib) (fun t => (reqs t).prog lib s) w₀ T₀ c₀ w₁)
    (hv₀ : w₁.record n = some v₀) (hne : v₀.attempt ≠ m.attempt) (hv : w.record n = some v) :
    v.attempt ≠ v₀.attempt := by
  have hT := hrun.traced
  have hkind : (reqs e.tid).kind = .redeploy := by
    obtain ⟨wildcard, actor, body, hq⟩ := hq
    rw [hq]
    rfl
  -- what the redeployment stores has an attempt id without white space
  obtain ⟨bytes, -, htext, -⟩ := hT.starts (m := m) (Or.inr (Or.inl ⟨hcall, hkind⟩))
  obtain ⟨w₂, w₃, hT₂, -, hs, hT₃, -⟩ := hT.at_event
  have hrecord : w₃.record n = some (m.view.stored lib) := by
    obtain ⟨t, o, r⟩ := e
    obtain ⟨rfl, hr⟩ := Call.mk.inj hcall
    obtain rfl := eq_of_heq hr
    obtain ⟨created, hrow⟩ := step_upsert_ok hs
    exact World.record_eq_some.mpr ⟨_, hname ▸ hrow, Machine.toRow_view⟩
  have hsplit : T₁ ++ e :: T₂ = T₁ ++ [e] ++ T₂ := by simp
  rw [hsplit] at hT hiso
  refine (hT.record_invariant
    (K := fun v => v.attempt ≠ v₀.attempt ∧ trimSpace v.attempt = v.attempt) hT₃ hiso
    ?_ ?_ v hv).1
  · intro u hu
    obtain rfl := Option.mem_unique hrecord hu
    rw [View.stored_attempt, Machine.view_attempt]
    exact ⟨hne.symm, by rw [htext, trimSpace_attemptText]⟩
  intro A x B w₄ y u _ hTA hstep hy
  cases hstep with
  | same => exact hy u rfl
  | @start m' y hstarts _ hunwritten =>
    obtain ⟨bytes', -, htext', -⟩ := hTA.starts hstarts
    have hfresh := hTA.fresh h₀ hstarts hunwritten
      (hpre.trans (by rw [List.append_assoc]; exact List.prefix_append ..)) hrun₀.traced hv₀
    have htrim : trimSpace m'.attempt = m'.attempt := by rw [htext', trimSpace_attemptText]
    rw [View.stored_attempt, Machine.view_attempt]
    refine ⟨fun heq => hfresh ?_, htrim⟩
    rw [← heq, htrim]
  | @rewrite u' k m' hstored _ hlabel =>
    obtain ⟨hne', htrim⟩ := hy u' rfl
    have hk : u'.attempt = k.attempt := congrArg View.attempt hstored
    rw [hk] at hne' htrim
    have hsame : m'.attempt = k.attempt := by
      rcases hlabel with hsame | hsame
      · exact hsame
      · exact hsame.trans htrim
    rw [View.stored_attempt, Machine.view_attempt, hsame]
    exact ⟨hne', htrim⟩
  | @unregister u' => exact hy u' rfl

/-- A change of settings, and two redeployments of one machine. -/
def staleRequests : ℕ → Request
  | 0 => .settings "m1" (some { type := .manual })
  | _ => .machineMethod "m1:redeploy" "admin" (some {})

/-- An execution of a schedule of `Gomi.staleRequests`. -/
def staleRun (schedule : List ℕ) :=
  proceed schedule ([], fun t => (staleRequests t).prog (Lib.sample []) {},
    World.single (Lib.sample []) (Machine.sample "m1"))

/-- After the first redeployment the settings are read before the second one, which stores its attempt
in step 16, and written after it. -/
theorem staleRun_raced :
    ((staleRun (List.replicate 7 1)).any fun x => x.1.length = 7 &&
      (proceed (List.replicate 3 0 ++ List.replicate 7 2 ++ List.replicate 2 0) x).any fun y =>
        y.2.2.db.hosts["m1"]?.isNone && y.1[16]?.any fun e => e.tid = 2 ∧
          e.upserted.any fun m => m.name = "m1" ∧ (x.2.2.record "m1").any fun v₀ =>
            v₀.attempt ≠ m.attempt ∧ (y.2.2.record "m1").any fun v =>
              v.attempt = v₀.attempt) = true := by
  decide +kernel

/-- After the first redeployment the settings are read and written after the second one, which stores
its attempt in step 13. -/
theorem staleRun_settled :
    ((staleRun (List.replicate 7 1)).any fun x => x.1.length = 7 &&
      (proceed (List.replicate 7 2 ++ List.replicate 5 0) x).any fun y =>
        isolated staleRequests "m1" y.1 && y.1[13]?.any fun e => e.tid = 2 ∧
          e.upserted.any fun m => m.name = "m1" ∧ (x.2.2.record "m1").any fun v₀ =>
            v₀.attempt ≠ m.attempt ∧ (y.2.2.record "m1").isSome) = true := by
  decide +kernel

/-- The settings of machine `m1` are read, the machine is redeployed, and the settings are written:
the attempt that was replaced is stored again. -/
theorem redeploy_undone :
    ∃ (T₀ T₁ T₂ : List (Event Res)) (e : Event Res) (m : Machine)
      (c₀ c : ℕ → Prog Res (Option Response)) (w₁ w : World) (v₀ v : View),
      Run (step (Lib.sample [])) (fun t => (staleRequests t).prog (Lib.sample []) {})
        (World.single (Lib.sample []) (Machine.sample "m1")) (T₁ ++ e :: T₂) c w ∧
      staleRequests e.tid = .machineMethod "m1:redeploy" "admin" (some {}) ∧
      e.toCall = ⟨.upsert m, Except.ok ()⟩ ∧ m.name = "m1" ∧ w.db.hosts["m1"]? = none ∧ T₀ <+: T₁ ∧
      Run (step (Lib.sample [])) (fun t => (staleRequests t).prog (Lib.sample []) {})
        (World.single (Lib.sample []) (Machine.sample "m1")) T₀ c₀ w₁ ∧
      w₁.record "m1" = some v₀ ∧ v₀.attempt ≠ m.attempt ∧ w.record "m1" = some v ∧
      v.attempt = v₀.attempt := by
  obtain ⟨T₀, c₀, w₁, T', c, w, hfirst, hlen, hrun, hcheck⟩ := exists_runs_of_play staleRun_raced
  simp only [Bool.and_eq_true, Option.any_eq_true, decide_eq_true_eq] at hlen hcheck
  obtain ⟨hhost, e, he, htid, m, hm, hname, v₀, hv₀, hne, v, hv, hsame⟩ := hcheck
  have hpre : T₀ <+: (T₀ ++ T').take 16 :=
    List.prefix_take_iff.mpr ⟨List.prefix_append _ _, by omega⟩
  rw [split_at_index he] at hrun
  exact ⟨T₀, _, _, e, m, c₀, c, w₁, w, v₀, v, hrun, by rw [htid]; rfl, Event.upserted_eq_some.mp hm,
    hname, Option.isNone_iff_eq_none.mp hhost, hpre, hfirst, hv₀, hne, hv, hsame⟩

/-- The settings of machine `m1` are read and written after the machine was redeployed twice: they
keep the second attempt. -/
theorem replaced_not_restored_settled :
    ∃ (T₀ T₁ T₂ : List (Event Res)) (e : Event Res) (m : Machine) (v₀ v : View)
      (c₀ c : ℕ → Prog Res (Option Response)) (w₁ w : World),
      Run (step (Lib.sample [])) (fun t => (staleRequests t).prog (Lib.sample []) {})
        (World.single (Lib.sample []) (Machine.sample "m1")) (T₁ ++ e :: T₂) c w ∧
      Isolated staleRequests "m1" (T₁ ++ e :: T₂) ∧
      staleRequests e.tid = .machineMethod "m1:redeploy" "admin" (some {}) ∧
      e.toCall = ⟨.upsert m, Except.ok ()⟩ ∧ m.name = "m1" ∧ T₀ <+: T₁ ∧
      Run (step (Lib.sample [])) (fun t => (staleRequests t).prog (Lib.sample []) {})
        (World.single (Lib.sample []) (Machine.sample "m1")) T₀ c₀ w₁ ∧
      w₁.record "m1" = some v₀ ∧ v₀.attempt ≠ m.attempt ∧ w.record "m1" = some v ∧
      v.attempt ≠ v₀.attempt := by
  obtain ⟨T₀, c₀, w₁, T', c, w, hfirst, hlen, hrun, hcheck⟩ := exists_runs_of_play staleRun_settled
  simp only [Bool.and_eq_true, Option.any_eq_true, decide_eq_true_eq, Option.isSome_iff_exists] at hlen hcheck
  obtain ⟨hiso, e, he, htid, m, hm, hname, v₀, hv₀, hne, v, hv⟩ := hcheck
  have hiso := isolated_sound hiso
  have hcall := Event.upserted_eq_some.mp hm
  have hpre : T₀ <+: (T₀ ++ T').take 13 :=
    List.prefix_take_iff.mpr ⟨List.prefix_append _ _, by omega⟩
  rw [split_at_index he] at hrun hiso
  have hredeploy : staleRequests e.tid = .machineMethod "m1:redeploy" "admin" (some {}) := by
    rw [htid]
    rfl
  exact ⟨T₀, _, _, e, m, v₀, v, c₀, c, w₁, w, hrun, hiso, hredeploy, hcall, hname, hpre, hfirst, hv₀,
    hne, hv, replaced_not_restored (World.single_labelsDrawn rfl) hrun hiso ⟨_, _, _, hredeploy⟩ hcall
      hname hpre hfirst hv₀ hne hv⟩

/-! ### Attempt ids and completion tokens -/

/-- What a start stores. -/
theorem Event.Starts.stores_eq (he : e.Starts reqs m) : e.op.stores = some m := by
  rcases he with ⟨h, h', hcall⟩ | ⟨hcall, -⟩ | hcall
  · rw [show e.op = .commitDeployment h m from congrArg Call.op hcall]
    rfl
  · rw [show e.op = .upsert m from congrArg Call.op hcall]
    rfl
  · rw [show e.op = .insertMachine m from congrArg Call.op hcall]
    rfl

/-- A request that has started an installation writes no other one. -/
theorem Event.Starts.same {cs : List (Call Res)} (he : e.Starts reqs m)
    (ha : Allowed lib (reqs e.tid) cs e.op) {call : Call Res} (hcall : call ∈ cs)
    (hstores : call.op.stores = some m') : m.attempt = m'.attempt ∧ m.token = m'.token := by
  have hwritten : ¬Unwritten cs := fun h => absurd (hstores.symm.trans (h call hcall)) (by simp)
  rcases he with ⟨h, h', heq⟩ | ⟨heq, hkind⟩ | heq
  · rw [show e.op = .commitDeployment h m from congrArg Call.op heq] at ha
    exact absurd ha.of_commit.2.1 hwritten
  · rw [show e.op = .upsert m from congrArg Call.op heq] at ha
    cases ha with
    | read ho => cases ho
    | rewrite hq => cases hkind.symm.trans hq
    | redeploy _ hunwritten => exact absurd hunwritten hwritten
    | @attach name m₀ k opts token expiresAt _ _ _ _ honly =>
      -- the second write of a redeployment is the first one with a registration token
      have hk : k = m' := by
        rcases honly call hcall with hnone | hsome
        · cases hstores.symm.trans hnone
        · exact Option.mem_unique hsome hstores
      subst hk
      have hview := k.withHypervisorToken_view token expiresAt
      exact ⟨congrArg View.attempt hview, congrArg View.token hview⟩
  · rw [show e.op = .insertMachine m from congrArg Call.op heq] at ha
    exact absurd ha.of_insert.2.1 hwritten

/-- **A request starts one installation.** -/
theorem Traced.starts_once (hT : Traced lib reqs w₀ T w) (he : e ∈ T) (he' : e' ∈ T)
    (hstarts : e.Starts reqs m) (hstarts' : e'.Starts reqs m') (htid : e.tid = e'.tid) :
    m.attempt = m'.attempt ∧ m.token = m'.token := by
  obtain ⟨A, B, rfl⟩ := List.append_of_mem he
  rcases List.mem_append.mp he' with hA | hB
  · have hlocal : e'.toCall ∈ localOf e.tid A := mem_localOf.mpr ⟨e', hA, htid.symm, rfl⟩
    exact hstarts.same (hT.allowed A e B rfl) hlocal hstarts'.stores_eq
  rcases List.mem_cons.mp hB with rfl | hB
  · have hm : m = m' := Option.mem_unique hstarts.stores_eq hstarts'.stores_eq
    rw [hm]
    exact ⟨rfl, rfl⟩
  · obtain ⟨C, D, rfl⟩ := List.append_of_mem hB
    have hlocal : e.toCall ∈ localOf e'.tid (A ++ e :: C) :=
      mem_localOf.mpr ⟨e, by simp, htid, rfl⟩
    obtain ⟨hattempt, htoken⟩ :=
      hstarts'.same (hT.allowed (A ++ e :: C) e' D (by simp)) hlocal hstarts.stores_eq
    exact ⟨hattempt.symm, htoken.symm⟩

/-- The attempt id and the completion token of a record were stored by one start, of one machine. -/
def Paired (reqs : ℕ → Request) (T : List (Event Res)) (n : String) (v : View) : Prop :=
  ∃ e ∈ T, ∃ m, e.Starts reqs m ∧ m.name = n ∧ v.attempt = m.attempt ∧ v.token = m.token

theorem Paired.mono {v : View} (h : Paired reqs T₁ n v) (hpre : T₁ <+: T) : Paired reqs T n v := by
  obtain ⟨e, he, hm⟩ := h
  exact ⟨e, hpre.subset he, hm⟩

/-- The bytes of a pair were drawn by one request. -/
theorem Paired.drawn {v : View} (hT : Traced lib reqs w₀ T w) (h : Paired reqs T n v) :
    ∃ t bytes tokenBytes, (reqs t).kind ≠ .report ∧ v.attempt = attemptText bytes ∧
      v.token = hexEncode tokenBytes ∧ (∃ e ∈ T, e.tid = t ∧ e.Draws bytes) ∧
      ∃ e ∈ T, e.tid = t ∧ e.Draws tokenBytes := by
  obtain ⟨e, he, m, hstarts, -, hattempt, htoken⟩ := h
  obtain ⟨A, B, rfl⟩ := List.append_of_mem he
  obtain ⟨bytes, tokenBytes, htext, htokenText, ⟨d, hd, hdraws⟩, d', hd', hdraws'⟩ :=
    hT.starts hstarts
  refine ⟨e.tid, bytes, tokenBytes, ?_, hattempt.trans htext, htoken.trans htokenText,
    ⟨d, List.mem_append_left _ hd, hdraws⟩, d', List.mem_append_left _ hd', hdraws'⟩
  have ha := hT.allowed A e B rfl
  rcases hstarts with ⟨h, h', hcall⟩ | ⟨-, hkind⟩ | hcall
  · rw [show e.op = .commitDeployment h m from congrArg Call.op hcall] at ha
    rw [ha.of_commit.1]
    decide
  · rw [hkind]
    decide
  · rw [show e.op = .insertMachine m from congrArg Call.op hcall] at ha
    rw [ha.of_insert.1]
    decide

/-- Every record of an isolated trace that starts without machines is paired. -/
theorem Traced.paired (hempty : ∀ n, w₀.record n = none) (hT : Traced lib reqs w₀ T w)
    (hiso : Isolated reqs n T) {v : View} (hv : w.record n = some v) : Paired reqs T n v := by
  have hT₀ : Traced lib reqs w₀ [] w₀ := ⟨rfl, fun A e B h => absurd h (by simp)⟩
  have hT' : Traced lib reqs w₀ ([] ++ T) w := hT
  refine Traced.record_invariant (K := Paired reqs T n) hT' hT₀ hiso ?_ ?_ v hv
  · intro u hu
    exact absurd ((hempty n).symm.trans hu) (by simp)
  intro A e B w₂ x u hsplit hTA hstep hx
  have hpre : [] ++ A ++ [e] <+: T := ⟨B, by rw [hsplit]; simp⟩
  cases hstep with
  | same => exact hx u rfl
  | @start m x hstarts hname _ =>
    exact ⟨e, hpre.subset (by simp), m, hstarts, hname, rfl, rfl⟩
  | @rewrite v m m' hstored hrewrites hlabel =>
    obtain ⟨e', he', k, hstarts, hname, hattempt, htoken⟩ := hx v rfl
    refine ⟨e', he', k, hstarts, hname, ?_, ?_⟩
    · -- an attempt id has no white space to be trimmed
      obtain ⟨P, Q, rfl⟩ := List.append_of_mem he'
      obtain ⟨bytes, -, htext, -⟩ := hT.starts hstarts
      have hm : m.attempt = k.attempt := (congrArg View.attempt hstored).symm.trans hattempt
      rw [View.stored_attempt, Machine.view_attempt]
      rcases hlabel with hsame | hsame
      · exact hsame.trans hm
      · rw [hsame, hm, htext, trimSpace_attemptText]
    · have hm : m.token = k.token := (congrArg View.token hstored).symm.trans htoken
      exact hrewrites.continues.token.trans hm
  | @unregister v => exact hx v rfl

/-- **Attempt id and completion token stay paired.** In every run from a system without machines in
which all rewrites are isolated: the attempt id and the completion token of a stored record were
drawn and stored by one creation, redeployment or claim; and wherever and whenever a record has the
same token, it has the same attempt id. -/
theorem attempt_token_paired (hempty : ∀ n, w₀.record n = none)
    (hrun : Run (step lib) (fun t => (reqs t).prog lib s) w₀ T c w)
    (hiso : ∀ n, Isolated reqs n T) {v : View} (hv : w.record n = some v) :
    Paired reqs T n v ∧
      (∃ t bytes tokenBytes, (reqs t).kind ≠ .report ∧ v.attempt = attemptText bytes ∧
        v.token = hexEncode tokenBytes ∧ (∃ e ∈ T, e.tid = t ∧ e.Draws bytes) ∧
        ∃ e ∈ T, e.tid = t ∧ e.Draws tokenBytes) ∧
      ∀ T' c' w' n' v', T' <+: T → Run (step lib) (fun t => (reqs t).prog lib s) w₀ T' c' w' →
        w'.record n' = some v' → v'.token = v.token → v'.attempt = v.attempt := by
  have hT := hrun.traced
  have hpaired := hT.paired hempty (hiso n) hv
  refine ⟨hpaired, hpaired.drawn hT, fun T' c' w' n' v' hpre hrun' hv' htoken => ?_⟩
  obtain ⟨R, rfl⟩ := hpre
  have hpaired' : Paired reqs (T' ++ R) n' v' :=
    (hrun'.traced.paired hempty (hiso n').initial_part hv').mono (List.prefix_append ..)
  obtain ⟨e', he', m', hstarts', -, hattempt', htoken'⟩ := hpaired'
  obtain ⟨e, he, m, hstarts, -, hattempt, htok⟩ := hpaired
  -- equal tokens were drawn by one request, and that has started one installation
  have htid : e'.tid = e.tid := by
    obtain ⟨A, B, hA⟩ := List.append_of_mem he'
    obtain ⟨C, D, hC⟩ := List.append_of_mem he
    obtain ⟨-, b', -, hb', -, d', hd', hdtid', hdraws'⟩ := (hA ▸ hT).starts hstarts'
    obtain ⟨-, b, -, hb, -, d, hd, hdtid, hdraws⟩ := (hC ▸ hT).starts hstarts
    have hbytes : b' = b := hexEncode_injective (by rw [← hb', ← hb, ← htoken', ← htok, htoken])
    subst hbytes
    have hdT' : d' ∈ T' ++ R := hA ▸ List.mem_append_left _ hd'
    have hdT : d ∈ T' ++ R := hC ▸ List.mem_append_left _ hd
    rw [← hdtid', ← hdtid]
    exact randomSource.drawer_unique hT.after_eq hdT' hdT hdraws' hdraws
  rw [hattempt', hattempt]
  exact (hT.starts_once he' he hstarts' hstarts htid).1

/-- The creation of a machine, a redeployment of it, and an inventory that it sends with the token
of its creation. -/
def crossedRequests : ℕ → Request
  | 0 => .createMachine "" (some (.record
      { Machine.sample "m1" with osPreset := { family := "ubuntu", version := "24.04" } }))
  | 1 => .machineMethod "m1:redeploy" "admin" (some {})
  | _ => .inventory (hexEncode (List.replicate 32 0)) true

/-- An execution of a schedule of `Gomi.crossedRequests`. -/
def crossedRun (schedule : List ℕ) :=
  proceed schedule ([], fun t => (crossedRequests t).prog (Lib.sample []) {}, { db := Database.empty })

/-- The inventory finds the machine before it is redeployed, and reads its record afterwards. -/
theorem crossedRun_raced :
    ((crossedRun (List.replicate 5 0 ++ List.replicate 7 2 ++ List.replicate 7 1 ++
      List.replicate 5 2)).any fun x =>
        x.1.any (· = ⟨0, .rand 16, Except.ok (List.replicate 16 1)⟩) &&
          x.1.any (· = ⟨1, .rand 32, Except.ok (List.replicate 32 2)⟩) &&
            (x.2.2.record "m1").any fun v => v.attempt = attemptText (List.replicate 16 1) ∧
              v.token = hexEncode (List.replicate 32 2)) = true := by
  decide +kernel

/-- The inventory is over before the machine is redeployed. -/
theorem crossedRun_settled :
    ((crossedRun (List.replicate 5 0 ++ List.replicate 12 2 ++ List.replicate 7 1)).any fun x =>
      (x.1.all fun e => e.upserted.all (·.name = "m1")) && isolated crossedRequests "m1" x.1 &&
        (x.2.2.record "m1").any fun v => v.attempt = attemptText (List.replicate 16 3)) = true := by
  decide +kernel

theorem Database.empty_record (n : String) : ({ db := Database.empty } : World).record n = none := by
  simp [World.record, Database.empty]

/-- An inventory that has found its machine by the token of the creation writes that attempt id next
to the token of the redeployment: the pair was drawn by two requests. -/
theorem token_crossed :
    ∃ (T : List (Event Res)) (c : ℕ → Prog Res (Option Response)) (w : World) (v : View)
      (bytes tokenBytes : List UInt8),
      Run (step (Lib.sample [])) (fun t => (crossedRequests t).prog (Lib.sample []) {})
        { db := Database.empty } T c w ∧
      w.record "m1" = some v ∧ v.attempt = attemptText bytes ∧ v.token = hexEncode tokenBytes ∧
      ⟨0, .rand 16, Except.ok bytes⟩ ∈ T ∧ ⟨1, .rand 32, Except.ok tokenBytes⟩ ∈ T ∧
      ¬Paired crossedRequests T "m1" v := by
  obtain ⟨T, c, w, hrun, hcheck⟩ := exists_run_of_play crossedRun_raced
  simp only [Bool.and_eq_true, Option.any_eq_true, List.any_eq_true, decide_eq_true_eq] at hcheck
  obtain ⟨⟨⟨_, hdrawn, rfl⟩, _, hdrawn', rfl⟩, v, hv, hattempt, htoken⟩ := hcheck
  refine ⟨_, _, _, v, _, _, hrun, hv, hattempt, htoken, hdrawn, hdrawn', fun hpaired => ?_⟩
  -- the two buffers were drawn by the two requests
  obtain ⟨t, bytes, tokenBytes, -, hb, htb, ⟨d, hd, hdt, hdraws⟩, d', hd', hdt', hdraws'⟩ :=
    hpaired.drawn hrun.traced
  obtain rfl := attemptText_injective (hattempt.symm.trans hb)
  obtain rfl := hexEncode_injective (htoken.symm.trans htb)
  have hzero : t = 0 :=
    hdt.symm.trans (randomSource.drawer_unique hrun.after_eq hd hdrawn hdraws ⟨16, rfl⟩)
  have hone : t = 1 :=
    hdt'.symm.trans (randomSource.drawer_unique hrun.after_eq hd' hdrawn' hdraws' ⟨32, rfl⟩)
  omega

/-- A creation, an inventory and a redeployment, one after the other. -/
theorem attempt_token_paired_settled :
    ∃ (T : List (Event Res)) (w : World) (v : View), (∀ n, Isolated crossedRequests n T) ∧
      w.record "m1" = some v ∧ v.attempt = attemptText (List.replicate 16 3) ∧
      Paired crossedRequests T "m1" v := by
  obtain ⟨T, c, w, hrun, hcheck⟩ := exists_run_of_play crossedRun_settled
  obtain ⟨hall, hrecord⟩ := Bool.and_eq_true_iff.mp hcheck
  have hiso := isolated_all (Bool.and_eq_true_iff.mp hall).1 (Bool.and_eq_true_iff.mp hall).2
  simp only [Option.any_eq_true, decide_eq_true_eq] at hrecord
  obtain ⟨v, hv, hattempt⟩ := hrecord
  exact ⟨T, w, v, hiso, hv, hattempt,
    (attempt_token_paired Database.empty_record hrun hiso hv).1⟩

/-! ### Who started an installation -/

/-- **An attempt id identifies the request that started the installation**, and so does a completion
token. -/
theorem starts_identified (hrun : Run (step lib) (fun t => (reqs t).prog lib s) w₀ T c w)
    (he : e ∈ T) (he' : e' ∈ T) (hstarts : e.Starts reqs m) (hstarts' : e'.Starts reqs m') :
    (m.attempt = m'.attempt ↔ e.tid = e'.tid) ∧ (m.token = m'.token ↔ e.tid = e'.tid) := by
  have hT := hrun.traced
  have hdrawn : ∀ {e m}, e ∈ T → e.Starts reqs m → ∃ b k, m.attempt = attemptText b ∧
      m.token = hexEncode k ∧ (∃ d ∈ T, d.tid = e.tid ∧ d.Draws b) ∧
      ∃ d ∈ T, d.tid = e.tid ∧ d.Draws k := by
    intro e m he hstarts
    obtain ⟨A, B, rfl⟩ := List.append_of_mem he
    obtain ⟨b, k, hb, hk, ⟨d, hd, hdraws⟩, f, hf, hfdraws⟩ := hT.starts hstarts
    exact ⟨b, k, hb, hk, ⟨d, List.mem_append_left _ hd, hdraws⟩, f, List.mem_append_left _ hf, hfdraws⟩
  obtain ⟨b, k, hb, hk, ⟨d, hd, htid, hdraws⟩, f, hf, hftid, hfdraws⟩ := hdrawn he hstarts
  obtain ⟨b', k', hb', hk', ⟨d', hd', htid', hdraws'⟩, f', hf', hftid', hfdraws'⟩ :=
    hdrawn he' hstarts'
  have hone := hT.starts_once he he' hstarts hstarts'
  rw [hb, hb', hk, hk', attemptText_injective.eq_iff, hexEncode_injective.eq_iff] at hone ⊢
  -- no buffer is drawn by two clients
  refine ⟨⟨?_, fun h => (hone h).1⟩, ?_, fun h => (hone h).2⟩
  · rintro rfl
    rw [← htid, ← htid', randomSource.drawer_unique hT.after_eq hd hd' hdraws hdraws']
  · rintro rfl
    rw [← hftid, ← hftid', randomSource.drawer_unique hT.after_eq hf hf' hfdraws hfdraws']

theorem staleRun_redeployed : ((staleRun (List.replicate 7 1 ++ List.replicate 7 2)).any fun x =>
    x.1[6]?.any fun e => e.tid = 1 ∧ e.upserted.any fun m => x.1[13]?.any fun e' => e'.tid = 2 ∧
      e'.upserted.any fun m' => m.name = m'.name) = true := by
  decide +kernel

/-- Two redeployments of machine `m1` have nothing in common. -/
theorem starts_identified_redeployed : ∃ (e e' : Event Res) (m m' : Machine),
    e.Starts staleRequests m ∧ e'.Starts staleRequests m' ∧ m.name = m'.name ∧
      m.attempt ≠ m'.attempt ∧ m.token ≠ m'.token := by
  obtain ⟨T, c, w, hrun, hcheck⟩ := exists_run_of_play staleRun_redeployed
  simp only [Option.any_eq_true, decide_eq_true_eq] at hcheck
  obtain ⟨e, he, htid, m, hm, e', he', htid', m', hm', hname⟩ := hcheck
  have hstarts : ∀ {e : Event Res} {t : ℕ} {m : Machine}, e.tid = t + 1 → e.upserted = some m →
      e.Starts staleRequests m := fun htid hm =>
    Or.inr (Or.inl ⟨Event.upserted_eq_some.mp hm, by rw [htid]; rfl⟩)
  have hboth := starts_identified hrun (List.mem_of_getElem? he) (List.mem_of_getElem? he')
    (hstarts htid hm) (hstarts htid' hm')
  rw [htid, htid'] at hboth
  exact ⟨e, e', m, m', hstarts htid hm, hstarts htid' hm', hname, by simpa using hboth⟩

end Gomi
