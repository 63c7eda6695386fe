import Gomi.Accounts.Setup

/-!
# Changes of passwords

`ChangeMyPassword` reads an account, compares its password, and writes the whole account, with the
role that it has read. Hashing takes long, and an administrator who demotes the user meanwhile, or
who resets the password, is overruled (`Gomi.Accounts.demotion_undone`). The change is one of the
password that was checked if nobody stores the account between the read and the write
(`Gomi.Accounts.change_replaces_checked`).
-/

namespace Gomi.Accounts

open Go Prog

variable {b : Backend} {users users' users₀ : Table User} {n : String} {T : List (Event Res)}

/-- The user whose password a request changes. -/
def Request.changes : Request → Option String
  | .changeMyPassword user _ _ => user
  | _ => none

/-- The calls before the write of a `ChangeMyPassword`: the account was read, and the current password
has passed. -/
def checked (n : String) (stored : User) (current password hash : String) (now : Time) :
    List (Call Res) :=
  [⟨.getUser n, Except.ok stored⟩, ⟨.compareHashAndPassword stored.passwordHash current, true⟩,
    ⟨.generateFromPassword password, Except.ok hash⟩, ⟨.now, now⟩]

/-- **What a change writes**: the account that was read, with another password. -/
def Request.Writes (r : Request) (cs : List (Call Res)) (o : Op) : Prop :=
  ∀ n user, r.changes = some n → o = .upsertUser user → ∃ stored current password hash now,
    cs = checked n stored current password hash now ∧ user.username = trimSpace stored.username ∧
      user.role = stored.role

theorem changeMyPassword_obeys (user : Option String) (session : Bool)
    (body : Option (String × String)) : (changeMyPassword user session body).Obeys
      (Request.changeMyPassword user session body).Writes (fun _ _ => True) [] := by
  rcases user with _ | n
  · exact .pure trivial
  refine .ite (fun _ => .pure trivial) fun _ => ?_
  rcases body with _ | ⟨current, password⟩
  · exact .pure trivial
  refine .ite (fun _ => .pure trivial) fun _ => .ite (fun _ => .pure trivial) fun _ => ?_
  refine .perform_bind (fun _ _ _ => nofun) fun r => ?_
  rcases r with e | stored
  · exact .pure trivial
  refine .perform_bind (fun _ _ _ => nofun) fun (passes : Bool) => ?_
  refine .ite (fun _ => .pure trivial) fun hpasses => ?_
  obtain rfl : passes = true := by simpa using hpasses
  refine .bind (Q := fun _ _ => True) ?_ fun cs r _ _ => by cases r <;> exact .pure trivial
  refine .perform_bind (fun _ _ _ => nofun) fun r => ?_
  rcases r with e | hash
  · exact .pure trivial
  refine .perform_bind (fun _ _ _ => nofun) fun now => ?_
  refine .perform (o := Op.upsertUser _) ?_ fun _ => trivial
  rintro - - ⟨⟩ ⟨⟩
  exact ⟨stored, current, password, hash, now, rfl, rfl, rfl⟩

theorem Request.prog_writes (r : Request) : r.prog.Obeys r.Writes (fun _ _ => True) [] := by
  cases r with
  | changeMyPassword user session body =>
    exact (changeMyPassword_obeys user session body).bind fun _ _ _ _ => .pure trivial
  | _ => exact .of_forall (fun _ _ _ _ => nofun) fun _ _ => trivial

/-- The accounts are stored under their names. -/
def Keyed (users : Table User) : Prop :=
  ∀ (n : String) (user : User), users[n]? = some user → user.username = n

theorem Keyed.upsertUser (h : Keyed users) (user : User) : Keyed (b.upsertUser users user).2 := by
  intro n old hold
  rcases Table.insert_cases hold with ⟨rfl, rfl⟩ | ⟨-, hold⟩
  · unfold Backend.merge
    split <;> rfl
  · exact h n old hold

theorem Keyed.after (h : Keyed users) (hT : Gomi.after (step b) users T = some users') :
    Keyed users' :=
  after_keeps (fun o _ r _ hs hkeyed => by
    rcases step_cases (e := ⟨0, o, r⟩) hs with ⟨-, -, user, -, rfl⟩ | ⟨-, rfl⟩
    · exact hkeyed.upsertUser user
    · exact hkeyed) hT h

/-- If nobody stores an account, it stays as it is. -/
theorem row_after (h : after (step b) users T = some users') (hT : ∀ x ∈ T, ∀ user,
      x.toCall = ⟨.upsertUser user, Except.ok ()⟩ → user.username ≠ n) : users'[n]? = users[n]? := by
  induction T generalizing users with
  | nil => rw [Option.some.inj h]
  | cons x T ih =>
    obtain ⟨users₁, hx, hrest⟩ := after_cons_eq_some.mp h
    rw [ih hrest fun y hy => hT y (List.mem_cons_of_mem _ hy)]
    rcases step_cases hx with ⟨-, -, user, hcall, rfl⟩ | ⟨-, rfl⟩
    · rw [Backend.upsertUser, Table.get_insert, if_neg (hT x List.mem_cons_self user hcall)]
    · rfl

/-! ### What a change replaces -/

section Changes

variable (b : Backend) (reqs : ℕ → Request)

/-- **The change that is written at `e` replaces the password that it has checked, and only that**:
the stored account has the role that is written, and its hash is the one that was compared. -/
def ReplacesChecked (users₀ : Table User) (A : List (Event Res)) (e : Event Res) : Prop :=
  ∀ n user users, (reqs e.tid).changes = some n → e.toCall = ⟨.upsertUser user, Except.ok ()⟩ →
    after (step b) users₀ A = some users → ∃ old current, users[user.username]? = some old ∧
      user.role = old.role ∧ ⟨.compareHashAndPassword old.passwordHash current, true⟩ ∈ localOf e.tid A

/-- Whether an operation reads an account. -/
def reads : Op → Bool
  | .getUser _ => true
  | _ => false

/-- **The condition**: nobody stores the account between the read and the write of a change, and its
name has no space at its ends. -/
def Undisturbed (A : List (Event Res)) (e : Event Res) : Prop :=
  ∀ n, (reqs e.tid).changes = some n → stores e = true → trimSpace n = n ∧
    ∀ x ∈ since (madeBy e.tid reads) A, ∀ user,
      x.toCall = ⟨.upsertUser user, Except.ok ()⟩ → user.username ≠ n

variable {b reqs} in
/-- **A change that is not disturbed replaces the password that it has checked, and only that.** -/
theorem change_replaces_checked (c : ℕ → Prog Res Answer) (hkeyed : Keyed users₀)
    (hrun : Run (step b) (fun t => (reqs t).prog) users₀ T c users)
    (hquiet : EachStep (Undisturbed reqs) T) : EachStep (ReplacesChecked b reqs users₀) T := by
  rintro A e B rfl n user users₁ hn hcall hA
  obtain ⟨stored, current, password, hash, now, hcs, hname, hrole⟩ :=
    hrun.allowed (fun t => (reqs t).prog_writes) n user hn (congrArg Call.op hcall)
  -- the trace, cut where the account was read
  obtain ⟨A₁, e₁, hcut, -, hread, -⟩ := exists_since (q := reads)
    (show localOf e.tid A = [] ++ ⟨.getUser n, Except.ok stored⟩ :: _ from hcs) rfl (by simp [reads])
  obtain ⟨tid, op, res⟩ := e
  obtain ⟨tid₁, op₁, res₁⟩ := e₁
  cases hcall
  cases hread
  obtain ⟨htrim, hno⟩ := hquiet A _ B rfl n hn rfl
  rw [hcut] at hA
  obtain ⟨s₁, s₂, h₁, hstep, hrest⟩ := after_split hA
  have hreply : execute s₁ (getUser s₁ n, s₁) (.ok stored) = some s₂ := hstep
  obtain rfl := execute_reads hreply
  have hrow : s₂[n]? = some stored := by
    rcases execute_cases hreply with ⟨hres, -⟩ | ⟨⟨_, hres⟩, -⟩
    · unfold getUser at hres
      split at hres <;> cases hres
      assumption
    · cases hres
  have hsame : user.username = n := by rw [hname, hkeyed.after h₁ n stored hrow, htrim]
  refine ⟨stored, current, ?_, hrole, ?_⟩
  · rw [hsame, row_after hrest hno, hrow]
  · rw [hcs]
    exact List.mem_cons_of_mem _ List.mem_cons_self

end Changes

/-- Alice changes their password, and an administrator makes them a viewer. -/
def demotion : ℕ → Request
  | 0 => .changeMyPassword (some "alice") true (some ("secret", "new secret"))
  | 1 => .postUser (some ("alice", "secret", .viewer))
  | _ => .ensureBootstrapAdmin "" ""

/-- Alice is an administrator. -/
def aliceUsers : Table User :=
  (Backend.sql.upsertUser ∅ ⟨"alice", "hash of secret", .admin, 0⟩).2

theorem keyed_aliceUsers : Keyed aliceUsers := Keyed.upsertUser (fun _ _ h => by simp at h) _

/-- One after the other: the change replaces the password that was checked. -/
theorem change_before_demotion : ∃ T c users,
    Run (step .sql) (fun t => (demotion t).prog) aliceUsers T c users ∧
      (c 0).answer? = some (.response { status := 204 }) ∧
      EachStep (ReplacesChecked .sql demotion aliceUsers) T := by
  have heval : ((play (step .sql) ([0, 0, 0, 0, 0, 1, 1, 1].map fun t => (t, replies))
      ([], fun t => (demotion t).prog, aliceUsers)).any fun x =>
        decide ((x.2.1 0).answer? = some (.response { status := 204 })) &&
          eachStep (fun A e => e.tid != 0 || (since (madeBy e.tid reads) A).all (!stores ·)) [] x.1) =
        true := by
    decide
  obtain ⟨T, c, users, hrun, hcheck⟩ := exists_run_of_play heval
  obtain ⟨h₀, hquiet⟩ := Bool.and_eq_true_iff.mp hcheck
  refine ⟨T, c, users, hrun, of_decide_eq_true h₀, change_replaces_checked c keyed_aliceUsers hrun
    (EachStep.of_eval (fun A e hok n hn _ => ?_) hquiet)⟩
  obtain ⟨_ | _ | t, op, res⟩ := e <;> cases hn
  refine ⟨by decide, fun x hx user hcall => ?_⟩
  have hx := List.all_eq_true.mp hok x hx
  obtain ⟨tid, op, res⟩ := x
  cases hcall
  cases hx

/-- **The demotion of a user who is changing their password is undone.** -/
theorem demotion_undone : ∃ T c users,
    Run (step .sql) (fun t => (demotion t).prog) aliceUsers T c users ∧
      (c 1).answer? = some (.response created) ∧ users["alice"]?.any (·.role = .admin) = true ∧
      ¬EachStep (ReplacesChecked .sql demotion aliceUsers) T := by
  let user : User := ⟨"alice", "hash of new secret", .admin, 0⟩
  have heval : ((play (step .sql) ([0, 0, 1, 1, 1, 0, 0, 0].map fun t => (t, replies))
      ([], fun t => (demotion t).prog, aliceUsers)).any fun x =>
        decide ((x.2.1 1).answer? = some (.response created)) && (x.2.2["alice"]?.any (·.role = .admin) &&
          (decide (x.1[7]? = some ⟨0, .upsertUser user, Except.ok ()⟩) &&
            (after (step .sql) aliceUsers (x.1.take 7)).any fun users =>
              users["alice"]?.any (·.role = .viewer)))) = true := by
    decide
  obtain ⟨T, c, users, hrun, hcheck⟩ := exists_run_of_play heval
  simp only [Bool.and_eq_true, decide_eq_true_eq] at hcheck
  obtain ⟨h₁, hadmin, hwrite, hbefore⟩ := hcheck
  refine ⟨T, c, users, hrun, h₁, hadmin, fun h => ?_⟩
  obtain ⟨users₁, hafter, hviewer⟩ := (Option.any_eq_true _ _).mp hbefore
  obtain ⟨old, _, hold, hrole, -⟩ :=
    h _ _ _ (split_at_index hwrite) "alice" user users₁ rfl rfl hafter
  rw [show users₁["alice"]? = some old from hold, Option.any_some, ← hrole] at hviewer
  exact absurd hviewer (by decide)

end Gomi.Accounts
