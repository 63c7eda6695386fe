import Gomi.Api.Redeploy
import Gomi.Store.Writes

/-!
# The enrolment guard and the dispatcher of custom methods

`internal/infra/api/baremetal.go`, `custom_methods.go` and `resource.go`: a request
`POST /machines/NAME:METHOD` passes the middleware `protectAllocatedMachine`, which
rejects requests for enrolled machines, and is then taken apart by
`DispatchMachineCustomMethod`. Both read the name from the same wildcard, the guard up to
the *first* colon and the dispatcher up to the *last*. Nothing keeps a colon out of the
name of a machine, and for such a name the guard asks about another machine:
`Gomi.guard_dispatch_agree` says that the two agree on exactly the names without a
colon.
-/

namespace Gomi

open Go

variable (lib : Lib) (s : Server)

/-! ### The dispatcher -/

/-- `splitCustomMethod`. -/
def splitCustomMethod (path : String) : Option (String × String) :=
  match splitLast path ':' with
  | none => none
  | some (name, method) => if name = "" ∨ method = "" then none else some (name, method)

/-- `DispatchMachineCustomMethod`, on the wildcard of the route. -/
def dispatchMachineCustomMethod (wildcard actor : String) (body : Option RedeployReq) :
    Prog Res Response :=
  match splitCustomMethod wildcard with
  | some (name, "redeploy") => redeployMachine lib s name actor body
  | some (name, "reinstall") => reinstallMachine lib s name actor body
  | some (name, "powerOn") => runPowerAction name .powerOn
  | some (name, "powerOff") => runPowerAction name .powerOff
  | _ => return .failed 404 "custom method not found"

/-! ### The guard -/

/-- What `protectAllocatedMachine` decides on, for the parameter `name` of the route and its
wildcard: `none` lets the request through. -/
def allocationGuard (name wildcard : String) : Prog Res (Option Response) := do
  if !s.bareMetal then return none else
  -- a route without a name has the wildcard
  if name = "" ∧ ((cut wildcard ':').2.1 = "powerOn" ∨ (cut wildcard ':').2.1 = "powerOff") then
    return none
  else
  match ← Client.getHost (if name = "" then (cut wildcard ':').1 else name) with
  | .error .hostNotFound => return none
  | .error e => return some (bareMetalError e)
  | .ok _ =>
    return some (.failed 409
      "machine is enrolled in bare-metal management; use its ownership workflow")

/-- `protectAllocatedMachine`. -/
def protectAllocatedMachine (name wildcard : String) (next : Prog Res Response) :
    Prog Res Response := do
  match ← allocationGuard s name wildcard with
  | some r => return r
  | none => next

/-- The route `POST /machines/*`. -/
def postMachineCustomMethod (wildcard actor : String) (body : Option RedeployReq) :
    Prog Res Response :=
  protectAllocatedMachine s "" wildcard (dispatchMachineCustomMethod lib s wildcard actor body)

/-! ### What the guard lets through -/

variable {lib s}

/-- The guard lets a request through in the state `w`: it can get replies, each possible in that
state, after which it passes the request on. -/
def LetThrough (lib : Lib) (s : Server) (wildcard : String) (w : World) : Prop :=
  ∃ cs, (allocationGuard s "" wildcard).Path cs (.ret none) ∧
    ∀ c ∈ cs, (step lib c.op w c.res).isSome

theorem getHost_reply {w : World} {name : String} :
    (step lib (.getHost name) w (Except.error .hostNotFound)).isSome ↔ w.db.hosts[name]? = none := by
  constructor
  · intro h
    obtain ⟨w', hw⟩ := Option.isSome_iff_exists.mp h
    rcases execute_eq_some hw with ⟨hr, -⟩ | ⟨⟨t, ht⟩, -⟩
    · unfold getHost at hr
      split at hr
      · cases hr
      · assumption
    · cases ht
  · intro h
    have hreply : (Except.error .hostNotFound : Except Err Host) = (getHost name w.db).1 := by
      simp [getHost, h]
    simp only [step, World.execute]
    rw [if_pos hreply]
    rfl

/-- **What the guard decides**: a request that is not for a power action is let through exactly if
the name before the first colon is not enrolled. -/
theorem letThrough_iff {wildcard : String} {w : World} (hs : s.bareMetal = true)
    (hmethod : (cut wildcard ':').2.1 ≠ "powerOn" ∧ (cut wildcard ':').2.1 ≠ "powerOff") :
    LetThrough lib s wildcard w ↔ w.db.hosts[(cut wildcard ':').1]? = none := by
  have hguard : allocationGuard s "" wildcard =
      .call (Op.getHost (cut wildcard ':').1) fun (r : Except Err Host) => match r with
        | .error .hostNotFound => .ret none
        | .error e => .ret (some (bareMetalError e))
        | .ok _ => .ret (some (.failed 409
            "machine is enrolled in bare-metal management; use its ownership workflow")) := by
    unfold allocationGuard
    rw [if_neg (by simp [hs]), if_neg (by tauto), if_pos rfl]
    refine congrArg (Prog.call _) (funext fun r => ?_)
    rcases r with (_ | _ | _ | _ | _ | _) | _ <;> rfl
  unfold LetThrough
  rw [hguard]
  constructor
  · rintro ⟨cs, hpath, hcs⟩
    obtain ⟨r, cs', rfl, hrest⟩ := hpath.call_ret
    -- only one of the replies leads to a pass
    have hr : r = (Except.error .hostNotFound : Except Err Host) := by
      rcases r with (_ | _ | _ | _ | _ | _) | _ <;> first
        | rfl
        | cases hrest
    subst hr
    exact getHost_reply.mp (hcs _ List.mem_cons_self)
  · intro h
    refine ⟨[⟨.getHost (cut wildcard ':').1, Except.error .hostNotFound⟩], .cons (.nil _), ?_⟩
    intro c hc
    obtain rfl := List.mem_singleton.mp hc
    exact getHost_reply.mpr h

/-! ### The two parsers -/

theorem splitCustomMethod_eq_some {path n method : String}
    (h : splitCustomMethod path = some (n, method)) :
    splitLast path ':' = some (n, method) ∧ n ≠ "" ∧ method ≠ "" := by
  unfold splitCustomMethod at h
  split at h
  · cases h
  · rename_i name meth hsplit
    split at h
    · cases h
    · rename_i hne
      obtain ⟨rfl, rfl⟩ : name = n ∧ meth = method := by simpa using h
      push Not at hne
      exact ⟨hsplit, hne⟩

/-- What follows the first colon ends in the method, and is longer if the name has a colon. -/
theorem cut_of_split {path n method : String} (h : splitLast path ':' = some (n, method)) :
    (':' ∉ n.toList ∧ cut path ':' = (n, method, true)) ∨
      (':' ∈ n.toList ∧ ':' ∈ (cut path ':').2.1.toList ∧ (cut path ':').1 ≠ n) := by
  obtain ⟨hs, -⟩ := splitLast_eq_some.mp h
  by_cases hn : ':' ∈ n.toList
  · refine Or.inr ⟨hn, ?_, fun heq => (cut_splitLast h).mp heq hn⟩
    obtain ⟨a, b, hab, ha⟩ := List.eq_append_cons_of_mem hn
    have hs' : path.toList = (String.ofList a).toList ++
        ':' :: (String.ofList (b ++ ':' :: method.toList)).toList := by simp [hs, hab]
    rw [cut_eq hs' (by simpa using ha)]
    simp
  · exact Or.inl ⟨hn, cut_eq hs hn⟩

/-- **The guard and the dispatcher agree on exactly the names without a colon.** For a request
that the dispatcher takes to `RedeployMachine` or `ReinstallMachine` of machine `n`: if `n` has
no colon, the guard has read the same name and the same method, and has let the request through
only if `n` is not enrolled; if it has one, the guard has read another name, and there are
enrolled hosts `n` that it lets through. -/
theorem guard_dispatch_agree {path n method : String} (hs : s.bareMetal = true)
    (hsplit : splitCustomMethod path = some (n, method))
    (hmethod : method = "redeploy" ∨ method = "reinstall") :
    ((∀ w, LetThrough lib s path w → w.db.hosts[n]? = none) ↔ ':' ∉ n.toList) ∧
      (((cut path ':').1 = n ∧ (cut path ':').2.1 = method) ↔ ':' ∉ n.toList) := by
  obtain ⟨hlast, -, -⟩ := splitCustomMethod_eq_some hsplit
  rcases cut_of_split hlast with ⟨hn, hcut⟩ | ⟨hn, hrest, hname⟩
  · have hpower : (cut path ':').2.1 ≠ "powerOn" ∧ (cut path ':').2.1 ≠ "powerOff" := by
      rw [hcut]
      rcases hmethod with rfl | rfl <;> exact ⟨by simp, by simp⟩
    refine ⟨iff_of_true (fun w hw => ?_) hn, iff_of_true (by simp [hcut]) hn⟩
    have hfree := (letThrough_iff hs hpower).mp hw
    rwa [hcut] at hfree
  · -- the guard reads a method with a colon, which is no power action
    have hpower : (cut path ':').2.1 ≠ "powerOn" ∧ (cut path ':').2.1 ≠ "powerOff" :=
      ⟨fun h => absurd (h ▸ hrest) (by decide), fun h => absurd (h ▸ hrest) (by decide)⟩
    refine ⟨iff_of_false (fun hall => ?_) (not_not.mpr hn),
      iff_of_false (fun h => hname h.1) (not_not.mpr hn)⟩
    -- a database in which `n` is enrolled, and nothing else
    let db := (insertHost n "pool" "" "" (Database.empty.setMachine n {})).2
    have henrolled : ∀ k, db.hosts[k]? = none ↔ k ≠ n := by
      intro k
      have hm : (Database.empty.setMachine n {}).machines[n]?.isSome := by
        simp [Database.setMachine_machines]
      simp only [db, insertHost]
      rw [if_neg (by simp [Database.empty]), dif_pos hm]
      simp only [Database.enroll_hosts]
      split
      · rename_i h
        simp [h]
      · rename_i h
        simp [Database.empty, Ne.symm h]
    have hthrough : LetThrough lib s path { db } :=
      (letThrough_iff hs hpower).mpr ((henrolled _).mpr hname)
    exact (henrolled n).mp (hall _ hthrough) rfl

/-! ### A name with a colon -/

/-- A database in which the machine `a:b` is enrolled. -/
def colonDatabase : Database :=
  (insertHost "a:b" "pool" sampleKey "/dev/sda"
    (Database.empty.setMachine "a:b" ((Machine.sample "a:b").toRow (Lib.sample []) 0))).2

/-- A redeployment of `a:b`, run to its end. -/
def colonRun : Option (List (Event Res) × (ℕ → Prog Res Response) × World) :=
  play (step (Lib.sample []))
    (List.replicate 7 (0, World.answer (Lib.sample []) Query.silent))
    ([], fun _ => postMachineCustomMethod (Lib.sample []) {} "a:b:redeploy" "admin" (some {}),
      { db := colonDatabase })

theorem colonRun_isSome : colonRun.isSome = true := by decide

/-- The machine `a:b` has a name that `ValidateMachine` accepts and it is enrolled; yet the guard
lets its redeployment through, and the run ends with an installation of it. -/
theorem guard_dispatch_agree_colon :
    splitCustomMethod "a:b:redeploy" = some ("a:b", "redeploy") ∧
      validateMachine (Machine.sample "a:b") = .ok () ∧
      (∃ r, colonDatabase.hosts["a:b"]? = some r ∧ r.state = .available) ∧
      LetThrough (Lib.sample []) {} "a:b:redeploy" { db := colonDatabase } ∧
      ∃ T c w, Run (step (Lib.sample []))
        (fun _ => postMachineCustomMethod (Lib.sample []) {} "a:b:redeploy" "admin" (some {}))
        { db := colonDatabase } T c w ∧
        (∃ a, c 0 = .ret a ∧ a.status = 202) ∧
        w.db.hosts["a:b"]? = colonDatabase.hosts["a:b"]? ∧
        ∃ row, w.db.machines["a:b"]? = some row ∧ row.status.provision.any (·.active) = true := by
  refine ⟨by decide, by decide, ?_, ?_, ?_⟩
  · have h : colonDatabase.hosts["a:b"]? =
        some { pool := "pool", publicKey := sampleKey, targetDisk := "/dev/sda" } := by
      decide +kernel
    exact ⟨_, h, rfl⟩
  · refine (letThrough_iff rfl (by decide)).mpr ?_
    decide
  · refine ⟨_, _, _, run_of_play (Option.some_get colonRun_isSome).symm, ?_, by decide +kernel, ?_⟩
    · have h : (((colonRun.get colonRun_isSome).2.1 0).answer?.any (·.status = 202)) = true := by
        decide
      obtain ⟨a, ha, hstatus⟩ := (Option.any_eq_true _ _).mp h
      exact ⟨a, Prog.answer?_eq_some.mp ha, of_decide_eq_true hstatus⟩
    · have h : ((colonRun.get colonRun_isSome).2.2.db.machines["a:b"]?.any fun row =>
          row.status.provision.any (·.active)) = true := by decide
      exact (Option.any_eq_true _ _).mp h

/-- A name without a colon. -/
theorem guard_dispatch_agree_plain :
    splitCustomMethod "node-1:redeploy" = some ("node-1", "redeploy") ∧
      ((∀ w, LetThrough (Lib.sample []) {} "node-1:redeploy" w → w.db.hosts["node-1"]? = none) ↔
        ':' ∉ "node-1".toList) ∧
      (((cut "node-1:redeploy" ':').1 = "node-1" ∧
        (cut "node-1:redeploy" ':').2.1 = "redeploy") ↔ ':' ∉ "node-1".toList) :=
  ⟨by decide, guard_dispatch_agree rfl (by decide) (Or.inl rfl)⟩

end Gomi
