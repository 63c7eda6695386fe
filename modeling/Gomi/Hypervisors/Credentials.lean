import Gomi.Hypervisors.Service
import Gomi.Interleaving.Since
import Gomi.Vm.Writes

/-!
# The credentials of a hypervisor follow its record

An agent token is meant to be the only one of its hypervisor – *any existing tokens for the
hypervisor are deleted first* – and to be gone when the hypervisor is deleted. Both are true of
requests that come one after the other. But a token is issued in three calls, the record is
looked up, the old tokens are deleted and the new one is created, and whatever happens in
between is not noticed: two requests that both delete and then both create leave two tokens, and
a record or a token that is written by a request which has read the record before it was deleted
outlives it. The same becomes of a deletion of the tokens that fails, since nobody looks at
that error.

A token is valid if the middleware lets its bearer in (`Gomi.Hypervisors.valid_of_agent`).
`Gomi.Hypervisors.Careful` is the condition that none of this happens at a step of a run, and
`Gomi.Hypervisors.credentials_follow` says that it is all that is missing.
-/

namespace Gomi.Hypervisors

open Vm (Hypervisor)

variable {reqs : ℕ → Request} {w₀ w w' w₁ : World} {T T₁ T₂ A B M : List (Event Res)}
  {e d : Event Res} {n : String}
variable {c : Call Res} {g : Hypervisor} {wiped : Except Err Unit} {t : ℕ}

/-! ### Who is let in -/

/-- The middleware lets a request in as an agent only if it has found its token. -/
theorem authMiddleware_obeys {authorization : String} :
    (authMiddleware authorization).Obeys (fun _ _ => True)
      (fun cs answer => ∀ user, answer = .ok (user, .agent) → ∃ t : AgentToken,
        ⟨.getByToken (Go.trimSpace (Go.cut authorization ' ').2.1), Except.ok t⟩ ∈ cs ∧
        user.username = "agent:" ++ t.hypervisorName) [] := by
  unfold authMiddleware
  refine .ite (fun _ => .pure (by simp)) fun _ => ?_
  refine .perform_bind trivial fun (session : Except Err User) => ?_
  cases session with
  | ok user => exact .pure (by simp)
  | error e =>
  refine .perform_bind trivial fun (found : Except Err AgentToken) => ?_
  cases found with
  | ok t =>
    refine .pure fun user huser => ⟨t, by simp, ?_⟩
    cases huser
    rfl
  | error e =>
  refine .perform_bind trivial fun (account : Except Err (String × String)) => ?_
  cases account with
  | ok account => exact .pure (by simp)
  | error e => exact .pure (by simp)

/-- **Who is let in as the agent of a hypervisor has a valid token of it**, at the moment at which the
middleware looks it up, whatever else is going on. -/
theorem valid_of_agent {authorization : String} {user : User} (hT : after step w₀ T = some w)
    (hpath : Prog.Path (authMiddleware authorization) (localOf t T) (.ret (.ok (user, .agent)))) :
    ∃ A e B w₁ n, T = A ++ e :: B ∧ after step w₀ A = some w₁ ∧ user.username = "agent:" ++ n ∧
      w₁.Valid n (Go.trimSpace (Go.cut authorization ' ').2.1) := by
  obtain ⟨token, hmem, huser⟩ := authMiddleware_obeys.of_path_ret hpath user rfl
  obtain ⟨e, he, -, hcall⟩ := mem_localOf.mp hmem
  obtain ⟨A, B, rfl⟩ := List.append_of_mem he
  obtain ⟨w₁, w₂, hA, hs, -⟩ := after_split hT
  obtain ⟨tid, o, r⟩ := e
  obtain ⟨rfl, hr⟩ := Call.mk.inj hcall
  obtain rfl := eq_of_heq hr
  exact ⟨A, _, B, w₁, token.hypervisorName, rfl, hA, huser, step_getByToken hs⟩

/-! ### What a call has done -/

/-- The hypervisor whose record a call has deleted. -/
def removedRow : Call Res → Option String
  | ⟨.vm (.deleteHypervisor n), .ok _⟩ => some n
  | _ => none

/-- The hypervisor whose record a call has written. -/
def writtenRow : Call Res → Option String
  | ⟨.vm (.upsertHypervisor h), .ok _⟩ => some h.name
  | _ => none

/-- The hypervisor that a call has created an agent token of. -/
def createdToken : Call Res → Option String
  | ⟨.createAgentToken t, .ok _⟩ => some t.hypervisorName
  | _ => none

/-- The hypervisor whose agent tokens a call has failed to delete. -/
def failedWipe : Call Res → Option String
  | ⟨.deleteByHypervisor n, .error _⟩ => some n
  | _ => none

theorem removedRow_eq_some (h : removedRow c = some n) :
    c = ⟨.vm (.deleteHypervisor n), (.ok () : Except Err Unit)⟩ := by
  unfold removedRow at h
  split at h
  · rw [Option.some.inj h]
  · cases h

theorem writtenRow_eq_some (h : writtenRow c = some n) :
    ∃ g : Hypervisor, g.name = n ∧
      c = ⟨.vm (.upsertHypervisor g), (.ok () : Except Err Unit)⟩ := by
  unfold writtenRow at h
  split at h
  · exact ⟨_, Option.some.inj h, rfl⟩
  · cases h

theorem createdToken_eq_some (h : createdToken c = some n) :
    ∃ t : AgentToken, t.hypervisorName = n ∧
      c = ⟨.createAgentToken t, (.ok () : Except Err Unit)⟩ := by
  unfold createdToken at h
  split at h
  · exact ⟨_, Option.some.inj h, rfl⟩
  · cases h

/-- Whether an operation looks up hypervisor `n`. -/
def isGet (n : String) (o : Op) : Bool := o = .vm (.getHypervisor n)

/-- Whether an operation deletes the agent tokens of hypervisor `n`. -/
def isWipe (n : String) (o : Op) : Bool := o = .deleteByHypervisor n

/-! ### Steps -/

theorem step_removed
    (h : step (.vm (.deleteHypervisor n)) w (Except.ok () : Except Err Unit) = some w') :
    w'.vm.db.hypervisors[n]? = none := by
  obtain ⟨hr, hw⟩ := Vm.execute_ok (step_vm h).1
  rw [hw]
  cases hrow : w.vm.db.hypervisors[n]? with
  | none => exact absurd hr (by simp [Vm.deleteHypervisor, hrow])
  | some => simp [Vm.deleteHypervisor, hrow]

/-- A record that was found was there, under the name it was looked up by. -/
theorem step_found {m : String}
    (h : step (.vm (.getHypervisor m)) w (Except.ok g : Except Err Hypervisor) = some w') :
    w.vm.db.hypervisors[m]?.isSome = true ∧ g.name = m := by
  obtain ⟨hr, -⟩ := Vm.execute_ok (step_vm h).1
  cases hrow : w.vm.db.hypervisors[m]? with
  | none => exact absurd hr (by simp [Vm.getHypervisor, hrow])
  | some row =>
    have hg : { row with name := m } = g := by simpa [Vm.getHypervisor, hrow] using hr
    rw [← hg]
    exact ⟨rfl, rfl⟩

/-- A record that was not there is there after a step only if it was written. -/
theorem step_absent {o : Op} {r : Res o} (h : step o w r = some w')
    (hw : w.vm.db.hypervisors[n]?.isSome = false) (hnot : writtenRow ⟨o, r⟩ ≠ some n) :
    w'.vm.db.hypervisors[n]?.isSome = false := by
  cases o with
  | vm o =>
    rcases Vm.step_hypervisor (step_vm h).1 n with heq | ⟨g, rfl, hcall, -⟩ | ⟨-, hgone⟩
    · rw [heq, hw]
    · have hlift : (⟨.vm o, r⟩ : Call Res) =
          ⟨.vm (.upsertHypervisor g), (.ok () : Except Err Unit)⟩ :=
        congrArg (fun c : Call Vm.Res => (⟨.vm c.op, c.res⟩ : Call Res)) hcall
      exact absurd (by rw [hlift]; rfl) hnot
    · exact hgone
  | _ => rw [step_vm_eq h fun _ => by simp, hw]

/-! ### The condition -/

/-- **The condition on a step of a run**, for hypervisor `n`. A token of it is created, and its status
is written, only if its record has not been deleted since the request has looked it up; a token
of it is created only if no other one has been created since the request has deleted the old ones;
and no deletion of its tokens fails. -/
structure Careful (reqs : ℕ → Request) (n : String) (T : List (Event Res)) (e : Event Res) : Prop where
  /-- What is written was read after the last deletion of the record. -/
  fresh : createdToken e.toCall = some n ∨
      (writtenRow e.toCall = some n ∧ (reqs e.tid).registers = false) →
    ∀ x ∈ since (madeBy e.tid (isGet n)) T, removedRow x.toCall ≠ some n
  /-- Two tokens are not issued at a time. -/
  alone : createdToken e.toCall = some n →
    ∀ x ∈ since (madeBy e.tid (isWipe n)) T, createdToken x.toCall ≠ some n
  /-- The old tokens are deleted. -/
  wiped : failedWipe e.toCall ≠ some n

/-- At a careful step the tokens are deleted, if that is what it does. -/
theorem wiped_ok (h : Careful reqs n T e) (he : e.toCall = ⟨.deleteByHypervisor n, wiped⟩) :
    wiped = .ok () := by
  have hgood := h.wiped
  rw [he] at hgood
  cases wiped with
  | ok => rfl
  | error => exact absurd rfl hgood

/-- The event is a new start of hypervisor `n`: a registration or a creation has written its record. -/
def Registers (reqs : ℕ → Request) (n : String) (e : Event Res) : Prop :=
  writtenRow e.toCall = some n ∧ (reqs e.tid).registers = true

instance (reqs : ℕ → Request) (n : String) (e : Event Res) : Decidable (Registers reqs n e) :=
  inferInstanceAs (Decidable (_ ∧ _))

/-- The clients that run the requests. -/
def pool (reqs : ℕ → Request) (t : ℕ) : Prog Res (Except Err String) := (reqs t).prog

/-- A trace of a run of requests. -/
abbrev Traced (reqs : ℕ → Request) (w₀ : World) (T : List (Event Res)) (w : World) : Prop :=
  Lawful step w₀ (fun t => (reqs t).Allows) T w

variable {c : ℕ → Prog Res (Except Err String)}

theorem traced (h : Run step (pool reqs) w₀ T c w) : Traced reqs w₀ T w :=
  h.lawful fun t => (reqs t).prog_obeys

/-! ### One token -/

/-- At most one agent token of a hypervisor is valid. -/
def World.OneToken (w : World) (n : String) : Prop :=
  ∀ tok tok', w.Valid n tok → w.Valid n tok' → tok = tok'

/-- Where none is valid and none is created, none will be. -/
theorem none_valid_after (h : after step w₁ M = some w)
    (hM : ∀ x ∈ M, createdToken x.toCall ≠ some n) (hnone : ∀ tok, ¬ w₁.Valid n tok) (tok : String) :
    ¬ w.Valid n tok := by
  induction M generalizing w₁ with
  | nil =>
    cases h
    exact hnone tok
  | cons x M ih =>
    obtain ⟨w₂, hx, hrest⟩ := after_cons_eq_some.mp h
    refine ih hrest (fun y hy => hM y (List.mem_cons_of_mem x hy)) fun tok => ?_
    rcases step_valid hx n with hsame | ⟨-, hgone⟩ | ⟨t, ht, hcall, -⟩
    · exact fun hvalid => hnone tok ((hsame tok).mp hvalid)
    · exact hgone tok
    · have hcreated : createdToken x.toCall = some n := by
        rw [Event.toCall, hcall]
        exact congrArg some ht
      exact absurd hcreated (hM x List.mem_cons_self)

/-- **Before a token is created, none is valid**, if nobody else issues one. -/
theorem none_valid_before_create {t : AgentToken} (hT : Traced reqs w₀ T w)
    (hC : EachStep (Careful reqs n) T) (he : Careful reqs n T e) (ht : t.hypervisorName = n)
    (hcall : e.toCall = ⟨.createAgentToken t, (.ok () : Except Err Unit)⟩)
    (hallowed : (reqs e.tid).Allows (localOf e.tid T) e.op) (tok : String) : ¬ w.Valid n tok := by
  subst ht
  have hop : e.op = .createAgentToken t := congrArg Call.op hcall
  rw [hop] at hallowed
  obtain ⟨cs₀, h, wiped, b, u, hlocal⟩ := hallowed
  have hcut : localOf e.tid T =
      (cs₀ ++ [⟨.vm (.getHypervisor t.hypervisorName), (.ok h : Except Err Hypervisor)⟩]) ++
        ⟨.deleteByHypervisor t.hypervisorName, wiped⟩ ::
          [⟨.vm (.rand 32), (.ok b : Except Err (List UInt8))⟩, ⟨.vm .now, u⟩] := by
    rw [hlocal, issuing]
    simp
  obtain ⟨A, g, hA, -, hg, -⟩ := exists_since (q := isWipe t.hypervisorName) hcut
    (by simp [isWipe]) (by simp [isWipe])
  generalize hM : since (madeBy e.tid (isWipe t.hypervisorName)) T = M at hA
  subst hA
  obtain ⟨w₁, w₂, -, -, hstep, -, hafter⟩ := hT.at_event
  -- the old tokens were deleted, as no such deletion fails
  obtain rfl : wiped = .ok () := wiped_ok (hC A g M rfl) hg
  obtain ⟨tid, op, res⟩ := g
  cases hg
  have hsince := he.alone (by rw [hcall]; rfl)
  rw [hM] at hsince
  exact none_valid_after hafter hsince (step_wipe hstep) tok

/-- **At most one token is valid** in every state of a careful run. -/
theorem Traced.oneToken (h₀ : w₀.OneToken n) (hT : Traced reqs w₀ T w)
    (hC : EachStep (Careful reqs n) T) : w.OneToken n := by
  revert hC
  refine Lawful.invariant (I := fun T w => EachStep (Careful reqs n) T → w.OneToken n)
    (fun _ => h₀) ?_ hT
  intro T e s s' hs hearlier hallowed hstep _ hC
  have hbefore : s.OneToken n := hearlier T [] s (by simp) hs hC.initial_part
  rcases step_valid hstep n with hsame | ⟨-, hgone⟩ | ⟨t, ht, hcall, hvalid⟩
  · intro tok tok' h h'
    exact hbefore tok tok' ((hsame tok).mp h) ((hsame tok').mp h')
  · exact fun tok tok' h => absurd h (hgone tok)
  · have hnone := none_valid_before_create hs hC.initial_part (hC T e [] rfl) ht hcall hallowed
    have honly : ∀ tok, s'.Valid n tok → tok = t.token := fun tok h =>
      ((hvalid tok).mp h).resolve_right (hnone tok)
    exact fun tok tok' h h' => (honly tok h).trans (honly tok' h').symm

/-! ### After a deletion -/

/-- **No request that has found the record is in time after its deletion.** The record was looked up
before the deletion or after it: in the first case it has been deleted since, in the second it was not
there. -/
theorem not_found_since {cs cs' : List (Call Res)} (hT : Traced reqs w₀ (A ++ d :: B) w)
    (hd : removedRow d.toCall = some n)
    (hgone : ∀ C D w₁, B = C ++ D → Traced reqs w₀ (A ++ d :: C) w₁ →
      w₁.vm.db.hypervisors[n]?.isSome = false) (hlocal : localOf t (A ++ d :: B) =
      cs ++ ⟨.vm (.getHypervisor n), (.ok g : Except Err Hypervisor)⟩ :: cs')
    (hcs' : ∀ c ∈ cs', isGet n c.op = false)
    (hfresh : ∀ x ∈ since (madeBy t (isGet n)) (A ++ d :: B), removedRow x.toCall ≠ some n) :
    False := by
  obtain ⟨A', x, hcut, -, hx, -⟩ := exists_since (q := isGet n) hlocal (by simp [isGet]) hcs'
  generalize since (madeBy t (isGet n)) (A ++ d :: B) = M at hcut hfresh
  rcases split_cases hcut with ⟨-, rfl, -⟩ | ⟨C, rfl, rfl⟩ | ⟨C, rfl, rfl⟩
  · -- the lookup is not the deletion
    rw [hx] at hd
    cases hd
  · have hT' : Traced reqs w₀ ((A ++ d :: C) ++ x :: M) w := by simpa using hT
    obtain ⟨w₁, w₂, hw₁, -, hstep, -, -⟩ := hT'.at_event
    obtain ⟨tid, op, res⟩ := x
    cases hx
    have habsent := hgone C _ w₁ rfl hw₁
    rw [(step_found hstep).1] at habsent
    cases habsent
  · exact hfresh d (by simp) hd

/-- A record is written by a new start of the hypervisor, or by an update of the status that has looked it
up. -/
theorem Traced.written (hT : Traced reqs w₀ T w) (hw : writtenRow e.toCall = some n)
    (hallowed : (reqs e.tid).Allows (localOf e.tid T) e.op) :
    (reqs e.tid).registers = true ∨ ∃ g u, localOf e.tid T =
      [⟨.vm (.getHypervisor n), (.ok g : Except Err Hypervisor)⟩, ⟨.vm .now, u⟩] := by
  obtain ⟨tid, op, res⟩ := e
  obtain ⟨h, rfl, hcall⟩ := writtenRow_eq_some hw
  cases hcall
  refine hallowed.imp_right ?_
  rintro ⟨m, g, u, hlocal, hname⟩
  have hcut : localOf tid T =
      [] ++ ⟨.vm (.getHypervisor m), (.ok g : Except Err Hypervisor)⟩ :: [⟨.vm .now, u⟩] := hlocal
  obtain ⟨A, x, M, rfl, -, hx, -⟩ := exists_event_of_localOf hcut
  obtain ⟨w₁, w₂, -, -, hstep, -, -⟩ := hT.at_event
  obtain ⟨tid', op', res'⟩ := x
  cases hx
  obtain rfl : g.name = m := (step_found hstep).2
  exact ⟨g, u, by rw [hname]; exact hlocal⟩

/-- **A deleted record does not reappear** in a careful run, until it is registered or created. -/
theorem Traced.absent (hT : Traced reqs w₀ T w) (hd : removedRow d.toCall = some n) :
    ∀ A B, T = A ++ d :: B → (∀ x ∈ B, ¬ Registers reqs n x) → EachStep (Careful reqs n) T →
      w.vm.db.hypervisors[n]?.isSome = false := by
  refine Lawful.invariant (I := fun T w => ∀ A B, T = A ++ d :: B →
    (∀ x ∈ B, ¬ Registers reqs n x) → EachStep (Careful reqs n) T →
      w.vm.db.hypervisors[n]?.isSome = false) (fun A B h => absurd h (by simp)) ?_ hT
  intro T e s s' hs hearlier hallowed hstep _ A B hcut hB hC
  rcases List.eq_nil_or_concat B with rfl | ⟨B, x, rfl⟩
  · -- the deletion itself
    obtain ⟨rfl, hde⟩ := List.append_inj' hcut rfl
    obtain rfl : e = d := by simpa using hde
    have hcall := removedRow_eq_some hd
    obtain ⟨tid, op, res⟩ := e
    cases hcall
    simp [step_removed hstep]
  · have hcut' : T ++ [e] = (A ++ d :: B) ++ [x] := by simpa using hcut
    obtain ⟨rfl, hex⟩ := List.append_inj' hcut' rfl
    cases hex
    have hearly : ∀ C D w₁, B = C ++ D → Traced reqs w₀ (A ++ d :: C) w₁ →
        w₁.vm.db.hypervisors[n]?.isSome = false := by
      rintro C D w₁ rfl hw₁
      have hCs : EachStep (Careful reqs n) ((A ++ d :: C) ++ (D ++ [e])) := by simpa using hC
      exact hearlier (A ++ d :: C) D w₁ (by simp) hw₁ A C rfl
        (fun y hy => hB y (by simp [hy])) hCs.initial_part
    refine step_absent hstep (hearly B [] s (by simp) hs) fun hwritten => ?_
    -- a write that is no new start is of a request that has looked the record up
    have hnot : (reqs e.tid).registers = false := by
      have hnew := hB e (by simp)
      rw [Registers, not_and] at hnew
      simpa using hnew hwritten
    rcases Traced.written hs hwritten hallowed with hnew | ⟨g, u, hlocal⟩
    · rw [hnot] at hnew
      cases hnew
    · have hcut : localOf e.tid (A ++ d :: B) =
          [] ++ ⟨.vm (.getHypervisor n), (.ok g : Except Err Hypervisor)⟩ :: [⟨.vm .now, u⟩] := hlocal
      exact not_found_since hs hd hearly hcut (by simp [isGet])
        ((hC _ e [] rfl).fresh (Or.inr ⟨hwritten, hnot⟩))

/-- **No token is created after the deletion** in a careful run, until the hypervisor is registered or
created. -/
theorem Traced.no_create (hT : Traced reqs w₀ (A ++ d :: B) w) (hd : removedRow d.toCall = some n)
    (hB : ∀ x ∈ B, ¬ Registers reqs n x) (hC : EachStep (Careful reqs n) (A ++ d :: B)) :
    ∀ x ∈ B, createdToken x.toCall ≠ some n := by
  intro x hx hcreated
  obtain ⟨C, D, rfl⟩ := List.append_of_mem hx
  have hassoc : A ++ d :: (C ++ x :: D) = (A ++ d :: C) ++ x :: D := by simp
  rw [hassoc] at hT hC
  obtain ⟨w₁, w₂, hw₁, hallowed, -, -, -⟩ := hT.at_event
  have hearly : ∀ C' D' w', C = C' ++ D' → Traced reqs w₀ (A ++ d :: C') w' →
      w'.vm.db.hypervisors[n]?.isSome = false := by
    rintro C' D' w' rfl hw'
    have hC' : EachStep (Careful reqs n) ((A ++ d :: C') ++ (D' ++ x :: D)) := by simpa using hC
    exact hw'.absent hd A C' rfl (fun y hy => hB y (by simp [hy])) hC'.initial_part
  obtain ⟨t, rfl, hcall⟩ := createdToken_eq_some hcreated
  have hop : x.op = .createAgentToken t := congrArg Call.op hcall
  rw [hop] at hallowed
  obtain ⟨cs₀, h, wiped, b, u, hlocal⟩ := hallowed
  exact not_found_since hw₁ hd hearly hlocal (by simp [isGet])
    ((hC _ x D rfl).fresh (Or.inl hcreated))

/-- **Nothing is left of a deleted hypervisor** in a careful run, once its deletion has answered and
until it is registered or created. -/
theorem Traced.deleted (hT : Traced reqs w₀ (A ++ d :: B) w) (hd : removedRow d.toCall = some n)
    (hB : ∀ x ∈ B, ¬ Registers reqs n x) (hC : EachStep (Careful reqs n) (A ++ d :: B))
    (hdone : localOf t B = [⟨.deleteByHypervisor n, wiped⟩]) :
    (∀ tok, ¬ w.Valid n tok) ∧ w.vm.db.hypervisors[n]? = none := by
  have hnever := hT.no_create hd hB hC
  have habsent := hT.absent hd A B rfl hB hC
  refine ⟨?_, Option.isNone_iff_eq_none.mp (Option.isSome_eq_false_iff.mp habsent)⟩
  have hcut : localOf t B = [] ++ ⟨.deleteByHypervisor n, wiped⟩ :: [] := hdone
  obtain ⟨C, x, D, rfl, -, hx, -⟩ := exists_event_of_localOf hcut
  have hassoc : A ++ d :: (C ++ x :: D) = (A ++ d :: C) ++ x :: D := by simp
  rw [hassoc] at hT hC
  obtain ⟨w₁, w₂, -, -, hstep, -, hafter⟩ := hT.at_event
  obtain rfl : wiped = .ok () := wiped_ok (hC _ x D rfl) hx
  obtain ⟨tid, op, res⟩ := x
  cases hx
  exact none_valid_after hafter (fun y hy => hnever y (by simp [hy])) (step_wipe hstep)

/-- A deletion of hypervisor `n` has answered, and the hypervisor has not been registered or created
since its record was removed. -/
def Deleted (reqs : ℕ → Request) (n : String) (T : List (Event Res))
    (c : ℕ → Prog Res (Except Err String)) : Prop :=
  ∃ text A d B, T = A ++ d :: B ∧ reqs d.tid = .delete n ∧ c d.tid = .ret (.ok text) ∧
    removedRow d.toCall = some n ∧ ∀ x ∈ B, ¬ Registers reqs n x

/-- **The credentials of a hypervisor follow its record.** Start where at most one agent token of
hypervisor `n` is valid, and let any requests run, interleaved in any way. If every step is careful,
then at most one token is valid in the state that is reached; and if a deletion of `n` has answered
and `n` was not registered or created since, then no token of it is valid and there is no record. -/
theorem credentials_follow (reqs : ℕ → Request) (n : String) (w₀ w : World) (T : List (Event Res))
    (c : ℕ → Prog Res (Except Err String)) (hrun : Run step (pool reqs) w₀ T c w)
    (h₀ : w₀.OneToken n) (hC : EachStep (Careful reqs n) T) :
    w.OneToken n ∧
      (Deleted reqs n T c → (∀ tok, ¬ w.Valid n tok) ∧ w.vm.db.hypervisors[n]? = none) := by
  have hT := traced hrun
  refine ⟨hT.oneToken h₀ hC, ?_⟩
  rintro ⟨text, A, d, B, rfl, hreq, hret, hd, hB⟩
  -- the two calls of the deletion are the event `d` and one that comes after it
  have hpath := hrun.path d.tid
  rw [hret] at hpath
  obtain ⟨wiped, hlocal⟩ := (reqs d.tid).prog_obeys.of_path_ret hpath n text hreq rfl
  rw [localOf_append, localOf_cons_self] at hlocal
  suffices hdone : localOf d.tid B = [⟨.deleteByHypervisor n, wiped⟩] from hT.deleted hd hB hC hdone
  rcases hA : localOf d.tid A with _ | ⟨a, as⟩
  · rw [hA] at hlocal
    exact (List.cons.inj hlocal).2
  · rw [hA] at hlocal
    obtain ⟨-, hrest⟩ := List.cons.inj hlocal
    have hlast : d.toCall = ⟨.deleteByHypervisor n, wiped⟩ := by
      cases as with
      | nil => exact (List.cons.inj hrest).1
      | cons => exact absurd (List.cons.inj hrest).2 (by simp)
    rw [hlast] at hd
    cases hd

/-! ### Runs -/

/-- The check of `Gomi.Hypervisors.Careful`. -/
def careful (reqs : ℕ → Request) (n : String) (T : List (Event Res)) (e : Event Res) : Bool :=
  (!(createdToken e.toCall = some n ∨
      writtenRow e.toCall = some n ∧ (reqs e.tid).registers = false) ||
    (since (madeBy e.tid (isGet n)) T).all fun x => removedRow x.toCall ≠ some n) &&
  (!(createdToken e.toCall = some n) ||
    (since (madeBy e.tid (isWipe n)) T).all fun x => createdToken x.toCall ≠ some n) &&
  failedWipe e.toCall ≠ some n

theorem careful_of_eval (h : careful reqs n T e = true) : Careful reqs n T e := by
  simp only [careful, Bool.and_eq_true, Bool.or_eq_true, Bool.not_eq_true', decide_eq_false_iff_not,
    List.all_eq_true, decide_eq_true_eq] at h
  obtain ⟨⟨hfresh, halone⟩, hwiped⟩ := h
  exact ⟨fun hp => hfresh.resolve_left (not_not_intro hp),
    fun hp => halone.resolve_left (not_not_intro hp), hwiped⟩

/-- A hypervisor with one agent token, and a registration token. -/
def sampleWorld : World where
  vm := { db := { hypervisors := (∅ : Table Hypervisor).insert "hv1" { name := "hv1" } } }
  regTokens := (∅ : Table RegistrationToken).insert "reg" { expiresAt := 1 }
  agentTokens := (∅ : Table AgentToken).insert "old" { token := "old", hypervisorName := "hv1" }

/-- A schedule in which no store call fails. -/
def sampleSchedule (clients : List ℕ) : List (ℕ × ((o : Op) → World → Res o)) :=
  clients.map fun t => (t, World.answer Vm.Query.domainRuns)

/-- The token of the first random buffer that is drawn. -/
def firstToken : String := Go.hexEncode (List.replicate 32 0)

/-- The token of the second random buffer that is drawn. -/
def secondToken : String := Go.hexEncode (List.replicate 32 1)

/-- Whether a token is valid. -/
def World.finds (w : World) (n tok : String) : Bool :=
  w.agentTokens[tok]?.any fun t => t.hypervisorName = n

theorem valid_of_finds {tok : String} (h : w.finds n tok = true) : w.Valid n tok := by
  obtain ⟨t, ht, hn⟩ := (Option.any_eq_true _ _).mp h
  exact ⟨t, ht, of_decide_eq_true hn⟩

/-- Every request that has made a call has answered. -/
def Quiescent (T : List (Event Res)) (c : ℕ → Prog Res (Except Err String)) : Prop :=
  ∀ e ∈ T, ∃ a, c e.tid = .ret a

theorem quiescent_of_eval (h : (T.all fun e => (c e.tid).answer?.isSome) = true) :
    Quiescent T c := by
  intro e he
  obtain ⟨a, ha⟩ := Option.isSome_iff_exists.mp (List.all_eq_true.mp h e he)
  exact ⟨a, Prog.answer?_eq_some.mp ha⟩

/-- The hypervisor that a request deletes. -/
def Request.deletes : Request → Option String
  | .delete n => some n
  | _ => none

theorem Request.deletes_eq_some {r : Request} (h : r.deletes = some n) : r = .delete n := by
  cases r with
  | delete => rw [Option.some.inj h]
  | _ => cases h

/-- The check of `Gomi.Hypervisors.Deleted`, for the event with a given index. -/
def deletedAt (reqs : ℕ → Request) (n : String) (i : ℕ) (T : List (Event Res))
    (c : ℕ → Prog Res (Except Err String)) : Bool :=
  (T[i]?.any fun d => (reqs d.tid).deletes = some n && ((c d.tid).answer?.any (·.isOk)) &&
    removedRow d.toCall = some n) && (T.drop (i + 1)).all fun x => ¬ Registers reqs n x

theorem deleted_of_eval {i : ℕ} (h : deletedAt reqs n i T c = true) : Deleted reqs n T c := by
  simp only [deletedAt, Bool.and_eq_true, Option.any_eq_true, List.all_eq_true, decide_eq_true_eq] at h
  obtain ⟨⟨d, hd, ⟨hdel, a, ha, hok⟩, hremoved⟩, hB⟩ := h
  cases a with
  | error => cases hok
  | ok text =>
    exact ⟨text, T.take i, d, T.drop (i + 1), split_at_index hd, Request.deletes_eq_some hdel,
      Prog.answer?_eq_some.mp ha, hremoved, hB⟩

/-- A request for an agent token, a registration, and a deletion. -/
def sampleRequests : ℕ → Request
  | 0 => .createAgentToken "hv1"
  | 1 => .register
    { token := "reg", hostname := "hv1", connection := { host := "192.0.2.7" }
      capacity := { cpuCores := 4, memoryMB := 4096 } }
  | _ => .delete "hv1"

/-- One after the other, the three requests are careful. -/
theorem sample_serial :
    ((play step (sampleSchedule [0, 0, 0, 0, 0, 1, 1, 1, 1, 1, 1, 1, 1, 1, 1, 2, 2])
      ([], pool sampleRequests, sampleWorld)).any fun x =>
        eachStep (careful sampleRequests "hv1") [] x.1 &&
          deletedAt sampleRequests "hv1" 15 x.1 x.2.1) = true := by
  decide +kernel

theorem sampleWorld_oneToken : sampleWorld.OneToken "hv1" := by
  have honly : ∀ tok, sampleWorld.Valid "hv1" tok → tok = "old" := by
    rintro tok ⟨t, ht, -⟩
    exact ((Table.insert_cases ht).resolve_right (by simp)).1.symm
  exact fun tok tok' h h' => (honly tok h).trans (honly tok' h').symm

/-- After a token was issued, the hypervisor was registered again and then deleted, nothing of it is
left. -/
theorem credentials_follow_serial : ∃ T c w,
    Run step (pool sampleRequests) sampleWorld T c w ∧ sampleWorld.OneToken "hv1" ∧
      EachStep (Careful sampleRequests "hv1") T ∧ Deleted sampleRequests "hv1" T c ∧
      w.OneToken "hv1" ∧ (∀ tok, ¬ w.Valid "hv1" tok) ∧ w.vm.db.hypervisors["hv1"]? = none := by
  obtain ⟨T, c, w, hrun, hcheck⟩ := exists_run_of_play sample_serial
  obtain ⟨hcareful, hdel⟩ := Bool.and_eq_true_iff.mp hcheck
  have hC : EachStep (Careful sampleRequests "hv1") T :=
    EachStep.of_eval (fun _ _ => careful_of_eval) hcareful
  have hdel := deleted_of_eval hdel
  obtain ⟨hone, hgone⟩ :=
    credentials_follow sampleRequests "hv1" sampleWorld w T c hrun sampleWorld_oneToken hC
  exact ⟨T, c, w, hrun, sampleWorld_oneToken, hC, hdel, hone, hgone hdel⟩

/-- Two requests for an agent token. -/
def twoIssues : ℕ → Request := fun _ => .createAgentToken "hv1"

/-- An update of the status, a request for an agent token, and a deletion. -/
def lateWrites : ℕ → Request
  | 0 => .updateStatus "hv1" .ready none none "" ""
  | 1 => .createAgentToken "hv1"
  | _ => .delete "hv1"

theorem twoIssues_eval :
    ((play step (sampleSchedule [0, 0, 1, 1, 0, 0, 0, 1, 1, 1]) ([], pool twoIssues, sampleWorld)).any
      fun x => (x.1.all fun e => (x.2.1 e.tid).answer?.isSome) &&
        (x.2.2.finds "hv1" firstToken && x.2.2.finds "hv1" secondToken)) = true := by
  decide +kernel

theorem lateWrites_eval :
    ((play step (sampleSchedule [0, 1, 2, 2, 0, 0, 1, 1, 1, 1]) ([], pool lateWrites, sampleWorld)).any
      fun x => (x.1.all fun e => (x.2.1 e.tid).answer?.isSome) &&
        (deletedAt lateWrites "hv1" 2 x.1 x.2.1 &&
          (x.2.2.finds "hv1" firstToken && x.2.2.vm.db.hypervisors["hv1"]?.isSome))) = true := by
  decide +kernel

/-- **Credentials that do not follow.** Two requests for an agent token leave two valid ones, if both
delete the old tokens before either creates its own. And a deletion that runs between the lookup of
the record by an update of the status and by a request for an agent token, and what these two write,
is undone by them: the record is back and a token is valid. -/
theorem credentials_left_behind :
    (∃ T c w, Run step (pool twoIssues) sampleWorld T c w ∧ Quiescent T c ∧ ¬ w.OneToken "hv1") ∧
      ∃ T c w tok, Run step (pool lateWrites) sampleWorld T c w ∧ Quiescent T c ∧
        Deleted lateWrites "hv1" T c ∧ w.Valid "hv1" tok ∧
        w.vm.db.hypervisors["hv1"]?.isSome = true := by
  constructor
  · obtain ⟨T, c, w, hrun, hcheck⟩ := exists_run_of_play twoIssues_eval
    simp only [Bool.and_eq_true] at hcheck
    obtain ⟨hquiet, hfirst, hsecond⟩ := hcheck
    refine ⟨T, c, w, hrun, quiescent_of_eval hquiet, fun hone => ?_⟩
    have heq := hone firstToken secondToken (valid_of_finds hfirst) (valid_of_finds hsecond)
    exact absurd (Go.hexEncode_injective heq) (by decide)
  · obtain ⟨T, c, w, hrun, hcheck⟩ := exists_run_of_play lateWrites_eval
    simp only [Bool.and_eq_true] at hcheck
    obtain ⟨hquiet, hdel, hvalid, hrow⟩ := hcheck
    exact ⟨T, c, w, firstToken, hrun, quiescent_of_eval hquiet, deleted_of_eval hdel,
      valid_of_finds hvalid, hrow⟩

end Gomi.Hypervisors
