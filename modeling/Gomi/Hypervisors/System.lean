import Gomi.Interleaving.Interpret
import Gomi.Interleaving.Run
import Gomi.Vm.System

/-!
# The registry of hypervisors: its state, its operations and what they do

The registry is the table of hypervisors, which `Gomi.Vm.World` has, with two tables of
tokens next to it: a hypervisor registers itself with a *registration token*, that can be
used once, and its agent then authenticates with an *agent token*. The tables are not tied by
foreign keys. The conventions are those of `Gomi.Vm.System`, of which this is an extension: an
operation is one of that system (`Gomi.Hypervisors.Op.vm`), or one of the token stores
(`internal/infra/sql/hypervisor_store.go`), or a question of the middleware about the other
two kinds of credential.
-/

namespace Gomi.Hypervisors

/-- `hypervisor.RegistrationToken`; the token itself is its key. -/
structure RegistrationToken where
  createdAt : Time := 0
  expiresAt : Time := 0
  used : Bool := false
  usedBy : String := ""
  deriving DecidableEq

/-- `hypervisor.AgentToken`. -/
structure AgentToken where
  token : String := ""
  hypervisorName : String := ""
  createdAt : Time := 0
  deriving DecidableEq

/-- `auth.User`, as the middleware sets it. -/
structure User where
  username : String := ""
  role : String := ""

/-- The state of the system. -/
structure World where
  /-- The tables of virtual machines and hypervisors, and the random buffers drawn so far. -/
  vm : Vm.World := {}
  /-- `registration_tokens`. -/
  regTokens : Table RegistrationToken := ∅
  /-- `agent_tokens`. -/
  agentTokens : Table AgentToken := ∅

/-! ### Operations -/

/-- The operations of a request. -/
inductive Op where
  /-- An operation of the system of virtual machines. -/
  | vm (o : Vm.Op)
  /-- `TokenStore.MarkUsed`, at a certain time. -/
  | markUsed (tokenValue usedBy : String) (now : Time)
  /-- `AgentTokenStore.Create`. -/
  | createAgentToken (token : AgentToken)
  /-- `AgentTokenStore.GetByToken`. -/
  | getByToken (tokenValue : String)
  /-- `AgentTokenStore.DeleteByHypervisor`. -/
  | deleteByHypervisor (hypervisorName : String)
  /-- `authenticate`: the user of a session. -/
  | session (token : String)
  /-- `GetServiceAccountByTokenHash`: the name and the role of a service account. -/
  | serviceAccount (token : String)
  deriving DecidableEq

/-- The replies to an operation. -/
def Res : Op → Type
  | .vm o => Vm.Res o
  | .markUsed .. => Except Err RegistrationToken
  | .createAgentToken _ | .deleteByHypervisor _ => Except Err Unit
  | .getByToken _ => Except Err AgentToken
  | .session _ => Except Err User
  | .serviceAccount _ => Except Err (String × String)

/-! ### Statements -/

/-- What a statement does: its answer, and the state it leaves. -/
abbrev Statement (α : Type) : Type := World → Except Err α × World

/-- `MarkUsed`: a token that is there, unused and unexpired is used now. -/
def markUsed (tokenValue usedBy : String) (now : Time) : Statement RegistrationToken := fun w =>
  match w.regTokens[tokenValue]? with
  | none => (.error .notFound, w)
  | some t =>
    if t.used then (.error (.msg "token already used"), w)
    else if t.expiresAt ≤ now then (.error (.msg "token expired"), w)
    else
      let t := { t with used := true, usedBy }
      (.ok t, { w with regTokens := w.regTokens.insert tokenValue t })

/-- `Create`, of an agent token; the token is the primary key. -/
def createAgentToken (token : AgentToken) : Statement Unit := fun w =>
  if w.agentTokens[token.token]?.isSome then (.error (.msg "UNIQUE constraint failed"), w)
  else (.ok (), { w with agentTokens := w.agentTokens.insert token.token token })

/-- `GetByToken`. -/
def getByToken (tokenValue : String) : Statement AgentToken := fun w =>
  match w.agentTokens[tokenValue]? with
  | some t => (.ok t, w)
  | none => (.error .notFound, w)

/-- `DeleteByHypervisor`. -/
def deleteByHypervisor (hypervisorName : String) : Statement Unit := fun w =>
  (.ok (), { w with agentTokens := w.agentTokens.filter fun _ t => t.hypervisorName ≠ hypervisorName })

/-! ### Semantics -/

/-- The step of a statement: its answer, or a failure without an effect. -/
def World.execute {α : Type} [DecidableEq (Except Err α)] (w : World) (stmt : Statement α)
    (reply : Except Err α) : Option World :=
  if reply = (stmt w).1 then some (stmt w).2
  else match reply with
    | .error (.msg _) => some w
    | _ => none

/-- **The semantics of the operations**: the state after an operation was replied to, if that reply
is possible. -/
def step : (o : Op) → World → Res o → Option World
  | .vm o, w, r => (Vm.step o w.vm r).map fun vm => { w with vm }
  | .markUsed tokenValue usedBy now, w, r => w.execute (markUsed tokenValue usedBy now) r
  | .createAgentToken token, w, r => w.execute (createAgentToken token) r
  | .getByToken tokenValue, w, r => w.execute (getByToken tokenValue) r
  | .deleteByHypervisor name, w, r => w.execute (deleteByHypervisor name) r
  | .session _, w, _ => some w
  | .serviceAccount _, w, _ => some w

/-- The replies of a system in which no statement fails, it is always the epoch, random buffers
count up, there is no session and no service account, and the other questions are answered by
`reply`. -/
def World.answer (reply : (q : Vm.Query) → Vm.Answer q) : (o : Op) → World → Res o
  | .vm o, w => Vm.World.answer reply o w.vm
  | .markUsed tokenValue usedBy now, w => (markUsed tokenValue usedBy now w).1
  | .createAgentToken token, w => (createAgentToken token w).1
  | .getByToken tokenValue, w => (getByToken tokenValue w).1
  | .deleteByHypervisor name, w => (deleteByHypervisor name w).1
  | .session _, _ => Except.error Err.notFound
  | .serviceAccount _, _ => Except.error Err.notFound

/-! ### What a step can do -/

variable {w w' : World}

theorem execute_eq_some {α : Type} [DecidableEq (Except Err α)] {stmt : Statement α}
    {reply : Except Err α} (h : w.execute stmt reply = some w') :
    (reply = (stmt w).1 ∧ w' = (stmt w).2) ∨ (∃ t, reply = .error (.msg t)) ∧ w' = w :=
  reply_cases h

/-- What a statement leaves alone stays. -/
theorem execute_same {α β : Type} [DecidableEq (Except Err α)] {stmt : Statement α}
    {reply : Except Err α} (part : World → β) (h : w.execute stmt reply = some w')
    (hstmt : part (stmt w).2 = part w) : part w' = part w := by
  rcases execute_eq_some h with ⟨-, rfl⟩ | ⟨-, rfl⟩
  · exact hstmt
  · rfl

/-- A step of the system of virtual machines leaves the tokens alone. -/
theorem step_vm {o : Vm.Op} {r : Vm.Res o} (h : step (.vm o) w r = some w') :
    Vm.step o w.vm r = some w'.vm ∧ w'.agentTokens = w.agentTokens := by
  obtain ⟨vm, hvm, rfl⟩ := Option.map_eq_some_iff.mp h
  exact ⟨hvm, rfl⟩

/-- The other steps leave the virtual machines and the hypervisors alone. -/
theorem step_vm_eq {o : Op} {r : Res o} (h : step o w r = some w') (ho : ∀ o', o ≠ .vm o') :
    w'.vm = w.vm := by
  cases o with
  | vm o => exact absurd rfl (ho o)
  | markUsed =>
    refine execute_same (·.vm) h ?_
    unfold markUsed
    (repeat' split) <;> rfl
  | createAgentToken =>
    refine execute_same (·.vm) h ?_
    unfold createAgentToken
    split <;> rfl
  | getByToken =>
    refine execute_same (·.vm) h ?_
    unfold getByToken
    split <;> rfl
  | deleteByHypervisor => exact execute_same (·.vm) h rfl
  | session token | serviceAccount token => rw [Option.some.inj h]

/-! ### Agent tokens -/

/-- An agent token of a hypervisor is *valid* if the middleware finds it. -/
def World.Valid (w : World) (n tok : String) : Prop :=
  ∃ t, w.agentTokens[tok]? = some t ∧ t.hypervisorName = n

/-- A token is valid exactly if `GetByToken` finds one of that hypervisor. -/
theorem valid_iff_getByToken {n tok : String} :
    w.Valid n tok ↔ ∃ t, (getByToken tok w).1 = .ok t ∧ t.hypervisorName = n := by
  unfold World.Valid getByToken
  cases w.agentTokens[tok]? with
  | none => simp
  | some => simp

/-- What `GetByToken` has found is valid at that moment. -/
theorem step_getByToken {tok : String} {t : AgentToken}
    (h : step (.getByToken tok) w (Except.ok t : Except Err AgentToken) = some w') :
    w.Valid t.hypervisorName tok := by
  rcases execute_eq_some h with ⟨hfound, -⟩ | ⟨⟨text, htext⟩, -⟩
  · exact valid_iff_getByToken.mpr ⟨t, hfound.symm, rfl⟩
  · cases htext

theorem deleteByHypervisor_valid {name n tok : String} :
    (deleteByHypervisor name w).2.Valid n tok ↔ w.Valid n tok ∧ n ≠ name := by
  simp only [World.Valid, deleteByHypervisor, Std.ExtTreeMap.getElem?_filter']
  constructor
  · rintro ⟨t, ht, rfl⟩
    obtain ⟨ht, hne⟩ := Option.filter_eq_some_iff.mp ht
    exact ⟨⟨t, ht, rfl⟩, by simpa using hne⟩
  · rintro ⟨⟨t, ht, rfl⟩, hne⟩
    exact ⟨t, Option.filter_eq_some_iff.mpr ⟨ht, by simpa using hne⟩, rfl⟩

/-- Once the agent tokens of a hypervisor are deleted, none is valid. -/
theorem step_wipe {n : String}
    (h : step (.deleteByHypervisor n) w (Except.ok () : Except Err Unit) = some w') (tok : String) :
    ¬ w'.Valid n tok := by
  rcases execute_eq_some h with ⟨-, rfl⟩ | ⟨⟨t, ht⟩, -⟩
  · exact fun hvalid => (deleteByHypervisor_valid.mp hvalid).2 rfl
  · cases ht

/-- **What a step does to the agent tokens of a hypervisor**: nothing, or they were deleted, or one was
created. -/
theorem step_valid {o : Op} {r : Res o} (h : step o w r = some w') (n : String) :
    (∀ tok, w'.Valid n tok ↔ w.Valid n tok) ∨
      ((⟨o, r⟩ : Call Res) = ⟨.deleteByHypervisor n, Except.ok ()⟩ ∧ ∀ tok, ¬ w'.Valid n tok) ∨
      ∃ t : AgentToken, t.hypervisorName = n ∧
        (⟨o, r⟩ : Call Res) = ⟨.createAgentToken t, Except.ok ()⟩ ∧
        ∀ tok, w'.Valid n tok ↔ tok = t.token ∨ w.Valid n tok := by
  have unchanged : w'.agentTokens = w.agentTokens → ∀ tok, w'.Valid n tok ↔ w.Valid n tok := by
    intro heq tok
    rw [World.Valid, World.Valid, heq]
  cases o with
  | vm => exact Or.inl (unchanged (step_vm h).2)
  | markUsed =>
    refine Or.inl (unchanged (execute_same (·.agentTokens) h ?_))
    unfold markUsed
    (repeat' split) <;> rfl
  | createAgentToken t =>
    rcases execute_eq_some h with ⟨rfl, rfl⟩ | ⟨-, rfl⟩
    · cases hold : w.agentTokens[t.token]? with
      | some =>
        have heq : createAgentToken t w = (.error (.msg "UNIQUE constraint failed"), w) := by
          simp [createAgentToken, hold]
        rw [heq]
        exact Or.inl fun tok => Iff.rfl
      | none =>
        have heq : createAgentToken t w =
            (.ok (), { w with agentTokens := w.agentTokens.insert t.token t }) := by
          simp [createAgentToken, hold]
        rw [heq]
        have hget : ∀ tok, World.Valid { w with agentTokens := w.agentTokens.insert t.token t } n tok ↔
            (tok = t.token ∧ t.hypervisorName = n) ∨ w.Valid n tok := by
          intro tok
          simp only [World.Valid, Table.get_insert]
          rcases eq_or_ne t.token tok with rfl | hne
          · simp [hold]
          · simp [hne, hne.symm]
        rcases eq_or_ne t.hypervisorName n with hn | hn
        · exact Or.inr (Or.inr ⟨t, hn, rfl, fun tok => by rw [hget]; simp [hn]⟩)
        · exact Or.inl fun tok => by rw [hget]; simp [hn]
    · exact Or.inl fun tok => Iff.rfl
  | getByToken =>
    refine Or.inl (unchanged (execute_same (·.agentTokens) h ?_))
    unfold getByToken
    split <;> rfl
  | deleteByHypervisor name =>
    rcases execute_eq_some h with ⟨rfl, rfl⟩ | ⟨-, rfl⟩
    · rcases eq_or_ne n name with rfl | hne
      · exact Or.inr (Or.inl ⟨rfl, fun tok => by rw [deleteByHypervisor_valid]; simp⟩)
      · exact Or.inl fun tok => by rw [deleteByHypervisor_valid]; simp [hne]
    · exact Or.inl fun tok => Iff.rfl
  | session token | serviceAccount token => exact Or.inl (unchanged (by rw [Option.some.inj h]))

end Gomi.Hypervisors
