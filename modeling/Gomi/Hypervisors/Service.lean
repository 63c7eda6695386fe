import Gomi.Hypervisors.System
import Gomi.Vm.Sync

/-!
# The service of hypervisors, and the middleware that checks credentials

`internal/hypervisor/service.go` and `AuthMiddleware` of `internal/infra/api/middleware.go`.
A registration burns its token, writes the record of the hypervisor and then issues an agent
token; an agent token is issued by deleting the old ones and creating a new one, in two calls
of the store. A deletion removes the record first and the agent tokens afterwards; whether the
second call succeeds is not looked at, and neither is it when a token is issued.

`Create` and `UpdateStatus` have been translated for the system of virtual machines already
(`Gomi.Vm.createHypervisor`, `Gomi.Vm.updateHypervisorStatus`) and are carried over by
`Gomi.Hypervisors.Client.vm`.

What a request does in which order is `Gomi.Hypervisors.Request.Allows`, and
`Gomi.Hypervisors.Request.prog_obeys` says that each of them keeps to it.
-/

namespace Gomi.Hypervisors

open Go
open Vm (Hypervisor HypervisorPhase ConnectionSpec ResourceInfo ResourceUsage)

/-! ### Single operations -/

namespace Client

/-- A program of the system of virtual machines. -/
def vm {α : Type} (p : Prog Vm.Res α) : Prog Res α := p.interpret fun o => .perform (Op.vm o)

/-- A first operation of a program of the system of virtual machines. -/
theorem vm_obeys {α : Type} {P : List (Call Res) → Op → Prop} {Q : List (Call Res) → α → Prop}
    {cs : List (Call Res)} {o : Vm.Op} {k : Vm.Res o → Prog Vm.Res α} (h : P cs (.vm o))
    (hk : ∀ r, (vm (k r)).Obeys P Q (cs ++ [⟨.vm o, r⟩])) :
    (vm (.perform o >>= k)).Obeys P Q cs :=
  Prog.Obeys.perform_bind (o := Op.vm o) h hk

/-- `Store.Upsert`. -/
abbrev upsert (h : Hypervisor) : Prog Res (Except Err Unit) :=
  .perform (Op.vm (.upsertHypervisor h))

/-- `Store.Get`. -/
abbrev get (name : String) : Prog Res (Except Err Hypervisor) :=
  .perform (Op.vm (.getHypervisor name))

/-- `Store.Delete`. -/
abbrev delete (name : String) : Prog Res (Except Err Unit) :=
  .perform (Op.vm (.deleteHypervisor name))

/-- `time.Now().UTC()`. -/
abbrev now : Prog Res Time := .perform (Op.vm .now)

/-- `rand.Read`. -/
abbrev rand (n : ℕ) : Prog Res (Except Err (List UInt8)) := .perform (Op.vm (.rand n))

/-- `TokenStore.MarkUsed`, which takes the time itself. -/
def markUsed (tokenValue usedBy : String) : Prog Res (Except Err RegistrationToken) := do
  let now ← now
  .perform (Op.markUsed tokenValue usedBy now)

/-- `AgentTokenStore.Create`. -/
abbrev createAgentToken (token : AgentToken) : Prog Res (Except Err Unit) :=
  .perform (Op.createAgentToken token)

/-- `AgentTokenStore.GetByToken`. -/
abbrev getByToken (tokenValue : String) : Prog Res (Except Err AgentToken) :=
  .perform (Op.getByToken tokenValue)

/-- `AgentTokenStore.DeleteByHypervisor`. -/
abbrev deleteByHypervisor (hypervisorName : String) : Prog Res (Except Err Unit) :=
  .perform (Op.deleteByHypervisor hypervisorName)

end Client

/-! ### The service -/

/-- `hypervisor.RegisterRequest`. -/
structure RegisterRequest where
  token : String := ""
  hostname : String := ""
  connection : ConnectionSpec := {}
  capacity : ResourceInfo := {}

/-- `ValidateRegisterRequest`. -/
def validateRegisterRequest (req : RegisterRequest) : Except Err Unit := do
  failIf (trimSpace req.token = "") (.msg "token is required")
  failIf (trimSpace req.hostname = "") (.msg "hostname is required")
  failIf (trimSpace req.connection.host = "") (.msg "connection.host is required")
  failIf (req.capacity.cpuCores ≤ 0) (.msg "capacity.cpuCores must be positive")
  failIf (req.capacity.memoryMB ≤ 0) (.msg "capacity.memoryMB must be positive")

/-- `CreateAgentToken`. -/
def issueAgentToken (hypervisorName : String) : Prog Res (Except Err String) := do
  match ← Client.get hypervisorName with
  | .error e => return .error e
  | .ok _ =>
  let _ ← Client.deleteByHypervisor hypervisorName
  match ← Client.rand 32 with
  | .error e => return .error e
  | .ok tokenBytes =>
  let tokenValue := hexEncode tokenBytes
  let now ← Client.now
  match ← Client.createAgentToken { token := tokenValue, hypervisorName, createdAt := now } with
  | .error e => return .error e
  | .ok _ => return .ok tokenValue

/-- The record that a registration writes, over the one that it found. -/
def RegisterRequest.hypervisor (req : RegisterRequest) (existing : Except Err Hypervisor)
    (now : Time) : Hypervisor :=
  let conn := { req.connection with
    type := if req.connection.type = .unset then .tcp else req.connection.type }
  let h : Hypervisor :=
    { name := req.hostname, connection := conn, phase := .registered, capacity := some req.capacity
      libvirtURI := "qemu+tcp://" ++ req.connection.host ++ "/system", createdAt := now
      updatedAt := now }
  match existing with
  | .ok existing =>
    { h with
      createdAt := existing.createdAt, labels := existing.labels
      machineRef := existing.machineRef, bridgeName := existing.bridgeName }
  | .error _ => h

/-- `Register`: the agent token. -/
def register (req : RegisterRequest) : Prog Res (Except Err String) := do
  match validateRegisterRequest req with
  | .error e => return .error e
  | .ok _ =>
  match ← Client.markUsed req.token req.hostname with
  | .error e => return .error (.msg ("token validation: " ++ e.text))
  | .ok _ =>
  let now ← Client.now
  let existing ← Client.get req.hostname
  match ← Client.upsert (req.hypervisor existing now) with
  | .error e => return .error e
  | .ok _ =>
  match ← issueAgentToken req.hostname with
  | .error e => return .error (.msg ("create agent token: " ++ e.text))
  | .ok agentToken => return .ok agentToken

/-- `Delete`. -/
def delete (name : String) : Prog Res (Except Err Unit) := do
  match ← Client.delete name with
  | .error e => return .error e
  | .ok _ =>
  let _ ← Client.deleteByHypervisor name
  return .ok ()

/-! ### The middleware -/

/-- `httputil.AuthMethodContextKey`: how a request was authenticated. -/
inductive AuthMethod where
  | session
  | agent
  | serviceAccount

/-- `AuthMiddleware`: the user that the request goes on with, or the error of a 401. -/
def authMiddleware (authorization : String) : Prog Res (Except String (User × AuthMethod)) := do
  let parts := cut authorization ' '
  if parts.2.2 = false ∨ !equalFold parts.1 "Bearer" then return .error "missing bearer token"
  else
  let tokenValue := trimSpace parts.2.1
  match ← Prog.perform (Op.session tokenValue) with
  | .ok user => return .ok (user, .session)
  | .error _ =>
  match ← Client.getByToken tokenValue with
  | .ok agentToken =>
    return .ok ({ username := "agent:" ++ agentToken.hypervisorName, role := "viewer" }, .agent)
  | .error _ =>
  match ← Prog.perform (Op.serviceAccount tokenValue) with
  | .ok (name, role) =>
    return .ok ({ username := "serviceaccount:" ++ name, role }, .serviceAccount)
  | .error _ => return .error "invalid session"

/-! ### Requests -/

/-- The requests on hypervisors. -/
inductive Request where
  /-- `Create`. -/
  | create (h : Hypervisor)
  /-- `Register`. -/
  | register (req : RegisterRequest)
  /-- `CreateAgentToken`. -/
  | createAgentToken (hypervisorName : String)
  /-- `UpdateStatus`. -/
  | updateStatus (name : String) (phase : HypervisorPhase) (capacity : Option ResourceInfo)
      (used : Option ResourceUsage) (libvirtURI lastErr : String)
  /-- `Delete`. -/
  | delete (name : String)

/-- What a request does; the answer is the agent token, if there is one to return. -/
def Request.prog : Request → Prog Res (Except Err String)
  | .create h => do
    let r ← Client.vm (Vm.createHypervisor h)
    return r.map fun _ => ""
  | .register req => Hypervisors.register req
  | .createAgentToken hypervisorName => issueAgentToken hypervisorName
  | .updateStatus name phase capacity used libvirtURI lastErr => do
    let r ← Client.vm (Vm.updateHypervisorStatus name phase capacity used libvirtURI lastErr)
    return r.map fun _ => ""
  | .delete name => do
    let r ← Hypervisors.delete name
    return r.map fun _ => ""

/-- Whether the request is a new start of a hypervisor. -/
def Request.registers : Request → Bool
  | .create _ | .register _ => true
  | _ => false

/-- The last calls before an agent token of hypervisor `n` is created: the record was found, the old
tokens were to be deleted, and the new one was drawn. -/
def issuing (n : String) (h : Hypervisor) (wiped : Except Err Unit) (b : List UInt8) (u : Time) :
    List (Call Res) :=
  [⟨.vm (.getHypervisor n), (.ok h : Except Err Hypervisor)⟩, ⟨.deleteByHypervisor n, wiped⟩,
    ⟨.vm (.rand 32), (.ok b : Except Err (List UInt8))⟩, ⟨.vm .now, u⟩]

/-- **What a request may do**, given the calls it has made: an agent token is created at the end of
`Gomi.Hypervisors.issuing`, and a record is written by a registration, or by an update of the status
that has just read it. -/
def Request.Allows (r : Request) (cs : List (Call Res)) : Op → Prop
  | .createAgentToken t => ∃ cs₀ h wiped b u, cs = cs₀ ++ issuing t.hypervisorName h wiped b u
  | .vm (.upsertHypervisor h) => r.registers = true ∨
      ∃ n g u, cs = [⟨.vm (.getHypervisor n), (.ok g : Except Err Hypervisor)⟩, ⟨.vm .now, u⟩] ∧
        h.name = g.name
  | _ => True

/-- **What has been done when a request has answered**: a deletion that went through has made two
calls. -/
def Request.Answered (r : Request) (cs : List (Call Res)) (a : Except Err String) : Prop :=
  ∀ n text, r = .delete n → a = .ok text → ∃ wiped : Except Err Unit,
    cs = [⟨.vm (.deleteHypervisor n), (.ok () : Except Err Unit)⟩, ⟨.deleteByHypervisor n, wiped⟩]

variable {r : Request}

/-- An agent token is issued in the order that is allowed. -/
theorem issueAgentToken_obeys {Q : List (Call Res) → Except Err String → Prop} (n : String)
    (hQ : ∀ cs a, Q cs a) (cs : List (Call Res)) : (issueAgentToken n).Obeys r.Allows Q cs := by
  refine .perform_bind trivial fun found => ?_
  cases found with
  | error => exact .pure (hQ _ _)
  | ok h =>
    refine .perform_bind trivial fun wiped => ?_
    refine .perform_bind trivial fun drawn => ?_
    cases drawn with
    | error => exact .pure (hQ _ _)
    | ok b =>
      refine .perform_bind trivial fun u => ?_
      refine .perform_bind ⟨cs, h, wiped, b, u, by simp [issuing]⟩ fun created => ?_
      cases created with
      | error e | ok _ => exact .pure (hQ _ _)

/-- A registration may write its record whenever it likes. -/
theorem register_obeys (req : RegisterRequest) :
    (register req).Obeys (Request.register req).Allows (Request.register req).Answered [] := by
  have hQ : ∀ cs a, (Request.register req).Answered cs a := fun cs a n text hr => nomatch hr
  rw [register]
  cases validateRegisterRequest req with
  | error => exact .pure (hQ _ _)
  | ok _ =>
    refine .perform_bind trivial fun u₁ => ?_
    refine .perform_bind trivial fun marked => ?_
    cases marked with
    | error => exact .pure (hQ _ _)
    | ok _ =>
      refine .perform_bind trivial fun u₂ => ?_
      refine .perform_bind trivial fun existing => ?_
      refine .perform_bind (Or.inl rfl) fun written => ?_
      cases written with
      | error => exact .pure (hQ _ _)
      | ok _ =>
        refine (issueAgentToken_obeys _ (fun _ _ => trivial) _).bind fun cs a _ _ => ?_
        cases a with
        | error e | ok tok => exact .pure (hQ _ _)

/-- A deletion that went through has made its two calls. -/
theorem delete_obeys (n : String) :
    (delete n).Obeys r.Allows (fun cs a => a = .ok () → ∃ wiped : Except Err Unit,
      cs = [⟨.vm (.deleteHypervisor n), (.ok () : Except Err Unit)⟩,
        ⟨.deleteByHypervisor n, wiped⟩]) [] := by
  refine .perform_bind trivial fun deleted => ?_
  cases deleted with
  | error => exact .pure (by simp)
  | ok _ =>
    refine .perform_bind trivial fun wiped => ?_
    exact .pure fun _ => ⟨wiped, rfl⟩

/-- An update of the status writes the record that it has read. -/
theorem updateStatus_obeys (n : String) (phase : HypervisorPhase) (capacity : Option ResourceInfo)
    (used : Option ResourceUsage) (libvirtURI lastErr : String) :
    (Client.vm (Vm.updateHypervisorStatus n phase capacity used libvirtURI lastErr)).Obeys r.Allows
      (fun _ _ => True) [] := by
  refine Client.vm_obeys trivial fun found => ?_
  cases found with
  | error => exact .pure trivial
  | ok g =>
    refine Client.vm_obeys trivial fun u => ?_
    refine Client.vm_obeys (Or.inr ⟨n, g, u, rfl, rfl⟩) fun written => ?_
    cases written with
    | error e | ok _ => exact .pure trivial

/-- A new start may do whatever the system of virtual machines can do. -/
theorem vm_obeys_of_registers {α : Type} (hr : r.registers = true) (p : Prog Vm.Res α)
    (cs : List (Call Res)) : (Client.vm p).Obeys r.Allows (fun _ _ => True) cs := by
  induction p generalizing cs with
  | ret => exact .pure trivial
  | call o k ih =>
    refine Client.vm_obeys ?_ fun reply => ih reply _
    cases o with
    | upsertHypervisor => exact Or.inl hr
    | _ => trivial

/-- **Every request keeps to what it may do.** -/
theorem Request.prog_obeys (r : Request) : r.prog.Obeys r.Allows r.Answered [] := by
  cases r with
  | create =>
    refine (vm_obeys_of_registers rfl _ []).bind fun cs a _ _ => ?_
    exact .pure fun n text hr => nomatch hr
  | register req => exact register_obeys req
  | createAgentToken n => exact issueAgentToken_obeys n (fun cs a n text hr => nomatch hr) []
  | updateStatus n phase capacity used libvirtURI lastErr =>
    refine (updateStatus_obeys n phase capacity used libvirtURI lastErr).bind fun cs a _ _ => ?_
    exact .pure fun n text hr => nomatch hr
  | delete n =>
    refine (delete_obeys n).bind fun cs a _ ha => .pure ?_
    rintro m text hr htext
    cases hr
    cases a with
    | ok => exact ha rfl
    | error => cases htext

end Gomi.Hypervisors
