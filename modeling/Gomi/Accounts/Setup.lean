import Gomi.Api.Server
import Gomi.Interleaving.Since
import Gomi.Table

/-!
# The first administrator

A fresh server has no users, and anybody may create the first administrator: with a request that
needs no session, or on the command line (`Gomi.Accounts.createFirstAdmin`). Once there is a user,
further ones are created by an administrator. The requests here are those that write users, over the
operations of the store of accounts; hashing a password is one more operation, since it takes long.

Whether setup is over is decided by counting the users, and the administrator is written by an upsert
that knows nothing of the count. So two requests that count before either of them writes both succeed.
They do not exactly if nobody stores a user between the count of a request and its own write
(`Gomi.Accounts.first_admin_iff`).
-/

namespace Gomi.Accounts

open Go Prog

variable {username password : String} {α : Type}

/-! ### The store -/

/-- `auth.Role`: a text, of which three are known. -/
inductive Role where
  | admin
  | operator
  | viewer
  | other (text : String)
  deriving DecidableEq

/-- `auth.User`. -/
structure User where
  username : String
  passwordHash : String
  role : Role
  createdAt : Time
  deriving DecidableEq

/-- The two stores of accounts. -/
inductive Backend where
  | sql
  | memory
  deriving DecidableEq

/-- The operations: those of the store on users, those of `bcrypt`, and the clock. -/
inductive Op where
  | countUsers
  | upsertUser (user : User)
  | getUser (username : String)
  /-- `bcrypt.GenerateFromPassword`. -/
  | generateFromPassword (password : String)
  /-- `bcrypt.CompareHashAndPassword`. -/
  | compareHashAndPassword (hash password : String)
  /-- `time.Now().UTC()`. -/
  | now
  deriving DecidableEq

/-- The replies to an operation. -/
def Res : Op → Type
  | .countUsers => Except Err ℕ
  | .upsertUser _ => Except Err Unit
  | .getUser _ => Except Err User
  | .generateFromPassword _ => Except Err String
  | .compareHashAndPassword .. => Bool
  | .now => Time

instance : (o : Op) → DecidableEq (Res o)
  | .countUsers => inferInstanceAs (DecidableEq (Except Err ℕ))
  | .upsertUser _ => inferInstanceAs (DecidableEq (Except Err Unit))
  | .getUser _ => inferInstanceAs (DecidableEq (Except Err User))
  | .generateFromPassword _ => inferInstanceAs (DecidableEq (Except Err String))
  | .compareHashAndPassword .. => inferInstanceAs (DecidableEq Bool)
  | .now => inferInstanceAs (DecidableEq Time)

/-- The row that an upsert leaves: in SQL, the time of creation of a row that is there stays. -/
def Backend.merge (b : Backend) (old : Option User) (user : User) : User :=
  match b, old with
  | .sql, some old => { user with createdAt := old.createdAt }
  | _, _ => user

/-- `UpsertUser`. -/
def Backend.upsertUser (b : Backend) (users : Table User) (user : User) :
    Except Err Unit × Table User :=
  (.ok (), users.insert user.username (b.merge users[user.username]? user))

/-- `GetUser`. -/
def getUser (users : Table User) (username : String) : Except Err User :=
  match users[username]? with
  | some user => .ok user
  | none => .error .notFound

/-- A reply of the store, or a failure without an effect. -/
def execute {α : Type} [DecidableEq (Except Err α)] (users : Table User)
    (answer : Except Err α × Table User) (reply : Except Err α) : Option (Table User) :=
  if reply = answer.1 then some answer.2
  else match reply with
    | .error (.msg _) => some users
    | _ => none

/-- **The semantics of the operations** on the table of users. -/
def step (b : Backend) : (o : Op) → Table User → Res o → Option (Table User)
  | .countUsers, users, r => execute users (.ok users.size, users) r
  | .upsertUser user, users, r => execute users (b.upsertUser users user) r
  | .getUser username, users, r => execute users (getUser users username, users) r
  | .generateFromPassword _, users, _ => some users
  | .compareHashAndPassword .., users, _ => some users
  | .now, users, _ => some users

/-! ### The requests -/

namespace Client

/-- `CountUsers`. -/
abbrev countUsers : Prog Res (Except Err ℕ) := .perform Op.countUsers

/-- `UpsertUser`. -/
abbrev upsertUser (user : User) : Prog Res (Except Err Unit) := .perform (Op.upsertUser user)

/-- `GetUser`. -/
abbrev getUser (username : String) : Prog Res (Except Err User) := .perform (Op.getUser username)

/-- `bcrypt.GenerateFromPassword`. -/
abbrev generateFromPassword (password : String) : Prog Res (Except Err String) :=
  .perform (Op.generateFromPassword password)

/-- `bcrypt.CompareHashAndPassword`. -/
abbrev compareHashAndPassword (hash password : String) : Prog Res Bool :=
  .perform (Op.compareHashAndPassword hash password)

/-- `time.Now().UTC()`. -/
abbrev now : Prog Res Time := .perform Op.now

end Client

/-- The errors of `CreateFirstAdmin`: `ErrAlreadyConfigured`, and any other. -/
inductive SetupError where
  | alreadyConfigured
  | other (e : Err)
  deriving DecidableEq

/-- `Error()`. -/
def SetupError.text : SetupError → String
  | .alreadyConfigured => "setup already completed"
  | .other e => e.text

/-- `CreateFirstAdmin`. -/
def createFirstAdmin (username password : String) : Prog Res (Except SetupError Unit) := do
  let username := trimSpace username
  if username = "" ∨ password = "" then
    return .error (.other (.msg "username/password required"))
  else if password.utf8ByteSize < 8 then
    return .error (.other (.msg "password must be at least 8 characters"))
  else
  match ← Client.countUsers with
  | .error e => return .error (.other e)
  | .ok count =>
  if count > 0 then return .error .alreadyConfigured
  else
  match ← Client.generateFromPassword password with
  | .error e => return .error (.other e)
  | .ok hash =>
  let now ← Client.now
  match ← Client.upsertUser { username, passwordHash := hash, role := .admin, createdAt := now } with
  | .error e => return .error (.other e)
  | .ok _ => return .ok ()

/-- `createUser`. -/
def createUser (username password : String) (role : Role) : Prog Res (Except Err Unit) := do
  let username := trimSpace username
  match ← Client.generateFromPassword password with
  | .error e => return .error e
  | .ok hash =>
  let now ← Client.now
  Client.upsertUser { username, passwordHash := hash, role, createdAt := now }

/-- `validateUserRole`. -/
def validateUserRole (role : Role) : Except Err Role :=
  match role with
  | .admin | .operator | .viewer => .ok role
  | .other _ => .error (.msg "role must be admin, operator, or viewer")

/-- The response to a request that has created something. -/
def created : Response := { status := 201, body := .status "created" }

/-- `SetupAdmin`; the body is a name and a password, if it can be read. -/
def setupAdmin (body : Option (String × String)) : Prog Res Response := do
  match body with
  | none => return .failed 400 "invalid body"
  | some (username, password) =>
  match ← createFirstAdmin username password with
  | .error .alreadyConfigured => return .failed 409 "setup already completed"
  | .error (.other e) => return .failed 400 e.text
  | .ok _ => return created

/-- `CreateUser`. -/
def postUser (body : Option (String × String × Role)) : Prog Res Response := do
  match body with
  | none => return .failed 400 "invalid body"
  | some (name, password, role) =>
  let username := trimSpace name
  if username = "" ∨ password = "" then return .failed 400 "username/password required"
  else
  match validateUserRole role with
  | .error e => return .failed 400 e.text
  | .ok role =>
  match ← createUser username password role with
  | .error e => return .failed 500 e.text
  | .ok _ => return created

/-- `ChangeMyPassword`, of the user of the session if there is one; the body is the current and the
new password. -/
def changeMyPassword (user : Option String) (session : Bool) (body : Option (String × String)) :
    Prog Res Response := do
  match user with
  | none => return .failed 401 "auth required"
  | some username =>
  if session = false then return .failed 403 "session user required"
  else
  match body with
  | none => return .failed 400 "invalid body"
  | some (current, password) =>
  if current = "" ∨ password = "" then return .failed 400 "currentPassword/newPassword required"
  else if password.utf8ByteSize < 8 then
    return .failed 400 "new password must be at least 8 characters"
  else
  match ← Client.getUser username with
  | .error _ => return .failed 401 "invalid session user"
  | .ok stored =>
  if !(← Client.compareHashAndPassword stored.passwordHash current) then
    return .failed 400 "invalid current password"
  else
  match ← createUser stored.username password stored.role with
  | .error e => return .failed 500 e.text
  | .ok _ => return { status := 204 }

/-- `ensureBootstrapAdmin`, as the server starts. -/
def ensureBootstrapAdmin (username password : String) : Prog Res (Except Err Unit) := do
  let username := trimSpace username
  if username = "" ∧ password = "" then return .ok ()
  else if username = "" ∨ password = "" then
    return .error (.msg "admin bootstrap requires both username and password")
  else
  match ← Client.getUser username with
  | .ok _ => return .ok ()
  | .error .notFound =>
    match ← Client.generateFromPassword password with
    | .error e => return .error e
    | .ok hash =>
    let now ← Client.now
    Client.upsertUser { username, passwordHash := hash, role := .admin, createdAt := now }
  | .error e => return .error e

/-- What a client gets: a response, the exit code of a command with what it prints, or the result of
a call. -/
inductive Answer where
  | response (r : Response)
  | exit (code : ℕ) (output : String)
  | returned (r : Except Err Unit)
  deriving DecidableEq

/-- `runSetupAdmin`, once the password is read and the database is open. -/
def runSetupAdmin (username password : String) (ignoreAlreadyConfigured : Bool) :
    Prog Res Answer := do
  match ← createFirstAdmin username password with
  | .error e =>
    if e = .alreadyConfigured ∧ ignoreAlreadyConfigured = true then
      return .exit 0 "setup already completed"
    else return .exit 1 ("create first admin: " ++ e.text)
  | .ok _ => return .exit 0 ("created first admin: " ++ trimSpace username)

/-- The requests that write users. -/
inductive Request where
  | setupAdmin (body : Option (String × String))
  | runSetupAdmin (username password : String) (ignoreAlreadyConfigured : Bool)
  | postUser (body : Option (String × String × Role))
  | changeMyPassword (user : Option String) (session : Bool) (body : Option (String × String))
  | ensureBootstrapAdmin (username password : String)

/-- What a client does for its request. -/
def Request.prog : Request → Prog Res Answer
  | .setupAdmin body => do return .response (← Accounts.setupAdmin body)
  | .runSetupAdmin username password ignoreAlreadyConfigured =>
    Accounts.runSetupAdmin username password ignoreAlreadyConfigured
  | .postUser body => do return .response (← Accounts.postUser body)
  | .changeMyPassword user session body => do
    return .response (← Accounts.changeMyPassword user session body)
  | .ensureBootstrapAdmin username password => do
    return .returned (← Accounts.ensureBootstrapAdmin username password)

/-- The answer that says that `CreateFirstAdmin` has succeeded, for the requests that call it. -/
def Request.success : Request → Option Answer
  | .setupAdmin _ => some (.response created)
  | .runSetupAdmin username _ _ => some (.exit 0 ("created first admin: " ++ trimSpace username))
  | _ => none

/-! ### What a success rests on -/

/-- The calls before the write, of a `CreateFirstAdmin` that has counted no user. -/
def prepared (password hash : String) (now : Time) : List (Call Res) :=
  [⟨.countUsers, Except.ok 0⟩, ⟨.generateFromPassword password, Except.ok hash⟩, ⟨.now, now⟩]

/-- The calls of a `CreateFirstAdmin` that succeeds: it has counted no user, and written one. -/
def Succeeded (cs : List (Call Res)) : Prop :=
  ∃ password hash now user, cs = prepared password hash now ++ [⟨.upsertUser user, Except.ok ()⟩]

theorem createFirstAdmin_obeys :
    (createFirstAdmin username password).Obeys (fun _ _ => True)
      (fun cs a => a = .ok () → Succeeded cs) [] := by
  refine .ite (fun _ => .pure (by simp)) fun _ => ?_
  refine .ite (fun _ => .pure (by simp)) fun _ => ?_
  refine .perform_bind trivial fun count => ?_
  cases count with
  | error => exact .pure (by simp)
  | ok count =>
    refine .ite (fun _ => .pure (by simp)) fun hcount => ?_
    obtain rfl : count = 0 := by omega
    refine .perform_bind trivial fun hash => ?_
    cases hash with
    | error => exact .pure (by simp)
    | ok =>
      refine .perform_bind trivial fun now => .perform_bind trivial fun r => ?_
      cases r with
      | error => exact .pure (by simp)
      | ok _ => exact .pure fun _ => ⟨_, _, _, _, rfl⟩

theorem failed_ne_created {status : ℕ} {text : String} (h : status ≠ 201) :
    Response.failed status text ≠ created := fun heq => h (congrArg Response.status heq)

theorem setupAdmin_obeys {body : Option (String × String)} :
    (setupAdmin body).Obeys (fun _ _ => True) (fun cs a => a = created → Succeeded cs) [] := by
  cases body with
  | none => exact .pure fun h => absurd h (failed_ne_created (by decide))
  | some body =>
    obtain ⟨username, password⟩ := body
    refine createFirstAdmin_obeys.bind fun cs a _ ha => ?_
    cases a with
    | ok _ => exact .pure fun _ => ha rfl
    | error e =>
      cases e with
      | alreadyConfigured | other e => exact .pure fun h => absurd h (failed_ne_created (by decide))

theorem runSetupAdmin_obeys {ignoreAlreadyConfigured : Bool} :
    (runSetupAdmin username password ignoreAlreadyConfigured).Obeys (fun _ _ => True)
      (fun cs a => a = .exit 0 ("created first admin: " ++ trimSpace username) → Succeeded cs) [] := by
  refine createFirstAdmin_obeys.bind fun cs a _ ha => ?_
  cases a with
  | ok _ => exact .pure fun _ => ha rfl
  | error =>
    refine .ite (fun _ => .pure fun h => ?_) fun _ => .pure fun h => ?_
    · have hlist := congrArg (fun s => s.toList.head?) (Answer.exit.inj h).2
      simp at hlist
    · exact absurd (Answer.exit.inj h).1 (by decide)

/-- **A request that says so has succeeded.** -/
theorem Request.prog_obeys (req : Request) :
    req.prog.Obeys (fun _ _ => True) (fun cs a => req.success = some a → Succeeded cs) [] := by
  cases req with
  | setupAdmin =>
    refine setupAdmin_obeys.bind fun cs r _ hr => .pure fun h => hr ?_
    exact (Answer.response.inj (Option.some.inj h)).symm
  | runSetupAdmin =>
    exact runSetupAdmin_obeys.mono (fun _ _ h => h)
      fun cs a ha h => ha (Option.some.inj h).symm
  | postUser => exact .of_forall (fun _ _ => trivial) fun _ _ h => nomatch h
  | changeMyPassword user session body | ensureBootstrapAdmin username password =>
    exact .of_forall (fun _ _ => trivial) fun _ _ h => nomatch h

/-! ### Users stay -/

/-- Whether an upsert was acknowledged. -/
def acked (r : Except Err Unit) : Bool :=
  match r with
  | .ok _ => true
  | .error _ => false

/-- Whether an event stores a user. -/
def stores : Event Res → Bool
  | ⟨_, .upsertUser _, r⟩ => acked r
  | _ => false

variable {users users' : Table User}

theorem execute_cases [DecidableEq (Except Err α)] {answer : Except Err α × Table User}
    {reply : Except Err α} (h : execute users answer reply = some users') :
    (reply = answer.1 ∧ users' = answer.2) ∨
      ((∃ text, reply = .error (.msg text)) ∧ users' = users) :=
  reply_cases h

/-- A reply without an effect leaves the users as they are. -/
theorem execute_reads [DecidableEq (Except Err α)] {answer reply : Except Err α}
    (h : execute users (answer, users) reply = some users') : users' = users := by
  rcases execute_cases h with ⟨-, h⟩ | ⟨-, h⟩ <;> exact h

variable {b : Backend}

/-- **A user is stored by an acknowledged upsert, and by nothing else.** -/
theorem step_cases {e : Event Res} (h : step b e.op users e.res = some users') :
    (stores e = true ∧ users' ≠ ∅ ∧ ∃ user, e.toCall = ⟨.upsertUser user, Except.ok ()⟩ ∧
      users' = (b.upsertUser users user).2) ∨ (stores e = false ∧ users' = users) := by
  obtain ⟨tid, op, res⟩ := e
  cases op with
  | countUsers | getUser username => exact .inr ⟨rfl, execute_reads h⟩
  | upsertUser user =>
    rcases execute_cases h with ⟨rfl, rfl⟩ | ⟨⟨text, hres⟩, hsame⟩
    · exact .inl ⟨rfl, Std.ExtTreeMap.insert_ne_empty, user, rfl, rfl⟩
    · exact .inr ⟨congrArg acked hres, hsame⟩
  | generateFromPassword password | compareHashAndPassword hash password =>
    exact .inr ⟨rfl, (Option.some.inj h).symm⟩
  | now => exact .inr ⟨rfl, (Option.some.inj h).symm⟩

/-- Users stay. -/
theorem ne_empty_after {T : List (Event Res)} (h : after (step b) users T = some users')
    (hne : users ≠ ∅) : users' ≠ ∅ :=
  after_keeps (I := fun users => users ≠ ∅) (fun o s r s' hs hne => by
    rcases step_cases (e := ⟨0, o, r⟩) hs with ⟨-, h, -⟩ | ⟨-, rfl⟩
    · exact h
    · exact hne) h hne

/-- If nobody stores a user, the users are the same. -/
theorem after_eq_self {T : List (Event Res)} (h : after (step b) users T = some users')
    (hT : ∀ e ∈ T, stores e = false) : users' = users := by
  induction T generalizing users with
  | nil => exact (Option.some.inj h).symm
  | cons e T ih =>
    obtain ⟨users₁, h₁, h₂⟩ := after_cons_eq_some.mp h
    rcases step_cases h₁ with ⟨hs, -⟩ | ⟨-, rfl⟩
    · exact absurd hs (by simp [hT e List.mem_cons_self])
    · exact ih h₂ fun e he => hT e (List.mem_cons_of_mem _ he)

/-! ### The first administrator -/

section First

variable (b) (reqs : ℕ → Request) (users₀ : Table User)

/-- After the trace `A`, the event `e` is the last of a `CreateFirstAdmin`, which succeeds: with it,
its client has the answer that says so. -/
def Succeeds (A : List (Event Res)) (e : Event Res) : Prop :=
  ∃ a, (reqs e.tid).success = some a ∧
    Path (reqs e.tid).prog (localOf e.tid A ++ [e.toCall]) (.ret a)

/-- **The first administrator is created once, as the first user**: at most one `CreateFirstAdmin`
succeeds, and there was no user at any point before it does. -/
structure FirstOnly (T : List (Event Res)) : Prop where
  once : ∀ A e B A' e' B', T = A ++ e :: B → T = A' ++ e' :: B' →
    Succeeds reqs A e → Succeeds reqs A' e' → A = A'
  first : ∀ A e B, T = A ++ e :: B → Succeeds reqs A e →
    ∀ A₁ A₂ users, A = A₁ ++ A₂ → after (step b) users₀ A₁ = some users → users = ∅

/-- Whether an operation counts the users. -/
def counts : Op → Bool
  | .countUsers => true
  | _ => false

end First

section Runs

variable {reqs : ℕ → Request} {users₀ users : Table User} {c : ℕ → Prog Res Answer}
  {A T : List (Event Res)} {e : Event Res}

/-- **A success, in the trace**: it stores a user, and its own count before has found none. -/
theorem Succeeds.calls (h : Succeeds reqs A e) : stores e = true ∧
    ∃ A₁ e₁, A = A₁ ++ e₁ :: since (madeBy e.tid counts) A ∧
      e₁.toCall = ⟨.countUsers, Except.ok 0⟩ := by
  obtain ⟨a, hsuccess, hpath⟩ := h
  obtain ⟨password, hash, now, user, hcs⟩ := (reqs e.tid).prog_obeys.of_path_ret hpath hsuccess
  obtain ⟨hlocal, he⟩ := List.append_inj' hcs rfl
  have hquiet : ∀ d ∈ (prepared password hash now).tail, counts d.op = false := by
    intro d hd
    rcases List.mem_cons.mp hd with rfl | hd
    · rfl
    · obtain rfl := List.mem_singleton.mp hd
      rfl
  obtain ⟨A₁, e₁, hA, -, he₁, -⟩ := exists_since (q := counts)
    (show localOf e.tid A = [] ++ ⟨.countUsers, Except.ok 0⟩ :: _ from hlocal) rfl hquiet
  refine ⟨?_, A₁, e₁, hA, he₁⟩
  obtain ⟨tid, op, res⟩ := e
  cases List.singleton_inj.mp he
  rfl

/-- If nobody stores a user between the count and the write of a success, there is no user before
the write. -/
theorem Succeeds.no_user (h : Succeeds reqs A e)
    (hquiet : ∀ x ∈ since (madeBy e.tid counts) A, stores x = false)
    (hafter : after (step b) users₀ A = some users) : users = ∅ := by
  obtain ⟨-, A₁, e₁, hA, he₁⟩ := h.calls
  rw [hA] at hafter
  obtain ⟨s₁, s₂, -, hcount, hrest⟩ := after_split hafter
  rw [after_eq_self hrest hquiet]
  -- no user is counted if there is none
  obtain ⟨tid, op, res⟩ := e₁
  cases he₁
  have hreply : execute s₁ (.ok s₁.size, s₁) (.ok 0) = some s₂ := hcount
  rcases execute_cases hreply with ⟨hres, rfl⟩ | ⟨⟨text, hres⟩, -⟩
  · exact Std.ExtTreeMap.eq_empty_iff_size_eq_zero.mpr (Except.ok.inj hres).symm
  · cases hres

/-- **The first administrator is created once, as the first user,** exactly if nobody stores a user
between the count and the write of a `CreateFirstAdmin` that succeeds. -/
theorem first_admin_iff (b : Backend) (reqs : ℕ → Request) (users₀ users : Table User)
    (T : List (Event Res)) (c : ℕ → Prog Res Answer)
    (hrun : Run (step b) (fun t => (reqs t).prog) users₀ T c users) :
    FirstOnly b reqs users₀ T ↔ EachStep (fun A e => Succeeds reqs A e →
      ∀ x ∈ since (madeBy e.tid counts) A, stores x = false) T := by
  constructor
  · rintro ⟨-, hfirst⟩ A e B rfl hs x hx
    obtain ⟨-, A₁, e₁, hA, -⟩ := hs.calls
    obtain ⟨M₁, M₂, hM⟩ := List.append_of_mem hx
    -- the users after `x`, which comes before `e`
    have hsplit : A = (A₁ ++ e₁ :: M₁ ++ [x]) ++ M₂ := by
      rw [hA, hM]
      simp
    have hafter := hrun.after_eq
    rw [hsplit, List.append_assoc, List.append_assoc] at hafter
    obtain ⟨s₁, h₁, hafter⟩ := after_append_eq_some.mp hafter
    obtain ⟨s₂, h₂, -⟩ := after_append_eq_some.mp hafter
    have hempty := hfirst A e B rfl hs _ M₂ s₂ hsplit (after_append_eq_some.mpr ⟨s₁, h₁, h₂⟩)
    obtain ⟨s₃, h₃, hend⟩ := after_cons_eq_some.mp h₂
    obtain rfl : s₃ = s₂ := Option.some.inj hend
    rcases step_cases h₃ with ⟨-, hne, -⟩ | ⟨hx, -⟩
    · exact absurd hempty hne
    · exact hx
  · intro hquiet
    have hfirst : ∀ A e B, T = A ++ e :: B → Succeeds reqs A e → ∀ A₁ A₂ users, A = A₁ ++ A₂ →
        after (step b) users₀ A₁ = some users → users = ∅ := by
      rintro A e B rfl hs A₁ A₂ users₁ rfl h₁
      obtain ⟨s, hA, -⟩ := after_append_eq_some.mp hrun.after_eq
      have hempty := hs.no_user (hquiet _ e B rfl hs) hA
      obtain ⟨s', h₁', h₂⟩ := after_append_eq_some.mp hA
      obtain rfl := Option.mem_unique h₁ h₁'
      by_contra hne
      exact ne_empty_after h₂ hne hempty
    -- a success leaves a user, so that none comes after it
    have hlast : ∀ A e C e' B, T = (A ++ e :: C) ++ e' :: B → Succeeds reqs A e →
        ¬ Succeeds reqs (A ++ e :: C) e' := by
      rintro A e C e' B rfl hs hs'
      have hafter := hrun.after_eq
      rw [List.append_assoc, List.cons_append] at hafter
      obtain ⟨s₁, s₂, h₁, hstep, -⟩ := after_split hafter
      have hempty := hfirst _ e' B rfl hs' (A ++ [e]) C s₂ (by simp)
        (after_append_eq_some.mpr ⟨s₁, h₁, after_cons_eq_some.mpr ⟨s₂, hstep, rfl⟩⟩)
      rcases step_cases hstep with ⟨-, hne, -⟩ | ⟨hno, -⟩
      · exact hne hempty
      · exact absurd hs.calls.1 (by simp [hno])
    refine ⟨fun A e B A' e' B' hT hT' hs hs' => ?_, hfirst⟩
    rcases split_cases (hT.symm.trans hT') with ⟨hA, -⟩ | ⟨C, rfl, -⟩ | ⟨C, rfl, -⟩
    · exact hA
    · exact absurd hs' (hlast A e C e' B' hT' hs)
    · exact absurd hs (hlast A' e' C e B hT hs')

/-- A client with the answer of a success has succeeded at some event. -/
theorem exists_succeeds {t : ℕ} {a : Answer}
    (hrun : Run (step b) (fun t => (reqs t).prog) users₀ T c users)
    (hret : (c t).answer? = some a) (hsuccess : (reqs t).success = some a) :
    ∃ A e B, T = A ++ e :: B ∧ e.tid = t ∧ Succeeds reqs A e := by
  have hpath := hrun.path t
  rw [answer?_eq_some.mp hret] at hpath
  obtain ⟨password, hash, now, user, hcs⟩ := (reqs t).prog_obeys.of_path_ret hpath hsuccess
  obtain ⟨A, e, B, rfl, rfl, hcall, hA, hB⟩ := exists_event_of_localOf hcs
  refine ⟨A, e, B, rfl, rfl, a, hsuccess, ?_⟩
  rw [hcs] at hpath
  rw [hA, hcall]
  exact hpath

end Runs

/-! ### Two requests at a time -/

/-- The replies of a store that does not fail, at the epoch. -/
def replies : (o : Op) → Table User → Res o
  | .countUsers, users => Except.ok users.size
  | .upsertUser _, _ => Except.ok ()
  | .getUser username, users => getUser users username
  | .generateFromPassword password, _ => Except.ok ("hash of " ++ password)
  | .compareHashAndPassword hash password, _ => decide (hash = "hash of " ++ password)
  | .now, _ => (0 : ℤ)

/-- Two clients that set up the server, and others that have nothing to do. -/
def twoSetups : ℕ → Request
  | 0 => .setupAdmin (some ("alice", "password of alice"))
  | 1 => .setupAdmin (some ("bob", "password of bob"))
  | _ => .ensureBootstrapAdmin "" ""

theorem twoSetups_eval : ((play (step .sql) ([0, 1, 0, 1, 0, 1, 0, 1].map fun t => (t, replies))
    ([], fun t => (twoSetups t).prog, ∅)).any fun x =>
      decide ((x.2.1 0).answer? = some (.response created)) &&
        decide ((x.2.1 1).answer? = some (.response created))) = true := by
  decide

/-- **Both of two clients that count at the same time create the first administrator.** -/
theorem first_admin_twice : ∃ T c users,
    Run (step .sql) (fun t => (twoSetups t).prog) ∅ T c users ∧
      (c 0).answer? = some (.response created) ∧ (c 1).answer? = some (.response created) ∧
      ¬ FirstOnly .sql twoSetups ∅ T := by
  obtain ⟨T, c, users, hrun, hcheck⟩ := exists_run_of_play twoSetups_eval
  obtain ⟨h₀, h₁⟩ := Bool.and_eq_true_iff.mp hcheck
  refine ⟨T, c, users, hrun, of_decide_eq_true h₀, of_decide_eq_true h₁, fun h => ?_⟩
  obtain ⟨A, e, B, hT, he, hs⟩ := exists_succeeds hrun (of_decide_eq_true h₀) rfl
  obtain ⟨A', e', B', hT', he', hs'⟩ := exists_succeeds hrun (of_decide_eq_true h₁) rfl
  obtain rfl := h.once A e B A' e' B' hT hT' hs hs'
  obtain ⟨rfl, -⟩ := List.cons.inj (List.append_cancel_left (hT.symm.trans hT'))
  exact absurd (he.symm.trans he') (by decide)

theorem oneByOne_eval : ((play (step .sql) ([0, 0, 0, 0, 1].map fun t => (t, replies))
    ([], fun t => (twoSetups t).prog, ∅)).any fun x =>
      decide ((x.2.1 0).answer? = some (.response created)) &&
        eachStep (fun A e => !stores e || (since (madeBy e.tid counts) A).all (!stores ·)) [] x.1) =
      true := by
  decide

/-- Two clients one after the other: the first administrator is created once. -/
theorem first_admin_one_by_one : ∃ T c users,
    Run (step .sql) (fun t => (twoSetups t).prog) ∅ T c users ∧
      (c 0).answer? = some (.response created) ∧ FirstOnly .sql twoSetups ∅ T := by
  obtain ⟨T, c, users, hrun, hcheck⟩ := exists_run_of_play oneByOne_eval
  obtain ⟨h₀, hquiet⟩ := Bool.and_eq_true_iff.mp hcheck
  refine ⟨T, c, users, hrun, of_decide_eq_true h₀, ?_⟩
  refine (first_admin_iff .sql twoSetups ∅ users T c hrun).mpr (EachStep.of_eval ?_ hquiet)
  intro A e hok hs x hx
  rw [hs.calls.1, Bool.not_true, Bool.false_or] at hok
  simpa using List.all_eq_true.mp hok x hx

end Gomi.Accounts
