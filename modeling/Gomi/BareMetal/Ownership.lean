import Gomi.Store.Client
import Gomi.Store.Writes

/-!
# Ownership of hosts

Any number of clients call the bare-metal store, each with any arguments, and their
statements interleave in any order. Whatever they do,

* a row is unowned exactly while it is available, and then it has no attempt
  (`Gomi.HostRow.Consistent`);
* an owner has at most one host – the constraint of the schema, carried by
  `Gomi.Database`;
* an owner is given a host by its own `Acquire` only, and loses it by a
  `CompleteRelease` of a releasing row only.

A host that an `Acquire` returned is therefore *held*: the row keeps its owner until a
`CompleteRelease` for that owner is acknowledged (`Gomi.owner_held`). The two facts
about concurrent acquisitions – different owners never hold one host, one owner never
gets two – are read off this.
-/

namespace Gomi

variable {lib : Lib} {w w' : World} {n : String}

/-! ### Rows -/

/-- A row is unowned exactly while it is available, and then it has no attempt. -/
structure HostRow.Consistent (r : HostRow) : Prop where
  owner_iff : r.owner = none ↔ r.state = .available
  attempt : r.state = .available → r.attemptID = ""

/-- The rows of a database are consistent. -/
def Database.HostsConsistent (db : Database) : Prop :=
  ∀ (n : String) (r : HostRow), db.hosts[n]? = some r → r.Consistent

variable {r : HostRow} {o : Op} {res : Res o} {call : StoreCall}
variable {owner pool : String} {h : Host} {x y : Option HostRow}

/-- A row that is moved within its claim is consistent. -/
theorem HostRow.consistent_moved {next : HostState} {attempt : String}
    (howner : r.owner = some owner) (hnext : next ≠ .available) :
    (r.moved next attempt).Consistent where
  owner_iff := by
    have hn : (r.moved next attempt).owner ≠ none := by simp [howner]
    exact iff_of_false hn hnext
  attempt h := absurd h hnext

/-- **Every write leaves a consistent row.** -/
theorem HostWrite.consistent (h : HostWrite n o res x y) (hx : ∀ r, x = some r → r.Consistent)
    (hy : y = some r) : r.Consistent := by
  cases h with
  | enroll pool publicKey targetDisk | release hname hreleasing howner hrev hstate =>
    cases hy
    exact ⟨iff_of_true rfl rfl, fun _ => rfl⟩
  | @pool pool revision row hpos hrev howner hstate =>
    cases hy
    exact ⟨iff_of_true howner hstate, (hx row rfl).attempt⟩
  | unregister => cases hy
  | claim =>
    cases hy
    exact ⟨iff_of_false (by simp) (by simp [HostRow.claimedBy]),
      fun h => absurd h (by simp [HostRow.claimedBy])⟩
  | transition hname hvalid howner =>
    cases hy
    -- no permitted move makes a host available
    refine HostRow.consistent_moved howner ?_
    rintro rfl
    cases (validateTransition_eq_ok.mp hvalid).2.2
  | commit hname htarget howner hstate hrev =>
    cases hy
    obtain ⟨p, b, -, -, -, -, -, -, -, hnext⟩ := commitTarget_eq_some.mp htarget
    refine HostRow.consistent_moved howner ?_
    rcases hnext with ⟨-, -, -, rfl⟩ | ⟨-, -, rfl⟩ <;> simp

/-- **A step keeps the rows consistent.** -/
theorem step_consistent (h : step lib o w res = some w') (hw : w.db.HostsConsistent) :
    w'.db.HostsConsistent := by
  intro n r hr
  rcases step_host h with heq | hwrite
  · exact hw n r (heq ▸ hr)
  · exact hwrite.consistent (hw n) hr

/-! ### Owners -/

/-- An acknowledged `CompleteRelease` for an owner. -/
def Event.Releases (owner : String) (e : Event Res) : Prop :=
  ∃ h h', e.toCall = ⟨.completeRelease h, Except.ok h'⟩ ∧ h.owner = owner

/-- Rows come and go without an owner. -/
theorem HostWrite.unowned (h : HostWrite n o res x y) :
    (x = none → ∀ r, y = some r → r.owner = none) ∧ (y = none → ∀ r, x = some r → r.owner = none) := by
  cases h with
  | enroll =>
    exact ⟨fun _ r hr => by rw [← Option.some.inj hr], (by simp)⟩
  | unregister hpos hrev howner =>
    exact ⟨(by simp), fun _ r hr => Option.some.inj hr ▸ howner⟩
  | pool | claim | transition | release | commit => exact ⟨(by simp), (by simp)⟩

/-- **A host is held**: its row keeps its owner until a release for that owner. -/
theorem owner_held {T : List (Event Res)} (hT : after (step lib) w T = some w')
    (hr : w.db.hosts[n]? = some r) (howner : r.owner = some owner)
    (hrel : ∀ e ∈ T, ¬ e.Releases owner) :
    ∃ r', w'.db.hosts[n]? = some r' ∧ r'.owner = some owner := by
  induction T generalizing w r with
  | nil =>
    cases hT
    exact ⟨r, hr, howner⟩
  | cons e T ih =>
    obtain ⟨w₁, hs, hT⟩ := after_cons_eq_some.mp hT
    have hrel' := fun e' he' => hrel e' (List.mem_cons_of_mem _ he')
    rcases step_host hs with heq | hwrite
    · exact ih hT (heq.trans hr) howner hrel'
    · rw [hr] at hwrite
      -- a write of an owned row that is not its release keeps the owner
      suffices hkept : ∃ r₁, w₁.db.hosts[n]? = some r₁ ∧ r₁.owner = some owner by
        obtain ⟨r₁, hr₁, howner₁⟩ := hkept
        exact ih hT hr₁ howner₁ hrel'
      have hkeeps := hrel e List.mem_cons_self
      obtain ⟨tid, op, res⟩ := e
      generalize w₁.db.hosts[n]? = y at hwrite
      cases hwrite with
      | pool hpos hrev hnone | unregister hpos hrev hnone | claim hpool hnone =>
        cases hnone.symm.trans howner
      | transition | commit => exact ⟨_, rfl, howner⟩
      | @release h r hname hreleasing ho hrev hstate =>
        exact absurd ⟨h, _, rfl, Option.mem_unique ho howner⟩ hkeeps

/-! ### Calls -/

/-- The statements of a call. -/
def StoreCall.Issues : StoreCall → Op → Prop
  | .register name pool publicKey targetDisk, o =>
    o = .insertHost name pool publicKey targetDisk ∨ o = .getHost name
  | .updatePool name pool revision, o => o = .updatePool name pool revision
  | .acquire pool owner, o => o = .findOwner owner ∨ o = .claimFirst pool owner
  | .transition h next attempt, o => o = .transition h next attempt
  | .commitDeployment h m, o => o = .commitDeployment h m
  | .completeRelease h, o => o = .completeRelease h
  | .unregister name revision, o => o = .unregister name revision

/-- An `Acquire` that returns a host has just read it as its owner's, or has just
claimed it. -/
def AcquiredBy (pool owner : String) (h : Host) (cs : List (Call Res)) : Prop :=
  ∃ cs', cs = cs' ++ [⟨.findOwner owner, Except.ok h⟩] ∨
    cs = cs' ++ [⟨.claimFirst pool owner, Except.ok h⟩]

/-- What is known of the answer of a call. -/
def StoreCall.Returns : StoreCall → List (Call Res) → Except Err (Option Host) → Prop
  | .acquire pool owner, cs, a => ∀ h, a = .ok (some h) → AcquiredBy pool owner h cs
  | _, _, _ => True

theorem eq_of_samePool {h' : Host}
    (heq : (if h.pool ≠ pool then Except.error Err.conflict else Except.ok h) = Except.ok h') :
    h = h' := by
  split at heq
  · cases heq
  · exact Except.ok.inj heq

theorem acquire_obeys (pool owner : String) (cs : List (Call Res)) :
    (acquire pool owner).Obeys (fun _ o => o = .findOwner owner ∨ o = .claimFirst pool owner)
      (fun cs a => ∀ h, a = .ok h → AcquiredBy pool owner h cs) cs := by
  unfold acquire
  cases validateAcquire pool owner with
  | error => exact .pure (by simp)
  | ok _ =>
    refine .perform_bind (Or.inl rfl) ?_
    rintro (e | h)
    · cases e
      case hostNotFound =>
        refine .perform_bind (Or.inr rfl) ?_
        rintro (e | h)
        · refine .perform_bind (Or.inl rfl) ?_
          rintro (e' | h)
          · exact .pure (by simp)
          · refine .pure fun h' heq => ?_
            obtain rfl := eq_of_samePool heq
            exact ⟨_, Or.inl rfl⟩
        · refine .pure ?_
          rintro h' ⟨⟩
          exact ⟨_, Or.inr rfl⟩
      all_goals exact .pure (by simp)
    · refine .pure fun h' heq => ?_
      obtain rfl := eq_of_samePool heq
      exact ⟨_, Or.inl rfl⟩

theorem register_obeys (name pool publicKey targetDisk : String) (cs : List (Call Res)) :
    (register lib name pool publicKey targetDisk).Obeys
      (fun _ o => o = .insertHost name pool publicKey targetDisk ∨ o = .getHost name)
      (fun _ _ => True) cs := by
  unfold register
  split
  · exact .pure True.intro
  split
  · exact .pure True.intro
  split
  · exact .pure True.intro
  refine .perform_bind (Or.inl rfl) ?_
  rintro (e | _)
  · exact .pure True.intro
  refine .perform_bind (Or.inr rfl) ?_
  rintro (e | h)
  · exact .pure True.intro
  dsimp only
  split <;> exact .pure True.intro

/-- **A call issues its own statements only**, and answers as specified. -/
theorem StoreCall.obeys (call : StoreCall) :
    (call.prog lib).Obeys (fun _ => call.Issues) call.Returns [] := by
  cases call with
  | register name pool publicKey targetDisk =>
    rw [StoreCall.prog]
    exact (register_obeys name pool publicKey targetDisk []).bind fun _ _ _ _ => .pure True.intro
  | acquire pool owner =>
    rw [StoreCall.prog]
    refine (acquire_obeys pool owner []).bind fun cs a _ ha => .pure fun h hmap => ?_
    rcases a with e | h'
    · cases hmap
    · obtain rfl : h' = h := by simpa [Except.map] using hmap
      exact ha h' rfl
  | updatePool | transition | commitDeployment | completeRelease =>
    exact .perform_bind rfl fun _ => .pure True.intro
  | unregister => exact .perform_bind rfl fun _ => .pure True.intro

/-- After an `Acquire` has returned a host, its row has the owner. -/
theorem owner_of_acquiredBy {cs : List (Call Res)} {e : Event Res}
    (ha : AcquiredBy pool owner h (cs ++ [e.toCall])) (hs : step lib e.op w e.res = some w') :
    ∃ r, w'.db.hosts[h.name]? = some r ∧ r.owner = some owner := by
  obtain ⟨tid, op, res⟩ := e
  obtain ⟨cs', heq | heq⟩ := ha
  · obtain ⟨-, hlast⟩ := List.append_inj' heq rfl
    obtain ⟨rfl, hres⟩ := Call.mk.inj (List.head_eq_of_cons_eq hlast)
    obtain rfl := eq_of_heq hres
    obtain ⟨rfl, r, hr, ho, -⟩ := step_findOwner_ok hs
    exact ⟨r, hr, ho⟩
  · obtain ⟨-, hlast⟩ := List.append_inj' heq rfl
    obtain ⟨rfl, hres⟩ := Call.mk.inj (List.head_eq_of_cons_eq hlast)
    obtain rfl := eq_of_heq hres
    obtain ⟨r, -, -, -, hr'⟩ := step_claimFirst_ok hs
    exact ⟨_, hr', rfl⟩

/-! ### Runs -/

/-- The owner of a host; a machine that is not enrolled has none. -/
def Database.ownerOf (db : Database) (n : String) : Option String :=
  db.hosts[n]?.bind (·.owner)

/-- What a call may do to an owner: an `Acquire` gives the host to its owner, a
`CompleteRelease` takes a releasing host from its owner. -/
def StoreCall.MovesOwner (call : StoreCall) (n : String) (db db' : Database) : Prop :=
  (∃ pool owner, call = .acquire pool owner ∧ db.ownerOf n = none ∧ db'.ownerOf n = some owner) ∨
    ∃ h r, call = .completeRelease h ∧ h.name = n ∧ db.hosts[n]? = some r ∧
      r.state = .releasing ∧ r.owner = some h.owner ∧ db'.ownerOf n = none

/-- A step that changes the owner of a host is a step of a call that may do so. -/
theorem StoreCall.movesOwner (hcall : call.Issues o) (hs : step lib o w res = some w')
    (hne : w.db.ownerOf n ≠ w'.db.ownerOf n) : call.MovesOwner n w.db w'.db := by
  unfold Database.ownerOf at hne
  rcases step_host hs with heq | hwrite
  · exact absurd (by rw [heq]) hne
  · cases hx : w.db.hosts[n]? with
    | none =>
      -- a row that appears has no owner
      cases hy : w'.db.hosts[n]? with
      | none => exact absurd (by rw [hx, hy]) hne
      | some r' => exact absurd (by simp [hx, hy, hwrite.unowned.1 hx r' hy]) hne
    | some r =>
      cases hy : w'.db.hosts[n]? with
      | none => exact absurd (by simp [hx, hy, hwrite.unowned.2 hy r hx]) hne
      | some =>
        rw [hx, hy] at hwrite hne
        cases hwrite with
        | pool | transition | commit => exact absurd rfl hne
        | @claim pool owner r hpool howner hstate =>
          exact Or.inl ⟨pool, owner, by cases call <;> simp_all [StoreCall.Issues],
            by simp [Database.ownerOf, hx, howner], by simp [Database.ownerOf, hy]⟩
        | @release h r hname hreleasing howner hrev hstate =>
          exact Or.inr ⟨h, r, by cases call <;> simp_all [StoreCall.Issues], hname, hx, hstate, howner,
            by simp [Database.ownerOf, hy]⟩

section Runs

variable {calls : ℕ → StoreCall} {w₀ : World}

/-- After a run in which an `Acquire` has been the last to answer, its host is its
owner's. -/
theorem owner_of_answer {T : List (Event Res)} {e : Event Res}
    (hcall : calls e.tid = .acquire pool owner)
    (ha : Answers (step lib) (fun t => (calls t).prog lib) w₀ T e (.ok (some h)))
    (hw : after (step lib) w₀ (T ++ [e]) = some w) :
    ∃ r, w.db.hosts[h.name]? = some r ∧ r.owner = some owner := by
  have hspec := ha.spec fun t => (calls t).obeys
  rw [hcall] at hspec
  obtain ⟨w₁, w₂, -, hs, hw₂⟩ := after_split hw
  cases hw₂
  exact owner_of_acquiredBy (hspec h rfl) hs

/-- **The ownership invariant**, for every interleaving of calls of the store: a row is
unowned exactly while it is available, and then has no attempt; an owner has one host;
an owner is given a host by its own `Acquire` and loses it by a `CompleteRelease` of a
releasing row. Two hosts that were acquired with no release of the first in between are
the same exactly if their owners are. -/
theorem ownership_invariant {T : List (Event Res)}
    {c : ℕ → Prog Res (Except Err (Option Host))} (h₀ : w₀.db.HostsConsistent)
    (hrun : Run (step lib) (fun t => (calls t).prog lib) w₀ T c w) :
    (∀ (n : String) (r : HostRow), w.db.hosts[n]? = some r →
      (r.owner = none ↔ r.state = .available) ∧ (r.state = .available → r.attemptID = "")) ∧
    (∀ (n n' : String) (r r' : HostRow) (o : String), w.db.hosts[n]? = some r →
      w.db.hosts[n']? = some r' → r.owner = some o → r'.owner = some o → n = n') ∧
    (∀ (T₁ : List (Event Res)) (e : Event Res) (T₂ : List (Event Res)) (w₁ w₂ : World) (n : String),
      T = T₁ ++ e :: T₂ → after (step lib) w₀ T₁ = some w₁ →
      after (step lib) w₀ (T₁ ++ [e]) = some w₂ → w₁.db.ownerOf n ≠ w₂.db.ownerOf n →
      (calls e.tid).MovesOwner n w₁.db w₂.db) ∧
    ∀ (A B C : List (Event Res)) (e₁ e₂ : Event Res) (pool₁ pool₂ o₁ o₂ : String) (h₁ h₂ : Host),
      T = A ++ e₁ :: (B ++ e₂ :: C) →
      calls e₁.tid = .acquire pool₁ o₁ →
      Answers (step lib) (fun t => (calls t).prog lib) w₀ A e₁ (.ok (some h₁)) →
      calls e₂.tid = .acquire pool₂ o₂ →
      Answers (step lib) (fun t => (calls t).prog lib) w₀ (A ++ e₁ :: B) e₂ (.ok (some h₂)) →
      (∀ e ∈ B, ¬ e.Releases o₁) → (h₁.name = h₂.name ↔ o₁ = o₂) := by
  refine ⟨fun n r hr => ?_, fun n n' r r' o hr hr' ho ho' => w.db.owner_unique hr hr' ho ho', ?_, ?_⟩
  · have hc := after_keeps (fun _ _ _ _ => step_consistent) hrun.after_eq h₀ n r hr
    exact ⟨hc.owner_iff, hc.attempt⟩
  · rintro T₁ e T₂ w₁ w₂ n rfl hw₁ hw₂ hne
    obtain ⟨w₁', w₂', hw₁', hs, hw₂'⟩ := after_split hw₂
    obtain rfl := Option.mem_unique hw₁ hw₁'
    cases hw₂'
    exact StoreCall.movesOwner (hrun.allowed fun t => (calls t).obeys) hs hne
  · rintro A B C e₁ e₂ pool₁ pool₂ o₁ o₂ h₁ h₂ rfl hcall₁ ha₁ hcall₂ ha₂ hrel
    -- the states after the two answers
    obtain ⟨w₂, hw₂⟩ : ∃ w₂, after (step lib) w₀ ((A ++ e₁ :: B) ++ [e₂]) = some w₂ := by
      obtain ⟨c₂, w₂, hrun₂, -⟩ := ha₂
      exact ⟨w₂, hrun₂.after_eq⟩
    have hsplit : (A ++ [e₁]) ++ (B ++ [e₂]) = (A ++ e₁ :: B) ++ [e₂] := by simp
    obtain ⟨w₁, hw₁, hB⟩ := after_append_eq_some.mp (hsplit ▸ hw₂)
    obtain ⟨r₁, hr₁, ho₁⟩ := owner_of_answer hcall₁ ha₁ hw₁
    obtain ⟨r₂, hr₂, ho₂⟩ := owner_of_answer hcall₂ ha₂ hw₂
    -- the first host is still held
    have hlast : ¬ e₂.Releases o₁ := by
      rw [← List.cons_append, ← List.append_assoc] at hrun
      have hissues : (calls e₂.tid).Issues e₂.op := hrun.allowed fun t => (calls t).obeys
      rintro ⟨h, h', heq, -⟩
      rw [hcall₂, show e₂.op = .completeRelease h from congrArg Call.op heq] at hissues
      simp [StoreCall.Issues] at hissues
    obtain ⟨r₁', hr₁', ho₁'⟩ := owner_held hB hr₁ ho₁ (by simpa [or_imp, forall_and] using
      ⟨hrel, hlast⟩)
    constructor
    · intro hname
      rw [hname, hr₂] at hr₁'
      rw [← Option.some.inj hr₁', ho₂] at ho₁'
      exact (Option.some.inj ho₁').symm
    · rintro rfl
      exact w₂.db.owner_unique hr₁' hr₂ ho₁' ho₂

/-- Two clients with one owner, a third with another, and a machine that is enrolled
meanwhile. -/
def contendingCalls : ℕ → StoreCall
  | 0 => .register "m1" "pool" sampleKey "/dev/sda"
  | 1 => .acquire "pool" "capi-a"
  | 2 => .acquire "pool" "capi-a"
  | _ => .acquire "pool" "capi-b"

/-- A run of `Gomi.contendingCalls`: the first two look their owner up before either
claims, and the last one finds no host left. -/
def contendingRun :
    Option (List (Event Res) × (ℕ → Prog Res (Except Err (Option Host))) × World) :=
  play (step (Lib.sample []))
    ([0, 0, 1, 2, 3, 1, 2, 2, 3, 3].map fun t => (t, World.answer (Lib.sample []) Query.silent))
    ([], fun t => (contendingCalls t).prog (Lib.sample []),
      { db := Database.empty.setMachine "m1" {} })

theorem contendingRun_isSome : contendingRun.isSome = true := by decide +kernel

theorem ownership_invariant_contending :
    ((contendingRun.get contendingRun_isSome).2.2.db.ownerOf "m1" = some "capi-a") ∧
      ∀ (n : String) (r : HostRow),
        (contendingRun.get contendingRun_isSome).2.2.db.hosts[n]? = some r →
        (r.owner = none ↔ r.state = .available) ∧ (r.state = .available → r.attemptID = "") := by
  refine ⟨by decide +kernel, ?_⟩
  have h₀ : (Database.empty.setMachine "m1" {}).HostsConsistent := by
    intro n r hr
    cases hr
  exact (ownership_invariant h₀ (run_of_play (Option.some_get contendingRun_isSome).symm)).1

end Runs

end Gomi
