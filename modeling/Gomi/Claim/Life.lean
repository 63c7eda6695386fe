import Gomi.Claim.Records

/-!
# The life of an enrolled host

The store's table of moves (`Gomi.validateTransition`) leaves more open than the requests ever do: it
lets a claimed host fail, and a ready one be released, without an installation. In the runs of the
requests the row of a host walks along `Gomi.HostState.successors`, one revision at a time
(`Gomi.host_life`).
-/

namespace Gomi

variable {lib : Lib} {reqs : ℕ → Request} {w₀ w₁ w : World} {T₁ T₂ : List (Event Res)} {n : String}

/-- The states to which the requests take a host from a state. -/
def HostState.successors : HostState → List HostState
  | .available => [.available, .claimed]
  | .claimed => [.deploying, .releasing]
  | .deploying => [.deploying, .ready, .failed, .releasing]
  | .ready => [.releasing]
  | .failed => [.deploying, .releasing]
  | .releasing => [.failed, .available]

/-- **What may become of the row of a host** that is enrolled, moved on or unregistered. -/
def HostMove : Option HostRow → Option HostRow → Prop
  | none, none => False
  | none, some r => r.state = .available ∧ r.owner = none ∧ r.revision = 1
  | some r, none => r.state = .available ∧ r.owner = none
  | some r, some r' => r'.state ∈ r.state.successors ∧ r'.revision = r.revision + 1 ∧
      r'.publicKey = r.publicKey ∧ r'.targetDisk = r.targetDisk

/-- **A request moves a host along its life.** -/
theorem HostWrite.move {o : Op} {res : Res o} {x y : Option HostRow} {q : Request}
    {cs : List (Call Res)} (h : HostWrite n o res x y) (ha : Allowed lib q cs o) : HostMove x y := by
  cases h with
  | enroll => exact ⟨rfl, rfl, rfl⟩
  | unregister hpos hrev howner hstate => exact ⟨hstate, howner⟩
  | pool hpos hrev howner hstate | claim hpool howner hstate =>
    exact ⟨by simp [HostRow.inPool, HostRow.claimedBy, hstate, HostState.successors], rfl, rfl, rfl⟩
  | release hname hreleasing howner hrev hstate =>
    exact ⟨by simp [HostRow.released, hstate, HostState.successors], rfl, rfl, rfl⟩
  | transition hname hvalid howner hrev hstate =>
    refine ⟨?_, rfl, rfl, rfl⟩
    cases ha with
    | read ho => cases ho
    | cancel hread hfrom => simp [HostRow.moved, hstate, hfrom, HostState.successors]
    | advance hread hprovision hattempt hnext =>
      rcases hnext with ⟨rfl, hfrom⟩ | ⟨rfl, hfrom | hfrom, -⟩ <;>
        simp [HostRow.moved, hstate, hfrom, HostState.successors]
  | @commit h m next r hname htarget howner hstate hrev =>
    obtain ⟨p, b, -, -, -, -, -, -, -, hnext⟩ := commitTarget_eq_some.mp htarget
    refine ⟨?_, rfl, rfl, rfl⟩
    rw [hstate]
    rcases hnext with ⟨-, hne, hne', rfl⟩ | ⟨-, hfrom | hfrom | hfrom, rfl⟩
    · cases hfrom : h.state <;> simp_all [HostRow.moved, HostState.successors]
    all_goals simp [HostRow.moved, hfrom, HostState.successors]

/-- A host that may be claimed. -/
def World.enrolled : World :=
  { db := (Database.empty.setMachine "m1" {}).enroll "m1"
      { pool := "pool", publicKey := "", targetDisk := "" } rfl rfl }

/-- A client claims the host, and another one asks for the claim. -/
def claimingRequests (t : ℕ) : Request :=
  if t = 0 then .acquire (some ("pool", "capi-a")) else .getClaim "capi-a"

theorem claiming_eval : ((play (step (Lib.sample []))
    ([0, 0, 1, 1].map fun t => (t, World.answer (Lib.sample []) Query.silent))
    ([], fun t => (claimingRequests t).prog (Lib.sample []) {}, World.enrolled)).any fun x =>
      x.2.2.db.hosts["m1"]?.any fun r => r.state = .claimed ∧ r.revision = 2) = true := by
  decide +kernel

end Gomi
