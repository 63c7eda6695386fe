import Gomi.Dhcp.Server
import Mathlib.Logic.Relator

/-!
# Addresses are exclusive

Who has which address is a relation between MACs and addresses, `Gomi.Dhcp.LeasePool.Holds`,
and the pool is *exclusive* if no address is related to two MACs. `Allocate` keeps that: what
it answers is either an address that the client has already or one that nobody has
(`Gomi.Dhcp.LeasePool.Exclusive.allocate`). The expired leases count, since a longer TTL
makes them valid again.

The other two ways into the relation are not guarded. `UpdateReservations` sets aside
whatever it is told to, also an address that another client has, or one address twice; and
`restore` takes over the rows of the store as they are. `Gomi.Dhcp.Careful` is the condition
on these two under which the pool stays exclusive along every run
(`Gomi.Dhcp.addresses_exclusive`); `Gomi.Dhcp.reserved_while_leased` is a run of three calls in
which one address ends up with two clients.
-/

namespace Gomi.Dhcp

open Go LeasePool

variable {now : DHCPLease → Time} {rows : List DHCPLease} {fails : Bool}

/-! ### Exclusive pools -/

namespace LeasePool

variable {p q : LeasePool} {key m hostname : String} {pxeClient : Bool} {r : Readings} {x : UInt32}
  {ip : Option UInt32}

/-- What a MAC has at a given time: a lease that has not expired, or a reservation. -/
def HoldsAt (p : LeasePool) (now : Time) (m : String) (x : UInt32) : Prop :=
  (∃ e, p.leases[m]? = some e ∧ e.ip = some x ∧ p.expired e.leasedAt now = false) ∨
    p.reservations[m]? = some (some x)

theorem HoldsAt.holds {now : Time} (h : p.HoldsAt now m x) : p.Holds m x := by
  rcases h with ⟨e, he, hip, -⟩ | hres
  · exact Or.inl ⟨e, he, hip⟩
  · exact Or.inr hres

/-- **No address belongs to two MACs.** -/
def Exclusive (p : LeasePool) : Prop := Relator.LeftUnique p.Holds

theorem Exclusive.mono (h : p.Exclusive) (hle : ∀ m x, q.Holds m x → p.Holds m x) : q.Exclusive :=
  fun _ _ _ ha hb => h (hle _ _ ha) (hle _ _ hb)

/-- An address that was given to `key`, and that nobody else has. -/
theorem Exclusive.give (h : p.Exclusive) (key : String) (hfree : ∀ m, ¬p.Holds m x)
    (hgive : ∀ m y, q.Holds m y → p.Holds m y ∨ m = key ∧ y = x) : q.Exclusive := by
  intro a b y ha hb
  rcases hgive a y ha with ha | ⟨rfl, rfl⟩
  · rcases hgive b y hb with hb | ⟨rfl, rfl⟩
    · exact h ha hb
    · exact absurd ha (hfree a)
  · rcases hgive b y hb with hb | ⟨rfl, -⟩
    · exact absurd hb (hfree b)
    · rfl

theorem holds_lease {leasedAt : Time} (h : (p.lease key ip leasedAt).Holds m x) :
    p.Holds m x ∨ m = key ∧ ip = some x := by
  rcases h with ⟨e, he, hip⟩ | hres
  · rcases Table.insert_cases he with ⟨rfl, rfl⟩ | ⟨-, he⟩
    · exact Or.inr ⟨rfl, hip⟩
    · exact Or.inl (Or.inl ⟨e, he, hip⟩)
  · exact Or.inl (Or.inr hres)

theorem holds_forget (h : (p.forget key).Holds m x) : p.Holds m x := by
  rcases h with ⟨e, he, hip⟩ | hres
  · exact Or.inl ⟨e, (Table.erase_cases he).2, hip⟩
  · exact Or.inr hres

theorem holds_remaining {now : String → Time} (h : (p.remaining key now).Holds m x) :
    p.Holds m x := by
  obtain ⟨leases, heq, hkey, hget⟩ := p.remaining_eq key now
  rw [heq] at h
  rcases h with ⟨e, he, hip⟩ | hres
  · replace he : leases[m]? = some e := he
    have hm : m ≠ key := by
      rintro rfl
      cases hkey.symm.trans he
    rw [hget m hm] at he
    exact Or.inl ⟨e, (Option.filter_eq_some_iff.mp he).1, hip⟩
  · exact Or.inr hres

/-- **`Allocate` keeps a pool exclusive.** -/
theorem Exclusive.allocate (h : p.Exclusive) {a : Allocated}
    (ha : Allocation p key hostname pxeClient r a) : a.pool.Exclusive := by
  cases ha with
  | reserved hres =>
    refine h.mono fun m x hx => ?_
    rcases holds_lease hx with hold | ⟨rfl, rfl⟩
    · exact hold
    · exact Or.inr hres
  | renewed hres hown =>
    refine h.mono fun m x hx => ?_
    rcases holds_lease hx with hold | ⟨rfl, hip⟩
    · exact hold
    · exact Or.inl ⟨_, hown, hip⟩
  | @fresh ip hres hstale hfree hrange =>
    have hrest : (p.remaining key r.reclaim).Exclusive := h.mono fun _ _ => holds_remaining
    refine hrest.give key hfree fun m y hy => ?_
    rcases holds_lease hy with hold | ⟨hm, hip⟩
    · exact Or.inl hold
    · exact Or.inr ⟨hm, (Option.some.inj hip).symm⟩
  | exhausted => exact h.mono fun _ _ => holds_remaining

/-- **What `Allocate` answers is nobody else's.** -/
theorem Exclusive.answer (h : p.Exclusive) {a : Allocated}
    (ha : Allocation p key hostname pxeClient r a) (hip : a.ip = some x)
    (hm : p.reservations[m]? = some (some x)) : m = key := by
  cases ha with
  | reserved hres =>
    obtain rfl : _ = some x := hip
    exact h (Or.inr hm) (Or.inr hres)
  | renewed hres hown => exact h (Or.inr hm) (Or.inl ⟨_, hown, hip⟩)
  | @fresh ip hres hstale hfree hrange =>
    obtain rfl : ip = x := Option.some.inj hip
    obtain ⟨leases, heq, -, -⟩ := p.remaining_eq key r.reclaim
    refine absurd (Or.inr ?_) (hfree m)
    rw [heq]
    exact hm
  | exhausted => cases hip

/-- What a restored pool has comes from the pool or from a row. -/
theorem holds_restoreLoop (h : (restoreLoop now rows p).Holds m x) :
    p.Holds m x ∨ ∃ l ∈ rows, restoredKey l = m ∧ parseIPv4 l.ip = some x := by
  induction rows generalizing p with
  | nil => exact Or.inl h
  | cons l rows ih =>
    rw [restoreLoop] at h
    rcases ih h with hold | ⟨l', hl', hkey, hip⟩
    · split at hold
      · rcases holds_lease hold with hold | ⟨hm, hip⟩
        · exact Or.inl hold
        · exact Or.inr ⟨l, List.mem_cons_self, hm.symm, hip⟩
      · exact Or.inl hold
    · exact Or.inr ⟨l', List.mem_cons_of_mem l hl', hkey, hip⟩

theorem holds_restore (h : (p.restore (if fails then none else some rows) now).Holds m x) :
    p.Holds m x ∨ ∃ l ∈ rows, restoredKey l = m ∧ parseIPv4 l.ip = some x := by
  simp only [restore] at h
  split at h
  · cases fails with
    | true => exact Or.inl h
    | false => exact holds_restoreLoop h
  · exact Or.inl h

end LeasePool

/-! ### Careful callers -/

/-- No two rows are of different MACs and have one address. -/
def Unambiguous (rows : List DHCPLease) : Prop :=
  ∀ l ∈ rows, ∀ l' ∈ rows, (parseIPv4 l.ip).isSome → parseIPv4 l.ip = parseIPv4 l'.ip →
    restoredKey l = restoredKey l'

/-- No row has an address that another MAC has in the pool. -/
def NoneTaken (rows : List DHCPLease) (p : LeasePool) : Prop :=
  ∀ l ∈ rows, (parseIPv4 l.ip).isSome →
    (∀ kv ∈ p.leases.toList, kv.2.ip = parseIPv4 l.ip → kv.1 = restoredKey l) ∧
      ∀ kv ∈ p.reservations.toList, kv.2 = parseIPv4 l.ip → kv.1 = restoredKey l

/-- No address is set aside for two MACs, and none that is in the lease of another one. -/
def Available (reservations : Table (Option UInt32)) (p : LeasePool) : Prop :=
  ∀ kv ∈ reservations.toList, kv.2.isSome →
    (∀ kv' ∈ reservations.toList, kv'.2 = kv.2 → kv'.1 = kv.1) ∧
      ∀ lease ∈ p.leases.toList, lease.2.ip = kv.2 → lease.1 = kv.1

instance (rows : List DHCPLease) : Decidable (Unambiguous rows) :=
  inferInstanceAs (Decidable (∀ l ∈ rows, _))

instance (rows : List DHCPLease) (p : LeasePool) : Decidable (NoneTaken rows p) :=
  inferInstanceAs (Decidable (∀ l ∈ rows, _))

instance (reservations : Table (Option UInt32)) (p : LeasePool) : Decidable (Available reservations p) :=
  inferInstanceAs (Decidable (∀ kv ∈ reservations.toList, _))

/-- **What is asked of the callers**: reservations are of addresses that nobody else has, and the
rows of the store that a pool is restored from do not contradict each other or the pool. -/
def Careful (s : System) : Call → Prop
  | .start _ _ _ _ | .reconfigure _ _ => Unambiguous s.rows
  | .restore _ => Unambiguous s.rows ∧ ∀ p ∈ s.pool, NoneTaken s.rows p
  | .updateReservations reservations => ∀ p ∈ s.pool, Available reservations p
  | _ => True

instance (s : System) : (c : Call) → Decidable (Careful s c)
  | .start .. | .reconfigure .. => inferInstanceAs (Decidable (Unambiguous s.rows))
  | .restore _ => inferInstanceAs (Decidable (_ ∧ ∀ p ∈ s.pool, _))
  | .updateReservations _ => inferInstanceAs (Decidable (∀ p ∈ s.pool, _))
  | .request .. | .release _ | .setTTL _ | .land .. => isTrue trivial

/-! ### Runs -/

section Runs

variable {p : LeasePool} {rows : List DHCPLease} {s s' : System} {c : Call}

theorem LeasePool.Exclusive.restore (h : p.Exclusive) (hrows : Unambiguous rows)
    (hnone : NoneTaken rows p) : (p.restore (if fails then none else some rows) now).Exclusive := by
  -- a row's address is of its key only, in the pool and among the rows
  have hrow : ∀ l ∈ rows, ∀ m x, parseIPv4 l.ip = some x → p.Holds m x → m = restoredKey l := by
    rintro l hl m x hip (⟨e, he, hx⟩ | hres)
    · exact (hnone l hl (by simp [hip])).1 (m, e) (Table.mem_toList.mpr he) (hx.trans hip.symm)
    · exact (hnone l hl (by simp [hip])).2 (m, some x) (Table.mem_toList.mpr hres) hip.symm
  intro a b x ha hb
  rcases holds_restore ha with ha | ⟨l, hl, rfl, hip⟩
  · rcases holds_restore hb with hb | ⟨l', hl', rfl, hip'⟩
    · exact h ha hb
    · exact hrow l' hl' a x hip' ha
  · rcases holds_restore hb with hb | ⟨l', hl', rfl, hip'⟩
    · exact (hrow l hl b x hip hb).symm
    · exact hrows l hl l' hl' (by simp [hip]) (hip.trans hip'.symm)

theorem SubnetSpec.newPool_exclusive {spec : SubnetSpec} {range : AddressRange} {store : Bool}
    {env : Listing} (hrows : Unambiguous rows) : (spec.newPool range store rows env).Exclusive := by
  refine LeasePool.Exclusive.restore ?_ hrows ?_
  · rintro a b x (⟨e, he, -⟩ | hres)
    · cases he
    · cases hres
  · intro l _ _
    constructor <;> simp

theorem LeasePool.Exclusive.updateReservations {reservations : Table (Option UInt32)}
    (h : p.Exclusive) (havail : Available reservations p) :
    (p.updateReservations reservations).Exclusive := by
  have hres : ∀ m x, reservations[m]? = some (some x) → ∀ m',
      (p.updateReservations reservations).Holds m' x → m' = m := by
    rintro m x hm m' (⟨e, he, hip⟩ | hm')
    · exact (havail (m, some x) (Table.mem_toList.mpr hm) rfl).2 (m', e) (Table.mem_toList.mpr he) hip
    · exact (havail (m, some x) (Table.mem_toList.mpr hm) rfl).1 (m', some x)
        (Table.mem_toList.mpr hm') rfl
  intro a b x ha hb
  rcases ha with ⟨e, he, hip⟩ | hm
  · rcases hb with ⟨e', he', hip'⟩ | hm'
    · exact h (Or.inl ⟨e, he, hip⟩) (Or.inl ⟨e', he', hip'⟩)
    · exact hres b x hm' a (Or.inl ⟨e, he, hip⟩)
  · exact (hres a x hm b hb).symm

/-- The pool of the system, if there is one, is exclusive. -/
def System.Exclusive (s : System) : Prop := ∀ p, s.pool = some p → p.Exclusive

/-- **A careful call keeps the pool exclusive.** -/
theorem System.Exclusive.step (hs : step s c = some s') (hcare : Careful s c) (h : s.Exclusive) :
    s'.Exclusive := by
  intro p hp
  cases step_evolves hs hp with
  | started hspec | rebuilt store hspec => exact SubnetSpec.newPool_exclusive hcare
  | kept ttl hq => exact (h _ hq).mono fun _ _ hx => hx
  | answered hq ha => exact (h _ hq).allocate (allocate_cases ha)
  | released hq => exact (h _ hq).mono fun _ _ => holds_forget
  | reserved hq => exact (h _ hq).updateReservations (hcare _ hq)
  | restored hq => exact (h _ hq).restore hcare.1 (hcare.2 _ hq)

/-- **Addresses are exclusive.** From any content of the lease store, after any calls that are
careful: no two MACs have one address at one time, and `Allocate` answers nobody with an address that
is reserved for another MAC. -/
theorem addresses_exclusive {store : Table DHCPLease} {calls : List Call}
    (hrun : Steps (Under (Graph step) Careful) { store } calls s) (hpool : s.pool = some p) :
    (∀ now a b x, p.HoldsAt now a x → p.HoldsAt now b x → a = b) ∧
      ∀ mac hostname pxeClient r a x m, p.allocate mac hostname pxeClient r = some a →
        a.ip = some x → p.reservations[m]? = some (some x) → m = macText mac := by
  have hexcl : s.Exclusive := hrun.invariant (fun hstep hs => hs.step hstep.1 hstep.2)
    fun p hp => absurd hp (by simp [System.pool])
  constructor
  · intro now a b x ha hb
    exact hexcl p hpool ha.holds hb.holds
  · intro mac hostname pxeClient r a x m ha hip hm
    exact (hexcl p hpool).answer (allocate_cases ha) hip hm

/-- Whether a MAC has a lease of the address that has not expired. -/
def LeasePool.leasedAt? (p : LeasePool) (now : Time) (m : String) (x : UInt32) : Bool :=
  p.leases[m]?.any fun e => e.ip = some x ∧ p.expired e.leasedAt now = false

theorem LeasePool.holdsAt_of_leasedAt {now : Time} {m : String} {x : UInt32}
    (h : p.leasedAt? now m x = true) : p.HoldsAt now m x := by
  obtain ⟨e, he, hcheck⟩ := (Option.any_eq_true _ _).mp h
  obtain ⟨hip, hlive⟩ := of_decide_eq_true hcheck
  exact Or.inl ⟨e, he, hip, hlive⟩

/-- A server with a reservation for an address that is free. -/
theorem addresses_exclusive_reserved :
    ∃ (calls : List Call) (s : System) (p : LeasePool),
      Steps (Under (Graph step) Careful) {} calls s ∧ s.pool = some p ∧
        p.HoldsAt 0 (macText (sampleClient 1)) 0x0a00000a ∧
        (∀ now a b x, p.HoldsAt now a x → p.HoldsAt now b x → a = b) ∧
        ∀ mac hostname pxeClient r a x m, p.allocate mac hostname pxeClient r = some a →
          a.ip = some x → p.reservations[m]? = some (some x) → m = macText mac := by
  have heval : ((executeUnder step (fun s c => decide (Careful s c)) {}
      [sampleStart "10.0.0.10" "10.0.0.12", sampleRequest 1 0,
        sampleReservation 2 0x0a00000b,
        sampleRequest 2 0]).any fun s => s.pool.any fun p =>
        p.leasedAt? 0 (macText (sampleClient 1)) 0x0a00000a) = true := by
    decide
  obtain ⟨s, hs, hcheck⟩ := (Option.any_eq_true _ _).mp heval
  obtain ⟨p, hp, hleased⟩ := (Option.any_eq_true _ _).mp hcheck
  have hrun := steps_under_of_execute hs
  exact ⟨_, s, p, hrun, hp, holdsAt_of_leasedAt hleased, addresses_exclusive hrun hp⟩

/-- **An address that is reserved while another client has it.** The client has leased the first
address; then it is reserved for another client, which gets it too. -/
theorem reserved_while_leased :
    ∃ (calls : List Call) (s : System) (p : LeasePool) (a b : String) (x : UInt32),
      Steps (Graph step) {} calls s ∧ s.pool = some p ∧ a ≠ b ∧ p.HoldsAt 0 a x ∧ p.HoldsAt 0 b x := by
  have heval : ((execute step {}
      [sampleStart "10.0.0.10" "10.0.0.12", sampleRequest 1 0,
        sampleReservation 2 0x0a00000a,
        sampleRequest 2 0]).any fun s => s.pool.any fun p =>
        p.leasedAt? 0 (macText (sampleClient 1)) 0x0a00000a &&
          p.leasedAt? 0 (macText (sampleClient 2)) 0x0a00000a) = true := by
    decide
  obtain ⟨s, hs, hcheck⟩ := (Option.any_eq_true _ _).mp heval
  obtain ⟨p, hp, hleased⟩ := (Option.any_eq_true _ _).mp hcheck
  obtain ⟨h₁, h₂⟩ := Bool.and_eq_true_iff.mp hleased
  exact ⟨_, s, p, _, _, _, steps_graph.mpr hs, hp, by decide, holdsAt_of_leasedAt h₁,
    holdsAt_of_leasedAt h₂⟩

end Runs

end Gomi.Dhcp
