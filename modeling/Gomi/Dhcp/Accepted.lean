import Gomi.Dhcp.Exclusive
import Gomi.Subnet.Validate

/-!
# Ranges that the check accepts

`ValidateSubnet` takes a range of addresses whose two ends are addresses, of any family and in
any order. `Allocate` computes with the two ends as 32-bit numbers. This file compares the
two: `Gomi.Dhcp.LeasePool.Safe` is what one expects of a pool, that a call of `Allocate`
returns, with an address of the range or the one reserved for the client, and
`Gomi.Dhcp.allocate_safe_iff` says for which subnets and reservations it holds in every
history of calls.

Three things can go wrong.

* An end, or a reservation, that is an IPv6 address has no `To4`, and turning it into a
  number panics. `inRange` looks for such an end; `Allocate` does not.
* A range that ends with the last address there is, `255.255.255.255`, never ends for the
  loop, since the number wraps around: when the range is used up, the loop goes on with
  `0.0.0.0`. That the range can be used up is `Gomi.Dhcp.exists_full`: one client after the
  other gets the least address that is free.

A range whose ends are in the wrong order does no harm: the loop has no round.
-/

namespace Gomi.Dhcp

open Go LeasePool LeasePool

/-! ### The loop -/

/-- **The loop ends** if its last address is not the last one there is. -/
theorem scan_isSome {used : List UInt32} {endN n : UInt32} {fuel : ℕ} (hend : endN ≠ 0xffffffff)
    (hfuel : 0 < fuel) (henough : endN.toNat + 1 < n.toNat + fuel) :
    (scan used endN fuel n).isSome = true := by
  induction fuel generalizing n with
  | zero => exact absurd hfuel (lt_irrefl 0)
  | succ fuel ih =>
    rw [scan]
    split
    · rename_i hn
      split
      · have hle : n.toNat ≤ endN.toNat := hn
        have hlt : endN.toNat < 0xffffffff := by
          have hne : endN.toNat ≠ 0xffffffff := fun h0 => hend (UInt32.toNat_inj.mp h0)
          have hbound : endN.toNat < 2 ^ 32 := endN.toNat_lt
          omega
        have hstep : (n + 1).toNat = n.toNat + 1 := by
          rw [UInt32.toNat_add]
          exact Nat.mod_eq_of_lt (show n.toNat + 1 < 2 ^ 32 by omega)
        exact ih (by omega) (by rw [hstep]; omega)
      · rfl
    · rfl

/-- **The loop finds the first address that is free.** -/
theorem scan_first {used : List UInt32} {endN n y : UInt32} {fuel : ℕ} (hfree : y ∉ used)
    (hbelow : ∀ x, n ≤ x → x < y → x ∈ used) (hn : n ≤ y) (hy : y ≤ endN)
    (henough : y.toNat < n.toNat + fuel) : scan used endN fuel n = some (some y) := by
  induction fuel generalizing n with
  | zero =>
    have hle : n.toNat ≤ y.toNat := hn
    omega
  | succ fuel ih =>
    rw [scan, if_pos (UInt32.le_trans hn hy)]
    by_cases heq : n = y
    · rw [heq, if_neg hfree]
    · have hlt : n.toNat < y.toNat :=
        lt_of_le_of_ne hn fun h0 => heq (UInt32.toNat_inj.mp h0)
      have hstep : (n + 1).toNat = n.toNat + 1 := by
        rw [UInt32.toNat_add]
        have hbound : y.toNat < 2 ^ 32 := y.toNat_lt
        exact Nat.mod_eq_of_lt (show n.toNat + 1 < 2 ^ 32 by omega)
      rw [if_pos (hbelow n (UInt32.le_refl n) hlt)]
      refine ih (fun x hx hxy => hbelow x ?_ hxy) ?_ ?_
      · have hx' : (n + 1).toNat ≤ x.toNat := hx
        show n.toNat ≤ x.toNat
        omega
      · show (n + 1).toNat ≤ y.toNat
        omega
      · omega

/-- A loop up to the last address there is does not find out that there is no address left. -/
theorem scan_last_ne {used : List UInt32} {n : UInt32} {fuel : ℕ} :
    scan used 0xffffffff fuel n ≠ some none := by
  induction fuel generalizing n with
  | zero => simp [scan]
  | succ fuel ih =>
    have hle : n ≤ 0xffffffff := by
      have hbound : n.toNat < 2 ^ 32 := n.toNat_lt
      show n.toNat ≤ 0xffffffff
      omega
    rw [scan, if_pos hle]
    split
    · exact ih
    · simp

/-! ### Safe pools -/

/-- A list of partial results that are all there. -/
theorem mapM_isSome {α β : Type} {f : α → Option β} {l : List α} (h : ∀ a ∈ l, (f a).isSome = true) :
    (l.mapM f).isSome = true := by
  induction l with
  | nil => rfl
  | cons a l ih =>
    obtain ⟨b, hb⟩ := Option.isSome_iff_exists.mp (h a List.mem_cons_self)
    obtain ⟨bs, hbs⟩ := Option.isSome_iff_exists.mp (ih fun c hc => h c (List.mem_cons_of_mem a hc))
    rw [List.mapM_cons, hb, hbs]
    rfl

/-- What a list of partial results is made of. -/
theorem exists_of_mem_mapM {α β : Type} {f : α → Option β} {l : List α} {bs : List β}
    (h : l.mapM f = some bs) {b : β} (hb : b ∈ bs) : ∃ a ∈ l, f a = some b := by
  rw [← List.mem_map, map_eq_of_mapM h]
  exact List.mem_map_of_mem hb

/-- All reservations of a set are of IPv4 addresses. -/
def AllIPv4 (reservations : Table (Option UInt32)) : Prop :=
  ∀ m : String, reservations[m]? ≠ some none

namespace LeasePool

variable {p q : LeasePool} {key m hostname : String} {pxeClient : Bool} {r : Readings} {x : UInt32}
  {mac : HardwareAddr}

/-- **What is expected of `Allocate`**: it returns, and an address that it returns is the one that is
reserved for the client or one of the range. -/
def Safe (p : LeasePool) : Prop :=
  ∀ mac hostname pxeClient r, ∃ a, p.allocate mac hostname pxeClient r = some a ∧
    ∀ ip, a.ip = some ip →
      p.reservations[macText mac]? = some (some ip) ∨ p.inRange (some ip) = true

/-- The range of a pool: IPv4 addresses, not up to the last one there is. -/
def Bounded (startIP endIP : Option UInt32) : Prop :=
  startIP.isSome = true ∧ endIP.isSome = true ∧ endIP ≠ some 0xffffffff

/-- A pool that knows IPv4 addresses only. -/
structure Known (p : LeasePool) : Prop where
  leases : ∀ (m : String) (e : LeaseEntry), p.leases[m]? = some e → e.ip.isSome = true
  reservations : AllIPv4 p.reservations

/-- Such a pool, of a range that is bounded. -/
structure Sound (p : LeasePool) : Prop extends Known p where
  range : Bounded p.startIP p.endIP

theorem Known.used (h : p.Known) : p.used.isSome = true := by
  have hleases : (p.leases.toList.mapM fun kv : String × LeaseEntry => kv.2.ip).isSome = true :=
    mapM_isSome fun kv hkv => h.leases kv.1 kv.2 (Table.mem_toList.mp hkv)
  have hreservations : (p.reservations.toList.mapM fun kv : String × Option UInt32 => kv.2).isSome = true := by
    refine mapM_isSome fun kv hkv => Option.isSome_iff_ne_none.mpr fun hnone => ?_
    exact h.reservations kv.1 ((Table.mem_toList.mp hkv).trans (congrArg some hnone))
  obtain ⟨leased, hleased⟩ := Option.isSome_iff_exists.mp hleases
  obtain ⟨reserved, hreserved⟩ := Option.isSome_iff_exists.mp hreservations
  rw [LeasePool.used, hleased, hreserved]
  rfl

/-- A pool with fewer leases, or with another one of an IPv4 address. -/
theorem Known.of_leases (h : p.Known) {leases : Table LeaseEntry}
    (hleases : ∀ (m : String) (e : LeaseEntry), leases[m]? = some e → e.ip.isSome = true) :
    Known { p with leases } :=
  ⟨hleases, h.reservations⟩

theorem Known.lease (h : p.Known) {ip : Option UInt32} (hip : ip.isSome = true) (key : String)
    (leasedAt : Time) : (p.lease key ip leasedAt).Known := by
  refine h.of_leases fun m e he => ?_
  rcases Table.insert_cases he with ⟨-, rfl⟩ | ⟨-, he⟩
  · exact hip
  · exact h.leases m e he

theorem Known.forgetAll (h : p.Known) (keys : List String) : (keys.foldl LeasePool.forget p).Known := by
  obtain ⟨leases, heq, hget⟩ := foldl_forget keys p
  rw [heq]
  refine h.of_leases fun m e he => ?_
  rw [hget] at he
  split at he
  · cases he
  · exact h.leases m e he

theorem Known.forget (h : p.Known) (key : String) : (p.forget key).Known := h.forgetAll [key]

theorem Known.remaining (h : p.Known) (key : String) (now : String → Time) :
    (p.remaining key now).Known :=
  (h.forget key).forgetAll _

theorem Known.restoreLoop {now : DHCPLease → Time} {rows : List DHCPLease} (h : p.Known) :
    (restoreLoop now rows p).Known := by
  induction rows generalizing p with
  | nil => exact h
  | cons l rows ih =>
    refine ih ?_
    split
    · rename_i hrestores
      have hall := of_decide_eq_true hrestores
      exact h.lease hall.2.1 _ _
    · exact h

theorem Known.restore (h : p.Known) (rows : Option (List DHCPLease)) (now : DHCPLease → Time) :
    (p.restore rows now).Known := by
  unfold LeasePool.restore
  split
  · cases rows with
    | none => exact h
    | some => exact h.restoreLoop
  · exact h

/-- `Allocate` keeps this. -/
theorem Known.allocate (h : p.Known) {a : Allocated}
    (ha : Allocation p key hostname pxeClient r a) : a.pool.Known := by
  cases ha with
  | @reserved ip hres =>
    have hip : ip.isSome = true := Option.isSome_iff_ne_none.mpr fun h0 =>
      h.reservations key (hres.trans (congrArg some h0))
    exact h.lease hip key r.leased
  | renewed hres hown => exact h.lease (h.leases _ _ hown) key r.leased
  | fresh => exact (h.remaining key r.reclaim).lease rfl key r.leased
  | exhausted => exact h.remaining key r.reclaim

/-- The search answers with what the loop finds. -/
theorem allocateNew_ip {startN endN : UInt32} {used : List UInt32} {found : Option UInt32}
    (hstart : p.startIP = some startN) (hend : p.endIP = some endN)
    (hused : (p.reclaim r.reclaim).used = some used)
    (hfound : scan used endN (2 ^ 32) startN = some found) (dropped : List Write) :
    ∃ a, p.allocateNew key hostname pxeClient r dropped = some a ∧ a.ip = found := by
  rw [allocateNew, hstart, hend]
  simp only [Option.bind_eq_bind, Option.bind_some, hused, hfound]
  cases found <;> exact ⟨_, rfl, rfl⟩

/-- The loop of a pool of a bounded range ends. -/
theorem scan_bounded {startN endN : UInt32} (hend : endN ≠ 0xffffffff) (used : List UInt32) :
    ∃ found, scan used endN (2 ^ 32) startN = some found := by
  have hne : endN.toNat ≠ 0xffffffff := fun h0 => hend (UInt32.toNat_inj.mp h0)
  have hlt : endN.toNat < 2 ^ 32 := endN.toNat_lt
  exact Option.isSome_iff_exists.mp (scan_isSome hend (by decide) (by omega))

/-- The search for an address returns. -/
theorem Sound.allocateNew (h : p.Sound) (dropped : List Write) :
    (p.allocateNew key hostname pxeClient r dropped).isSome = true := by
  obtain ⟨hstart, hend, hlast⟩ := h.range
  obtain ⟨startN, hstart⟩ := Option.isSome_iff_exists.mp hstart
  obtain ⟨endN, hend⟩ := Option.isSome_iff_exists.mp hend
  obtain ⟨used, hused⟩ := Option.isSome_iff_exists.mp (h.forgetAll (p.reclaimed r.reclaim)).used
  obtain ⟨found, hfound⟩ := @scan_bounded startN endN (fun h0 => hlast (hend.trans (congrArg some h0))) used
  obtain ⟨a, ha, -⟩ := allocateNew_ip hstart hend hused hfound dropped
  exact Option.isSome_iff_exists.mpr ⟨a, ha⟩

/-- **A sound pool is safe.** -/
theorem Sound.safe (h : p.Sound) : p.Safe := by
  intro mac hostname pxeClient r
  have hreturns : (p.allocate mac hostname pxeClient r).isSome = true := by
    rw [allocate]
    cases hres : p.reservations[macText mac]? with
    | some => rfl
    | none =>
      cases hown : p.leases[macText mac]? with
      | none => exact h.allocateNew _
      | some =>
        dsimp only
        split
        · rfl
        · exact Sound.allocateNew ⟨h.toKnown.forget _, h.range⟩ _
  obtain ⟨a, ha⟩ := Option.isSome_iff_exists.mp hreturns
  refine ⟨a, ha, fun ip hip => ?_⟩
  cases allocate_cases ha with
  | reserved hres => exact Or.inl (hres.trans (congrArg some hip))
  | renewed hres hown hrange => exact Or.inr (hip ▸ hrange)
  | fresh hres hstale hfree hrange =>
    cases hip
    exact Or.inr (hrange h.range.2.2)
  | exhausted => cases hip

end LeasePool

/-! ### Histories of a subnet -/

/-- The calls of a history of one subnet, in which the reservations are of the given sets. -/
def OfSubnet (subnet : Subnet) (R : Set (Table (Option UInt32))) : Call → Prop
  | .start _ spec _ _ | .reconfigure spec _ => spec = subnet.dhcp
  | .updateReservations reservations => reservations ∈ R
  | _ => True

section Histories

variable {subnet : Subnet} {R : Set (Table (Option UInt32))} {range : AddressRange}
  {s s' : System} {c : Call} {p : LeasePool}

/-- The pool of the system, if there is one, knows IPv4 addresses only. -/
def System.Known (s : System) : Prop := ∀ p, s.pool = some p → p.Known

theorem newPool_known {spec : SubnetSpec} {store : Bool} {rows : List DHCPLease} {env : Listing} :
    (spec.newPool range store rows env).Known := by
  refine LeasePool.Known.restore ⟨fun m e he => ?_, fun m => ?_⟩ _ _
  · cases he
  · simp

/-- **A call keeps this**, if the reservations are of IPv4 addresses. -/
theorem System.Known.step (hs : step s c = some s')
    (hc : ∀ t, c = .updateReservations t → AllIPv4 t) (h : s.Known) : s'.Known := by
  intro p hp
  cases step_evolves hs hp with
  | started hspec | rebuilt store hspec => exact newPool_known
  | kept ttl hq => exact ⟨(h _ hq).leases, (h _ hq).reservations⟩
  | answered hq ha => exact (h _ hq).allocate (allocate_cases ha)
  | released hq => exact (h _ hq).forget _
  | reserved hq => exact ⟨(h _ hq).leases, hc _ rfl⟩
  | restored hq => exact (h _ hq).restore _ _

/-- A pool of the given range. -/
def LeasePool.Of (p : LeasePool) (range : AddressRange) : Prop :=
  p.startIP = parseIPv4 range.startIP ∧ p.endIP = parseIPv4 range.endIP

/-- The pool of the system, if there is one, is of the range of the subnet. -/
def System.Of (s : System) (subnet : Subnet) : Prop :=
  ∀ p, s.pool = some p → ∃ range, subnet.spec.pxeAddressRange = some range ∧ p.Of range

theorem LeasePool.restore_of (h : p.Of range) (rows : Option (List DHCPLease)) (now : DHCPLease → Time) :
    (p.restore rows now).Of range := by
  obtain ⟨leases, heq⟩ := restore_eq rows now p
  rw [heq]
  exact h

theorem System.Of.step (hs : step s c = some s') (hc : OfSubnet subnet R c) (h : s.Of subnet) :
    s'.Of subnet := by
  intro p hp
  have hnew : ∀ {spec : SubnetSpec} {range : AddressRange} {store : Bool} {env : Listing},
      spec.pxeAddressRange = some range → spec = subnet.dhcp →
      ∃ range', subnet.spec.pxeAddressRange = some range' ∧
        (spec.newPool range store s.rows env).Of range' := by
    rintro spec range store env hspec rfl
    exact ⟨range, hspec, restore_of ⟨rfl, rfl⟩ _ _⟩
  cases step_evolves hs hp with
  | started hspec | rebuilt store hspec => exact hnew hspec hc
  | answered hq ha =>
    obtain ⟨range, hrange, hof⟩ := h _ hq
    obtain ⟨leases, heq⟩ := (allocate_cases ha).pool_eq
    rw [heq]
    exact ⟨range, hrange, hof⟩
  | kept ttl hq | released hq | reserved hq =>
    obtain ⟨range, hrange, hof⟩ := h _ hq
    exact ⟨range, hrange, hof⟩
  | restored hq =>
    obtain ⟨range, hrange, hof⟩ := h _ hq
    exact ⟨range, hrange, restore_of hof _ _⟩

/-- The runs of a subnet, from any content of the lease store. -/
def History (subnet : Subnet) (R : Set (Table (Option UInt32))) (calls : List Call) (s : System) : Prop :=
  ∃ store : Table DHCPLease, Steps (Graph step) { store } calls s ∧ ∀ c ∈ calls, OfSubnet subnet R c

theorem History.known {calls : List Call} (h : History subnet R calls s)
    (hR : ∀ t ∈ R, AllIPv4 t) : s.Known := by
  obtain ⟨store, hrun, hcalls⟩ := h
  refine (hrun.under hcalls).invariant (fun hstep hs => hs.step hstep.1 ?_) ?_
  · rintro t rfl
    exact hR t hstep.2
  · exact fun p hp => absurd hp (by simp [System.pool])

theorem History.of {calls : List Call} (h : History subnet R calls s) : s.Of subnet := by
  obtain ⟨store, hrun, hcalls⟩ := h
  refine (hrun.under hcalls).invariant (I := fun s => s.Of subnet)
    (fun hstep hs => hs.step hstep.1 hstep.2) ?_
  exact fun p hp => absurd hp (by simp [System.pool])

end Histories

/-! ### A range that is used up -/

namespace LeasePool

variable {p : LeasePool} {m : String} {x : UInt32}

/-- The addresses that are used are those that somebody has. -/
theorem mem_used {used : List UInt32} (hused : p.used = some used) :
    x ∈ used ↔ ∃ m, p.Holds m x := by
  constructor
  · rw [LeasePool.used] at hused
    obtain ⟨leased, hleased, hused⟩ := Option.bind_eq_some_iff.mp hused
    obtain ⟨reserved, hreserved, hused⟩ := Option.bind_eq_some_iff.mp hused
    cases hused
    intro hx
    rcases List.mem_append.mp hx with hx | hx
    · obtain ⟨kv, hkv, hip⟩ := exists_of_mem_mapM hleased hx
      exact ⟨kv.1, Or.inl ⟨kv.2, Table.mem_toList.mp hkv, hip⟩⟩
    · obtain ⟨kv, hkv, hip⟩ := exists_of_mem_mapM hreserved hx
      exact ⟨kv.1, Or.inr ((Table.mem_toList.mp hkv).trans (congrArg some hip))⟩
  · rintro ⟨m, hm⟩
    by_contra hx
    exact not_holds_of_not_used hused hx hm

/-- There is a client that two tables do not know. -/
theorem exists_unknown {α β : Type} (t : Table α) (u : Table β) :
    ∃ mac : HardwareAddr, t[macText mac]? = none ∧ u[macText mac]? = none := by
  have hfinite : {k : String | k ∈ t.toList.map Prod.fst ++ u.toList.map Prod.fst}.Finite :=
    List.finite_toSet _
  obtain ⟨mac, hmac⟩ := (hfinite.preimage macText_injective.injOn).exists_notMem
  simp only [Set.mem_preimage, Set.mem_ofPred_eq, List.mem_append, not_or] at hmac
  refine ⟨mac, ?_, ?_⟩
  · refine Option.eq_none_iff_forall_ne_some.mpr fun v hv => hmac.1 ?_
    exact List.mem_map.mpr ⟨(_, v), Table.mem_toList.mpr hv, rfl⟩
  · refine Option.eq_none_iff_forall_ne_some.mpr fun v hv => hmac.2 ?_
    exact List.mem_map.mpr ⟨(_, v), Table.mem_toList.mpr hv, rfl⟩

/-- A pool of a range that starts with `a` and goes up to the last address there is, with leases of
one time, in which the first `j` addresses of the range are taken. -/
structure Filling (p : LeasePool) (a : UInt32) (j : ℕ) : Prop where
  startIP : p.startIP = some a
  endIP : p.endIP = some 0xffffffff
  unreserved : p.reservations = ∅
  leases : ∀ (m : String) (e : LeaseEntry), p.leases[m]? = some e → e.leasedAt = 0 ∧ e.ip.isSome = true
  taken : ∀ x : UInt32, a.toNat ≤ x.toNat → x.toNat < a.toNat + j → ∃ m, p.Holds m x

namespace Filling

variable {a y : UInt32} {j : ℕ} {mac : HardwareAddr}

theorem expired (p : LeasePool) : p.expired 0 0 = false := by
  rw [LeasePool.expired]
  split
  · rfl
  · rename_i hpos
    refine decide_eq_false fun hlt => (not_or.mp hpos).1 ?_
    have hzero : sub 0 0 = 0 := by decide
    rw [hzero] at hlt
    exact le_of_lt hlt

theorem reclaimed (h : p.Filling a j) : p.reclaimed (Readings.at 0).reclaim = [] := by
  refine List.eq_nil_iff_forall_not_mem.mpr fun m hm => ?_
  obtain ⟨e, he, hexp⟩ := mem_reclaimed.mp hm
  rw [(h.leases m e he).1, show (Readings.at 0).reclaim m = 0 from rfl, Filling.expired] at hexp
  cases hexp

theorem used (h : p.Filling a j) : ∃ used, p.used = some used := by
  have hleases : (p.leases.toList.mapM fun kv : String × LeaseEntry => kv.2.ip).isSome = true :=
    mapM_isSome fun kv hkv => (h.leases kv.1 kv.2 (Table.mem_toList.mp hkv)).2
  obtain ⟨leased, hleased⟩ := Option.isSome_iff_exists.mp hleases
  refine ⟨leased ++ [], ?_⟩
  rw [LeasePool.used, hleased, h.unreserved]
  rfl

/-- What a client gets that the pool does not know. -/
theorem allocate (h : p.Filling a j) (hmac : p.leases[macText mac]? = none) {used : List UInt32}
    (hused : p.used = some used) :
    (p.allocate mac "" false (Readings.at 0)).map (fun r => (r.ip, r.pool)) =
      (scan used 0xffffffff (2 ^ 32) a).map fun found => match found with
        | some ip => (some ip, p.lease (macText mac) (some ip) 0)
        | none => (none, p) := by
  have hreclaim : p.reclaim (Readings.at 0).reclaim = p := by
    rw [reclaim, h.reclaimed]
    rfl
  have hunreserved : p.reservations[macText mac]? = none := by
    rw [h.unreserved]
    simp
  rw [LeasePool.allocate]
  simp only [hunreserved, hmac]
  rw [allocateNew, h.startIP, h.endIP, hreclaim]
  simp only [Option.bind_eq_bind, Option.bind_some, hused]
  cases scan used 0xffffffff (2 ^ 32) a with
  | none => rfl
  | some found => cases found <;> rfl

/-- **One more address is taken** by a client that the pool does not know. -/
theorem next (h : p.Filling a j) (hj : a.toNat + j < 2 ^ 32)
    (hfree : ∀ m, ¬p.Holds m (UInt32.ofNat (a.toNat + j))) :
    ∃ mac r, p.allocate mac "" false (Readings.at 0) = some r ∧ r.pool.Filling a (j + 1) := by
  obtain ⟨mac, hmac, -⟩ := exists_unknown p.leases p.leases
  obtain ⟨used, hused⟩ := h.used
  have hy : (UInt32.ofNat (a.toNat + j)).toNat = a.toNat + j := UInt32.toNat_ofNat_of_lt' hj
  generalize UInt32.ofNat (a.toNat + j) = y at hfree hy
  have hscan : scan used 0xffffffff (2 ^ 32) a = some (some y) := by
    refine scan_first (fun hin => ?_) (fun x hx hxy => ?_) ?_ ?_ ?_
    · obtain ⟨m, hm⟩ := (mem_used hused).mp hin
      exact hfree m hm
    · have hlt : x.toNat < y.toNat := hxy
      exact (mem_used hused).mpr (h.taken x hx (by omega))
    · show a.toNat ≤ y.toNat
      omega
    · show y.toNat ≤ 0xffffffff
      omega
    · omega
  have hallocate := h.allocate hmac hused
  rw [hscan] at hallocate
  obtain ⟨r, hr, hpool⟩ := Option.map_eq_some_iff.mp hallocate
  have hpool' : r.pool = p.lease (macText mac) (some y) 0 := congrArg Prod.snd hpool
  refine ⟨mac, r, hr, ?_⟩
  rw [hpool']
  refine ⟨h.startIP, h.endIP, h.unreserved, fun m e he => ?_, fun x hx hxj => ?_⟩
  · rcases Table.insert_cases he with ⟨-, rfl⟩ | ⟨-, he⟩
    · exact ⟨rfl, rfl⟩
    · exact h.leases m e he
  · by_cases hxy : x = y
    · refine ⟨macText mac, Or.inl ⟨⟨some y, 0⟩, ?_, congrArg some hxy.symm⟩⟩
      rw [lease, Table.get_insert, if_pos rfl]
    · have hne : x.toNat ≠ y.toNat := fun h0 => hxy (UInt32.toNat_inj.mp h0)
      obtain ⟨m, ⟨e, he, hip⟩ | hres⟩ := h.taken x hx (by omega)
      · refine ⟨m, Or.inl ⟨e, ?_, hip⟩⟩
        rw [lease, Table.get_insert, if_neg, he]
        rintro rfl
        cases hmac.symm.trans he
      · exact ⟨m, Or.inr hres⟩

/-- **A range that is used up is not safe**: the loop goes on below its start. -/
theorem not_safe (h : p.Filling a (2 ^ 32 - a.toNat)) : ¬p.Safe := by
  intro hsafe
  obtain ⟨mac, hmac, -⟩ := exists_unknown p.leases p.leases
  obtain ⟨used, hused⟩ := h.used
  obtain ⟨r, hr, hin⟩ := hsafe mac "" false (Readings.at 0)
  have hallocate := h.allocate hmac hused
  rw [hr, Option.map_some] at hallocate
  obtain ⟨found, hfound, heq⟩ := Option.map_eq_some_iff.mp hallocate.symm
  cases found with
  | none => exact scan_last_ne hfound
  | some ip =>
    have hip : r.ip = some ip := (congrArg Prod.fst heq).symm
    rcases hin ip hip with hres | hrange
    · rw [h.unreserved] at hres
      cases hres
    · simp only [inRange, h.startIP, h.endIP, decide_eq_true_eq] at hrange
      have hlt : ip.toNat < 2 ^ 32 := ip.toNat_lt
      have ha : a.toNat < 2 ^ 32 := a.toNat_lt
      obtain ⟨m, hm⟩ := h.taken ip hrange.1 (by omega)
      exact (scan_eq_some hfound).1 ((mem_used hused).mpr ⟨m, hm⟩)

end Filling

end LeasePool

section Full

variable {subnet : Subnet} {R : Set (Table (Option UInt32))} {range : AddressRange} {a : UInt32}

/-- A server with the given pool, as the histories of the subnet lead to it. -/
def Serving (subnet : Subnet) (R : Set (Table (Option UInt32))) (p : LeasePool) : Prop :=
  ∃ calls s server, History subnet R calls s ∧ s.server = some server ∧ server.mode = .full ∧
    server.leases = some p

/-- The pool of a server that has just been started, with nothing in the lease store. -/
def emptyPool (subnet : Subnet) (range : AddressRange) : LeasePool :=
  { startIP := parseIPv4 range.startIP, endIP := parseIPv4 range.endIP, store := false
    ttl := leaseTTL subnet.dhcp }

theorem serving_emptyPool (hrange : subnet.spec.pxeAddressRange = some range) :
    Serving subnet R (emptyPool subnet range) := by
  have hstart : Steps (Graph step) {} [.start .full subnet.dhcp false { now := fun _ => 0 }] _ :=
    Steps.cons rfl (Steps.nil _)
  refine ⟨_, _, _, ⟨∅, hstart, ?_⟩, rfl, rfl, ?_⟩
  · intro c hc
    obtain rfl := List.mem_singleton.mp hc
    exact rfl
  · simp only [newServer, if_pos, Subnet.dhcp, hrange, Option.map_some]
    rfl

/-- One more call. -/
theorem History.snoc {calls : List Call} {s s' : System} {c : Call} (h : History subnet R calls s)
    (hs : step s c = some s') (hc : OfSubnet subnet R c) : History subnet R (calls ++ [c]) s' := by
  obtain ⟨store, hrun, hcalls⟩ := h
  refine ⟨store, steps_append.mpr ⟨s, hrun, Steps.cons hs (Steps.nil s')⟩, fun d hd => ?_⟩
  rcases List.mem_append.mp hd with hd | hd
  · exact hcalls d hd
  · obtain rfl := List.mem_singleton.mp hd
    exact hc

theorem Serving.allocate {p : LeasePool} (h : Serving subnet R p) {mac : HardwareAddr} {r : Allocated}
    (hr : p.allocate mac "" false (Readings.at 0) = some r) : Serving subnet R r.pool := by
  obtain ⟨calls, s, server, hhistory, hserver, hmode, hleases⟩ := h
  have hstep : step s (.request { messageType := .request, clientHWAddr := mac } (Readings.at 0)) =
      some { s with server := some { server with leases := some r.pool }
                    pending := s.pending ++ r.writes } := by
    have hfull : ¬((server.mode = .proxy) ∨ (MessageType.request ≠ .discover ∧
        MessageType.request ≠ .request)) := by
      rw [hmode]
      simp
    have hpxe : ({ messageType := .request, clientHWAddr := mac } : Request).isPXEClient = false := by
      show decide (hasPrefix "" "PXEClient" = true ∨ hasPrefix "" "iPXE" = true) = false
      decide
    simp only [step, hserver, if_neg hfull, handleFull, hleases, hpxe, hr, Option.map_some]
  exact ⟨_, _, _, hhistory.snoc hstep trivial, rfl, hmode, rfl⟩

theorem Serving.updateReservations {p : LeasePool} (h : Serving subnet R p)
    {reservations : Table (Option UInt32)} (hR : reservations ∈ R) :
    Serving subnet R (p.updateReservations reservations) := by
  obtain ⟨calls, s, server, hhistory, hserver, hmode, hleases⟩ := h
  have hstep : step s (.updateReservations reservations) =
      some { s with server := some { server with leases := some (p.updateReservations reservations) }
                    pending := s.pending ++ [] } := by
    simp only [step, System.onPool, hserver, hleases]
  exact ⟨_, _, _, hhistory.snoc hstep hR, rfl, hmode, rfl⟩

/-- **A range up to the last address can be used up.** -/
theorem exists_full (hrange : subnet.spec.pxeAddressRange = some range)
    (hstart : parseIPv4 range.startIP = some a) (hend : parseIPv4 range.endIP = some 0xffffffff)
    {j : ℕ} (hj : a.toNat + j ≤ 2 ^ 32) : ∃ p, Serving subnet R p ∧ p.Filling a j := by
  induction j with
  | zero =>
    refine ⟨_, serving_emptyPool hrange, hstart, hend, rfl, fun m e he => ?_, fun x hx hxj => ?_⟩
    · cases he
    · omega
  | succ j ih =>
    obtain ⟨p, hp, hfill⟩ := ih (by omega)
    by_cases hheld : ∃ m, p.Holds m (UInt32.ofNat (a.toNat + j))
    · refine ⟨p, hp, hfill.startIP, hfill.endIP, hfill.unreserved, hfill.leases, fun x hx hxj => ?_⟩
      by_cases hlast : x.toNat = a.toNat + j
      · rw [← hlast, UInt32.ofNat_toNat] at hheld
        exact hheld
      · exact hfill.taken x hx (by omega)
    · obtain ⟨mac, r, hr, hnext⟩ := hfill.next (by omega) (not_exists.mp hheld)
      exact ⟨r.pool, hp.allocate hr, hnext⟩

/-- A pool without a range of IPv4 addresses is not safe. -/
theorem LeasePool.Safe.ends (h : (emptyPool subnet range).Safe) :
    (parseIPv4 range.startIP).isSome = true ∧ (parseIPv4 range.endIP).isSome = true := by
  obtain ⟨r, hr, -⟩ := h [] "" false (Readings.at 0)
  replace hr : (emptyPool subnet range).allocateNew "" "" false (Readings.at 0) [] = some r := hr
  rw [allocateNew] at hr
  obtain ⟨startN, hstart, hr⟩ := Option.bind_eq_some_iff.mp hr
  obtain ⟨endN, hend, hr⟩ := Option.bind_eq_some_iff.mp hr
  exact ⟨Option.isSome_iff_exists.mpr ⟨startN, hstart⟩, Option.isSome_iff_exists.mpr ⟨endN, hend⟩⟩

/-- A pool with a reservation that is not of an IPv4 address is not safe. -/
theorem LeasePool.Safe.allIPv4 {reservations : Table (Option UInt32)}
    (h : ((emptyPool subnet range).updateReservations reservations).Safe) : AllIPv4 reservations := by
  intro m hm
  obtain ⟨mac, hmac, -⟩ := exists_unknown reservations reservations
  obtain ⟨r, hr, -⟩ := h mac "" false (Readings.at 0)
  have hsearch : ((emptyPool subnet range).updateReservations reservations).allocateNew (macText mac) ""
      false (Readings.at 0) [] = some r := by
    rw [allocate] at hr
    simp only [show ((emptyPool subnet range).updateReservations reservations).reservations =
      reservations from rfl, hmac] at hr
    exact hr
  rw [allocateNew] at hsearch
  obtain ⟨startN, -, hsearch⟩ := Option.bind_eq_some_iff.mp hsearch
  obtain ⟨endN, -, hsearch⟩ := Option.bind_eq_some_iff.mp hsearch
  obtain ⟨used, hused, -⟩ := Option.bind_eq_some_iff.mp hsearch
  replace hused : ((emptyPool subnet range).updateReservations reservations).used = some used := hused
  rw [LeasePool.used] at hused
  obtain ⟨leased, -, hused⟩ := Option.bind_eq_some_iff.mp hused
  obtain ⟨reserved, hreserved, -⟩ := Option.bind_eq_some_iff.mp hused
  have hmem : none ∈ reserved.map some :=
    map_eq_of_mapM hreserved ▸ List.mem_map.mpr ⟨_, Table.mem_toList.mpr hm, rfl⟩
  simp at hmem

end Full

/-- **For which subnets `Allocate` is safe.** In every history of an accepted subnet, in which the
reservations are of the sets `R`: if both ends of the range are IPv4 addresses, the last one is not
the last address there is, and the reservations are of IPv4 addresses; and only then. -/
theorem allocate_safe_iff (subnet : AcceptedSubnet) (R : Set (Table (Option UInt32)))
    {range : AddressRange} (hrange : subnet.spec.pxeAddressRange = some range) :
    (∀ calls s p, History subnet.toSubnet R calls s → s.pool = some p → p.Safe) ↔
      (parseIPv4 range.startIP).isSome = true ∧ (parseIPv4 range.endIP).isSome = true ∧
        parseIPv4 range.endIP ≠ some 0xffffffff ∧ ∀ reservations ∈ R, AllIPv4 reservations := by
  constructor
  · intro hsafe
    have hserving : ∀ p, Serving subnet.toSubnet R p → p.Safe := by
      rintro p ⟨calls, s, server, hhistory, hserver, -, hleases⟩
      exact hsafe calls s p hhistory (by rw [System.pool, hserver, Option.bind_some, hleases])
    have hempty := serving_emptyPool (R := R) hrange
    obtain ⟨hstart, hend⟩ := (hserving _ hempty).ends
    refine ⟨hstart, hend, fun hlast => ?_, fun reservations hR => ?_⟩
    · obtain ⟨a, ha⟩ := Option.isSome_iff_exists.mp hstart
      have hlt : a.toNat < 2 ^ 32 := a.toNat_lt
      obtain ⟨p, hp, hfull⟩ := exists_full (R := R) (j := 2 ^ 32 - a.toNat) hrange ha hlast (by omega)
      exact hfull.not_safe (hserving p hp)
    · exact (hserving _ (hempty.updateReservations hR)).allIPv4
  · rintro ⟨hstart, hend, hlast, hR⟩ calls s p hhistory hpool
    obtain ⟨range', hrange', hof⟩ := hhistory.of p hpool
    obtain rfl := Option.mem_unique hrange hrange'
    refine LeasePool.Sound.safe ⟨hhistory.known hR p hpool, ?_⟩
    rw [hof.1, hof.2]
    exact ⟨hstart, hend, hlast⟩

/-! ### Subnets -/

/-- A subnet with the given range. -/
def sampleSubnet (startIP endIP : String) : Subnet :=
  { name := "lab", spec := { cidr := "10.0.0.0/24", dnsServers := ["10.0.0.1"], leaseTime := 3600
                             pxeAddressRange := some ⟨startIP, endIP⟩ } }

/-- The start of a server for a subnet. -/
def startSubnet (subnet : Subnet) : Call := .start .full subnet.dhcp true { now := fun _ => 0 }

/-- A reservation set with a manual reservation of the subnet, and the address of a machine. -/
def sampleReservations (ip : String) : Table (Option UInt32) :=
  reservationSet [⟨"52:54:00:00:00:01", ip⟩] [⟨true, "52:54:00:00:00:02", "10.0.0.12"⟩]

/-- The subnet of a usual range, with reservations in it. -/
theorem allocate_safe_usual :
    ∃ subnet : AcceptedSubnet, subnet.toSubnet = sampleSubnet "10.0.0.10" "10.0.0.20" ∧
      ∀ calls s p, History subnet.toSubnet {sampleReservations "10.0.0.11"} calls s →
        s.pool = some p → p.Safe := by
  have hvalid : validateSubnet (sampleSubnet "10.0.0.10" "10.0.0.20") = .ok () := by decide
  refine ⟨⟨sampleSubnet "10.0.0.10" "10.0.0.20", hvalid⟩, rfl, ?_⟩
  refine (allocate_safe_iff _ _ rfl).mpr ⟨by decide, by decide, by decide, ?_⟩
  intro reservations hmem m hm
  obtain rfl := Set.mem_singleton_iff.mp hmem
  have hall : ((sampleReservations "10.0.0.11").toList.all fun kv => kv.2.isSome) = true := by
    decide
  exact absurd (List.all_eq_true.mp hall (m, none) (Table.mem_toList.mpr hm)) (by simp)

/-- Whether the calls are answered, and the next client gets no answer, or an address that is not in
the range. -/
def breaks (calls : List Call) (i : UInt8) : Bool :=
  (execute step {} calls).any fun s => s.pool.any fun p =>
    p.reservations[macText (sampleClient i)]?.isNone &&
      match p.allocate (sampleClient i) "" false (Readings.at 0) with
      | none => true
      | some a => a.ip.any fun ip => !p.inRange (some ip)

theorem not_safe_of_breaks {calls : List Call} {i : UInt8} (h : breaks calls i = true) :
    ∃ s p, Steps (Graph step) {} calls s ∧ s.pool = some p ∧ ¬p.Safe := by
  obtain ⟨s, hs, hcheck⟩ := (Option.any_eq_true _ _).mp h
  obtain ⟨p, hp, hbreaks⟩ := (Option.any_eq_true _ _).mp hcheck
  obtain ⟨hres, hbreaks⟩ := Bool.and_eq_true_iff.mp hbreaks
  refine ⟨s, p, steps_graph.mpr hs, hp, fun hsafe => ?_⟩
  obtain ⟨a, ha, hin⟩ := hsafe (sampleClient i) "" false (Readings.at 0)
  rw [ha] at hbreaks
  obtain ⟨ip, hip, hout⟩ := (Option.any_eq_true _ _).mp hbreaks
  rcases hin ip hip with hreserved | hrange
  · rw [hreserved] at hres
    cases hres
  · rw [hrange] at hout
    cases hout

/-- **Accepted subnets with which `Allocate` goes wrong.** A range of IPv6 addresses, and a
reservation of one, make it panic; a range that ends with the last address there is gives the second
client `0.0.0.0`. -/
theorem accepted_not_safe :
    (∃ s p, validateSubnet (sampleSubnet "fd00::10" "fd00::20") = .ok () ∧
      Steps (Graph step) {} [startSubnet (sampleSubnet "fd00::10" "fd00::20")] s ∧ s.pool = some p ∧ ¬p.Safe) ∧
    (∃ s p, validateSubnet (sampleSubnet "10.0.0.10" "10.0.0.20") = .ok () ∧
      Steps (Graph step) {} [startSubnet (sampleSubnet "10.0.0.10" "10.0.0.20"),
        .updateReservations (sampleReservations "fd00::11")] s ∧ s.pool = some p ∧ ¬p.Safe) ∧
    ∃ s p, validateSubnet (sampleSubnet "255.255.255.255" "255.255.255.255") = .ok () ∧
      Steps (Graph step) {} [startSubnet (sampleSubnet "255.255.255.255" "255.255.255.255"),
        sampleRequest 3 0] s ∧
      s.pool = some p ∧ ¬p.Safe := by
  have hrange : breaks [startSubnet (sampleSubnet "fd00::10" "fd00::20")] 4 = true := by decide
  have hreserved : breaks [startSubnet (sampleSubnet "10.0.0.10" "10.0.0.20"),
      .updateReservations (sampleReservations "fd00::11")] 4 = true := by decide
  have hwraps : breaks [startSubnet (sampleSubnet "255.255.255.255" "255.255.255.255"),
      sampleRequest 3 0] 4 = true := by decide
  obtain ⟨s₁, p₁, h₁⟩ := not_safe_of_breaks hrange
  obtain ⟨s₂, p₂, h₂⟩ := not_safe_of_breaks hreserved
  obtain ⟨s₃, p₃, h₃⟩ := not_safe_of_breaks hwraps
  exact ⟨⟨s₁, p₁, by decide, h₁⟩, ⟨s₂, p₂, by decide, h₂⟩, s₃, p₃, by decide, h₃⟩

end Gomi.Dhcp
