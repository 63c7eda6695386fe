import Gomi.Dhcp.Accepted

/-!
# Which addresses are found

A client that has neither a reservation nor a lease to keep gets what the loop of `Allocate`
finds. This file says what that is.

* In every history, from a range that does not end with the last address there is, it is the
  least address of the range that is *free* (`Gomi.Dhcp.LeasePool.Free`): not reserved, and not
  in the lease of another MAC that has not expired. There is no answer only if no address is
  free (`Gomi.Dhcp.allocate_complete`).
* The loop does not look at the reserved ranges of the subnet, which `ValidateSubnet` checks
  and nothing else reads. A reserved range is kept free exactly if the range of the pool does
  not come to it (`Gomi.Dhcp.reserved_ranges_iff`).
-/

namespace Gomi.Dhcp

open Go LeasePool

/-! ### The free addresses -/

namespace LeasePool

variable {p : LeasePool} {key hostname : String} {pxeClient : Bool} {r : Readings} {x : UInt32}
  {mac : HardwareAddr} {used : List UInt32}

/-- **An address is free** for a MAC if it is not reserved and not in the lease of another MAC that
has not expired. -/
def Free (p : LeasePool) (key : String) (now : String → Time) (x : UInt32) : Prop :=
  (∀ m : String, p.reservations[m]? ≠ some (some x)) ∧
    ∀ (m : String) (e : LeaseEntry), m ≠ key → p.leases[m]? = some e → e.ip = some x →
      p.expired e.leasedAt (now m) = true

/-- It is free if nobody has it once the own lease and the expired ones are gone. -/
theorem free_iff {now : String → Time} :
    p.Free key now x ↔ ∀ m, ¬(p.remaining key now).Holds m x := by
  obtain ⟨leases, heq, hkey, hget⟩ := p.remaining_eq key now
  rw [heq]
  constructor
  · rintro ⟨hreserved, hexpired⟩ m (⟨e, he, hip⟩ | hres)
    · replace he : leases[m]? = some e := he
      have hm : m ≠ key := by
        rintro rfl
        cases hkey.symm.trans he
      rw [hget m hm] at he
      obtain ⟨he, hlive⟩ := Option.filter_eq_some_iff.mp he
      rw [hexpired m e hm he hip] at hlive
      cases hlive
    · exact hreserved m hres
  · intro hnobody
    refine ⟨fun m hm => hnobody m (Or.inr hm), fun m e hm he hip => ?_⟩
    by_contra hlive
    refine hnobody m (Or.inl ⟨e, ?_, hip⟩)
    show leases[m]? = some e
    rw [hget m hm, he]
    simpa using hlive

theorem not_mem_used_iff (hused : (p.remaining key r.reclaim).used = some used) :
    x ∉ used ↔ p.Free key r.reclaim x := by
  rw [mem_used hused, free_iff, not_exists]

/-- A client with nothing to keep is searched an address for. -/
theorem allocate_stale (hres : p.reservations[macText mac]? = none) (hstale : p.Stale (macText mac) r.own) :
    ∃ dropped, p.allocate mac hostname pxeClient r =
      (p.forget (macText mac)).allocateNew (macText mac) hostname pxeClient r dropped := by
  rw [allocate, hres]
  cases hown : p.leases[macText mac]? with
  | none =>
    refine ⟨[], ?_⟩
    rw [forget_eq_self hown]
  | some e =>
    refine ⟨p.deleteLeaseAsync (macText mac), ?_⟩
    have hdrop : ¬(p.inRange e.ip = true ∧ ¬p.expired e.leasedAt r.own = true) := fun hkeep =>
      hkeep.2 (hstale e hown hkeep.1)
    exact if_neg hdrop

/-- What it gets is what the loop finds. -/
theorem allocate_ip {startN endN : UInt32} {found : Option UInt32}
    (hres : p.reservations[macText mac]? = none) (hstale : p.Stale (macText mac) r.own)
    (hstart : p.startIP = some startN) (hend : p.endIP = some endN)
    (hused : (p.remaining (macText mac) r.reclaim).used = some used)
    (hfound : scan used endN (2 ^ 32) startN = some found) :
    ∃ a, p.allocate mac hostname pxeClient r = some a ∧ a.ip = found := by
  obtain ⟨dropped, heq⟩ := @allocate_stale p hostname pxeClient r mac hres hstale
  rw [heq]
  exact @allocateNew_ip (p.forget (macText mac)) _ hostname pxeClient r startN endN used found hstart hend
    hused hfound dropped

end LeasePool

/-- A set of addresses that is not empty has a least one. -/
theorem exists_isLeast {S : Set UInt32} (h : S.Nonempty) : ∃ x, IsLeast S x := by
  obtain ⟨x, hx, hmin⟩ := (measure UInt32.toNat).wf.has_min S h
  exact ⟨x, hx, fun y hy => UInt32.not_lt.mp (hmin y hy)⟩

/-! ### The least free address -/

section Complete

variable {s : System} {p : LeasePool} {startN endN : UInt32}

/-- **The loop finds the least address of the range that is not used**, if there is one. -/
theorem scan_isLeast {used : List UInt32} (hend : endN ≠ 0xffffffff) :
    ∃ found, scan used endN (2 ^ 32) startN = some found ∧
      (∀ x, found = some x ↔ IsLeast {y | startN ≤ y ∧ y ≤ endN ∧ y ∉ used} x) ∧
      (found = none ↔ ∀ y, startN ≤ y → y ≤ endN → y ∈ used) := by
  by_cases hex : {y | startN ≤ y ∧ y ≤ endN ∧ y ∉ used}.Nonempty
  · obtain ⟨y, hy⟩ := exists_isLeast hex
    have hscan : scan used endN (2 ^ 32) startN = some (some y) := by
      refine scan_first hy.1.2.2 (fun x hx hxy => ?_) hy.1.1 hy.1.2.1 ?_
      · by_contra hfree
        have hle : y ≤ x := hy.2 ⟨hx, UInt32.le_trans (UInt32.le_of_lt hxy) hy.1.2.1, hfree⟩
        exact absurd hxy (UInt32.not_lt.mpr hle)
      · have hlt : y.toNat < 2 ^ 32 := y.toNat_lt
        omega
    refine ⟨some y, hscan, fun x => ?_, ?_⟩
    · constructor
      · intro heq
        cases heq
        exact hy
      · intro hx
        exact congrArg some (UInt32.le_antisymm (hy.2 hx.1) (hx.2 hy.1))
    · refine iff_of_false (by simp) fun hall => ?_
      exact hy.1.2.2 (hall y hy.1.1 hy.1.2.1)
  · obtain ⟨found, hfound⟩ := @LeasePool.scan_bounded startN endN hend used
    have hall : ∀ y, startN ≤ y → y ≤ endN → y ∈ used := by
      intro y hstart hle
      by_contra hfree
      exact hex ⟨y, hstart, hle, hfree⟩
    obtain rfl : found = none := by
      cases found with
      | none => rfl
      | some y =>
        obtain ⟨hfree, hle, hge⟩ := scan_eq_some hfound
        exact absurd (hall y (hge hend) hle) hfree
    refine ⟨none, hfound, fun x => iff_of_false (by simp) fun hx => ?_, iff_of_true rfl hall⟩
    exact hex ⟨x, hx.1⟩

/-- **Allocation is complete.** In every history of calls in which the reservations are of IPv4
addresses, from any content of the lease store, and for every pool that it leads to whose range does
not end with the last address there is: a client without a reservation and without a lease to keep
gets the least address of the range that is free, and none exactly if there is no free one. -/
theorem allocate_complete {store : Table DHCPLease} {calls : List Call}
    (hrun : Steps (Graph step) { store } calls s)
    (hreservations : ∀ t, .updateReservations t ∈ calls → AllIPv4 t) (hpool : s.pool = some p)
    (hstart : p.startIP = some startN) (hend : p.endIP = some endN) (hlast : endN < 0xffffffff)
    (mac : HardwareAddr) (hostname : String) (pxeClient : Bool) (r : Readings)
    (hres : p.reservations[macText mac]? = none) (hstale : p.Stale (macText mac) r.own) :
    ∃ a, p.allocate mac hostname pxeClient r = some a ∧
      (∀ x, a.ip = some x ↔
        IsLeast {y | startN ≤ y ∧ y ≤ endN ∧ p.Free (macText mac) r.reclaim y} x) ∧
      (a.ip = none ↔ ∀ y, startN ≤ y → y ≤ endN → ¬p.Free (macText mac) r.reclaim y) := by
  have hknown : s.Known := by
    refine (hrun.under (C := fun c => ∀ t, c = Call.updateReservations t → AllIPv4 t) ?_).invariant
      (fun hstep hs => hs.step hstep.1 hstep.2) fun p hp => absurd hp (by simp [System.pool])
    rintro c hc t rfl
    exact hreservations t hc
  obtain ⟨used, hused⟩ := Option.isSome_iff_exists.mp
    ((hknown p hpool).remaining (macText mac) r.reclaim).used
  have hne : endN ≠ 0xffffffff := by
    rintro rfl
    exact absurd hlast (by decide)
  obtain ⟨found, hfound, hleast, hnone⟩ := @scan_isLeast startN endN used hne
  obtain ⟨a, ha, rfl⟩ := @allocate_ip p hostname pxeClient r mac used startN endN found hres hstale
    hstart hend hused hfound
  have hiff := fun x => not_mem_used_iff (x := x) hused
  refine ⟨a, ha, ?_, ?_⟩
  · simpa only [hiff] using hleast
  · simpa only [← hiff, not_not] using hnone

/-- The second client of a range of two addresses. -/
theorem allocate_complete_second :
    ∃ (calls : List Call) (s : System) (p : LeasePool) (a : Allocated),
      Steps (Graph step) {} calls s ∧ s.pool = some p ∧
      p.allocate (sampleClient 2) "" false (Readings.at 1) = some a ∧
      (∀ x, a.ip = some x ↔ IsLeast {y | 0x0a00000a ≤ y ∧ y ≤ 0x0a00000b ∧
        p.Free (macText (sampleClient 2)) (Readings.at 1).reclaim y} x) ∧
      (a.ip = none ↔ ∀ y, 0x0a00000a ≤ y → y ≤ 0x0a00000b →
        ¬p.Free (macText (sampleClient 2)) (Readings.at 1).reclaim y) := by
  have heval : ((execute step {} [sampleStart "10.0.0.10" "10.0.0.11", sampleRequest 1 0]).any fun s =>
      s.pool.any fun p => decide (p.startIP = some 0x0a00000a ∧ p.endIP = some 0x0a00000b ∧
        p.reservations[macText (sampleClient 2)]? = none ∧
        p.leases[macText (sampleClient 2)]? = none)) = true := by
    decide
  simp only [Option.any_eq_true, decide_eq_true_eq] at heval
  obtain ⟨s, hs, p, hp, hstart, hend, hres, hown⟩ := heval
  have hrun := steps_graph.mpr hs
  obtain ⟨a, ha⟩ := allocate_complete hrun (by simp [sampleStart, sampleRequest]) hp hstart hend
    (by decide) (sampleClient 2) "" false (Readings.at 1) hres fun e he => absurd (hown.symm.trans he) (by simp)
  exact ⟨_, s, p, a, hrun, hp, ha⟩

end Complete

/-! ### Reserved ranges -/

/-- The IPv4 addresses of a range. -/
def AddressRange.Contains (range : AddressRange) (x : UInt32) : Prop :=
  ∃ a b, parseIPv4 range.startIP = some a ∧ parseIPv4 range.endIP = some b ∧ a ≤ x ∧ x ≤ b

/-- The addresses that the loop of a pool of this range can come to: those of the range, and all
others if it ends with the last address there is. -/
def AddressRange.Offers (range : AddressRange) (x : UInt32) : Prop :=
  range.Contains x ∨
    (parseIPv4 range.startIP).isSome = true ∧ parseIPv4 range.endIP = some 0xffffffff

/-- **What is expected of a pool**: an address that a client gets without a reservation is in none of
the reserved ranges. -/
def LeasePool.Respects (p : LeasePool) (ranges : List AddressRange) : Prop :=
  ∀ mac hostname pxeClient r a ip, p.reservations[macText mac]? = none →
    p.allocate mac hostname pxeClient r = some a → a.ip = some ip →
    ∀ range ∈ ranges, ¬range.Contains ip

section Reserved

variable {p : LeasePool} {range : AddressRange} {x : UInt32}

/-- An address that a pool gives without a reservation is one that its range offers. -/
theorem LeasePool.Of.offers (h : p.Of range) {mac : HardwareAddr} {hostname : String} {pxeClient : Bool}
    {r : Readings} {a : Allocated} (hres : p.reservations[macText mac]? = none)
    (ha : p.allocate mac hostname pxeClient r = some a) (hip : a.ip = some x) : range.Offers x := by
  -- an address of the pool's range is one of the subnet's
  have hin : p.inRange (some x) = true → range.Contains x := by
    intro hrange
    unfold inRange at hrange
    split at hrange
    · rename_i n startN endN heq hstart hend
      cases heq
      exact ⟨startN, endN, h.1.symm.trans hstart, h.2.symm.trans hend, of_decide_eq_true hrange⟩
    · cases hrange
  cases allocate_cases ha with
  | reserved hres' => cases hres.symm.trans hres'
  | renewed _ hown hrange =>
    exact Or.inl (hin (hip ▸ hrange))
  | @fresh ip _ hstale hfree hrange =>
    obtain rfl : ip = x := Option.some.inj hip
    by_cases hlast : p.endIP = some 0xffffffff
    · obtain ⟨dropped, heq⟩ := @allocate_stale p hostname pxeClient r mac hres hstale
      rw [heq, allocateNew] at ha
      obtain ⟨startN, hstart, -⟩ := Option.bind_eq_some_iff.mp ha
      exact Or.inr ⟨Option.isSome_iff_exists.mpr ⟨startN, h.1.symm.trans hstart⟩, h.2.symm.trans hlast⟩
    · exact Or.inl (hin (hrange hlast))
  | exhausted => cases hip

/-- A loop up to the last address there is comes to every address. -/
theorem scan_wraps {used : List UInt32} {fuel : ℕ} {n : UInt32} (hx : x ∉ used)
    (hothers : ∀ y, y ≠ x → y ∈ used) (hfuel : (x - n).toNat < fuel) :
    scan used 0xffffffff fuel n = some (some x) := by
  induction fuel generalizing n with
  | zero => exact absurd hfuel (Nat.not_lt_zero _)
  | succ fuel ih =>
    have hle : n ≤ 0xffffffff := by
      have hlt : n.toNat < 2 ^ 32 := n.toNat_lt
      show n.toNat ≤ 0xffffffff
      omega
    rw [scan, if_pos hle]
    by_cases hn : n = x
    · rw [hn, if_neg hx]
    · rw [if_pos (hothers n hn)]
      have hne : x.toNat ≠ n.toNat := fun h0 => hn (UInt32.toNat_inj.mp h0.symm)
      have hone : (1 : UInt32).toNat = 1 := rfl
      refine ih ?_
      simp only [UInt32.toNat_sub, UInt32.toNat_add, hone] at hfuel ⊢
      have hx' : x.toNat < 2 ^ 32 := x.toNat_lt
      have hn' : n.toNat < 2 ^ 32 := n.toNat_lt
      omega

/-- A set of reservations for the given addresses. -/
theorem exists_reservations (l : List UInt32) : ∃ t : Table (Option UInt32),
    (∀ y ∈ l, ∃ m : String, t[m]? = some (some y)) ∧
      ∀ (m : String) (ip : Option UInt32), t[m]? = some ip → ∃ y ∈ l, ip = some y := by
  induction l with
  | nil => exact ⟨∅, by simp, by simp⟩
  | cons y l ih =>
    obtain ⟨t, hall, honly⟩ := ih
    obtain ⟨mac, hmac, -⟩ := exists_unknown t t
    refine ⟨t.insert (macText mac) (some y), fun z hz => ?_, fun m ip hm => ?_⟩
    · rcases List.mem_cons.mp hz with rfl | hz
      · exact ⟨macText mac, by rw [Table.get_insert, if_pos rfl]⟩
      · obtain ⟨m, hm⟩ := hall z hz
        refine ⟨m, ?_⟩
        rw [Table.get_insert, if_neg, hm]
        rintro rfl
        cases hmac.symm.trans hm
    · rcases Table.insert_cases hm with ⟨-, rfl⟩ | ⟨-, hm⟩
      · exact ⟨y, List.mem_cons_self, rfl⟩
      · obtain ⟨z, hz, rfl⟩ := honly m ip hm
        exact ⟨z, List.mem_cons_of_mem y hz, rfl⟩

/-- All addresses but one can be reserved. -/
theorem exists_reserved_but (x : UInt32) : ∃ t : Table (Option UInt32), AllIPv4 t ∧
    ∀ y, y ≠ x ↔ ∃ m : String, t[m]? = some (some y) := by
  have hfinite : Finite UInt32 := Finite.of_injective UInt32.toFin fun _ _ => UInt32.toFin_inj.mp
  have hset : {y : UInt32 | y ≠ x}.Finite := Set.toFinite _
  obtain ⟨t, hall, honly⟩ := exists_reservations hset.toFinset.toList
  simp only [Finset.mem_toList, Set.Finite.mem_toFinset, Set.mem_ofPred_eq] at hall honly
  refine ⟨t, fun m hm => ?_, fun y => ⟨hall y, fun ⟨m, hm⟩ => ?_⟩⟩
  · obtain ⟨y, -, hy⟩ := honly m none hm
    cases hy
  · obtain ⟨z, hz, heq⟩ := honly m _ hm
    rwa [Option.some.inj heq]

/-- **Every address that a range offers is given to some client**, in some history. -/
theorem exists_given {subnet : Subnet} (hrange : subnet.spec.pxeAddressRange = some range)
    (hx : range.Offers x) : ∃ p mac a, Serving subnet Set.univ p ∧
      p.reservations[macText mac]? = none ∧ p.allocate mac "" false (Readings.at 0) = some a ∧
      a.ip = some x := by
  -- all other addresses are reserved
  obtain ⟨t, hIPv4, hothers⟩ := exists_reserved_but x
  obtain ⟨mac, hmac, -⟩ := exists_unknown t t
  have hserving := (serving_emptyPool (R := Set.univ) hrange).updateReservations (Set.mem_univ t)
  have hknown : ((emptyPool subnet range).updateReservations t).Known :=
    ⟨fun m e he => absurd he (by simp [LeasePool.updateReservations, emptyPool]), hIPv4⟩
  obtain ⟨used, hused⟩ := Option.isSome_iff_exists.mp
    (hknown.remaining (macText mac) (Readings.at 0).reclaim).used
  have hfree : ∀ y, y ∉ used ↔ y = x := by
    intro y
    rw [not_mem_used_iff hused]
    constructor
    · intro h
      by_contra hne
      obtain ⟨m, hm⟩ := (hothers y).mp hne
      exact h.1 m hm
    · rintro rfl
      refine ⟨fun m hm => (hothers y).mpr ⟨m, hm⟩ rfl, fun m e _ he => ?_⟩
      cases he
  have hused' : ∀ y, y ≠ x → y ∈ used := fun y hy => not_not.mp fun hn => hy ((hfree y).mp hn)
  have hlt : ∀ y : UInt32, y.toNat < 2 ^ 32 := fun y => y.toNat_lt
  have hscan : ∃ startN endN, parseIPv4 range.startIP = some startN ∧
      parseIPv4 range.endIP = some endN ∧ scan used endN (2 ^ 32) startN = some (some x) := by
    rcases hx with ⟨startN, endN, hstart, hend, hge, hle⟩ | ⟨hstart, hend⟩
    · refine ⟨startN, endN, hstart, hend, scan_first ((hfree x).mpr rfl) (fun y _ hy => hused' y ?_)
        hge hle (Nat.lt_add_left _ (hlt x))⟩
      rintro rfl
      exact absurd hy (UInt32.lt_irrefl y)
    · obtain ⟨startN, hstart⟩ := Option.isSome_iff_exists.mp hstart
      exact ⟨startN, _, hstart, hend, scan_wraps ((hfree x).mpr rfl) hused' (hlt _)⟩
  obtain ⟨startN, endN, hstart, hend, hscan⟩ := hscan
  obtain ⟨a, ha, hip⟩ := @allocate_ip ((emptyPool subnet range).updateReservations t) "" false (Readings.at 0)
    mac used startN endN (some x) hmac
    (fun e he => absurd he (by simp [LeasePool.updateReservations, emptyPool])) hstart hend hused hscan
  exact ⟨_, mac, a, hserving, hmac, ha, hip⟩

end Reserved

/-- **When reserved ranges are respected.** In every history of an accepted subnet, with any
reservations: if no reserved range has an address that the range of the pool offers, and only then. -/
theorem reserved_ranges_iff (subnet : AcceptedSubnet) :
    (∀ calls s p, History subnet.toSubnet Set.univ calls s → s.pool = some p →
        p.Respects subnet.spec.reservedRanges) ↔
      ∀ range, subnet.spec.pxeAddressRange = some range →
        ∀ reserved ∈ subnet.spec.reservedRanges, ∀ x, reserved.Contains x → ¬range.Offers x := by
  constructor
  · intro h range hrange reserved hmem x hin hoffers
    obtain ⟨p, mac, a, ⟨calls, s, server, hhistory, hserver, -, hleases⟩, hres, ha, hip⟩ :=
      exists_given hrange hoffers
    have hpool : s.pool = some p := by rw [System.pool, hserver, Option.bind_some, hleases]
    exact h calls s p hhistory hpool mac "" false _ a x hres ha hip reserved hmem hin
  · intro h calls s p hhistory hpool mac hostname pxeClient r a x hres ha hip reserved hmem hin
    obtain ⟨range, hrange, hof⟩ := hhistory.of p hpool
    exact h range hrange reserved hmem x hin (hof.offers hres ha hip)

/-- A subnet with a range of ten addresses, and one that is reserved. -/
def reservingSubnet (startIP endIP : String) : Subnet :=
  { name := "lab", spec := { cidr := "10.0.0.0/24", dnsServers := ["10.0.0.1"], leaseTime := 3600
                             pxeAddressRange := some ⟨"10.0.0.10", "10.0.0.20"⟩
                             reservedRanges := [⟨startIP, endIP⟩] } }

/-- A reserved range below the range of the pool. -/
theorem reserved_ranges_below :
    ∃ subnet : AcceptedSubnet, subnet.toSubnet = reservingSubnet "10.0.0.1" "10.0.0.9" ∧
      ∀ calls s p, History subnet.toSubnet Set.univ calls s → s.pool = some p →
        p.Respects subnet.spec.reservedRanges := by
  have hvalid : validateSubnet (reservingSubnet "10.0.0.1" "10.0.0.9") = .ok () := by decide
  refine ⟨⟨reservingSubnet "10.0.0.1" "10.0.0.9", hvalid⟩, rfl, (reserved_ranges_iff _).mpr ?_⟩
  rintro range hrange reserved hmem x ⟨a, b, -, hb, -, hle⟩ hoffers
  cases hrange
  obtain rfl := List.mem_singleton.mp hmem
  have htexts : parseIPv4 "10.0.0.9" = some 0x0a000009 ∧ parseIPv4 "10.0.0.10" = some 0x0a00000a ∧
      parseIPv4 "10.0.0.20" ≠ some 0xffffffff := by decide
  obtain rfl := Option.mem_unique htexts.1 hb
  rcases hoffers with ⟨c, d, hc, -, hge, -⟩ | ⟨-, hlast⟩
  · obtain rfl := Option.mem_unique htexts.2.1 hc
    exact absurd (UInt32.le_trans hge hle) (by decide)
  · exact htexts.2.2 hlast

/-- **A reserved address that is given.** The reserved range is the beginning of the pool's; the first
client gets the first address of both. -/
theorem reserved_range_given :
    ∃ (s : System) (p : LeasePool) (a : Allocated) (x : UInt32),
      validateSubnet (reservingSubnet "10.0.0.10" "10.0.0.12") = .ok () ∧
      Steps (Graph step) {} [startSubnet (reservingSubnet "10.0.0.10" "10.0.0.12")] s ∧
      s.pool = some p ∧ p.reservations[macText (sampleClient 1)]? = none ∧
      p.allocate (sampleClient 1) "" true (Readings.at 0) = some a ∧ a.ip = some x ∧
      ∃ range ∈ (reservingSubnet "10.0.0.10" "10.0.0.12").spec.reservedRanges, range.Contains x := by
  have hvalid : validateSubnet (reservingSubnet "10.0.0.10" "10.0.0.12") = .ok () := by decide
  have heval : ((execute step {} [startSubnet (reservingSubnet "10.0.0.10" "10.0.0.12")]).any fun s =>
      s.pool.any fun p => p.reservations[macText (sampleClient 1)]?.isNone &&
        (p.allocate (sampleClient 1) "" true (Readings.at 0)).any fun a =>
          a.ip = some 0x0a00000a) = true := by
    decide
  simp only [Option.any_eq_true, Bool.and_eq_true, decide_eq_true_eq] at heval
  obtain ⟨s, hs, p, hp, hres, a, ha, hip⟩ := heval
  refine ⟨s, p, a, 0x0a00000a, hvalid, steps_graph.mpr hs, hp, Option.isNone_iff_eq_none.mp hres, ha,
    hip, _, List.mem_singleton_self _, 0x0a00000a, 0x0a00000c, ?_⟩
  decide

end Gomi.Dhcp
