import Gomi.Go.Addr
import Gomi.Go.Clock
import Gomi.Table

/-!
# The lease pool

`internal/pxe/lease.go`: how the DHCP server assigns the addresses of a range. The pool
knows the leases it has given (`leases`) and the addresses that are set aside
(`reservations`), both by the text of a hardware address. A call holds the pool's lock, so
it is a function from a pool to a pool.

* An address (`net.IP`) is what the pool looks at of it: its `To4`, as a number, with `none`
  for one that is not an IPv4 address.
* The clock is read several times in a call; `Gomi.Dhcp.Readings` are these readings. The
  order in which the leases are looked at is not determined, so there is one reading for
  each of them.
* The store is written by detached goroutines. A call returns the writes it has started
  (`Gomi.Dhcp.Write`); when they take effect is decided in `Gomi.Dhcp.Server`.
* `none` is a call that does not return: a panic, where an address that is not IPv4 is
  turned into a number, or a loop that does not end.

What a call of `Allocate` does is said once, by `Gomi.Dhcp.Allocation`, and
`Gomi.Dhcp.LeasePool.allocate_cases` is the inversion.
-/

namespace Gomi.Dhcp

open Go

/-- `leaseEntry`. -/
structure LeaseEntry where
  ip : Option UInt32
  leasedAt : Time
  deriving DecidableEq

/-- `DHCPLease`, a row of the lease store. -/
structure DHCPLease where
  mac : String
  ip : String
  hostname : String := ""
  pxeClient : Bool := false
  leasedAt : Time
  deriving DecidableEq

/-- A call of the lease store that runs in a goroutine of its own. -/
inductive Write where
  | upsert (lease : DHCPLease)
  | delete (mac : String)
  deriving DecidableEq

/-- `leasePool`. Of the store only its presence matters here. -/
structure LeasePool where
  startIP : Option UInt32
  endIP : Option UInt32
  leases : Table LeaseEntry := ∅
  reservations : Table (Option UInt32) := ∅
  store : Bool
  ttl : Duration

/-- The readings of the clock in one call of `Allocate`. -/
structure Readings where
  /-- When the client's own lease is looked at. -/
  own : Time
  /-- When the lease of a MAC is looked at. -/
  reclaim : String → Time
  /-- The time of the new lease in the pool. -/
  leased : Time
  /-- The time of the new lease in the store. -/
  persisted : Time

/-- The clock does not go back in a call. -/
structure Readings.Ordered (r : Readings) : Prop where
  own_le : ∀ mac, r.own ≤ r.reclaim mac
  reclaim_le : ∀ mac, r.reclaim mac ≤ r.leased
  leased_le : r.leased ≤ r.persisted

/-- All readings of a call at one time. -/
def Readings.at (t : Time) : Readings := ⟨t, fun _ => t, t, t⟩

/-- `ip.String()`. -/
def ipText : Option UInt32 → String
  | some ip => ipv4Text ip
  | none => "<nil>"

/-! ### The pool's functions -/

/-- What a call of `Allocate` returns, leaves and has started. -/
structure Allocated where
  ip : Option UInt32
  pool : LeasePool
  writes : List Write

namespace LeasePool

variable (p : LeasePool)

/-- `expired`. -/
def expired (leasedAt now : Time) : Bool :=
  if p.ttl ≤ 0 ∨ leasedAt = zeroTime then false else p.ttl < sub now leasedAt

/-- `inRange`. -/
def inRange (ip : Option UInt32) : Bool :=
  match ip, p.startIP, p.endIP with
  | some n, some startN, some endN => startN ≤ n ∧ n ≤ endN
  | _, _, _ => false

/-- `persistAsync`. -/
def persistAsync (mac : String) (ip : Option UInt32) (hostname : String) (pxeClient : Bool)
    (now : Time) : List Write :=
  if p.store then [.upsert { mac, ip := ipText ip, hostname, pxeClient, leasedAt := now }] else []

/-- `deleteLeaseAsync`. -/
def deleteLeaseAsync (mac : String) : List Write := if p.store then [.delete mac] else []

/-- `delete(p.leases, key)`. -/
def forget (key : String) : LeasePool := { p with leases := p.leases.erase key }

/-- `p.leases[key] = leaseEntry{ip: ip, leasedAt: leasedAt}`. -/
def lease (key : String) (ip : Option UInt32) (leasedAt : Time) : LeasePool :=
  { p with leases := p.leases.insert key { ip, leasedAt } }

/-- The address of `key`, granted or renewed. -/
def grant (key : String) (ip : Option UInt32) (hostname : String) (pxeClient : Bool) (r : Readings) :
    Allocated :=
  { ip, pool := p.lease key ip r.leased
    writes := p.persistAsync key ip hostname pxeClient r.persisted }

/-- The MACs whose leases are reclaimed. -/
def reclaimed (now : String → Time) : List String :=
  (p.leases.toList.filter fun kv => p.expired kv.2.leasedAt (now kv.1)).map Prod.fst

/-- The pool after their leases are gone. -/
def reclaim (now : String → Time) : LeasePool := (p.reclaimed now).foldl forget p

/-- The addresses that are taken. -/
def used : Option (List UInt32) := do
  let leased ← p.leases.toList.mapM (·.2.ip)
  let reserved ← p.reservations.toList.mapM (·.2)
  return leased ++ reserved

end LeasePool

/-- `for n := startN; n <= endN; n++`, which looks for an address that is not used. A 32-bit number
that is incremented wraps around, so the loop ends after `2 ^ 32` rounds or never. -/
def scan (used : List UInt32) (endN : UInt32) : ℕ → UInt32 → Option (Option UInt32)
  | 0, _ => none
  | fuel + 1, n =>
    if n ≤ endN then if n ∈ used then scan used endN fuel (n + 1) else some (some n)
    else some none

namespace LeasePool

variable (p : LeasePool)

/-- `Allocate`, from where the client has no lease. `dropped` are the writes started so far. -/
def allocateNew (key hostname : String) (pxeClient : Bool) (r : Readings) (dropped : List Write) :
    Option Allocated := do
  let startN ← p.startIP
  let endN ← p.endIP
  let writes := dropped ++ (p.reclaimed r.reclaim).flatMap p.deleteLeaseAsync
  let rest := p.reclaim r.reclaim
  let used ← rest.used
  match ← scan used endN (2 ^ 32) startN with
  | some ip =>
    let granted := rest.grant key (some ip) hostname pxeClient r
    return { granted with writes := writes ++ granted.writes }
  | none => return { ip := none, pool := rest, writes }

/-- `Allocate`. -/
def allocate (mac : HardwareAddr) (hostname : String) (pxeClient : Bool) (r : Readings) :
    Option Allocated :=
  let key := macText mac
  match p.reservations[key]? with
  | some reservedIP => some (p.grant key reservedIP hostname pxeClient r)
  | none => match p.leases[key]? with
    | some e =>
      if p.inRange e.ip ∧ ¬p.expired e.leasedAt r.own then
        some (p.grant key e.ip hostname pxeClient r)
      else (p.forget key).allocateNew key hostname pxeClient r (p.deleteLeaseAsync key)
    | none => p.allocateNew key hostname pxeClient r []

/-- `Release`. -/
def release (mac : HardwareAddr) : LeasePool × List Write :=
  (p.forget (macText mac), p.deleteLeaseAsync (macText mac))

/-- `SetTTL`. -/
def setTTL (ttl : Duration) : LeasePool := { p with ttl }

/-- `UpdateReservations`. -/
def updateReservations (reservations : Table (Option UInt32)) : LeasePool := { p with reservations }

/-- The key under which a stored lease is restored. -/
def restoredKey (l : DHCPLease) : String := toLower (trimSpace l.mac)

/-- Whether a stored lease is restored, at the time `now`. -/
def restores (l : DHCPLease) (now : Time) : Bool :=
  restoredKey l ≠ "" ∧ (parseIPv4 l.ip).isSome ∧ p.inRange (parseIPv4 l.ip) ∧ ¬p.expired l.leasedAt now

/-- The loop of `restore`, over the stored leases in their order. -/
def restoreLoop (now : DHCPLease → Time) : List DHCPLease → LeasePool → LeasePool
  | [], q => q
  | l :: rows, q =>
    restoreLoop now rows
      (if q.restores l (now l) then
        q.lease (restoredKey l) (parseIPv4 l.ip) l.leasedAt
      else q)

/-- `restore`, where the store lists `rows`, or fails to. -/
def restore (rows : Option (List DHCPLease)) (now : DHCPLease → Time) : LeasePool :=
  if p.store then match rows with
    | some rows => restoreLoop now rows p
    | none => p
  else p

/-- The rows that `restore` deletes from the store. -/
def staleKeys (rows : List DHCPLease) (now : DHCPLease → Time) : List String :=
  if p.store then
    ((rows.filter fun l => !p.restores l (now l)).map restoredKey).filter (· ≠ "")
  else []

end LeasePool

/-- `newLeasePool`. -/
def newLeasePool (startText endText : String) (store : Bool) (ttl : Duration)
    (rows : Option (List DHCPLease)) (now : DHCPLease → Time) : LeasePool :=
  LeasePool.restore { startIP := parseIPv4 startText, endIP := parseIPv4 endText, store, ttl } rows now

/-! ### What the functions do -/

theorem LeasePool.expired_of_le {p : LeasePool} {leasedAt now : Time} (h : now ≤ leasedAt + p.ttl) :
    p.expired leasedAt now = false := by
  rw [LeasePool.expired]
  split
  · rfl
  · rename_i hcond
    have hpos : 0 ≤ p.ttl := le_of_lt (not_le.mp (not_or.mp hcond).1)
    exact decide_eq_false (not_lt.mpr (sub_le hpos h))

/-- The values that a list of partial results is made of. -/
theorem map_eq_of_mapM {α β : Type} {f : α → Option β} {l : List α} {bs : List β}
    (h : l.mapM f = some bs) : l.map f = bs.map some := by
  induction l generalizing bs with
  | nil => simp_all
  | cons a l ih =>
    rw [List.mapM_cons] at h
    obtain ⟨b, hb, h⟩ := Option.bind_eq_some_iff.mp h
    obtain ⟨bs, hbs, h⟩ := Option.bind_eq_some_iff.mp h
    cases h
    rw [List.map_cons, List.map_cons, hb, ih hbs]

theorem mem_of_mapM_eq_some {α β : Type} {f : α → Option β} {l : List α} {bs : List β}
    (h : l.mapM f = some bs) {a : α} {b : β} (ha : a ∈ l) (hb : f a = some b) : b ∈ bs := by
  have hmem : some b ∈ bs.map some := map_eq_of_mapM h ▸ List.mem_map.mpr ⟨a, ha, hb⟩
  simpa using hmem

/-- **The loop finds an address that is not used**, and one of the range unless the range ends with
the last address there is. -/
theorem scan_eq_some {used : List UInt32} {endN ip : UInt32} {fuel : ℕ} {n : UInt32}
    (h : scan used endN fuel n = some (some ip)) :
    ip ∉ used ∧ ip ≤ endN ∧ (endN ≠ 0xffffffff → n ≤ ip) := by
  induction fuel generalizing n with
  | zero => cases h
  | succ fuel ih =>
    rw [scan] at h
    split at h
    · rename_i hn
      split at h
      · obtain ⟨hfree, hle, hge⟩ := ih h
        refine ⟨hfree, hle, fun hend => ?_⟩
        -- the increment does not wrap around, since `n` is not the last address
        have hnext : n.toNat + 1 < 2 ^ 32 := by
          have hlt : endN.toNat < 2 ^ 32 := endN.toNat_lt
          have hne : endN.toNat ≠ 0xffffffff := fun h0 => hend (UInt32.toNat_inj.mp h0)
          have hle' : n.toNat ≤ endN.toNat := hn
          omega
        have hstep : (n + 1).toNat = n.toNat + 1 := by
          rw [UInt32.toNat_add]
          exact Nat.mod_eq_of_lt hnext
        have hge' : (n + 1).toNat ≤ ip.toNat := hge hend
        show n.toNat ≤ ip.toNat
        omega
      · rename_i hfree
        obtain rfl : n = ip := by simpa using h
        exact ⟨hfree, hn, fun _ => UInt32.le_refl n⟩
    · cases h

namespace LeasePool

variable {p : LeasePool} {key m hostname : String} {pxeClient : Bool} {r : Readings} {x : UInt32}

/-- MAC `m` has the address `x`: in a lease, expired or not, or in a reservation. -/
def Holds (p : LeasePool) (m : String) (x : UInt32) : Prop :=
  (∃ e, p.leases[m]? = some e ∧ e.ip = some x) ∨ p.reservations[m]? = some (some x)

theorem foldl_forget (keys : List String) (p : LeasePool) :
    ∃ leases : Table LeaseEntry, keys.foldl forget p = { p with leases } ∧
      ∀ m, leases[m]? = if m ∈ keys then none else p.leases[m]? := by
  induction keys generalizing p with
  | nil => exact ⟨p.leases, rfl, fun m => by simp⟩
  | cons k keys ih =>
    obtain ⟨leases, heq, hget⟩ := ih (p.forget k)
    refine ⟨leases, heq, fun m => ?_⟩
    rw [hget m, forget, Table.get_erase]
    by_cases hm : m ∈ keys
    · simp [hm]
    · by_cases hk : k = m
      · simp [hk]
      · simp [hm, hk, Ne.symm hk]

theorem mem_reclaimed {now : String → Time} :
    m ∈ p.reclaimed now ↔ ∃ e, p.leases[m]? = some e ∧ p.expired e.leasedAt (now m) = true := by
  rw [reclaimed, List.mem_map]
  constructor
  · rintro ⟨⟨k, e⟩, hmem, rfl⟩
    obtain ⟨hin, hexp⟩ := List.mem_filter.mp hmem
    exact ⟨e, Table.mem_toList.mp hin, hexp⟩
  · rintro ⟨e, he, hexp⟩
    exact ⟨(m, e), List.mem_filter.mpr ⟨Table.mem_toList.mpr he, hexp⟩, rfl⟩

/-- The pool in which `Allocate` looks for an address: the client's own lease and the expired ones
are gone. -/
def remaining (p : LeasePool) (key : String) (now : String → Time) : LeasePool :=
  (p.forget key).reclaim now

/-- **What is left** before the search. -/
theorem remaining_eq (p : LeasePool) (key : String) (now : String → Time) :
    ∃ leases : Table LeaseEntry, p.remaining key now = { p with leases } ∧ leases[key]? = none ∧
      ∀ m, m ≠ key → leases[m]? = p.leases[m]?.filter fun e => !p.expired e.leasedAt (now m) := by
  obtain ⟨leases, heq, hget⟩ := foldl_forget ((p.forget key).reclaimed now) (p.forget key)
  refine ⟨leases, heq, ?_, fun m hm => ?_⟩
  · rw [hget key, forget, Table.get_erase, if_pos rfl]
    exact ite_self none
  · have hrest : (p.forget key).leases[m]? = p.leases[m]? := by
      rw [forget, Table.get_erase, if_neg hm.symm]
    rw [hget m, hrest]
    have hmem : m ∈ (p.forget key).reclaimed now ↔
        ∃ e, p.leases[m]? = some e ∧ p.expired e.leasedAt (now m) = true := by
      rw [mem_reclaimed, hrest]
      rfl
    cases he : p.leases[m]? with
    | none => simp
    | some e =>
      rw [he] at hmem
      cases hexp : p.expired e.leasedAt (now m) with
      | true | false => simp [hmem, hexp, Option.filter]

/-- The writes that are started before the search. -/
def dropWrites (p : LeasePool) (key : String) (now : String → Time) : List Write :=
  (if p.leases[key]?.isSome then p.deleteLeaseAsync key else []) ++
    ((p.forget key).reclaimed now).flatMap p.deleteLeaseAsync

/-- Nothing to drop. -/
theorem forget_eq_self (h : p.leases[key]? = none) : p.forget key = p := by
  have hleases : p.leases.erase key = p.leases := by
    refine Std.ExtTreeMap.ext_getElem? fun m => ?_
    rw [Table.get_erase]
    by_cases hm : key = m
    · rw [if_pos hm, ← hm, h]
    · rw [if_neg hm]
  rw [forget, hleases]

/-- What an address that is not used is: nobody has it. -/
theorem not_holds_of_not_used {used : List UInt32} (hused : p.used = some used) (hx : x ∉ used) :
    ¬p.Holds m x := by
  rw [LeasePool.used] at hused
  obtain ⟨leased, hleased, hused⟩ := Option.bind_eq_some_iff.mp hused
  obtain ⟨reserved, hreserved, hused⟩ := Option.bind_eq_some_iff.mp hused
  cases hused
  rintro (⟨e, he, hip⟩ | hres)
  · have hmem := mem_of_mapM_eq_some hleased (Table.mem_toList.mpr he) hip
    exact hx (List.mem_append_left _ hmem)
  · have hmem := mem_of_mapM_eq_some hreserved (Table.mem_toList.mpr hres) rfl
    exact hx (List.mem_append_right _ hmem)

/-- The client has no lease that it could keep. -/
def Stale (p : LeasePool) (key : String) (now : Time) : Prop :=
  ∀ e, p.leases[key]? = some e → p.inRange e.ip = true → p.expired e.leasedAt now = true

end LeasePool

open LeasePool in
/-- **What a call of `Allocate` does**, for the MAC `key`. -/
inductive Allocation (p : LeasePool) (key hostname : String) (pxeClient : Bool) (r : Readings) :
    Allocated → Prop
  /-- The reserved address. -/
  | reserved {ip : Option UInt32} (hres : p.reservations[key]? = some ip) :
      Allocation p key hostname pxeClient r (p.grant key ip hostname pxeClient r)
  /-- The client's lease is renewed. -/
  | renewed {e : LeaseEntry} (hres : p.reservations[key]? = none) (hown : p.leases[key]? = some e)
      (hrange : p.inRange e.ip = true) (hlive : p.expired e.leasedAt r.own = false) :
      Allocation p key hostname pxeClient r (p.grant key e.ip hostname pxeClient r)
  /-- A new address. -/
  | fresh {ip : UInt32} (hres : p.reservations[key]? = none) (hstale : p.Stale key r.own)
      (hfree : ∀ m, ¬(p.remaining key r.reclaim).Holds m ip)
      (hrange : p.endIP ≠ some 0xffffffff → p.inRange (some ip) = true) :
      Allocation p key hostname pxeClient r
        { ip := some ip, pool := (p.remaining key r.reclaim).lease key (some ip) r.leased
          writes := p.dropWrites key r.reclaim ++
            p.persistAsync key (some ip) hostname pxeClient r.persisted }
  /-- There is no address. -/
  | exhausted (hres : p.reservations[key]? = none) (hstale : p.Stale key r.own) :
      Allocation p key hostname pxeClient r
        ⟨none, p.remaining key r.reclaim, p.dropWrites key r.reclaim⟩

namespace LeasePool

variable {p : LeasePool} {key m hostname : String} {pxeClient : Bool} {r : Readings} {x : UInt32}

theorem allocateNew_cases {q : LeasePool} {dropped : List Write} {a : Allocated}
    (hq : q = p.forget key) (hdropped : dropped = if p.leases[key]?.isSome then p.deleteLeaseAsync key else [])
    (hres : p.reservations[key]? = none) (hstale : p.Stale key r.own)
    (h : q.allocateNew key hostname pxeClient r dropped = some a) :
    Allocation p key hostname pxeClient r a := by
  subst hq hdropped
  rw [allocateNew] at h
  obtain ⟨startN, hstart, h⟩ := Option.bind_eq_some_iff.mp h
  obtain ⟨endN, hend, h⟩ := Option.bind_eq_some_iff.mp h
  obtain ⟨used, hused, h⟩ := Option.bind_eq_some_iff.mp h
  obtain ⟨found, hfound, h⟩ := Option.bind_eq_some_iff.mp h
  obtain ⟨leases, hrest, -, -⟩ := p.remaining_eq key r.reclaim
  have hpersist : (p.remaining key r.reclaim).persistAsync = p.persistAsync := by
    rw [hrest]
    rfl
  cases found with
  | none =>
    cases h
    exact Allocation.exhausted hres hstale
  | some ip =>
    cases h
    obtain ⟨hfree, hle, hge⟩ := scan_eq_some hfound
    have hnobody : ∀ m, ¬(p.remaining key r.reclaim).Holds m ip := fun m =>
      not_holds_of_not_used hused hfree
    have hrange : p.endIP ≠ some 0xffffffff → p.inRange (some ip) = true := by
      intro hne
      have hstart' : p.startIP = some startN := hstart
      have hend' : p.endIP = some endN := hend
      have hne' : endN ≠ 0xffffffff := fun h0 => hne (by rw [hend', h0])
      simp only [inRange, hstart', hend', decide_eq_true_eq]
      exact ⟨hge hne', hle⟩
    have hfresh := @Allocation.fresh p key hostname pxeClient r ip hres hstale hnobody hrange
    rw [← hpersist] at hfresh
    exact hfresh

/-- **The inversion of `Allocate`.** -/
theorem allocate_cases {mac : HardwareAddr} {a : Allocated}
    (h : p.allocate mac hostname pxeClient r = some a) :
    Allocation p (macText mac) hostname pxeClient r a := by
  rw [allocate] at h
  cases hres : p.reservations[macText mac]? with
  | some =>
    rw [hres] at h
    cases h
    exact Allocation.reserved hres
  | none =>
    rw [hres] at h
    cases hown : p.leases[macText mac]? with
    | some e =>
      rw [hown] at h
      dsimp only at h
      split at h
      · rename_i hkeep
        cases h
        exact Allocation.renewed hres hown hkeep.1 (by simpa using hkeep.2)
      · rename_i hdrop
        refine allocateNew_cases rfl (by rw [hown]; rfl) hres (fun e' he' hrange => ?_) h
        obtain rfl := Option.mem_unique hown he'
        by_contra hlive
        exact hdrop ⟨hrange, hlive⟩
    | none =>
      rw [hown] at h
      refine allocateNew_cases (forget_eq_self hown).symm (by rw [hown]; rfl) hres ?_ h
      intro e he
      cases hown.symm.trans he

theorem restoreLoop_eq (now : DHCPLease → Time) (rows : List DHCPLease) (p : LeasePool) :
    ∃ leases, restoreLoop now rows p = { p with leases } := by
  induction rows generalizing p with
  | nil => exact ⟨p.leases, rfl⟩
  | cons l rows ih =>
    rw [restoreLoop]
    split
    · obtain ⟨leases, heq⟩ := ih (p.lease (restoredKey l) (parseIPv4 l.ip) l.leasedAt)
      exact ⟨leases, heq⟩
    · exact ih p

theorem restore_eq (rows : Option (List DHCPLease)) (now : DHCPLease → Time) (p : LeasePool) :
    ∃ leases, p.restore rows now = { p with leases } := by
  rw [restore.eq_def]
  split
  · cases rows with
    | none => exact ⟨p.leases, rfl⟩
    | some rows => exact restoreLoop_eq now rows p
  · exact ⟨p.leases, rfl⟩

end LeasePool

/-- `Allocate` leaves everything but the leases alone. -/
theorem Allocation.pool_eq {p : LeasePool} {key hostname : String} {pxeClient : Bool} {r : Readings}
    {a : Allocated} (ha : Allocation p key hostname pxeClient r a) :
    ∃ leases, a.pool = { p with leases } := by
  obtain ⟨leases, hrest, -⟩ := p.remaining_eq key r.reclaim
  cases ha with
  | reserved hres | renewed hres hown hrange hlive => exact ⟨_, rfl⟩
  | fresh =>
    rw [hrest]
    exact ⟨_, rfl⟩
  | exhausted => exact ⟨leases, hrest⟩

end Gomi.Dhcp
