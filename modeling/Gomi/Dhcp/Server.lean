import Gomi.Dhcp.Lease
import Gomi.Transition

/-!
# The DHCP server and its lease store

`internal/pxe/dhcp.go`, as far as it is about addresses, and
`internal/infra/sql/lease_store.go`. `Gomi.Dhcp.System` is the state of the whole: the
server, if one is running, the rows of the lease store, and the writes that the pool has
started and that have not taken effect yet. `Gomi.Dhcp.step` is a transition of it for each
call of the server (`Gomi.Dhcp.Call`), and one in which a started write takes effect, or
fails.

Of the answer to a client this file has the message type, the address and the lease time;
the other options are read off the subnet and the boot configuration and do not concern the
pool. The library that encodes the answer is taken to succeed.
-/

namespace Gomi.Dhcp

open Go

/-! ### The server -/

/-- `subnet.AddressRange`. -/
structure AddressRange where
  startIP : String
  endIP : String
  deriving DecidableEq

/-- `subnet.SubnetSpec`. -/
structure SubnetSpec where
  pxeAddressRange : Option AddressRange := none
  leaseTime : ℤ := 0
  deriving DecidableEq

/-- The mode of a server; a text other than the two known ones is kept. -/
inductive Mode where
  | full
  | proxy
  | other (text : String)
  deriving DecidableEq

/-- `Server`. -/
structure Server where
  mode : Mode
  subnet : SubnetSpec
  leases : Option LeasePool
  store : Bool

/-- `defaultLeaseTime`. -/
def defaultLeaseTime : Duration := Duration.seconds 3600

/-- `leaseTTL`. -/
def leaseTTL (spec : SubnetSpec) : Duration :=
  if spec.leaseTime > 0 then Duration.seconds spec.leaseTime else 0

/-- How a listing of the lease store goes: whether it fails, which deletions of stale rows fail, and
the readings of the clock at each row. -/
structure Listing where
  fails : Bool := false
  deleteFails : String → Bool := fun _ => false
  now : DHCPLease → Time

/-- The pool of a subnet, restored from the rows of the store. -/
def SubnetSpec.newPool (spec : SubnetSpec) (range : AddressRange) (store : Bool)
    (rows : List DHCPLease) (env : Listing) : LeasePool :=
  newLeasePool range.startIP range.endIP store (leaseTTL spec)
    (if env.fails then none else some rows) env.now

/-- `NewServer`. -/
def newServer (mode : Mode) (spec : SubnetSpec) (store : Bool) (rows : List DHCPLease)
    (env : Listing) : Server :=
  { mode, subnet := spec, store
    leases := if mode = .full then
      spec.pxeAddressRange.map fun range => spec.newPool range store rows env else none }

/-- Whether `Reconfigure` rebuilds the pool. -/
def needsRebuild (oldRange newRange : Option AddressRange) : Bool :=
  match oldRange, newRange with
  | none, some _ => true
  | some old, some new => old.startIP ≠ new.startIP ∨ old.endIP ≠ new.endIP
  | _, none => false

/-- `Reconfigure`. -/
def Server.reconfigure (s : Server) (spec : SubnetSpec) (rows : List DHCPLease) (env : Listing) :
    Server :=
  let oldTTL := leaseTTL s.subnet
  let s' := { s with subnet := spec }
  if s.mode ≠ .full then s'
  else match s.subnet.pxeAddressRange, spec.pxeAddressRange with
    | some _, none => { s' with leases := none }
    | oldRange, newRange =>
      if needsRebuild oldRange newRange then
        { s' with leases := newRange.map fun range => spec.newPool range s.store rows env }
      else if leaseTTL spec ≠ oldTTL then
        { s' with leases := s.leases.map fun pool => pool.setTTL (leaseTTL spec) }
      else s'

/-! ### Answers -/

/-- The message types that the server answers, and those it sends. -/
inductive MessageType where
  | discover
  | request
  | offer
  | ack
  | other (type : ℕ)
  deriving DecidableEq

/-- What the server reads of a message. -/
structure Request where
  messageType : MessageType
  clientHWAddr : HardwareAddr
  hostName : String := ""
  vendorClass : String := ""
  deriving DecidableEq

/-- `isPXEClient`. -/
def Request.isPXEClient (req : Request) : Bool :=
  hasPrefix req.vendorClass "PXEClient" ∨ hasPrefix req.vendorClass "iPXE"

/-- What the server answers. -/
structure Reply where
  messageType : MessageType
  yourIP : UInt32
  leaseTime : Duration
  deriving DecidableEq

/-- The lease time of an answer. -/
def SubnetSpec.leaseTimeOption (spec : SubnetSpec) : Duration :=
  if spec.leaseTime > 0 then Duration.seconds spec.leaseTime else defaultLeaseTime

/-- What an answered message leaves. -/
structure Handled where
  reply : Except String Reply
  leases : Option LeasePool
  writes : List Write

/-- The answer to a client that was assigned `assignedIP`. -/
def replyFor (spec : SubnetSpec) (req : Request) : Option UInt32 → Except String Reply
  | none => .error ("lease pool exhausted for " ++ macText req.clientHWAddr)
  | some yourIP =>
    .ok { messageType := if req.messageType = .request then .ack else .offer, yourIP
          leaseTime := spec.leaseTimeOption }

/-- `handleFull`. -/
def handleFull (req : Request) (spec : SubnetSpec) (pool : Option LeasePool) (r : Readings) :
    Option Handled :=
  match pool with
  | none => some ⟨.error "full mode requires a lease pool", none, []⟩
  | some p => (p.allocate req.clientHWAddr req.hostName req.isPXEClient r).map fun a =>
      ⟨replyFor spec req a.ip, some a.pool, a.writes⟩

/-! ### The whole system -/

/-- The server, the lease store, and the writes that are on their way. -/
structure System where
  server : Option Server := none
  store : Table DHCPLease := ∅
  pending : List Write := []

/-- `List`, of the lease store. -/
def System.rows (s : System) : List DHCPLease := s.store.toList.map fun kv => { kv.2 with mac := kv.1 }

/-- The lease pool, if there is one. -/
def System.pool (s : System) : Option LeasePool := s.server.bind (·.leases)

/-- `Upsert` and `Delete`, of the lease store. -/
def Write.apply : Write → Table DHCPLease → Table DHCPLease
  | .upsert lease, t => t.insert lease.mac lease
  | .delete mac, t => t.erase mac

/-- The deletions of `restore`. -/
def deleteStale (p : LeasePool) (rows : List DHCPLease) (env : Listing) (t : Table DHCPLease) :
    Table DHCPLease :=
  if env.fails then t
  else ((p.staleKeys rows env.now).filter fun mac => !env.deleteFails mac).foldl (·.erase ·) t

/-- The calls, and the effects of the writes that were started. -/
inductive Call where
  /-- `NewServer`, in a new process. -/
  | start (mode : Mode) (spec : SubnetSpec) (store : Bool) (env : Listing)
  /-- A message of a client, which calls `Allocate`. -/
  | request (req : Request) (r : Readings)
  /-- `Release`. -/
  | release (mac : HardwareAddr)
  /-- `UpdateReservations`. -/
  | updateReservations (reservations : Table (Option UInt32))
  /-- `SetTTL`. -/
  | setTTL (ttl : Duration)
  /-- `restore`. -/
  | restore (env : Listing)
  /-- `Reconfigure`. -/
  | reconfigure (spec : SubnetSpec) (env : Listing)
  /-- The pending write of an index takes effect, or fails. -/
  | land (i : ℕ) (ok : Bool)

/-- A change of the running server's pool. -/
def System.onPool (s : System) (f : LeasePool → LeasePool × List Write) : System :=
  match s.server with
  | none => s
  | some server => match server.leases with
    | none => s
    | some p =>
      { s with server := some { server with leases := some (f p).1 }, pending := s.pending ++ (f p).2 }

/-- **The transitions.** -/
def step (s : System) : Call → Option System
  | .start mode spec store env =>
    let server := newServer mode spec store s.rows env
    some { server := some server, pending := []
           store := match server.leases with
             | some p => deleteStale p s.rows env s.store
             | none => s.store }
  | .request req r => match s.server with
    | none => some s
    | some server =>
      if server.mode = .proxy ∨ (req.messageType ≠ .discover ∧ req.messageType ≠ .request) then some s
      else (handleFull req server.subnet server.leases r).map fun h =>
        { s with server := some { server with leases := h.leases }, pending := s.pending ++ h.writes }
  | .release mac => some (s.onPool fun p => p.release mac)
  | .updateReservations reservations => some (s.onPool fun p => (p.updateReservations reservations, []))
  | .setTTL ttl => some (s.onPool fun p => (p.setTTL ttl, []))
  | .restore env =>
    let s' := s.onPool fun p => (p.restore (if env.fails then none else some s.rows) env.now, [])
    some { s' with store := match s.pool with
             | some p => deleteStale p s.rows env s.store
             | none => s.store }
  | .reconfigure spec env => match s.server with
    | none => some s
    | some server =>
      let server' := server.reconfigure spec s.rows env
      some { s with server := some server'
                    store := match server'.leases with
                      | some p =>
                        if needsRebuild server.subnet.pxeAddressRange spec.pxeAddressRange then
                          deleteStale p s.rows env s.store
                        else s.store
                      | none => s.store }
  | .land i ok => (s.pending[i]?).map fun w =>
      { s with pending := s.pending.eraseIdx i, store := if ok then w.apply s.store else s.store }

/-! ### What a transition does to the pool -/

/-- A reconfigured server keeps its pool, up to the TTL, or has a new one, of the new range. -/
theorem Server.reconfigure_leases {server : Server} {spec : SubnetSpec} {rows : List DHCPLease}
    {env : Listing} {p : LeasePool} (h : (server.reconfigure spec rows env).leases = some p) :
    (∃ q ttl, server.leases = some q ∧ p = q.setTTL ttl) ∨
      ∃ range, spec.pxeAddressRange = some range ∧
        p = spec.newPool range server.store rows env := by
  have hkeep : server.leases = some p → ∃ q ttl, server.leases = some q ∧ p = q.setTTL ttl :=
    fun hp => ⟨p, p.ttl, hp, rfl⟩
  simp only [Server.reconfigure] at h
  split at h
  · exact Or.inl (hkeep h)
  · split at h
    · cases h
    · split at h
      · obtain ⟨range, hrange, rfl⟩ := Option.map_eq_some_iff.mp h
        exact Or.inr ⟨range, hrange, rfl⟩
      · split at h
        · obtain ⟨q, hq, rfl⟩ := Option.map_eq_some_iff.mp h
          exact Or.inl ⟨q, _, hq, rfl⟩
        · exact Or.inl (hkeep h)

/-- **Where the pool after a transition comes from.** -/
inductive Evolves (s : System) : Call → LeasePool → Prop
  /-- A new server has a pool of its range. -/
  | started {mode spec store env} {range : AddressRange} (hspec : spec.pxeAddressRange = some range) :
      Evolves s (.start mode spec store env) (spec.newPool range store s.rows env)
  /-- A new range has a new pool. -/
  | rebuilt {spec env} {range : AddressRange} (store : Bool) (hspec : spec.pxeAddressRange = some range) :
      Evolves s (.reconfigure spec env) (spec.newPool range store s.rows env)
  /-- The pool is the one there was, up to the TTL. -/
  | kept {c : Call} {p : LeasePool} (ttl : Duration) (hp : s.pool = some p) : Evolves s c (p.setTTL ttl)
  | answered {req : Request} {r : Readings} {p : LeasePool} {a : Allocated} (hp : s.pool = some p)
      (ha : p.allocate req.clientHWAddr req.hostName req.isPXEClient r = some a) :
      Evolves s (.request req r) a.pool
  | released {mac : HardwareAddr} {p : LeasePool} (hp : s.pool = some p) :
      Evolves s (.release mac) (p.forget (macText mac))
  | reserved {reservations : Table (Option UInt32)} {p : LeasePool} (hp : s.pool = some p) :
      Evolves s (.updateReservations reservations) (p.updateReservations reservations)
  | restored {env : Listing} {p : LeasePool} (hp : s.pool = some p) :
      Evolves s (.restore env) (p.restore (if env.fails then none else some s.rows) env.now)

section Evolution

variable {s s' : System} {c : Call} {p : LeasePool}

theorem Evolves.same (hp : s.pool = some p) : Evolves s c p := Evolves.kept p.ttl hp

theorem System.onPool_pool {f : LeasePool → LeasePool × List Write} (h : (s.onPool f).pool = some p) :
    ∃ q, s.pool = some q ∧ (f q).1 = p := by
  rw [System.onPool] at h
  cases hserver : s.server with
  | none => simp [hserver, System.pool] at h
  | some server =>
    cases hpool : server.leases with
    | none => simp [hserver, hpool, System.pool] at h
    | some q =>
      simp only [hserver, hpool, System.pool, Option.bind_some] at h
      exact ⟨q, by rw [System.pool, hserver, Option.bind_some, hpool], Option.some.inj h⟩

/-- **The inversion of a transition**, as far as the pool is concerned. -/
theorem step_evolves (hs : step s c = some s') (hp : s'.pool = some p) : Evolves s c p := by
  cases c with
  | start =>
    cases hs
    simp only [System.pool, Option.bind_some, newServer] at hp
    split at hp
    · obtain ⟨range, hspec, rfl⟩ := Option.map_eq_some_iff.mp hp
      exact Evolves.started hspec
    · cases hp
  | request req r =>
    rw [step] at hs
    split at hs
    · cases hs
      exact Evolves.same hp
    · rename_i server hserver
      split at hs
      · cases hs
        exact Evolves.same hp
      · obtain ⟨handled, hhandled, rfl⟩ := Option.map_eq_some_iff.mp hs
        replace hp : handled.leases = some p := hp
        unfold handleFull at hhandled
        split at hhandled
        · cases hhandled
          cases hp
        · rename_i q hq
          obtain ⟨a, ha, rfl⟩ := Option.map_eq_some_iff.mp hhandled
          cases hp
          exact Evolves.answered (by rw [System.pool, hserver, Option.bind_some, hq]) ha
  | release =>
    cases hs
    obtain ⟨q, hq, rfl⟩ := System.onPool_pool hp
    exact Evolves.released hq
  | updateReservations =>
    cases hs
    obtain ⟨q, hq, rfl⟩ := System.onPool_pool hp
    exact Evolves.reserved hq
  | setTTL ttl =>
    cases hs
    obtain ⟨q, hq, rfl⟩ := System.onPool_pool hp
    exact Evolves.kept ttl hq
  | restore env =>
    cases hs
    obtain ⟨q, hq, rfl⟩ := System.onPool_pool
      (f := fun p => (p.restore (if env.fails then none else some s.rows) env.now, [])) hp
    exact Evolves.restored hq
  | reconfigure spec env =>
    rw [step] at hs
    split at hs
    · cases hs
      exact Evolves.same hp
    · rename_i server hserver
      cases hs
      rcases Server.reconfigure_leases (show _ = some p from hp) with
        ⟨q, ttl, hq, rfl⟩ | ⟨range, hspec, rfl⟩
      · exact Evolves.kept ttl (by rw [System.pool, hserver, Option.bind_some, hq])
      · exact Evolves.rebuilt server.store hspec
  | land =>
    obtain ⟨w, -, rfl⟩ := Option.map_eq_some_iff.mp hs
    exact Evolves.same hp

end Evolution

/-! ### Sample calls -/

/-- A client. -/
def sampleClient (i : UInt8) : HardwareAddr := [0x52, 0x54, 0, 0, 0, i]

/-- A server for the given range, with leases of an hour. -/
def sampleStart (startIP endIP : String) : Call :=
  .start .full { pxeAddressRange := some ⟨startIP, endIP⟩, leaseTime := 3600 } true { now := fun _ => 0 }

/-- A message of a client. -/
def sampleMessage (i : UInt8) : Request := { messageType := .request, clientHWAddr := sampleClient i }

/-- A message of a client, at the given time. -/
def sampleRequest (i : UInt8) (t : Time) : Call := .request (sampleMessage i) (Readings.at t)

/-- An address that is set aside for a client. -/
def sampleReservation (i : UInt8) (ip : UInt32) : Call :=
  .updateReservations ((∅ : Table (Option UInt32)).insert (macText (sampleClient i)) (some ip))

end Gomi.Dhcp
