import Gomi.Dhcp.Exclusive

/-!
# A granted lease is honoured

The lease time that a client is told and the TTL after which the pool reclaims an address
are computed in two places, `Gomi.Dhcp.SubnetSpec.leaseTimeOption` and `Gomi.Dhcp.leaseTTL`. A
lease is honoured (`Gomi.Dhcp.lease_honoured`) since the first is never longer than the second,
where a TTL that is not positive is no limit (`Gomi.Dhcp.expired_of_before`), and since a lease
that has not expired is neither reclaimed nor replaced.

The client keeps its address as long as it is in the range, and there is one address that the
pool can give and that is not: the loop over a range that ends with `255.255.255.255` goes on at
`0.0.0.0`. `Gomi.Dhcp.lease_not_kept` is a client that is told one address and then, well
before its lease ends, another one.
-/

namespace Gomi.Dhcp

open Go LeasePool

/-! ### Calls of clients -/

/-- The calls that clients make, and the effects of the writes they start. -/
def Call.IsClient : Call → Prop
  | .request .. | .release _ | .land .. => True
  | _ => False

/-- The clock does not go back, within a call and from one call to the next. -/
structure Nondecreasing (calls : List Call) : Prop where
  ordered : ∀ req r, .request req r ∈ calls → r.Ordered
  pairwise : calls.Pairwise fun c c' => ∀ req r req' r', c = .request req r → c' = .request req' r' →
    r.persisted ≤ r'.own

/-- What a client is answered, if it is. -/
def System.reply (s : System) (req : Request) (r : Readings) : Option Reply :=
  match s.server with
  | none => none
  | some server =>
    if server.mode = .proxy ∨ (req.messageType ≠ .discover ∧ req.messageType ≠ .request) then none
    else (handleFull req server.subnet server.leases r).bind fun h => h.reply.toOption

/-! ### A server in full mode -/

/-- The system runs a server for the subnet, with the pool `p`: no address of it is reserved, and its
range does not end with the last address there is. -/
structure Serves (spec : SubnetSpec) (s : System) (p : LeasePool) : Prop where
  server : ∃ server, s.server = some server ∧ server.mode = .full ∧ server.subnet = spec ∧
    server.leases = some p
  ttl : p.ttl = leaseTTL spec
  endIP : p.endIP ≠ some 0xffffffff
  unreserved : ∀ m : String, p.reservations[m]? = none
  exclusive : p.Exclusive

/-- What a client's call does to the pool. -/
inductive PoolStep (p : LeasePool) : Call → LeasePool → Prop
  /-- A message for which an address was allocated. -/
  | allocate {req : Request} {r : Readings} {a : Allocated}
      (ha : Allocation p (macText req.clientHWAddr) req.hostName req.isPXEClient r a) :
      PoolStep p (.request req r) a.pool
  /-- A message that is not answered. -/
  | ignored {req : Request} {r : Readings} : PoolStep p (.request req r) p
  /-- A release. -/
  | release {mac : HardwareAddr} : PoolStep p (.release mac) (p.forget (macText mac))
  /-- A write. -/
  | land {i : ℕ} {ok : Bool} : PoolStep p (.land i ok) p

section

variable {spec : SubnetSpec} {s s' : System} {p p' : LeasePool} {c : Call} {a : Allocated}
  {key hostname m : String} {pxeClient : Bool} {r : Readings} {x : UInt32} {t bound : Time}
variable {leasedAt : Time} {ip : Option UInt32} {req : Request}

/-- **A client's call, seen by the pool.** -/
theorem Serves.step (h : Serves spec s p) (hs : step s c = some s') (hc : c.IsClient) :
    ∃ p', Serves spec s' p' ∧ PoolStep p c p' := by
  obtain ⟨server, hserver, hmode, hspec, hleases⟩ := h.server
  have hpool : s.pool = some p := by rw [System.pool, hserver, Option.bind_some, hleases]
  cases c with
  | request =>
    simp only [Dhcp.step, hserver] at hs
    split at hs
    · cases hs
      exact ⟨p, h, .ignored⟩
    · rw [hleases, handleFull, Option.map_map] at hs
      obtain ⟨a, ha, rfl⟩ := Option.map_eq_some_iff.mp hs
      have halloc := allocate_cases ha
      obtain ⟨leases, heq⟩ := halloc.pool_eq
      refine ⟨a.pool, ⟨⟨_, rfl, hmode, hspec, rfl⟩, ?_, ?_, ?_, h.exclusive.allocate halloc⟩,
        .allocate halloc⟩
      · rw [heq]
        exact h.ttl
      · rw [heq]
        exact h.endIP
      · rw [heq]
        exact h.unreserved
  | release mac =>
    cases hs
    refine ⟨p.forget (macText mac), ⟨⟨{ server with leases := some (p.forget (macText mac)) }, ?_, hmode,
      hspec, rfl⟩, h.ttl, h.endIP, h.unreserved, h.exclusive.mono fun _ _ => holds_forget⟩, .release⟩
    simp only [System.onPool, hserver, hleases]
    rfl
  | land =>
    obtain ⟨w, -, rfl⟩ := Option.map_eq_some_iff.mp hs
    exact ⟨p, ⟨⟨server, hserver, hmode, hspec, hleases⟩, h.ttl, h.endIP, h.unreserved, h.exclusive⟩, .land⟩
  | _ => exact hc.elim

/-- **The advertised time ends no later than the TTL.** -/
theorem expired_of_before (httl : p.ttl = leaseTTL spec) {now : Time} (hle : t ≤ leasedAt)
    (hnow : now ≤ t + spec.leaseTimeOption) : p.expired leasedAt now = false := by
  rw [leaseTTL] at httl
  rw [SubnetSpec.leaseTimeOption] at hnow
  split at httl
  · rename_i hpos
    rw [if_pos hpos, ← httl] at hnow
    exact expired_of_le (hnow.trans (add_le_add_left hle _))
  · rw [expired, if_pos (Or.inl (by rw [httl]))]

/-! ### The lease of one client -/

/-- The client has the address `x`, which is in the range, since `t` or later. -/
structure Keeps (p : LeasePool) (key : String) (x : UInt32) (t : Time) : Prop where
  lease : ∃ e, p.leases[key]? = some e ∧ e.ip = some x ∧ t ≤ e.leasedAt
  inRange : p.inRange (some x) = true

/-- A client's call at a time from `t` to `bound`, other than a release by the client itself. -/
def Call.Between (t bound : Time) (mac : HardwareAddr) : Call → Prop
  | .request _ r => r.Ordered ∧ t ≤ r.leased ∧ r.leased ≤ bound
  | .release mac' => mac' ≠ mac
  | .land .. => True
  | _ => False

variable {mac : HardwareAddr}

theorem Call.Between.isClient (h : c.Between t bound mac) : c.IsClient := by
  cases c <;> trivial

/-- A lease that has not expired is not dropped for another client. -/
theorem Keeps.remaining (h : Keeps p key x t) (httl : p.ttl = leaseTTL spec) {now : String → Time}
    (hm : key ≠ m) (hnow : now key ≤ t + spec.leaseTimeOption) :
    Keeps (p.remaining m now) key x t := by
  obtain ⟨⟨e, he, hip, hle⟩, hrange⟩ := h
  obtain ⟨leases, heq, -, hget⟩ := p.remaining_eq m now
  rw [heq]
  refine ⟨⟨e, ?_, hip, hle⟩, hrange⟩
  have hlive := expired_of_before httl hle hnow
  show leases[key]? = some e
  rw [hget key hm, he]
  exact Option.filter_eq_some_iff.mpr ⟨rfl, by rw [hlive]; rfl⟩

/-- Another client's lease does not touch it. -/
theorem Keeps.lease_ne (h : Keeps p key x t) (hm : m ≠ key) :
    Keeps (p.lease m ip leasedAt) key x t := by
  obtain ⟨⟨e, he, hip, hle⟩, hrange⟩ := h
  refine ⟨⟨e, ?_, hip, hle⟩, hrange⟩
  rw [LeasePool.lease, Table.get_insert, if_neg hm]
  exact he

/-- A lease that was just granted. -/
theorem Keeps.granted (hip : ip = some x) (hrange : p.inRange (some x) = true) (hle : t ≤ leasedAt) :
    Keeps (p.lease key ip leasedAt) key x t := by
  refine ⟨⟨⟨ip, leasedAt⟩, ?_, hip, hle⟩, hrange⟩
  rw [LeasePool.lease, Table.get_insert, if_pos rfl]

/-- **One call in that time leaves the client its address.** -/
theorem Keeps.step (h : Keeps p (macText mac) x t) (hserves : Serves spec s p)
    (hp : PoolStep p c p') (hc : c.Between t (t + spec.leaseTimeOption) mac) :
    Keeps p' (macText mac) x t := by
  cases hp with
  | @allocate req r a ha =>
    obtain ⟨hordered, hge, hle⟩ := hc
    have hreclaim : ∀ k, r.reclaim k ≤ t + spec.leaseTimeOption := fun k =>
      (hordered.reclaim_le k).trans hle
    have hother : ∀ k, k ≠ macText mac → Keeps (p.remaining k r.reclaim) (macText mac) x t :=
      fun k hk => h.remaining hserves.ttl (Ne.symm hk) (hreclaim _)
    by_cases hk : macText req.clientHWAddr = macText mac
    · rw [hk] at ha
      obtain ⟨⟨e, he, hip, hsince⟩, hrange⟩ := h
      have hown : r.own ≤ t + spec.leaseTimeOption := (hordered.own_le "").trans (hreclaim "")
      have hlive : p.expired e.leasedAt r.own = false := expired_of_before hserves.ttl hsince hown
      -- the client's own lease is renewed
      have hstale : ¬p.Stale (macText mac) r.own := fun hst =>
        absurd (hst e he (by rw [hip]; exact hrange)) (by simp [hlive])
      cases ha with
      | reserved hres => exact absurd hres (by simp [hserves.unreserved])
      | renewed hres hown' =>
        obtain rfl := Option.mem_unique he hown'
        exact Keeps.granted hip hrange hge
      | fresh hres hst hfree hrange' | exhausted hres hst => exact absurd hst hstale
    · cases ha with
      | reserved hres => exact absurd hres (by simp [hserves.unreserved])
      | renewed => exact h.lease_ne hk
      | fresh => exact (hother _ hk).lease_ne hk
      | exhausted => exact hother _ hk
  | ignored => exact h
  | @release mac' =>
    obtain ⟨⟨e, he, hip, hle⟩, hrange⟩ := h
    refine ⟨⟨e, ?_, hip, hle⟩, hrange⟩
    have hne : macText mac' ≠ macText mac := fun heq => hc (macText_injective heq)
    rw [forget, Table.get_erase, if_neg hne]
    exact he
  | land => exact h

/-- **All calls in that time leave the client its address.** -/
theorem Keeps.run {calls : List Call} (h : Keeps p (macText mac) x t) (hserves : Serves spec s p)
    (hrun : Steps (Graph Dhcp.step) s calls s')
    (hcalls : ∀ c ∈ calls, c.Between t (t + spec.leaseTimeOption) mac) :
    ∃ p', Serves spec s' p' ∧ Keeps p' (macText mac) x t := by
  have hinv := (hrun.under hcalls).invariant (I := fun s => ∃ p, Serves spec s p ∧ Keeps p (macText mac) x t)
  refine hinv (fun hstep hs => ?_) ⟨p, hserves, h⟩
  obtain ⟨hs', hc⟩ := hstep
  obtain ⟨q, hq, hkeeps⟩ := hs
  obtain ⟨q', hq', hpool⟩ := hq.step hs' hc.isClient
  exact ⟨q', hq', hkeeps.step hq hpool hc⟩

/-- What an answered client was allocated. -/
theorem Serves.reply (h : Serves spec s p) {reply : Reply} (hreply : s.reply req r = some reply) :
    ∃ a, p.allocate req.clientHWAddr req.hostName req.isPXEClient r = some a ∧
      a.ip = some reply.yourIP ∧ reply.leaseTime = spec.leaseTimeOption ∧
      ∀ s', Dhcp.step s (.request req r) = some s' → s'.pool = some a.pool := by
  obtain ⟨server, hserver, -, hspec, hleases⟩ := h.server
  simp only [System.reply, hserver] at hreply
  split at hreply
  · cases hreply
  · rename_i hkind
    rw [hleases, handleFull] at hreply
    obtain ⟨handled, hhandled, hreply⟩ := Option.bind_eq_some_iff.mp hreply
    obtain ⟨a, ha, rfl⟩ := Option.map_eq_some_iff.mp hhandled
    cases hip : a.ip with
    | none => exact absurd hreply (by simp [hip, replyFor, Except.toOption])
    | some =>
      simp only [hip, replyFor, Except.toOption, Option.some.injEq] at hreply
      subst hreply
      refine ⟨a, ha, hip, by rw [hspec], fun s' hs' => ?_⟩
      simp only [Dhcp.step, hserver, if_neg hkind, hleases, handleFull, ha, Option.map_some,
        Option.some.injEq] at hs'
      rw [← hs']
      rfl

/-- A client that is allocated an address is answered with it. -/
theorem Serves.answers (h : Serves spec s p)
    (hkind : req.messageType = .discover ∨ req.messageType = .request)
    (ha : p.allocate req.clientHWAddr req.hostName req.isPXEClient r = some a) (hip : a.ip = some x) :
    ∃ reply, s.reply req r = some reply ∧ reply.yourIP = x := by
  obtain ⟨server, hserver, hmode, -, hleases⟩ := h.server
  have hfull : ¬(server.mode = .proxy ∨ (req.messageType ≠ .discover ∧ req.messageType ≠ .request)) := by
    rintro (hproxy | ⟨hd, hr⟩)
    · exact absurd (hmode.symm.trans hproxy) (by decide)
    · exact hkind.elim hd hr
  refine ⟨⟨if req.messageType = .request then .ack else .offer, x, server.subnet.leaseTimeOption⟩, ?_, rfl⟩
  simp only [System.reply, hserver, if_neg hfull, hleases, handleFull, ha, Option.map_some,
    Option.bind_some, hip, replyFor]
  rfl

/-- The client that was answered has the address. -/
theorem Keeps.of_answered (hserves : Serves spec s p)
    (ha : Allocation p key hostname pxeClient r a) (hip : a.ip = some x) :
    Keeps a.pool key x r.leased := by
  cases ha with
  | reserved hres => exact absurd hres (by simp [hserves.unreserved])
  | renewed hres hown hrange =>
    exact Keeps.granted hip (by rw [← show _ = some x from hip]; exact hrange) le_rfl
  | @fresh ip hres hst hfree hrange =>
    obtain rfl : ip = x := Option.some.inj hip
    obtain ⟨leases, heq, -⟩ := p.remaining_eq key r.reclaim
    refine Keeps.granted rfl ?_ le_rfl
    rw [heq]
    exact hrange hserves.endIP
  | exhausted => cases hip

/-- Another client is not given an address that is kept. -/
theorem Keeps.not_given (h : Keeps p key x t) (hserves : Serves spec s p)
    (ha : Allocation p m hostname pxeClient r a) (hm : m ≠ key)
    (hnow : r.reclaim key ≤ t + spec.leaseTimeOption) : a.ip ≠ some x := by
  intro hip
  cases ha with
  | reserved hres => exact absurd hres (by simp [hserves.unreserved])
  | renewed hres hown =>
    obtain ⟨⟨e, he, hx, -⟩, -⟩ := h
    exact hm (hserves.exclusive (Or.inl ⟨_, hown, hip⟩) (Or.inl ⟨e, he, hx⟩))
  | @fresh ip hres hst hfree hrange =>
    obtain rfl : ip = x := Option.some.inj hip
    obtain ⟨⟨e, he, hx, -⟩, -⟩ := h.remaining hserves.ttl (Ne.symm hm) hnow
    exact hfree key (Or.inl ⟨e, he, hx⟩)
  | exhausted => cases hip

/-- The client itself is given the address again. -/
theorem Keeps.renewed (h : Keeps p (macText mac) x t) (hostname : String) (pxeClient : Bool)
    (hserves : Serves spec s p) (hnow : r.own ≤ t + spec.leaseTimeOption) :
    ∃ a, p.allocate mac hostname pxeClient r = some a ∧ a.ip = some x := by
  obtain ⟨⟨e, he, hip, hle⟩, hrange⟩ := h
  have hlive := expired_of_before hserves.ttl hle hnow
  refine ⟨p.grant (macText mac) e.ip hostname pxeClient r, ?_, hip⟩
  rw [allocate, hserves.unreserved, he]
  exact if_pos ⟨by rw [hip]; exact hrange, by simp [hlive]⟩

/-! ### Runs -/

/-- A server that was just started. -/
theorem serves_start {range : AddressRange} {store : Table DHCPLease} {hasStore : Bool} {env : Listing}
    (hrange : spec.pxeAddressRange = some range) (hend : parseIPv4 range.endIP ≠ some 0xffffffff)
    (hrows : Unambiguous (System.rows { store }))
    (hstart : Dhcp.step { store } (.start .full spec hasStore env) = some s) :
    ∃ p, Serves spec s p := by
  cases hstart
  have hleases : (newServer .full spec hasStore (System.rows { store }) env).leases =
      some (spec.newPool range hasStore (System.rows { store }) env) := by
    rw [newServer, if_pos rfl, hrange]
    rfl
  obtain ⟨leases, heq⟩ := restore_eq (if env.fails then none else some (System.rows { store })) env.now
    { startIP := parseIPv4 range.startIP, endIP := parseIPv4 range.endIP, store := hasStore,
      ttl := leaseTTL spec }
  replace heq : spec.newPool range hasStore (System.rows { store }) env = _ := heq
  refine ⟨_, ⟨_, rfl, rfl, rfl, hleases⟩, ?_, ?_, ?_, SubnetSpec.newPool_exclusive hrows⟩
  · rw [heq]
  · rw [heq]
    exact hend
  · rw [heq]
    intro m
    exact Std.ExtTreeMap.getElem?_empty

/-- The calls between an answer at `rA` and a later one at `r`. -/
theorem Nondecreasing.between {calls₁ calls₂ : List Call} {reqA req : Request} {rA r : Readings}
    (h : Nondecreasing (calls₁ ++ .request reqA rA :: (calls₂ ++ [.request req r])))
    (hclients : ∀ c ∈ calls₂, c.IsClient) (hkept : .release reqA.clientHWAddr ∉ calls₂)
    (hbound : r.leased ≤ bound) :
    ∀ c ∈ calls₂, c.Between rA.leased bound reqA.clientHWAddr := by
  intro c hc
  obtain ⟨hA, hrest⟩ := List.pairwise_cons.mp (List.pairwise_append.mp h.pairwise).2.1
  obtain ⟨-, -, hB⟩ := List.pairwise_append.mp hrest
  have hrA : rA.Ordered := h.ordered reqA rA (by simp)
  have hr : r.Ordered := h.ordered req r (by simp)
  cases c with
  | request req' r' =>
    have hr' : r'.Ordered := h.ordered req' r' (by simp [hc])
    have hfirst : rA.persisted ≤ r'.own := hA _ (List.mem_append_left _ hc) _ _ _ _ rfl rfl
    have hlast : r'.persisted ≤ r.own := hB _ hc _ (List.mem_singleton.mpr rfl) _ _ _ _ rfl rfl
    refine ⟨hr', ?_, ?_⟩
    · calc rA.leased ≤ rA.persisted := hrA.leased_le
        _ ≤ r'.own := hfirst
        _ ≤ r'.reclaim "" := hr'.own_le ""
        _ ≤ r'.leased := hr'.reclaim_le ""
    · calc r'.leased ≤ r'.persisted := hr'.leased_le
        _ ≤ r.own := hlast
        _ ≤ r.reclaim "" := hr.own_le ""
        _ ≤ r.leased := hr.reclaim_le ""
        _ ≤ bound := hbound
  | release =>
    rintro rfl
    exact hkept hc
  | land => trivial
  | _ => exact hclients _ hc

end

/-- **A granted lease is honoured.** A server is started on a subnet whose range does not end with the
last address there is, clients call it in any order, and one of them is answered with an address and
a lease time. Before that time is over, and unless it has released the lease, no other client is
answered with the address, and the client itself is answered with it again. -/
theorem lease_honoured {spec : SubnetSpec} {range : AddressRange} {store : Table DHCPLease}
    {hasStore : Bool} {env : Listing} {s₀ s₁ s₂ s₃ : System} {calls₁ calls₂ : List Call}
    {reqA req : Request} {rA r : Readings} {replyA : Reply}
    (hrange : spec.pxeAddressRange = some range) (hend : parseIPv4 range.endIP ≠ some 0xffffffff)
    (hrows : Unambiguous (System.rows { store }))
    (hstart : step { store } (.start .full spec hasStore env) = some s₀)
    (hfirst : Steps (Graph step) s₀ calls₁ s₁) (hanswer : s₁.reply reqA rA = some replyA)
    (hgrant : step s₁ (.request reqA rA) = some s₂) (hlater : Steps (Graph step) s₂ calls₂ s₃)
    (hclients : ∀ c ∈ calls₁ ++ calls₂, c.IsClient)
    (hclock : Nondecreasing (calls₁ ++ .request reqA rA :: (calls₂ ++ [.request req r])))
    (hkept : .release reqA.clientHWAddr ∉ calls₂)
    (hbefore : r.leased < rA.leased + replyA.leaseTime) :
    (req.clientHWAddr ≠ reqA.clientHWAddr →
      ∀ reply, s₃.reply req r = some reply → reply.yourIP ≠ replyA.yourIP) ∧
    (req.clientHWAddr = reqA.clientHWAddr → req.messageType = .discover ∨ req.messageType = .request →
      ∃ reply, s₃.reply req r = some reply ∧ reply.yourIP = replyA.yourIP) := by
  -- the pool up to the answer
  obtain ⟨p₁, hserves₁⟩ : ∃ p, Serves spec s₁ p := by
    have hcalls : ∀ c ∈ calls₁, c.IsClient := fun c hc => hclients c (List.mem_append_left _ hc)
    refine (hfirst.under hcalls).invariant (I := fun s => ∃ p, Serves spec s p) (fun hstep hs => ?_)
      (serves_start hrange hend hrows hstart)
    obtain ⟨p, hp⟩ := hs
    obtain ⟨p', hp', -⟩ := hp.step hstep.1 hstep.2
    exact ⟨p', hp'⟩
  -- the answer
  obtain ⟨a, ha, hip, hL, hpool⟩ := hserves₁.reply hanswer
  obtain ⟨p₂, hserves₂, -⟩ := hserves₁.step hgrant trivial
  obtain rfl : a.pool = p₂ := by
    obtain ⟨server, hserver, -, -, hleases⟩ := hserves₂.server
    have hpool₂ : s₂.pool = some p₂ := by rw [System.pool, hserver, Option.bind_some, hleases]
    exact Option.some.inj ((hpool s₂ hgrant).symm.trans hpool₂)
  have hkeeps₂ := Keeps.of_answered hserves₁ (allocate_cases ha) hip
  -- the calls after it
  rw [hL] at hbefore
  have hbetween := hclock.between (fun c hc => hclients c (List.mem_append_right _ hc)) hkept hbefore.le
  obtain ⟨p₃, hserves₃, hkeeps₃⟩ := hkeeps₂.run hserves₂ hlater hbetween
  have hr : r.Ordered := hclock.ordered req r (by simp)
  have hreclaim : ∀ k, r.reclaim k ≤ rA.leased + spec.leaseTimeOption := fun k =>
    (hr.reclaim_le k).trans hbefore.le
  constructor
  · intro hne reply hreply heq
    obtain ⟨a', ha', hip', -⟩ := hserves₃.reply hreply
    have hkey : macText req.clientHWAddr ≠ macText reqA.clientHWAddr := fun h0 =>
      hne (macText_injective h0)
    exact hkeeps₃.not_given hserves₃ (allocate_cases ha') hkey (hreclaim _) (heq ▸ hip')
  · intro heq hkind
    rw [← heq] at hkeeps₃
    obtain ⟨a', ha', hip'⟩ := hkeeps₃.renewed req.hostName req.isPXEClient hserves₃
      ((hr.own_le "").trans (hreclaim ""))
    exact hserves₃.answers hkind ha' hip'

/-- A client that renews its lease after half of the time. -/
theorem lease_honoured_renewed :
    ∃ (s₀ s₁ s₂ : System) (replyA reply : Reply),
      step {} (sampleStart "10.0.0.10" "10.0.0.12") = some s₀ ∧
      Steps (Graph step) s₀ [sampleRequest 2 0] s₁ ∧
      s₁.reply (sampleMessage 1) (Readings.at 0) = some replyA ∧
      step s₁ (sampleRequest 1 0) = some s₂ ∧
      s₂.reply (sampleMessage 1) (Readings.at (Duration.seconds 1800)) = some reply ∧
      reply.yourIP = replyA.yourIP := by
  have heval : ((step {} (sampleStart "10.0.0.10" "10.0.0.12")).any fun s₀ =>
      (execute step s₀ [sampleRequest 2 0]).any fun s₁ =>
        (s₁.reply (sampleMessage 1) (Readings.at 0)).any fun replyA =>
          (step s₁ (sampleRequest 1 0)).isSome &&
            decide (Duration.seconds 1800 < 0 + replyA.leaseTime)) = true := by
    decide
  simp only [Option.any_eq_true, Option.isSome_iff_exists, Bool.and_eq_true, decide_eq_true_eq] at heval
  obtain ⟨s₀, hstart, s₁, hfirst, replyA, hanswer, ⟨s₂, hgrant⟩, hbefore⟩ := heval
  have hclock : Nondecreasing ([sampleRequest 2 0] ++ sampleRequest 1 0 ::
      ([] ++ [.request (sampleMessage 1) (Readings.at (Duration.seconds 1800))])) := by
    constructor
    · intro req r hmem
      simp only [sampleRequest, List.nil_append, List.cons_append, List.mem_cons, Call.request.injEq,
        List.not_mem_nil, or_false] at hmem
      rcases hmem with ⟨-, rfl⟩ | ⟨-, rfl⟩ | ⟨-, rfl⟩ <;> exact ⟨fun _ => le_rfl, fun _ => le_rfl, le_rfl⟩
    · simp only [sampleRequest, List.nil_append, List.cons_append, List.pairwise_cons, List.mem_cons,
        List.not_mem_nil, or_false, forall_eq_or_imp, forall_eq, Call.request.injEq, false_imp_iff,
        implies_true, List.Pairwise.nil, and_true]
      refine ⟨⟨?_, ?_⟩, ?_⟩ <;> (rintro req r req' r' ⟨-, rfl⟩ ⟨-, rfl⟩; decide)
  obtain ⟨-, hagain⟩ := lease_honoured rfl (by decide) (by decide) hstart (steps_graph.mpr hfirst) hanswer
    hgrant (Steps.nil s₂) (by simp [sampleRequest, Call.IsClient]) hclock (by simp) hbefore
  obtain ⟨reply, hreply, hip⟩ := hagain rfl (Or.inr rfl)
  exact ⟨s₀, s₁, s₂, replyA, reply, hstart, steps_graph.mpr hfirst, hanswer, hgrant, hreply, hip⟩

/-- **A lease that is not kept.** The range is the last address there is, and another client has it, so
the client is answered with `0.0.0.0` for an hour. A second later the other client has released its
address, and the client is answered with that. -/
theorem lease_not_kept :
    ∃ (s₀ s₁ s₂ s₃ : System) (replyA reply : Reply),
      step {} (sampleStart "255.255.255.255" "255.255.255.255") = some s₀ ∧
      Steps (Graph step) s₀ [sampleRequest 2 0] s₁ ∧
      s₁.reply (sampleMessage 1) (Readings.at 0) = some replyA ∧
      step s₁ (sampleRequest 1 0) = some s₂ ∧
      Steps (Graph step) s₂ [.release (sampleClient 2)] s₃ ∧
      s₃.reply (sampleMessage 1) (Readings.at (Duration.seconds 1)) = some reply ∧
      Duration.seconds 1 < 0 + replyA.leaseTime ∧ reply.yourIP ≠ replyA.yourIP := by
  have heval : ((step {} (sampleStart "255.255.255.255" "255.255.255.255")).any fun s₀ =>
      (execute step s₀ [sampleRequest 2 0]).any fun s₁ =>
        (s₁.reply (sampleMessage 1) (Readings.at 0)).any fun replyA =>
          (step s₁ (sampleRequest 1 0)).any fun s₂ =>
            (execute step s₂ [.release (sampleClient 2)]).any fun s₃ =>
              (s₃.reply (sampleMessage 1) (Readings.at (Duration.seconds 1))).any fun reply =>
                decide (Duration.seconds 1 < 0 + replyA.leaseTime ∧ reply.yourIP ≠ replyA.yourIP)) =
      true := by
    decide
  simp only [Option.any_eq_true, decide_eq_true_eq] at heval
  obtain ⟨s₀, hstart, s₁, hfirst, replyA, hanswer, s₂, hgrant, s₃, hrelease, reply, hreply, hbefore,
    hne⟩ := heval
  exact ⟨s₀, s₁, s₂, s₃, replyA, reply, hstart, steps_graph.mpr hfirst, hanswer, hgrant,
    steps_graph.mpr hrelease, hreply, hbefore, hne⟩

end Gomi.Dhcp
