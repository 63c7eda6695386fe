import Gomi.Detached
import Gomi.Dhcp.Honoured

/-!
# The lease store follows the pool

The pool writes its store by detached goroutines, one for each lease that is granted, renewed
or dropped. Nothing orders them. If the two writes of one MAC take effect in the wrong order,
the store keeps a lease that was released, or the older one of two
(`Gomi.Dhcp.release_overtaken`); a restart then brings it back.

If the writes of each MAC take effect in the order in which they were started, then the store
has exactly the pool's leases when all of them have. A restart then restores the pool's addresses
just if it drops no row (`Gomi.Dhcp.store_follows_pool`): a row is dropped if it is expired, and
also if it is the lease of a reservation outside the range (`Gomi.Dhcp.Restorable`). What the store
is heading for is `Gomi.settle`, of the rows and the writes on their way, and it is a record of the
pool's leases all the time (`Gomi.Dhcp.Recorded`).
-/

namespace Gomi.Dhcp

open Go LeasePool

variable {now : String → Time} {m : String} {q : LeasePool}

/-! ### The writes of a call -/

/-- A write of the lease store, as a write of one key. -/
def Write.effect : Write → KeyWrite String DHCPLease
  | .upsert lease => (lease.mac, some lease)
  | .delete mac => (mac, none)

/-- The rows of a table, by key. -/
def rowsOf (t : Table DHCPLease) (m : String) : Option DHCPLease := t[m]?

theorem rowsOf_apply {w : Write} {t : Table DHCPLease} :
    rowsOf (w.apply t) = Function.update (rowsOf t) w.effect.1 w.effect.2 := by
  funext m
  cases w with
  | upsert =>
    rw [Write.apply, rowsOf, Table.get_insert, Function.update_apply]
    simp only [Write.effect, eq_comm (a := m)]
    rfl
  | delete =>
    rw [Write.apply, rowsOf, Table.get_erase, Function.update_apply]
    simp only [Write.effect, eq_comm (a := m)]
    rfl

/-- **A record of leases**: for each lease a row with its MAC and the text of its address, and no
others. -/
def Records (rows : String → Option DHCPLease) (leases : Table LeaseEntry) : Prop :=
  ∀ m : String, (rows m).map (fun l => (l.mac, l.ip)) = leases[m]?.map fun e => (m, ipText e.ip)

section Writes

variable {rows : String → Option DHCPLease} {p : LeasePool} {key hostname : String} {pxeClient : Bool}
  {r : Readings} {a : Allocated}

/-- A granted lease is recorded. -/
theorem Records.lease (h : Records rows p.leases) (hstore : p.store = true) (ip : Option UInt32)
    (t t' : Time) :
    Records (settle rows ((p.persistAsync key ip hostname pxeClient t').map Write.effect))
      (p.lease key ip t).leases := by
  intro m
  rw [LeasePool.persistAsync, if_pos hstore, LeasePool.lease, Table.get_insert]
  simp only [List.map_cons, List.map_nil, Write.effect, settle_cons, settle_nil, Function.update_apply]
  by_cases hm : m = key
  · subst hm
    simp
  · rw [if_neg hm, if_neg (Ne.symm hm)]
    exact h m

/-- The MACs whose leases are dropped before the search. -/
def droppedKeys (p : LeasePool) (key : String) (now : String → Time) : List String :=
  (if p.leases[key]?.isSome then [key] else []) ++ (p.forget key).reclaimed now

theorem mem_droppedKeys : m ∈ droppedKeys p key now ↔
    ∃ e, p.leases[m]? = some e ∧ (m = key ∨ p.expired e.leasedAt (now m) = true) := by
  rw [droppedKeys, List.mem_append, mem_reclaimed, forget, Table.get_erase]
  by_cases hm : m = key
  · subst hm
    cases he : p.leases[m]? with
    | none => simp
    | some => simp
  · have hown : m ∉ (if p.leases[key]?.isSome then [key] else []) := by
      split <;> simp [hm]
    rw [if_neg (Ne.symm hm), or_iff_right hown]
    simp only [hm, false_or]
    rfl

theorem remaining_leases :
    (p.remaining key now).leases[m]? = if m ∈ droppedKeys p key now then none else p.leases[m]? := by
  obtain ⟨leases, hrest, hkey, hget⟩ := p.remaining_eq key now
  rw [hrest]
  show leases[m]? = _
  cases he : p.leases[m]? with
  | none =>
    rw [ite_self]
    by_cases hm : m = key
    · rw [hm, hkey]
    · rw [hget m hm, he]
      rfl
  | some e =>
    by_cases hdrop : m = key ∨ p.expired e.leasedAt (now m) = true
    · rw [if_pos (mem_droppedKeys.mpr ⟨e, he, hdrop⟩)]
      by_cases hm : m = key
      · rw [hm, hkey]
      · rw [hget m hm, he]
        simp [Option.filter, hdrop.resolve_left hm]
    · have hnot : m ∉ droppedKeys p key now := by
        rintro hmem
        obtain ⟨e', he', hdrop'⟩ := mem_droppedKeys.mp hmem
        exact hdrop (Option.mem_unique he he' ▸ hdrop')
      obtain ⟨hm, hlive⟩ := not_or.mp hdrop
      rw [if_neg hnot, hget m hm, he]
      simp [Option.filter, hlive]

/-- The writes for the dropped leases are removals. -/
theorem effect_dropWrites (hstore : p.store = true) :
    (p.dropWrites key now).map Write.effect = (droppedKeys p key now).map fun k => (k, none) := by
  have hdelete : p.deleteLeaseAsync = fun mac => [.delete mac] := by
    funext mac
    rw [LeasePool.deleteLeaseAsync, if_pos hstore]
  rw [LeasePool.dropWrites, droppedKeys, hdelete, List.map_append, List.map_append,
    ← List.map_eq_flatMap, List.map_map]
  congr 1
  split <;> rfl

/-- Dropped leases are recorded. -/
theorem Records.drop (h : Records rows p.leases) (hstore : p.store = true) (now : String → Time) :
    Records (settle rows ((p.dropWrites key now).map Write.effect)) (p.remaining key now).leases := by
  intro m
  rw [effect_dropWrites hstore, settle_removals, remaining_leases]
  split
  · rfl
  · exact h m

/-- **What `Allocate` starts records what it did.** -/
theorem Records.allocate (h : Records rows p.leases) (hstore : p.store = true)
    (ha : Allocation p key hostname pxeClient r a) :
    Records (settle rows (a.writes.map Write.effect)) a.pool.leases := by
  cases ha with
  | reserved hres | renewed hres hown hrange hlive => exact h.lease hstore _ _ _
  | @fresh ip hres hstale hfree hrange =>
    obtain ⟨leases, hrest, -⟩ := p.remaining_eq key r.reclaim
    have hstore' : (p.remaining key r.reclaim).store = true := by
      rw [hrest]
      exact hstore
    have hpersist : p.persistAsync = (p.remaining key r.reclaim).persistAsync := by
      rw [hrest]
      rfl
    rw [List.map_append, settle_append, hpersist]
    exact (h.drop hstore r.reclaim).lease hstore' _ _ _
  | exhausted => exact h.drop hstore r.reclaim

/-- A released lease is recorded. -/
theorem Records.release (h : Records rows p.leases) (hstore : p.store = true) (mac : HardwareAddr) :
    Records (settle rows ((p.deleteLeaseAsync (macText mac)).map Write.effect))
      (p.forget (macText mac)).leases := by
  intro m
  rw [LeasePool.deleteLeaseAsync, if_pos hstore, forget, Table.get_erase]
  simp only [List.map_cons, List.map_nil, Write.effect, settle_cons, settle_nil, Function.update_apply]
  by_cases hm : m = macText mac
  · subst hm
    simp
  · rw [if_neg hm, if_neg (Ne.symm hm)]
    exact h m

/-- The MACs that have a lease had one before, but for the client. -/
theorem Allocation.key_or_old (ha : Allocation p key hostname pxeClient r a) {e : LeaseEntry}
    (he : a.pool.leases[m]? = some e) : m = key ∨ ∃ e', p.leases[m]? = some e' := by
  have hrest : ∀ {e : LeaseEntry}, (p.remaining key r.reclaim).leases[m]? = some e →
      ∃ e', p.leases[m]? = some e' := by
    intro e he
    rw [remaining_leases] at he
    split at he
    · cases he
    · exact ⟨e, he⟩
  have hlease : ∀ {q : LeasePool} {ip : Option UInt32} {t : Time},
      (q.lease key ip t).leases[m]? = some e → m = key ∨ q.leases[m]? = some e := by
    intro q ip t he
    exact (Table.insert_cases he).imp (·.1.symm) (·.2)
  cases ha with
  | reserved hres | renewed hres hown hrange hlive => exact (hlease he).imp_right fun he => ⟨e, he⟩
  | fresh => exact (hlease he).imp_right hrest
  | exhausted => exact Or.inr (hrest he)

end Writes

/-! ### Runs -/

/-- **What is asked of the goroutines**: a write takes effect after the earlier ones of its MAC. -/
def InOrder (s : System) : Call → Prop
  | .land i ok => ok = true ∧
      ∀ w ∈ s.pending[i]?, ∀ v ∈ s.pending.take i, v.effect.1 ≠ w.effect.1
  | c => c.IsClient

instance (s : System) : (c : Call) → Decidable (InOrder s c)
  | .land _ _ => inferInstanceAs (Decidable (_ ∧ _))
  | .request .. | .release _ => isTrue trivial
  | .start .. | .updateReservations _ | .setTTL _ | .restore _ | .reconfigure .. => isFalse id

/-- The system runs a pool with a store, and what the store is heading for is a record of the pool's
leases, which are of MACs. -/
structure Recorded (s : System) (p : LeasePool) : Prop where
  pool : s.pool = some p
  store : p.store = true
  records : Records (settle (rowsOf s.store) (s.pending.map Write.effect)) p.leases
  macs : ∀ (m : String) (e : LeaseEntry), p.leases[m]? = some e → ∃ mac, m = macText mac

section Runs

variable {s s' : System} {c : Call} {p : LeasePool}

/-- **One step keeps the record.** -/
theorem Recorded.step (h : Recorded s p) (hs : step s c = some s') (hc : InOrder s c) :
    ∃ p', Recorded s' p' := by
  obtain ⟨server, hserver, hleases⟩ := Option.bind_eq_some_iff.mp h.pool
  cases c with
  | request =>
    simp only [Dhcp.step, hserver] at hs
    split at hs
    · cases hs
      exact ⟨p, h⟩
    · rw [hleases, handleFull, Option.map_map] at hs
      obtain ⟨a, ha, rfl⟩ := Option.map_eq_some_iff.mp hs
      have halloc := allocate_cases ha
      obtain ⟨leases, heq⟩ := halloc.pool_eq
      refine ⟨a.pool, rfl, by rw [heq]; exact h.store, ?_, fun m e he => ?_⟩
      · show Records (settle (rowsOf s.store) ((s.pending ++ a.writes).map Write.effect)) _
        rw [List.map_append, settle_append]
        exact h.records.allocate h.store halloc
      · rcases halloc.key_or_old he with rfl | ⟨e', he'⟩
        · exact ⟨_, rfl⟩
        · exact h.macs m e' he'
  | release mac =>
    cases hs
    have heq : s.onPool (fun p => p.release mac) =
        { s with
          server := some { server with leases := some (p.forget (macText mac)) }
          pending := s.pending ++ p.deleteLeaseAsync (macText mac) } := by
      simp only [System.onPool, hserver, hleases]
      rfl
    rw [heq]
    refine ⟨p.forget (macText mac), rfl, h.store, ?_, fun m e he => ?_⟩
    · rw [List.map_append, settle_append]
      exact h.records.release h.store mac
    · exact h.macs m e (Table.erase_cases he).2
  | land i =>
    obtain ⟨w, hw, rfl⟩ := Option.map_eq_some_iff.mp hs
    obtain ⟨rfl, horder⟩ := hc
    refine ⟨p, h.pool, h.store, ?_, h.macs⟩
    obtain ⟨hi, rfl⟩ := List.getElem?_eq_some_iff.mp hw
    have hsplit : s.pending = s.pending.take i ++ s.pending[i] :: s.pending.drop (i + 1) := by
      rw [← List.drop_eq_getElem_cons, List.take_append_drop]
    have hrecords := h.records
    rw [hsplit, List.map_append, List.map_cons, ← settle_land] at hrecords
    · rw [List.eraseIdx_eq_take_drop_succ, List.map_append, if_pos rfl, rowsOf_apply]
      exact hrecords
    · rintro v hv
      obtain ⟨u, hu, rfl⟩ := List.mem_map.mp hv
      exact horder _ hw u hu
  | _ => exact hc.elim

/-- **What a restart restores** from rows that are stored under their own keys. -/
theorem restoreLoop_leases {now : DHCPLease → Time} {rows : List DHCPLease}
    (hkeys : ∀ l ∈ rows, restoredKey l = l.mac) (hnodup : (rows.map (·.mac)).Nodup) :
    (∀ l ∈ rows, (restoreLoop now rows q).leases[l.mac]? =
      if q.restores l (now l) then some ⟨parseIPv4 l.ip, l.leasedAt⟩ else q.leases[l.mac]?) ∧
      ∀ m, m ∉ rows.map (·.mac) → (restoreLoop now rows q).leases[m]? = q.leases[m]? := by
  induction rows generalizing q with
  | nil => exact ⟨fun l hl => absurd hl (by simp), fun m _ => rfl⟩
  | cons l rows ih =>
    obtain ⟨hnot, hnodup⟩ := List.nodup_cons.mp hnodup
    have hkey := hkeys l List.mem_cons_self
    -- the turn for the first row changes the pool at its key only
    obtain ⟨q', hq', hrestores, hother, hown⟩ : ∃ q' : LeasePool,
        restoreLoop now (l :: rows) q = restoreLoop now rows q' ∧
        (∀ l', q'.restores l' = q.restores l') ∧ (∀ m, m ≠ l.mac → q'.leases[m]? = q.leases[m]?) ∧
        q'.leases[l.mac]? =
          if q.restores l (now l) then some ⟨parseIPv4 l.ip, l.leasedAt⟩ else q.leases[l.mac]? := by
      refine ⟨_, rfl, fun l' => ?_, fun m hm => ?_, ?_⟩
      · split <;> rfl
      · split
        · rw [LeasePool.lease, Table.get_insert, hkey, if_neg hm.symm]
        · rfl
      · split
        · rw [LeasePool.lease, Table.get_insert, if_pos hkey]
        · rfl
    obtain ⟨hin, hout⟩ := @ih q' (fun l' hl' => hkeys l' (List.mem_cons_of_mem l hl')) hnodup
    rw [hq']
    constructor
    · intro l' hl'
      rcases List.mem_cons.mp hl' with rfl | hl'
      · rw [hout _ hnot, hown]
      · have hne : l'.mac ≠ l.mac := fun heq => hnot (List.mem_map.mpr ⟨l', hl', heq⟩)
        rw [hin l' hl', hrestores, hother _ hne]
    · intro m hm
      obtain ⟨hne, hm⟩ := not_or.mp fun hmem => hm (List.mem_cons.mpr hmem)
      rw [hout m hm, hother m hne]

/-- The rows that a listing of the store shows. -/
theorem mem_rows {l : DHCPLease} : l ∈ s.rows ↔ ∃ row, s.store[l.mac]? = some row ∧ l = { row with mac := l.mac } := by
  rw [System.rows, List.mem_map]
  constructor
  · rintro ⟨⟨m, row⟩, hmem, rfl⟩
    exact ⟨row, Table.mem_toList.mp hmem, rfl⟩
  · rintro ⟨row, hrow, hl⟩
    exact ⟨(l.mac, row), Table.mem_toList.mpr hrow, hl.symm⟩

theorem nodup_rows : (s.rows.map (·.mac)).Nodup := by
  have hkeys : s.rows.map (·.mac) = s.store.keys := by
    rw [← Std.ExtTreeMap.map_fst_toList_eq_keys, System.rows, List.map_map]
    rfl
  rw [hkeys]
  exact Std.ExtTreeMap.nodup_keys

/-- **What a restart asks of the rows**: each has a MAC and an address of the range, and is not expired
when the restart looks at it. -/
def Restorable (p : LeasePool) (rows : List DHCPLease) (now : DHCPLease → Time) : Prop :=
  ∀ l ∈ rows, l.mac ≠ "" ∧ p.inRange (parseIPv4 l.ip) = true ∧ p.expired l.leasedAt (now l) = false

instance (p : LeasePool) (rows : List DHCPLease) (now : DHCPLease → Time) :
    Decidable (Restorable p rows now) :=
  inferInstanceAs (Decidable (∀ l ∈ rows, _))

theorem restores_iff {l : DHCPLease} {t : Time} (hkey : restoredKey l = l.mac) :
    q.restores l t = true ↔
      l.mac ≠ "" ∧ q.inRange (parseIPv4 l.ip) = true ∧ q.expired l.leasedAt t = false := by
  have hsome : q.inRange (parseIPv4 l.ip) = true → (parseIPv4 l.ip).isSome = true := by
    cases parseIPv4 l.ip with
    | none => exact fun h => absurd h (by simp [LeasePool.inRange])
    | some => exact fun _ => rfl
  rw [LeasePool.restores, decide_eq_true_iff, hkey, Bool.not_eq_true]
  constructor
  · rintro ⟨hmac, -, hrange, hlive⟩
    exact ⟨hmac, hrange, hlive⟩
  · rintro ⟨hmac, hrange, hlive⟩
    exact ⟨hmac, hsome hrange, hrange, hlive⟩

/-- A restart from a record of leases has the leases' addresses exactly if it drops no row. -/
theorem Records.restore_iff (h : Records (rowsOf s.store) p.leases)
    (hmacs : ∀ (m : String) (e : LeaseEntry), p.leases[m]? = some e → ∃ mac, m = macText mac)
    {now : DHCPLease → Time} (hempty : ∀ m : String, q.leases[m]? = none) :
    (∀ m : String, (restoreLoop now s.rows q).leases[m]?.map (·.ip) = p.leases[m]?.map (·.ip)) ↔
      Restorable q s.rows now := by
  have hlease : ∀ l ∈ s.rows, ∃ e, p.leases[l.mac]? = some e ∧ l.ip = ipText e.ip := by
    intro l hl
    obtain ⟨row, hrow, heq⟩ := mem_rows.mp hl
    have hm := h l.mac
    rw [rowsOf, hrow, Option.map_some] at hm
    obtain ⟨e, he, hpair⟩ := Option.map_eq_some_iff.mp hm.symm
    refine ⟨e, he, ?_⟩
    rw [heq]
    exact (Prod.mk.inj hpair).2.symm
  have hkeys : ∀ l ∈ s.rows, restoredKey l = l.mac := by
    intro l hl
    obtain ⟨e, he, -⟩ := hlease l hl
    obtain ⟨mac, hmac⟩ := hmacs _ e he
    rw [restoredKey, hmac, trimSpace_macText, toLower_macText]
  obtain ⟨hin, hout⟩ := @restoreLoop_leases q now s.rows hkeys nodup_rows
  constructor
  · intro hsame l hl
    refine (restores_iff (hkeys l hl)).mp ?_
    by_contra hdropped
    -- the pool has a lease for the row, and the restarted pool has none
    obtain ⟨e, he, -⟩ := hlease l hl
    have hm := hsame l.mac
    rw [hin l hl, if_neg hdropped, hempty, he] at hm
    cases hm
  · intro hall m
    cases he : p.leases[m]? with
    | none =>
      have hnot : m ∉ s.rows.map (·.mac) := by
        intro hmem
        obtain ⟨l, hl, rfl⟩ := List.mem_map.mp hmem
        obtain ⟨e, he', -⟩ := hlease l hl
        cases he.symm.trans he'
      rw [hout m hnot, hempty]
    | some e =>
      obtain ⟨l, hl, rfl⟩ : ∃ l ∈ s.rows, l.mac = m := by
        have hm := h m
        rw [rowsOf, he] at hm
        obtain ⟨row, hrow, -⟩ := Option.map_eq_some_iff.mp hm
        exact ⟨{ row with mac := m }, mem_rows.mpr ⟨row, hrow, rfl⟩, rfl⟩
      obtain ⟨e', he', hip⟩ := hlease l hl
      obtain rfl := Option.some.inj (he.symm.trans he')
      have hrestores := (restores_iff (hkeys l hl)).mpr (hall l hl)
      rw [hin l hl, if_pos hrestores, Option.map_some, Option.map_some]
      -- the text of the lease's address is read back as this address
      have hrange := (hall l hl).2.1
      rw [hip] at hrange ⊢
      cases hx : e.ip with
      | none =>
        rw [hx] at hrange
        exact absurd hrange (by simp [ipText, show parseIPv4 "<nil>" = none by decide, LeasePool.inRange])
      | some => rw [ipText, parseIPv4_ipv4Text]

/-- **The lease store follows the pool.** Clients call a pool whose leases the store records, and every
write takes effect after the earlier ones of its MAC. When all writes have taken effect, the store
records exactly the pool's leases; and a restart has the same address for each MAC exactly if no row
is without a MAC, outside the range or expired. -/
theorem store_follows_pool {s₀ : System} {p₀ : LeasePool} {calls : List Call} (hstart : Recorded s₀ p₀)
    (hrun : Steps (Under (Graph step) InOrder) s₀ calls s) (hdone : s.pending = []) :
    ∃ p, s.pool = some p ∧ Records (rowsOf s.store) p.leases ∧
      ∀ now : DHCPLease → Time,
        (∀ m : String, (LeasePool.restore { p with leases := ∅, reservations := ∅ } (some s.rows)
          now).leases[m]?.map (·.ip) = p.leases[m]?.map (·.ip)) ↔ Restorable p s.rows now := by
  obtain ⟨p, hp⟩ : ∃ p, Recorded s p := by
    refine hrun.invariant (I := fun s => ∃ p, Recorded s p) (fun hstep hs => ?_) ⟨p₀, hstart⟩
    obtain ⟨p, hp⟩ := hs
    exact hp.step hstep.1 hstep.2
  have hrecords : Records (rowsOf s.store) p.leases := by
    have h := hp.records
    rw [hdone] at h
    exact h
  refine ⟨p, hp.pool, hrecords, fun now => ?_⟩
  rw [LeasePool.restore.eq_def, if_pos hp.store]
  exact hrecords.restore_iff (q := { p with leases := ∅, reservations := ∅ }) hp.macs
    (fun m => Std.ExtTreeMap.getElem?_empty)

end Runs

/-- The pool of a new server on an empty store. -/
theorem recorded_start {startIP endIP : String} {s : System}
    (hs : step {} (sampleStart startIP endIP) = some s) : ∃ p, Recorded s p := by
  cases hs
  refine ⟨_, rfl, rfl, fun m => rfl, fun m e he => ?_⟩
  have hnone : (∅ : Table LeaseEntry)[m]? = none := Std.ExtTreeMap.getElem?_empty
  cases hnone.symm.trans he

/-- A client that leases an address, renews it and releases it, and another one whose write is ahead and
whose address a restart a minute later restores. -/
theorem store_follows_pool_released :
    ∃ (s₀ s : System) (p : LeasePool) (calls : List Call),
      step {} (sampleStart "10.0.0.10" "10.0.0.12") = some s₀ ∧
      Steps (Under (Graph step) InOrder) s₀ calls s ∧ s.pending = [] ∧
      s.pool = some p ∧ Records (rowsOf s.store) p.leases ∧
      p.leases[macText (sampleClient 2)]?.isSome = true ∧
      ∀ m : String, (LeasePool.restore { p with leases := ∅, reservations := ∅ } (some s.rows)
        fun _ => 60000000000).leases[m]?.map (·.ip) = p.leases[m]?.map (·.ip) := by
  have heval : ((step {} (sampleStart "10.0.0.10" "10.0.0.12")).any fun s₀ =>
      (executeUnder step (fun s c => decide (InOrder s c)) s₀
        [sampleRequest 1 0, sampleRequest 1 0, sampleRequest 2 0, .release (sampleClient 1), .land 2 true,
          .land 0 true, .land 0 true, .land 0 true]).any fun s => s.pending.isEmpty &&
        s.pool.any fun p => p.leases[macText (sampleClient 2)]?.isSome &&
          decide (Restorable p s.rows fun _ => 60000000000)) = true := by
    decide
  simp only [Option.any_eq_true, Bool.and_eq_true, decide_eq_true_eq, List.isEmpty_iff] at heval
  obtain ⟨s₀, hstart, s, hrun, hdone, p, hp, hleased, hrows⟩ := heval
  obtain ⟨p₀, hp₀⟩ := recorded_start hstart
  have hsteps := steps_under_of_execute hrun
  obtain ⟨p', hp', hrecords, hrestart⟩ := store_follows_pool hp₀ hsteps hdone
  obtain rfl := Option.some.inj (hp.symm.trans hp')
  exact ⟨s₀, s, p, _, hstart, hsteps, hdone, hp, hrecords, hleased, (hrestart _).mpr hrows⟩

/-- **A release that is overtaken by the lease it ends.** The writes of both have taken effect, the
deletion first, and the store has a lease that the pool does not have. -/
theorem release_overtaken :
    ∃ (s : System) (p : LeasePool),
      Steps (Graph step) {} [sampleStart "10.0.0.10" "10.0.0.12", sampleRequest 1 0,
        .release (sampleClient 1), .land 1 true, .land 0 true] s ∧ s.pending = [] ∧
      s.pool = some p ∧ p.leases[macText (sampleClient 1)]? = none ∧
      s.store[macText (sampleClient 1)]?.isSome = true ∧ ¬Records (rowsOf s.store) p.leases := by
  have heval : ((execute step {} [sampleStart "10.0.0.10" "10.0.0.12", sampleRequest 1 0,
      .release (sampleClient 1), .land 1 true, .land 0 true]).any fun s =>
        s.pending.isEmpty && s.pool.any fun p => p.leases[macText (sampleClient 1)]?.isNone &&
          s.store[macText (sampleClient 1)]?.isSome) = true := by
    decide
  simp only [Option.any_eq_true, Bool.and_eq_true, Option.isNone_iff_eq_none] at heval
  obtain ⟨s, hrun, hdone, p, hp, hnone, hrow⟩ := heval
  refine ⟨s, p, steps_graph.mpr hrun, List.isEmpty_iff.mp hdone, hp, hnone, hrow, fun hrecords => ?_⟩
  have hm := hrecords (macText (sampleClient 1))
  rw [hnone, rowsOf] at hm
  exact absurd hrow (by simpa using hm)

end Gomi.Dhcp
