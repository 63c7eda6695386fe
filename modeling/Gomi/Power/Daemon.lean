import Gomi.Power.Codec

/-!
# The Wake-on-LAN daemon

The loop of the daemon on a host (`Gomi.Power.run`): a datagram that is well formed, signed, fresh
and for the expected token is looked up in the cache of nonces, and honoured if its nonce is not
there. The clock is read twice for a datagram, for its freshness and for the cache.

The cache keeps a nonce for twice the time to live, which is the width of the window in which a
packet is fresh. But the window is closed on both sides, and the second reading of the clock may
come after the end of it. So a packet that arrives at the very start of its window and again at the
very end finds its nonce evicted, and shuts the host down a second time. Exactly those runs are safe in
which any two honourable datagrams with one nonce reach the cache within the retention of each other
(`Gomi.Power.shutdown_once_iff`). Every shutdown was asked for (`Gomi.Power.shutdowns_asked`).
-/

namespace Gomi.Power

open Go

/-! ### The loop -/

/-- `Config`, as far as it decides which requests are honoured. -/
structure Config where
  hmacSecret : Bytes
  expectedToken : Bytes
  ttl : Duration
  deriving DecidableEq

/-- The configuration with the default time to live, of a minute. -/
def Config.withDefaults (cfg : Config) : Config :=
  if cfg.ttl ≤ 0 then { cfg with ttl := Duration.seconds 60 } else cfg

/-- A datagram, with the readings of the clock for it and what `onShutdown` answers if it is called
for it. -/
structure Datagram where
  data : Bytes
  /-- The clock, as the freshness is checked. -/
  verifiedAt : Time
  /-- The clock, as the cache is asked. -/
  checkedAt : Time
  answer : Except String Unit

/-- What `ReadFrom` gives in a turn of the loop. -/
inductive Turn where
  /-- No datagram in time; then the loop asks whether its context is done. -/
  | timeout (done : Bool)
  | failed (err : String)
  | datagram (d : Datagram)

/-- The end of a run, or of the part of it that is looked at. -/
structure Outcome where
  /-- The packets that `onShutdown` was called for. -/
  shutdowns : List ShutdownPacket
  /-- What `Run` has returned, if it has. -/
  result : Option (Except String Unit)
  /-- The turns that the loop did not get to. -/
  unread : List Turn

section Loop

variable (hmac : Bytes → Bytes → Bytes) (cfg : Config)

/-- The checks before the cache: form, signature, freshness and token. The buffer has 2048 bytes. -/
def verify (d : Datagram) : Option ShutdownPacket :=
  match parseAndVerifyShutdownPacket hmac (d.data.take 2048) cfg.hmacSecret d.verifiedAt cfg.ttl with
  | .error _ => none
  | .ok packet => if cfg.expectedToken ≠ [] ∧ packet.token ≠ cfg.expectedToken then none
    else some packet

/-- The loop of `Run`. -/
def loop (replay : ShutdownReplayCache) : List Turn → Outcome
  | [] => ⟨[], none, []⟩
  | .timeout true :: ts => ⟨[], some (.ok ()), ts⟩
  | .timeout false :: ts => loop replay ts
  | .failed err :: ts => ⟨[], some (.error err), ts⟩
  | .datagram d :: ts => match verify hmac cfg d with
    | none => loop replay ts
    | some packet => match replay.haveSeen packet.nonce d.checkedAt with
      | (true, replay) => loop replay ts
      | (false, replay) => match d.answer with
        | .error err => ⟨[packet], some (.error ("shutdown callback failed: " ++ err)), ts⟩
        | .ok () =>
          let rest := loop replay ts
          { rest with shutdowns := packet :: rest.shutdowns }

/-- **`Run`**, from the moment that it listens. -/
def run (turns : List Turn) : Outcome :=
  loop hmac cfg.withDefaults (newShutdownReplayCache cfg.withDefaults.ttl) turns

/-- The datagrams that pass all checks but the cache: the nonce, and the clock for the cache. -/
def honourable (turns : List Turn) : List (Bytes × Time) :=
  turns.filterMap fun
    | .datagram d => (verify hmac cfg d).map fun p => (p.nonce, d.checkedAt)
    | _ => none

end Loop

/-- The readings of the clock, in order. -/
def readings (turns : List Turn) : List Time :=
  turns.flatMap fun
    | .datagram d => [d.verifiedAt, d.checkedAt]
    | _ => []

/-! ### At most one shutdown for a nonce -/

section Once

variable {hmac : Bytes → Bytes → Bytes} {cfg : Config} {turns : List Turn}

/-- The loop honours the requests whose nonces are new to the cache. -/
theorem nonce_shutdowns {replay : ShutdownReplayCache}
    (hall : (loop hmac cfg replay turns).unread = []) :
    (loop hmac cfg replay turns).shutdowns.map (·.nonce) =
      Retention.news sub replay.retention replay.seen (honourable hmac cfg turns) := by
  induction turns generalizing replay with
  | nil => rfl
  | cons t ts ih =>
    cases t with
    | timeout done =>
      cases done with
      | false => exact ih hall
      | true =>
        obtain rfl : ts = [] := hall
        rfl
    | failed =>
      obtain rfl : ts = [] := hall
      rfl
    | datagram d =>
      cases hv : verify hmac cfg d with
      | none =>
        simp only [loop, honourable, hv, List.filterMap_cons, Option.map_none] at hall ⊢
        exact ih hall
      | some packet =>
        have hnews : honourable hmac cfg (.datagram d :: ts) =
            (packet.nonce, d.checkedAt) :: honourable hmac cfg ts := by
          simp [honourable, hv]
        rw [hnews, Retention.news]
        simp only [loop, hv, ShutdownReplayCache.haveSeen] at hall ⊢
        cases hknown : (Retention.ask sub replay.retention replay.seen packet.nonce d.checkedAt).1 with
        | true =>
          simp only [hknown] at hall ⊢
          exact ih hall
        | false =>
          simp only [hknown] at hall ⊢
          cases hans : d.answer with
          | error =>
            simp only [hans] at hall ⊢
            subst hall
            rfl
          | ok =>
            simp only [hans] at hall ⊢
            exact congrArg (packet.nonce :: ·) (ih hall)

/-- The clock readings for the cache are among all readings. -/
theorem honourable_sublist : ((honourable hmac cfg turns).map (·.2)).Sublist (readings turns) := by
  induction turns with
  | nil => exact .slnil
  | cons t ts ih =>
    cases t with
    | timeout => exact ih
    | failed => exact ih
    | datagram d =>
      cases hv : verify hmac cfg d with
      | none =>
        simp only [honourable, readings, hv, List.filterMap_cons, Option.map_none] at ih ⊢
        exact (ih.cons _).cons _
      | some =>
        simp only [honourable, readings, hv, List.filterMap_cons, Option.map_some] at ih ⊢
        exact (ih.cons_cons _).cons _

/-- **A run shuts down at most once for a nonce** exactly if any two datagrams of the run with one
nonce that pass the checks reach the cache within its retention of each other. -/
theorem shutdown_once_iff (hmac : Bytes → Bytes → Bytes) (cfg : Config) (turns : List Turn)
    (hall : (run hmac cfg turns).unread = []) (hclock : (readings turns).Pairwise (· ≤ ·)) :
    ((run hmac cfg turns).shutdowns.map (·.nonce)).Nodup ↔
      (honourable hmac cfg.withDefaults turns).Pairwise fun p q => p.1 = q.1 →
        sub q.2 p.2 ≤ (newShutdownReplayCache cfg.withDefaults.ttl).retention := by
  rw [run, nonce_shutdowns hall]
  refine Retention.nodup_news_iff sub_mono_left sub_anti_right ?_
  exact List.pairwise_map.mp (hclock.sublist honourable_sublist)

end Once

/-! ### What a shutdown was asked by -/

/-- The datagram asks for the shutdown `p`: it starts with the packet and its signature, is fresh, and
is for the expected token. -/
structure Datagram.Asks (hmac : Bytes → Bytes → Bytes) (cfg : Config) (p : ShutdownPacket)
    (d : Datagram) : Prop where
  signed : packetBody p.machineName p.token p.timestamp p.nonce ++
    hmac cfg.hmacSecret (packetBody p.machineName p.token p.timestamp p.nonce) <+: d.data
  fresh : cfg.ttl.neg ≤ sub d.verifiedAt p.timestamp ∧ sub d.verifiedAt p.timestamp ≤ cfg.ttl
  token : cfg.expectedToken = [] ∨ p.token = cfg.expectedToken

section Asked

variable {hmac : Bytes → Bytes → Bytes} {cfg : Config}

theorem verify_asks {d : Datagram} {p : ShutdownPacket} (h : verify hmac cfg d = some p) :
    d.Asks hmac cfg p := by
  unfold verify at h
  split at h
  · cases h
  · rename_i packet hparse
    split_ifs at h with htoken
    cases h
    obtain ⟨-, rest, hdata, -⟩ := parse_sound hparse
    refine ⟨(hdata ▸ List.prefix_append ..).trans (List.take_prefix ..), ?_, ?_⟩
    · unfold parseAndVerifyShutdownPacket at hparse
      dsimp only at hparse
      split_ifs at hparse with _ _ _ _ _ hwindow
      cases hparse
      simpa using hwindow
    · by_contra hne
      exact htoken (not_or.mp hne)

/-- **Every shutdown was asked for**, by a datagram of its own: the packets that the daemon calls
`onShutdown` for are those of datagrams that it was sent, in their order. -/
theorem shutdowns_asked (hmac : Bytes → Bytes → Bytes) (cfg : Config) (turns : List Turn) :
    ∃ ds : List Datagram, (ds.map Turn.datagram).Sublist turns ∧
      List.Forall₂ (Datagram.Asks hmac cfg.withDefaults) (run hmac cfg turns).shutdowns ds := by
  unfold run
  generalize newShutdownReplayCache cfg.withDefaults.ttl = replay
  fun_induction loop hmac cfg.withDefaults replay turns with
  | case1 | case2 | case4 => exact ⟨[], List.nil_sublist _, .nil⟩
  | case3 replay ts ih | case5 replay d ts hv ih | case6 replay d ts packet hv _ _ ih =>
    obtain ⟨ds, hds, hall⟩ := ih
    exact ⟨ds, hds.cons _, hall⟩
  | case7 replay d ts packet hv =>
    exact ⟨[d], (List.nil_sublist ts).cons_cons _, .cons (verify_asks hv) .nil⟩
  | case8 replay d ts packet hv _ _ _ _ ih =>
    obtain ⟨ds, hds, hall⟩ := ih
    exact ⟨d :: ds, hds.cons_cons _, .cons (verify_asks hv) hall⟩

end Asked

/-! ### A packet at both ends of its window -/

/-- Any token is accepted, and the time to live is the default. -/
def sampleConfig : Config := ⟨[1, 2, 3], [], 0⟩

/-- What the server sends to the host `a` at second 100. -/
def sampleData (hmac : Bytes → Bytes → Bytes) : Bytes :=
  let body := packetBody [97] [] (Duration.seconds 100) (List.replicate 12 7)
  body ++ hmac sampleConfig.hmacSecret body

/-- What it says. -/
def samplePacket : ShutdownPacket := ⟨[97], [], Duration.seconds 100, List.replicate 12 7⟩

/-- The packet arrives once with the readings `v` and `c` of the clock. -/
def arrival (hmac : Bytes → Bytes → Bytes) (v c : Time) : Turn :=
  .datagram ⟨sampleData hmac, v, c, .ok ()⟩

theorem verify_sample {hmac : Bytes → Bytes → Bytes}
    (hhmac : ∀ key msg, (hmac key msg).length = sigLen) {v c : Time}
    (hlo : Duration.seconds 40 ≤ v) (hhi : v ≤ Duration.seconds 160) :
    verify hmac sampleConfig.withDefaults ⟨sampleData hmac, v, c, .ok ()⟩ = some samplePacket := by
  have hwindow : ¬ (sub v (ofUnix (unix (Duration.seconds 100))) <
      sampleConfig.withDefaults.ttl.neg ∨
      sub v (ofUnix (unix (Duration.seconds 100))) > sampleConfig.withDefaults.ttl) := by
    rw [not_or, not_lt, not_lt]
    exact ⟨(by decide : _ ≤ sub (Duration.seconds 40) _).trans (sub_mono_left _ hlo),
      (sub_mono_left _ hhi).trans (by decide)⟩
  have hbuild : buildShutdownPacketWithRequestID hmac [97] [] sampleConfig.hmacSecret
      (Duration.seconds 100) (.ok (List.replicate 12 7)) =
      .ok (sampleData hmac, hexEncode (List.replicate 12 7)) := rfl
  have hparse := parse_build hhmac rfl hbuild hwindow
  have hshort : (sampleData hmac).take 2048 = sampleData hmac := by
    refine List.take_of_length_le ?_
    rw [sampleData, List.length_append, hhmac]
    decide
  simp only [verify, hshort]
  rw [show sampleConfig.withDefaults.hmacSecret = sampleConfig.hmacSecret from rfl, hparse]
  rfl

/-- The packet arrives at the first moment at which it is fresh and at the last. The second time, a
nanosecond goes by before the cache is asked. -/
def bothEnds (hmac : Bytes → Bytes → Bytes) : List Turn :=
  [arrival hmac (Duration.seconds 40) (Duration.seconds 40),
    arrival hmac (Duration.seconds 160) (Duration.seconds 160 + 1)]

/-- A stand-in for the signature, of the right length. -/
def zeroMac : Bytes → Bytes → Bytes := fun _ _ => List.replicate sigLen 0

theorem shutdown_replayed : (readings (bothEnds zeroMac)).Pairwise (· ≤ ·) ∧
    (run zeroMac sampleConfig (bothEnds zeroMac)).unread = [] ∧
    ¬ ((run zeroMac sampleConfig (bothEnds zeroMac)).shutdowns.map (·.nonce)).Nodup := by
  have hsig : ∀ key msg, (zeroMac key msg).length = sigLen := fun _ _ => rfl
  have hfirst := verify_sample (c := Duration.seconds 40) hsig le_rfl (by decide)
  have hsecond := verify_sample (c := Duration.seconds 160 + 1) hsig (by decide) le_rfl
  refine ⟨by decide, ?_⟩
  simp only [run, bothEnds, arrival, loop, hfirst, hsecond]
  decide

theorem shutdown_once_promptly :
    ((run zeroMac sampleConfig [arrival zeroMac 100000000000 100000000000,
      arrival zeroMac 160000000000 160000000000]).shutdowns.map (·.nonce)).Nodup :=
  (shutdown_once_iff zeroMac sampleConfig _ (by decide) (by decide)).mpr
    (by decide)

end Gomi.Power
