import Gomi.Discovery.Service

/-!
# What discovery does to the records

Requests of discovery run at the same time. A request that does not find its address writes a record
under a name that it has not looked for, with an upsert. So it replaces the record of another machine
that has the name; and since an address is looked up by its text, another spelling of it is not found.

If no such thing happens (`Gomi.Discovery.Orderly`), no record is ever changed and there is one record
for each address (`Gomi.Discovery.discovery_keeps_records`).
-/

namespace Gomi.Discovery

open Go Prog

variable {k : Casing} {S : MachineStore k} {reqs : ℕ → Request} {s₀ : S.State}
variable {t : ℕ} {a : List UInt8}

/-! ### Steps -/

/-- The requests of a pool. -/
def pool (k : Casing) (reqs : ℕ → Request) : ℕ → Prog Res (Except Err Machine) := fun t =>
  handlePXEBoot k (reqs t)

/-- Whether an upsert was acknowledged. -/
def acked (r : Except Err Unit) : Bool :=
  match r with
  | .ok _ => true
  | .error _ => false

/-- The machine that an event writes, if it does. -/
def written : Event Res → Option Machine
  | ⟨_, .upsert m, r⟩ => if acked r then some m else none
  | _ => none

/-- Whether an operation looks an address up. -/
def looksUp : Op → Bool
  | .getByMAC _ => true
  | _ => false

variable {s s' : S.State} {e : Event Res}

/-- **A step writes one machine or nothing.** -/
theorem step_cases (h : step S e.op s e.res = some s') :
    (∃ m, written e = some m ∧ e.toCall = ⟨.upsert m, Except.ok ()⟩ ∧
      (S.upsert m s).1 = .ok () ∧ s' = (S.upsert m s).2) ∨ (written e = none ∧ s' = s) := by
  obtain ⟨tid, op, res⟩ := e
  cases op with
  | getByMAC =>
    refine .inr ⟨rfl, ?_⟩
    simp only [step] at h
    split at h
    · exact (Option.some.inj h).symm
    · cases h
  | now => exact .inr ⟨rfl, (Option.some.inj h).symm⟩
  | upsert m =>
    rcases S.execute_cases h with ⟨hres, rfl⟩ | ⟨⟨text, hres⟩, rfl⟩
    · cases hans : (S.upsert m s).1 with
      | ok =>
        obtain rfl : res = Except.ok () := hres.trans hans
        exact .inl ⟨m, rfl, rfl, hans, rfl⟩
      | error err =>
        obtain rfl : res = Except.error err := hres.trans hans
        exact .inr ⟨rfl, S.upsert_error hans⟩
    · obtain rfl : res = Except.error (.msg text) := hres
      exact .inr ⟨rfl, rfl⟩

/-- A write that is acknowledged can be read back. -/
theorem step_written {m : Machine} (he : e.toCall = ⟨.upsert m, Except.ok ()⟩)
    (h : step S e.op s e.res = some s') : ∃ m', S.record s' m.name = some m' ∧ m'.mac = m.mac := by
  obtain ⟨tid, op, res⟩ := e
  cases he
  rcases step_cases h with ⟨m', -, hcall, hok, rfl⟩ | ⟨hnone, -⟩
  · cases hcall
    exact S.upsert_own hok
  · cases hnone

/-- A lookup is answered as the state is. -/
theorem step_lookup {mac : String} {r : Except Err Machine} (he : e.toCall = ⟨.getByMAC mac, r⟩)
    (h : step S e.op s e.res = some s') : S.replies s mac r = true ∧ s' = s := by
  obtain ⟨tid, op, res⟩ := e
  cases he
  simp only [step] at h
  split at h
  · rename_i hreplies
    exact ⟨hreplies, (Option.some.inj h).symm⟩
  · cases h

/-- The records after a write: the one that was written, and those that were there. -/
theorem record_upsert_cases {m m' : Machine} {n : String} (hok : (S.upsert m s).1 = .ok ())
    (h : S.record (S.upsert m s).2 n = some m') :
    (n = m.name ∧ m'.mac = m.mac) ∨ S.record s n = some m' := by
  by_cases hn : n = m.name
  · subst hn
    obtain ⟨m₁, hm₁, hmac⟩ := S.upsert_own hok
    obtain rfl := Option.mem_unique hm₁ h
    exact .inl ⟨rfl, hmac⟩
  · rw [S.upsert_other hn] at h
    exact .inr h

/-! ### The claim and its condition -/

section Statement

variable (S) (reqs) (s₀)

/-- The names of the records for an address. -/
def Names (s : S.State) (a : List UInt8) (n : String) : Prop :=
  ∃ m, S.record s n = some m ∧ parseMAC m.mac = some a

/-- **Discovery keeps the records**: no step changes a record that is there, and once a request for
an address has been answered there is a single record for it. -/
structure Keeps (T : List (Event Res)) (c : ℕ → Prog Res (Except Err Machine)) (s : S.State) :
    Prop where
  unchanged : ∀ A e B s₁ s₂, T = A ++ e :: B → after (step S) s₀ A = some s₁ →
    step S e.op s₁ e.res = some s₂ → ∀ n m, S.record s₁ n = some m → S.record s₂ n = some m
  single : ∀ t a m, parseMAC (reqs t).mac = some a → c t = .ret (.ok m) → ∃! n, Names S s a n

/-- The condition on a write, after the trace `A`: since the request looked its address up no machine
with that address was written, and no machine has the name. -/
def Undisturbed (A : List (Event Res)) (e : Event Res) : Prop :=
  ∀ m, written e = some m →
    (∀ x ∈ since (madeBy e.tid looksUp) A, ∀ m', written x = some m' →
      ∀ a, parseMAC m.mac = some a → parseMAC m'.mac ≠ some a) ∧
    ∀ s, after (step S) s₀ A = some s → S.record s m.name = none

/-- **An orderly run**: an address has one spelling, up to the case of letters, and at most one
record at the start; requests are not disturbed by others, and the names that they choose are free. -/
structure Orderly (T : List (Event Res)) : Prop where
  spelling : ∀ t t' a, parseMAC (reqs t).mac = some a → parseMAC (reqs t').mac = some a →
    asciiLower (reqs t).mac = asciiLower (reqs t').mac
  spelling_start : ∀ t a n m, parseMAC (reqs t).mac = some a → S.record s₀ n = some m →
    parseMAC m.mac = some a → asciiLower m.mac = asciiLower (reqs t).mac
  single_start : ∀ t a n n', parseMAC (reqs t).mac = some a → Names S s₀ a n → Names S s₀ a n' → n = n'
  undisturbed : EachStep (Undisturbed S s₀) T

end Statement

/-! ### The invariant -/

section Runs

variable {T A : List (Event Res)} {s : S.State} {c : ℕ → Prog Res (Except Err Machine)}

/-- Every record is from the start, or was written by a request with its own address. -/
def Origin (S : MachineStore k) (reqs : ℕ → Request) (s₀ s : S.State) : Prop :=
  ∀ n m, S.record s n = some m → S.record s₀ n = some m ∨ ∃ t, m.mac = (reqs t).mac

/-- What holds at every point of an orderly run. -/
structure Tidy (S : MachineStore k) (reqs : ℕ → Request) (s₀ s : S.State) : Prop where
  origin : Origin S reqs s₀ s
  single : ∀ t a n n', parseMAC (reqs t).mac = some a → Names S s a n → Names S s a n' → n = n'

/-- A trace of requests. -/
abbrev Traced (S : MachineStore k) (reqs : ℕ → Request) (s₀ : S.State) (T : List (Event Res))
    (s : S.State) : Prop :=
  Lawful (step S) s₀ (fun t => Allowed k (reqs t)) T s

theorem traced (hrun : Run (step S) (pool k reqs) s₀ T c s) : Traced S reqs s₀ T s :=
  hrun.lawful fun _ => handlePXEBoot_obeys

variable {m : Machine} {n : String}

/-- If the address of a request is not found, there is no record for it, however it is spelled. -/
theorem Tidy.no_record (hs : Tidy S reqs s₀ s) (ho : Orderly S reqs s₀ T)
    (ha : parseMAC (reqs t).mac = some a) (hlacks : S.lacks s (reqs t).mac = true) (n : String) :
    ¬ Names S s a n := by
  rintro ⟨m, hm, hmac⟩
  refine S.lacks_ascii hlacks hm (isASCII_of_parseMAC hmac) (isASCII_of_parseMAC ha) ?_
  rcases hs.origin n m hm with hstart | ⟨t', ht'⟩
  · exact ho.spelling_start t a n m ha hstart hmac
  · rw [ht'] at hmac ⊢
    exact ho.spelling t' t a hmac ha

/-- An address without a record has none as long as no machine with that address is written. -/
theorem no_record_after (h : after (step S) s T = some s')
    (hT : ∀ e ∈ T, ∀ m, written e = some m → parseMAC m.mac ≠ some a) (hs : ∀ n, ¬ Names S s a n) :
    ∀ n, ¬ Names S s' a n := by
  induction T generalizing s with
  | nil =>
    obtain rfl : s = s' := Option.some.inj h
    exact hs
  | cons e T ih =>
    obtain ⟨s₁, h₁, h₂⟩ := after_cons_eq_some.mp h
    refine ih h₂ (fun x hx => hT x (List.mem_cons_of_mem _ hx)) ?_
    rcases step_cases h₁ with ⟨m, hm, -, hok, rfl⟩ | ⟨-, rfl⟩
    · rintro n ⟨m', hm', hmac⟩
      rcases record_upsert_cases hok hm' with ⟨-, heq⟩ | hold
      · exact hT e List.mem_cons_self m hm (heq ▸ hmac)
      · exact hs n ⟨m', hold, hmac⟩
    · exact hs

/-- **An undisturbed write**: there is no record for the address, however it is spelled. -/
theorem Traced.write {e : Event Res} (h : Traced S reqs s₀ A s) (ho : Orderly S reqs s₀ T)
    (hallowed : Allowed k (reqs e.tid) (localOf e.tid A) (.upsert m))
    (htidy : ∀ A₁ A₂ s₁, A = A₁ ++ A₂ → Traced S reqs s₀ A₁ s₁ → Tidy S reqs s₀ s₁)
    (hundisturbed : ∀ x ∈ since (madeBy e.tid looksUp) A, ∀ m', written x = some m' →
      ∀ a, parseMAC m.mac = some a → parseMAC m'.mac ≠ some a) :
    (∃ now, m = (reqs e.tid).machine k now) ∧
      ∀ a, parseMAC (reqs e.tid).mac = some a → ∀ n, ¬ Names S s a n := by
  obtain ⟨now, hcs, rfl⟩ := hallowed
  refine ⟨⟨now, rfl⟩, fun a ha => ?_⟩
  have hlocal : localOf e.tid A = [] ++ ⟨.getByMAC (reqs e.tid).mac, Except.error .notFound⟩ ::
      [⟨.now, now⟩] := hcs
  obtain ⟨A₁, x, hA, -, hx, -⟩ := exists_since (q := looksUp) hlocal rfl (by
    intro d hd
    obtain rfl := List.mem_singleton.mp hd
    rfl)
  -- there was no record at the lookup, and nothing of that address was written since
  rw [hA] at h
  obtain ⟨s₁, hA₁, hfrom⟩ := h.initial_part
  obtain ⟨s₂, hlook, hrest⟩ := after_cons_eq_some.mp hfrom
  obtain ⟨hreplies, rfl⟩ := step_lookup hx hlook
  refine no_record_after hrest (fun y hy m' hm' => hundisturbed y hy m' hm' a ha) ?_
  exact (htidy A₁ _ s₂ hA hA₁).no_record ho ha hreplies

/-- An undisturbed write keeps the records in order. -/
theorem Tidy.upsert (hs : Tidy S reqs s₀ s) (hmac : m.mac = (reqs t).mac)
    (hok : (S.upsert m s).1 = .ok ())
    (hnone : ∀ a, parseMAC (reqs t).mac = some a → ∀ n, ¬ Names S s a n) :
    Tidy S reqs s₀ (S.upsert m s).2 where
  origin n m' hm' := by
    rcases record_upsert_cases hok hm' with ⟨-, h⟩ | h
    · exact .inr ⟨t, h.trans hmac⟩
    · exact hs.origin n m' h
  single t' a n n' ha hn hn' := by
    -- two records for an address are both old, or both the one that was written
    have hcases : ∀ {n}, Names S (S.upsert m s).2 a n →
        (n = m.name ∧ parseMAC (reqs t).mac = some a) ∨ Names S s a n := by
      rintro n ⟨m', hm', hm'mac⟩
      rcases record_upsert_cases hok hm' with ⟨hn, h⟩ | h
      · exact .inl ⟨hn, by rw [← hmac, ← h, hm'mac]⟩
      · exact .inr ⟨m', h, hm'mac⟩
    rcases hcases hn with ⟨rfl, hreq⟩ | hold
    · rcases hcases hn' with ⟨rfl, -⟩ | hold'
      · rfl
      · exact absurd hold' (hnone a hreq n')
    · rcases hcases hn' with ⟨rfl, hreq⟩ | hold'
      · exact absurd hold (hnone a hreq n)
      · exact hs.single t' a n n' ha hold hold'

/-- **The records are in order at every point of an orderly run.** -/
theorem Orderly.tidy (ho : Orderly S reqs s₀ T) (h : Traced S reqs s₀ T s) : Tidy S reqs s₀ s := by
  have hgeneral : EachStep (Undisturbed S s₀) T → Tidy S reqs s₀ s :=
    h.invariant (I := fun T s => EachStep (Undisturbed S s₀) T → Tidy S reqs s₀ s)
      (fun _ => ⟨fun n m hm => .inl hm, fun t a n n' => ho.single_start t a n n'⟩) (by
        intro T e s s' hT hprev hallowed hstep _ heach
        have hs := hprev T [] s (by simp) hT heach.initial_part
        rcases step_cases hstep with ⟨m, hm, hcall, hok, rfl⟩ | ⟨-, rfl⟩
        · obtain ⟨hquiet, -⟩ := heach T e [] rfl m hm
          have hop : e.op = .upsert m := congrArg Call.op hcall
          obtain ⟨⟨now, rfl⟩, hnone⟩ := Traced.write hT ho (hop ▸ hallowed)
            (fun A₁ A₂ s₁ hA hA₁ => hprev A₁ A₂ s₁ hA hA₁ (hA ▸ heach.initial_part).initial_part) hquiet
          exact hs.upsert rfl hok hnone
        · exact hs)
  exact hgeneral ho.undisturbed

/-- **No step of an orderly run changes a record.** -/
theorem Orderly.unchanged (ho : Orderly S reqs s₀ T) {A B : List (Event Res)} {e : Event Res}
    {s₁ s₂ : S.State} (hT : T = A ++ e :: B) (hA : after (step S) s₀ A = some s₁)
    (hstep : step S e.op s₁ e.res = some s₂) (hm : S.record s₁ n = some m) :
    S.record s₂ n = some m := by
  rcases step_cases hstep with ⟨m', hm', -, -, rfl⟩ | ⟨-, rfl⟩
  · -- a write under a free name leaves the records that are there
    rw [S.upsert_other fun hn => ?_]
    · exact hm
    · rw [hn, (ho.undisturbed A e B hT m' hm').2 s₁ hA] at hm
      cases hm
  · exact hm

/-- A record stays to the end of an orderly run. -/
theorem Orderly.stays (ho : Orderly S reqs s₀ T) {B : List (Event Res)} {s₁ : S.State}
    (hT : T = A ++ B) (hA : after (step S) s₀ A = some s₁) (hB : after (step S) s₁ B = some s)
    (hm : S.record s₁ n = some m) : S.record s n = some m := by
  induction B generalizing A s₁ with
  | nil =>
    obtain rfl : s₁ = s := Option.some.inj hB
    exact hm
  | cons e B ih =>
    obtain ⟨s₂, hstep, hB⟩ := after_cons_eq_some.mp hB
    have hA' : after (step S) s₀ (A ++ [e]) = some s₂ :=
      after_append_eq_some.mpr ⟨s₁, hA, after_cons_eq_some.mpr ⟨s₂, hstep, rfl⟩⟩
    exact ih (by simpa using hT) hA' hB (ho.unchanged hT hA hstep hm)

/-- A request that was answered has a record for its address. -/
theorem Orderly.answered (ho : Orderly S reqs s₀ T) (hrun : Run (step S) (pool k reqs) s₀ T c s)
    (ha : parseMAC (reqs t).mac = some a) (hret : c t = .ret (.ok m)) : ∃ n, Names S s a n := by
  have hpath := hrun.path t
  rw [hret] at hpath
  rcases handlePXEBoot_obeys.of_path_ret hpath m rfl with hcs | ⟨now, hcs, rfl⟩
  · -- the record was found
    obtain ⟨A, e, B, rfl, rfl, hcall, -, -⟩ := exists_event_of_localOf
      (show localOf t T = [] ++ _ :: [] from hcs)
    obtain ⟨s₁, s₂, hA, hstep, hB⟩ := after_split hrun.after_eq
    obtain ⟨hfinds, rfl⟩ := step_lookup hcall hstep
    obtain ⟨n, hn⟩ := S.finds_record hfinds
    exact ⟨n, m, ho.stays rfl hA (after_cons_eq_some.mpr ⟨s₂, hstep, hB⟩) hn,
      parseMAC_of_lower ha (S.finds_mac hfinds)⟩
  · -- the record was written
    obtain ⟨A, e, B, rfl, rfl, hcall, -, -⟩ := exists_event_of_localOf hcs
    obtain ⟨s₁, s₂, hA, hstep, hB⟩ := after_split hrun.after_eq
    have hA' : after (step S) s₀ (A ++ [e]) = some s₂ :=
      after_append_eq_some.mpr ⟨s₁, hA, after_cons_eq_some.mpr ⟨s₂, hstep, rfl⟩⟩
    obtain ⟨m', hm', hmac⟩ := step_written hcall hstep
    exact ⟨_, m', ho.stays (by simp) hA' hB hm', hmac ▸ ha⟩

/-- **Discovery keeps the records in every orderly run.** -/
theorem discovery_keeps_records (S : MachineStore k) (reqs : ℕ → Request) (s₀ s : S.State)
    (T : List (Event Res)) (c : ℕ → Prog Res (Except Err Machine))
    (hrun : Run (step S) (pool k reqs) s₀ T c s) (ho : Orderly S reqs s₀ T) :
    Keeps S reqs s₀ T c s where
  unchanged A e B s₁ s₂ hT hA hstep n m hm := ho.unchanged hT hA hstep hm
  single t a m ha hret := by
    obtain ⟨n, hn⟩ := ho.answered hrun ha hret
    exact ⟨n, hn, fun n' hn' => (ho.tidy (traced hrun)).single t a n' n ha hn' hn⟩

end Runs

/-! ### Runs on the SQL store -/

/-- The SQL store. -/
abbrev sampleStore : MachineStore asciiCasing := sqlStore asciiCasing (Lib.sample [])

/-- The replies of a database that does not fail, at the epoch. -/
def sampleReplies : (o : Op) → Database → Res o
  | .getByMAC mac, db =>
    match db.machines.first fun _ r => rowMatches asciiCasing mac r with
    | some (n, r) => Except.ok (r.scan n)
    | none => Except.error .notFound
  | .upsert m, db => (Gomi.upsert (Lib.sample []) m db).1
  | .now, _ => (0 : ℤ)

/-- Client `0` sends the name of a machine that there is, in capitals; the others spell one address in
two ways. -/
def clashing : ℕ → Request
  | 0 => { mac := "52:54:00:00:00:02", clientHostname := "WEB" }
  | 1 => { mac := "52:54:00:00:00:03", clientHostname := "a" }
  | _ => { mac := "52-54-00-00-00-03", clientHostname := "b" }

/-- A database with a machine that is in use. -/
def webDatabase : Database :=
  Database.empty.setMachine "web" { hostname := "web", mac := "52:54:00:00:00:01"
                                    status := { phase := .ready } }

theorem clashing_eval :
    ((play (step sampleStore) ([0, 0, 0, 1, 1, 1, 2, 2, 2].map fun t => (t, sampleReplies))
      ([], pool asciiCasing clashing, webDatabase)).any fun x =>
        decide ((sampleStore.record x.2.2 "web").map (·.mac) = some "52:54:00:00:00:02") &&
        decide ((sampleStore.record x.2.2 "a").map (·.mac) = some "52:54:00:00:00:03") &&
        decide ((sampleStore.record x.2.2 "b").map (·.mac) = some "52-54-00-00-00-03") &&
        ((x.2.1 1).answer?.any fun a => a.toOption.isSome)) = true := by
  decide

/-- **Discovery takes over the record of a machine in use, and records one address twice.** -/
theorem discovery_clash : ∃ T c s,
    Run (step sampleStore) (pool asciiCasing clashing) webDatabase T c s ∧
      (sampleStore.record webDatabase "web").map (·.mac) = some "52:54:00:00:00:01" ∧
      (sampleStore.record s "web").map (·.mac) = some "52:54:00:00:00:02" ∧
      ¬ Keeps sampleStore clashing webDatabase T c s := by
  obtain ⟨T, c, s, hrun, hcheck⟩ := exists_run_of_play clashing_eval
  simp only [Bool.and_eq_true] at hcheck
  obtain ⟨⟨⟨hweb, ha⟩, hb⟩, hanswer⟩ := hcheck
  refine ⟨T, c, s, hrun, by decide, of_decide_eq_true hweb, fun hkeeps => ?_⟩
  obtain ⟨a, hret, ha'⟩ := (Option.any_eq_true _ _).mp hanswer
  cases a with
  | error => simp [Except.toOption] at ha'
  | ok m =>
    have hnames : ∀ {n mac : String} {address : List UInt8},
        (sampleStore.record s n).map (·.mac) = some mac → parseMAC mac = some address →
          Names sampleStore s address n := by
      intro n mac address hrec hparse
      obtain ⟨m', hm', rfl⟩ := Option.map_eq_some_iff.mp hrec
      exact ⟨m', hm', hparse⟩
    have hspelled : parseMAC "52:54:00:00:00:03" = parseMAC "52-54-00-00-00-03" := by decide
    obtain ⟨address, haddress⟩ : ∃ address, parseMAC "52-54-00-00-00-03" = some address :=
      ⟨_, rfl⟩
    obtain ⟨n, -, honly⟩ := hkeeps.single 1 address m (hspelled.trans haddress)
      (answer?_eq_some.mp hret)
    have hab := (honly "a" (hnames (of_decide_eq_true ha) (hspelled.trans haddress))).trans
      (honly "b" (hnames (of_decide_eq_true hb) haddress)).symm
    exact absurd hab (by decide)

/-- A machine that sends its address in two spellings and two host names, and another one. -/
def twice : ℕ → Request
  | 0 => { mac := "52:54:00:00:00:AB", clientHostname := "db" }
  | 1 => { mac := "52:54:00:00:00:ab", clientHostname := "other" }
  | _ => { mac := "52:54:00:00:00:cd", clientHostname := "web" }

/-- The check of `Gomi.Discovery.Undisturbed`. -/
def undisturbed (s₀ : Database) (A : List (Event Res)) (e : Event Res) : Bool :=
  (written e).all fun m => ((since (madeBy e.tid looksUp) A).all fun x =>
      (written x).all fun m' => decide (parseMAC m'.mac ≠ parseMAC m.mac)) &&
    (after (step sampleStore) s₀ A).all fun s => (sampleStore.record s m.name).isNone

/-- The other machine is written while the first request of the machine waits. -/
theorem twice_eval :
    ((play (step sampleStore) ([0, 2, 2, 2, 0, 0, 1].map fun t => (t, sampleReplies))
      ([], pool asciiCasing twice, Database.empty)).any fun x =>
        eachStep (undisturbed Database.empty) [] x.1 &&
          ((x.2.1 1).answer?.any fun a => a.toOption.any fun m => decide (m.name = "db"))) = true := by
  decide

theorem twice_spelling {t' : ℕ} (ha : parseMAC (twice t).mac = some a)
    (ha' : parseMAC (twice t').mac = some a) :
    asciiLower (twice t).mac = asciiLower (twice t').mac := by
  have hsame := ha.trans ha'.symm
  have hother : ∀ n, (twice (n + 2)).mac = "52:54:00:00:00:cd" := fun _ => rfl
  rcases t with _ | _ | t <;> rcases t' with _ | _ | t' <;> (try rw [hother] at hsame ⊢) <;>
    (try rw [hother] at hsame ⊢) <;> first | decide | exact absurd hsame (by decide)

/-- A machine that is discovered twice has one record, and the other machine does not matter. -/
theorem discovery_twice : ∃ T c s,
    Run (step sampleStore) (pool asciiCasing twice) Database.empty T c s ∧
      Keeps sampleStore twice Database.empty T c s := by
  obtain ⟨T, c, s, hrun, hcheck⟩ := exists_run_of_play twice_eval
  obtain ⟨heach, -⟩ := Bool.and_eq_true_iff.mp hcheck
  have hempty : ∀ n, sampleStore.record Database.empty n = none := by
    intro n
    have hnone : (∅ : Table MachineRow)[n]? = none := by simp
    exact congrArg (Option.map (MachineRow.scan n)) hnone
  refine ⟨T, c, s, hrun, discovery_keeps_records sampleStore twice Database.empty s T c hrun
    ⟨fun t t' a ha ha' => twice_spelling ha ha', fun t a n m _ hm => ?_,
      fun t a n n' _ hn => ?_, EachStep.of_eval ?_ heach⟩⟩
  · rw [hempty n] at hm
    cases hm
  · obtain ⟨m, hm, -⟩ := hn
    rw [hempty n] at hm
    cases hm
  · intro A e hok m hm
    rw [undisturbed, hm] at hok
    obtain ⟨hquiet, hfree⟩ := Bool.and_eq_true_iff.mp hok
    refine ⟨fun x hx m' hm' a ha heq => ?_, ?_⟩
    · have hother := List.all_eq_true.mp hquiet x hx
      rw [hm'] at hother
      exact of_decide_eq_true hother (heq.trans ha.symm)
    intro s hs
    rw [hs] at hfree
    exact Option.isNone_iff_eq_none.mp hfree

end Gomi.Discovery
