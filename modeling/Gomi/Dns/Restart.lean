import Gomi.Dns.Reload

/-!
# Dynamic records survive a restart

A file that the server has written is read back with every value normalized: trimmed, dropped if it
is then empty, put in canonical form if it is the target of a CNAME record. The values of the API
have passed the same function, and so have those of an earlier file; the addresses and targets of
an UPDATE message are in normal form by themselves. Only the texts of its TXT records are stored as
they come: a text with space at its ends comes back without it (`Gomi.Dns.txt_trimmed_by_restart`),
and an empty one does not come back.

If the messages add no such text (`Gomi.Dns.Call.Tidy`), a restart gives back every set with its time
to live and its values, and every query is answered as before, up to the order of the values
(`Gomi.Dns.records_survive_restart`).
-/

namespace Gomi.Dns

open Go

/-! ### What is kept -/

variable (lib : NameLib)

/-- A set that comes back as it is, on a server with the given default time to live. -/
structure RecordSet.Kept (ttl : UInt32) (rrType : UInt16) (set : RecordSet) : Prop where
  ttl_eq : set.ttl = 0 → ttl = 0
  nonempty : set.values ≠ []
  nodup : set.values.Nodup
  normal : ∀ v ∈ set.values, normalizeValue lib rrType v = some v

/-- All sets of the contents come back. -/
def Kept (ttl : UInt32) (f : Contents) : Prop :=
  ∀ name rrType set, f name rrType = some set → set.Kept lib ttl rrType

/-- A change that adds only what comes back. -/
def Change.Kept (ttl : UInt32) : Change → Prop
  | .addValue _ rrType ttl' value _ => (ttl' = 0 → ttl = 0) ∧ normalizeValue lib rrType value = some value
  | .put _ rrType ttl' values _ =>
    ttl' ≠ 0 ∧ values ≠ [] ∧ values.Nodup ∧ ∀ v ∈ values, normalizeValue lib rrType v = some v
  | .dropName _ | .dropSet _ _ | .dropValue _ _ _ _ => True

section Contents

variable {lib} {ttl ttl' : UInt32} {rrType : UInt16} {set set' : RecordSet} {value : String} {now : Time}
  {f : Contents} {c : Change}

theorem RecordSet.Kept.remove (h : set.Kept lib ttl rrType) (hremove : set.remove value now = some set') :
    set'.Kept lib ttl rrType := by
  simp only [RecordSet.remove] at hremove
  split at hremove
  · cases hremove
  · rename_i hne
    cases hremove
    exact ⟨h.ttl_eq, hne, h.nodup.filter _, fun v hv => h.normal v (List.mem_filter.mp hv).1⟩

theorem RecordSet.kept_add {x : Option RecordSet} (hx : ∀ set, x = some set → set.Kept lib ttl rrType)
    (httl : ttl' = 0 → ttl = 0) (hvalue : normalizeValue lib rrType value = some value) :
    (RecordSet.add x rrType ttl' value now).Kept lib ttl rrType := by
  have hold : (x.getD {}).values.Nodup ∧
      ∀ v ∈ (x.getD {}).values, normalizeValue lib rrType v = some v := by
    cases x with
    | none => exact ⟨List.nodup_nil, fun v hv => absurd hv List.not_mem_nil⟩
    | some set => exact ⟨(hx set rfl).nodup, (hx set rfl).normal⟩
  refine ⟨fun h0 => ?_, ?_, ?_, fun v hv => ?_⟩
  · simp only [RecordSet.add] at h0
    split at h0
    · exact httl h0
    · exact absurd h0 ‹_›
  · simp only [RecordSet.add]
    split
    · exact List.cons_ne_nil _ _
    · intro hnil
      exact absurd (mem_addDistinct.mpr (Or.inr rfl)) (by rw [hnil]; exact List.not_mem_nil)
  · simp only [RecordSet.add]
    split
    · exact List.nodup_singleton _
    · exact nodup_addDistinct hold.1 value
  · simp only [RecordSet.add] at hv
    split at hv
    · rw [List.mem_singleton.mp hv, hvalue]
    · rcases mem_addDistinct.mp hv with hv | rfl
      · exact hold.2 v hv
      · exact hvalue

theorem Kept.effect (h : Kept lib ttl f) (hc : c.Kept lib ttl) : Kept lib ttl (c.effect f) := by
  intro name rrType set hset
  rw [Change.effect] at hset
  split at hset
  · rename_i hconcerns
    cases c with
    | dropName n | dropSet n t => cases hset
    | dropValue =>
      obtain ⟨old, hold, hremove⟩ := Option.bind_eq_some_iff.mp hset
      exact (h name rrType old hold).remove hremove
    | addValue n t =>
      obtain ⟨rfl, rfl⟩ := hconcerns
      cases hset
      exact RecordSet.kept_add (h n t) hc.1 hc.2
    | put =>
      obtain ⟨rfl, rfl⟩ := hconcerns
      cases hset
      exact ⟨fun h0 => absurd h0 hc.1, hc.2.1, hc.2.2.1, hc.2.2.2⟩
  · exact h name rrType set hset

end Contents

/-! ### Runs -/

/-- The text of a record, if it is a TXT record, is not empty and has no space at its ends. -/
def RR.Tidy (rr : RR) : Prop :=
  match rr.data with
  | .txt strings => String.join strings ≠ "" ∧ trimSpace (String.join strings) = String.join strings
  | _ => True

instance (rr : RR) : Decidable rr.Tidy := by
  rw [RR.Tidy]
  split <;> infer_instance

/-- **What is asked of the callers**: the TXT records that a message adds are tidy. -/
def Call.Tidy : Call → Prop
  | .update msg => ∀ rr ∈ msg.updates, rr.cls = classINET → rr.Tidy
  | _ => True

section Runs

variable {lib} {s s₀ s' : EmbeddedServer} {c : Call} {env : Surroundings} {ttl : UInt32}

/-- The values of tidy records are in normal form. -/
theorem normalizeValue_of_tidy {rr : RR} {value : String} (htidy : rr.Tidy)
    (h : dynamicRecordValue lib rr = some value) :
    normalizeValue lib rr.rrType value = some value := by
  rw [normalizeValue_eq_some]
  rw [RR.Tidy] at htidy
  rw [dynamicRecordValue] at h
  rw [RR.rrType]
  cases hdata : rr.data with
  | a =>
    rw [hdata] at h
    obtain ⟨ip, -, rfl⟩ := Option.map_eq_some_iff.mp h
    simp only [trimSpace_ipv4Text]
    exact ⟨ipv4Text_ne_empty ip, (if_neg (by decide)).symm⟩
  | txt =>
    rw [hdata] at h htidy
    cases h
    obtain ⟨hne, htrim⟩ := htidy
    simp only [htrim]
    exact ⟨hne, (if_neg (by decide)).symm⟩
  | cname =>
    rw [hdata] at h
    obtain ⟨htrim, hne⟩ := trimSpace_of_canonicalFQDN h
    simp only [htrim, canonicalFQDN_of_eq_some h]
    exact ⟨hne, (if_pos trivial).symm⟩
  | ns target | soa data | other rrType =>
    rw [hdata] at h
    cases h

theorem kept_of_requested (htidy : c.Tidy) {a : Change} (h : a ∈ accepted (requested lib s c env)) :
    a.Kept lib s.ttl := by
  rcases requested_cases h with ⟨n, rfl⟩ | ⟨n, t, rfl⟩ | ⟨n, t, v, now, rfl⟩ |
    ⟨msg, rr, name, value, now, rfl, hrr, -, hcls, hvalue, rfl⟩ |
    ⟨record, name, rrType, ttl, values, -, hshape, -, rfl⟩
  · trivial
  · trivial
  · trivial
  · refine ⟨fun h0 => ?_, normalizeValue_of_tidy (htidy rr hrr hcls) hvalue⟩
    split at h0
    · exact h0
    · exact absurd h0 ‹_›
  · obtain ⟨-, -, httl, rfl, hne, -, -⟩ := validateDynamicRecordShape_eq_ok hshape
    refine ⟨httl, hne, nodup_normalizeDynamicRecordValues, fun v hv => ?_⟩
    obtain ⟨u, -, hu⟩ := mem_normalizeDynamicRecordValues.mp hv
    exact normalizeValue_of_eq_some hu

theorem kept_readEntries {modTime : Time} {entries : List Entry} :
    Kept lib ttl (readEntries lib ttl modTime entries).get := by
  intro name rrType set h
  obtain ⟨entry, -, hread⟩ := mem_entries_of_get_readEntries h
  obtain ⟨-, -, hvalues, hne, httl⟩ := read_eq_some hread
  refine ⟨fun h0 => ?_, hne, ?_, fun v hv => ?_⟩
  · rw [httl] at h0
    split at h0
    · exact h0
    · exact absurd h0 ‹_›
  · rw [hvalues]
    exact nodup_normalizeDynamicRecordValues
  · rw [hvalues] at hv
    obtain ⟨u, -, hu⟩ := mem_normalizeDynamicRecordValues.mp hv
    exact normalizeValue_of_eq_some hu

/-- What every step keeps: the configuration, and that all sets come back. -/
structure Restartable (lib : NameLib) (path : String) (s : EmbeddedServer) : Prop where
  path_eq : s.dynamicRecordsPath = path
  formed : Formed lib s.dynamicRecords.get
  kept : Kept lib s.ttl s.dynamicRecords.get

variable {path : String}

theorem Restartable.ensure (h : Restartable lib path s)
    (hload : s.ensureDynamicRecordsLoaded lib env = some s₀) : Restartable lib path s₀ := by
  have hformed := h.formed.ensure hload
  rcases ensureDynamicRecordsLoaded_eq_some hload with ⟨rfl, -⟩ | ⟨-, rfl | ⟨entries, -, rfl⟩⟩
  · exact h
  · exact ⟨h.path_eq, hformed, h.kept⟩
  · exact ⟨h.path_eq, hformed, kept_readEntries⟩

theorem kept_empty : Kept lib ttl (∅ : DynamicRecords).get := by
  intro name rrType set h
  cases h

theorem Restartable.step (h : Restartable lib path s)
    (hstep : Dns.step lib s (c, env) = some s') (htidy : c.Tidy) : Restartable lib path s' := by
  have hformed := h.formed.step hstep
  cases step_cases hstep with
  | idle => exact h
  | restarted => exact ⟨h.path_eq, hformed, kept_empty⟩
  | listed hload => exact h.ensure hload
  | synced inv hc hload =>
    have h₀ := h.ensure hload
    exact ⟨h₀.path_eq, hformed, h₀.kept⟩
  | changed hc hload hget hout =>
    have h₀ := h.ensure hload
    obtain ⟨hdyn, -, -, httl, hpath, -⟩ := hout.memory
    refine ⟨hpath.trans h₀.path_eq, hformed, ?_⟩
    rw [hdyn, httl, hget]
    exact effects_induction (fun a ha f hf => hf.effect (kept_of_requested htidy ha)) h₀.kept

/-! ### The restart -/

/-- Two sets with the same time to live and the same values, up to their order. -/
def SameSet : Option RecordSet → Option RecordSet → Prop
  | some set, some set' => set.ttl = set'.ttl ∧ set.values.Perm set'.values
  | none, none => True
  | _, _ => False

/-- A set in normal form comes back. -/
theorem RecordSet.Kept.reread {rrType : UInt16} {set : RecordSet} (h : set.Kept lib ttl rrType)
    (modTime : Time) : SameSet (some set) (set.reread lib ttl modTime rrType) := by
  have hsort := sortStrings_perm set.values
  have hperm : (normalizeDynamicRecordValues lib rrType (sortStrings set.values)).Perm set.values := by
    refine (List.perm_ext_iff_of_nodup nodup_normalizeDynamicRecordValues h.nodup).mpr fun v => ?_
    simp only [mem_normalizeDynamicRecordValues, hsort.mem_iff]
    constructor
    · rintro ⟨u, hu, huv⟩
      obtain rfl : u = v := Option.some.inj ((h.normal u hu).symm.trans huv)
      exact hu
    · exact fun hv => ⟨v, hv, h.normal v hv⟩
  have hne : normalizeDynamicRecordValues lib rrType (sortStrings set.values) ≠ [] := by
    intro hnil
    rw [hnil] at hperm
    exact h.nonempty (List.nil_perm.mp hperm)
  rw [RecordSet.reread, if_neg hne]
  refine ⟨?_, hperm.symm⟩
  show set.ttl = if set.ttl = 0 then ttl else set.ttl
  split
  · rename_i h0
    rw [h0, h.ttl_eq h0]
  · rfl

/-- A server with the same sets gives the same answers, up to their order. -/
theorem queryRecords_perm (m : DynamicRecords)
    (hsame : ∀ name rrType, SameSet (s.dynamicRecords.get name rrType) (m.get name rrType))
    (zoneOrder : List String) {typeOrder typeOrder' : List UInt16} (horder : typeOrder.Perm typeOrder')
    (now : Time) (name : String) (qType : UInt16) :
    (s.queryRecords lib zoneOrder typeOrder now name qType).1.Perm
      (({ s with dynamicRecords := m } : EmbeddedServer).queryRecords lib zoneOrder typeOrder' now name
        qType).1 ∧
    (s.queryRecords lib zoneOrder typeOrder now name qType).2 =
      (({ s with dynamicRecords := m } : EmbeddedServer).queryRecords lib zoneOrder typeOrder' now name
        qType).2 := by
  have hanswers : ∀ rrType, (s.dynamicAnswers lib name qType rrType).Perm
      (EmbeddedServer.dynamicAnswers lib { s with dynamicRecords := m } name qType rrType) := by
    intro rrType
    have h := hsame name rrType
    rw [EmbeddedServer.dynamicAnswers, EmbeddedServer.dynamicAnswers]
    split
    · exact List.Perm.nil
    · dsimp only
      cases hget : s.dynamicRecords.get name rrType with
      | none => cases hget' : m.get name rrType with
        | none => exact List.Perm.nil
        | some =>
          rw [hget, hget'] at h
          exact h.elim
      | some => cases hget' : m.get name rrType with
        | none =>
          rw [hget, hget'] at h
          exact h.elim
        | some =>
          rw [hget, hget'] at h
          simp only [dynamicRRs, h.1]
          exact h.2.filterMap _
  have hknown : s.dynamicRecords.rows.contains name = m.rows.contains name := by
    rw [Bool.eq_iff_iff, Std.ExtTreeMap.contains_iff_mem, Std.ExtTreeMap.contains_iff_mem,
      TwoLevel.mem_rows_iff, TwoLevel.mem_rows_iff]
    refine exists_congr fun rrType => ?_
    have h := hsame name rrType
    cases hget : s.dynamicRecords.get name rrType with
    | none => cases hget' : m.get name rrType with
      | none => simp
      | some =>
        rw [hget, hget'] at h
        exact h.elim
    | some => cases hget' : m.get name rrType with
      | none =>
        rw [hget, hget'] at h
        exact h.elim
      | some => simp
  constructor
  · exact (List.Perm.refl _).append (horder.flatMap fun rrType _ => hanswers rrType)
  · show (s.records.contains name || _ || s.dynamicRecords.rows.contains name) = _
    rw [hknown]
    rfl

/-- **The records survive a restart.** After any calls with tidy TXT records, the server writes its
file and a new process reads it: every set is back, with its time to live and its values, and on the
inventory of before every query has the answers of before, up to the order of the values. -/
theorem records_survive_restart {file : File} {calls : List (Call × Surroundings)}
    (env₁ env₂ : Surroundings) (hpath : path ≠ "") (hwrite : env₁.writable = true) (hread : env₂.readable = true)
    (hrun : Steps (Under (Graph (step lib)) fun _ c => c.1.Tidy)
      { ttl, dynamicRecordsPath := path, file } calls s) :
    ∃ s₁ s₂, s.persistDynamicRecords env₁ = some s₁ ∧
      s₁.restart.ensureDynamicRecordsLoaded lib env₂ = some s₂ ∧
      (∀ name rrType, SameSet (s.dynamicRecords.get name rrType) (s₂.dynamicRecords.get name rrType)) ∧
      ∀ (zoneOrder : List String) (typeOrder typeOrder' : List UInt16), typeOrder.Perm typeOrder' →
        ∀ now name qType,
          (s.queryRecords lib zoneOrder typeOrder now name qType).1.Perm
            (({ s with dynamicRecords := s₂.dynamicRecords } : EmbeddedServer).queryRecords lib
              zoneOrder typeOrder' now name qType).1 ∧
          (s.queryRecords lib zoneOrder typeOrder now name qType).2 =
            (({ s with dynamicRecords := s₂.dynamicRecords } : EmbeddedServer).queryRecords lib
              zoneOrder typeOrder' now name qType).2 := by
  have hinit : Restartable lib path { ttl, dynamicRecordsPath := path, file } :=
    ⟨rfl, formed_empty, kept_empty⟩
  have hinv : Restartable lib path s :=
    hrun.invariant (I := Restartable lib path) (fun hstep hs => hs.step hstep.1 hstep.2) hinit
  have hpath' : ¬s.dynamicRecordsPath = "" := by
    rw [hinv.path_eq]
    exact hpath
  let s₁ : EmbeddedServer := { s with file := .records (dynamicRecordEntries s.dynamicRecords) }
  have hsave : s.persistDynamicRecords env₁ = some s₁ := (if_neg hpath').trans (if_pos hwrite)
  have hload : s₁.restart.ensureDynamicRecordsLoaded lib env₂ =
      some { s₁.restart with
        dynamicRecords := readEntries lib s.ttl env₂.modTime (dynamicRecordEntries s.dynamicRecords)
        dynamicLoaded := true } := by
    have hfile : s₁.restart.loadDynamicRecords lib env₂ = some { s₁.restart with
        dynamicRecords :=
          readEntries lib s.ttl env₂.modTime (dynamicRecordEntries s.dynamicRecords) } :=
      (if_neg hpath').trans (if_pos hread)
    exact congrArg (Option.map fun s : EmbeddedServer => { s with dynamicLoaded := true }) hfile
  have hsame : ∀ name rrType, SameSet (s.dynamicRecords.get name rrType)
      ((readEntries lib s.ttl env₂.modTime (dynamicRecordEntries s.dynamicRecords)).get name
        rrType) := by
    intro name rrType
    rw [get_readEntries hinv.formed]
    cases hget : s.dynamicRecords.get name rrType with
    | none => trivial
    | some set => exact (hinv.kept name rrType set hget).reread env₂.modTime
  refine ⟨s₁, _, hsave, hload, hsame, fun zoneOrder typeOrder typeOrder' horder now name qType => ?_⟩
  exact queryRecords_perm _ hsame zoneOrder horder now name qType

end Runs

instance : (c : Call) → Decidable c.Tidy
  | .update msg => inferInstanceAs (Decidable (∀ rr ∈ msg.updates, rr.cls = classINET → rr.Tidy))
  | .sync _ | .list | .upsert _ | .delete _ _ | .restart => isTrue trivial

/-- Two TXT values and an address, added by a message. -/
theorem records_survive_restart_txt :
    ∃ (calls : List (Call × Surroundings)) (s s₁ s₂ : EmbeddedServer),
      Steps (Under (Graph (step asciiNames)) fun _ c => c.1.Tidy) sampleServer calls s ∧
      s.dynamicRecords.get "host.example.com." typeTXT ≠ none ∧
      s.persistDynamicRecords { now := 3000000000 } = some s₁ ∧
      s₁.restart.ensureDynamicRecordsLoaded asciiNames { now := 4000000000 } = some s₂ ∧
      ∀ name rrType, SameSet (s.dynamicRecords.get name rrType) (s₂.dynamicRecords.get name rrType) := by
  have heval : ((executeUnder (step asciiNames) (fun _ c => decide c.1.Tidy) sampleServer
      [(.sync (some sampleInventory), { now := 1000000000 }),
        (sampleUpdate [sampleRR "host.example.com." classINET (.txt ["v=", "spf1"]),
          sampleRR "host.example.com." classINET (.txt ["a b"]),
          sampleRR "host.example.com." classINET (.a (some 0x0a000001))], { now := 2000000000 })]).any
        fun s => (s.dynamicRecords.get "host.example.com." typeTXT).isSome) = true := by
    decide
  obtain ⟨s, hrun, hget⟩ := (Option.any_eq_true _ _).mp heval
  have hsteps := steps_under_of_execute hrun
  obtain ⟨s₁, s₂, hsave, hload, hsame, -⟩ := records_survive_restart { now := 3000000000 }
    { now := 4000000000 } (by decide) rfl rfl hsteps
  exact ⟨_, s, s₁, s₂, hsteps, by simpa [Option.isSome_iff_ne_none] using hget, hsave, hload, hsame⟩

/-- **A text that a restart trims.** -/
theorem txt_trimmed_by_restart :
    ∃ (calls : List (Call × Surroundings)) (s s₁ s₂ : EmbeddedServer),
      Steps (Graph (step asciiNames)) sampleServer calls s ∧
      s.persistDynamicRecords { now := 3000000000 } = some s₁ ∧
      s₁.restart.ensureDynamicRecordsLoaded asciiNames { now := 4000000000 } = some s₂ ∧
      (s.dynamicRecords.get "host.example.com." typeTXT).map (·.values) = some [" x "] ∧
      (s₂.dynamicRecords.get "host.example.com." typeTXT).map (·.values) = some ["x"] ∧
      ¬SameSet (s.dynamicRecords.get "host.example.com." typeTXT)
        (s₂.dynamicRecords.get "host.example.com." typeTXT) := by
  have heval : ((execute (step asciiNames) sampleServer
      [(.sync (some sampleInventory), { now := 1000000000 }),
        (sampleUpdate [sampleRR "host.example.com." classINET (.txt [" x "])],
          { now := 2000000000 })]).any fun s =>
        (s.persistDynamicRecords { now := 3000000000 }).any fun s₁ =>
          (s₁.restart.ensureDynamicRecordsLoaded asciiNames { now := 4000000000 }).any fun s₂ =>
            (s.dynamicRecords.get "host.example.com." typeTXT).map (·.values) = some [" x "] &&
            (s₂.dynamicRecords.get "host.example.com." typeTXT).map (·.values) = some ["x"]) = true := by
    decide
  simp only [Option.any_eq_true, Bool.and_eq_true, decide_eq_true_eq] at heval
  obtain ⟨s, hrun, s₁, hsave, s₂, hload, hbefore, hafter⟩ := heval
  refine ⟨_, s, s₁, s₂, steps_graph.mpr hrun, hsave, hload, hbefore, hafter, fun hsame => ?_⟩
  obtain ⟨set, hset, hvalues⟩ := Option.map_eq_some_iff.mp hbefore
  obtain ⟨set', hset', hvalues'⟩ := Option.map_eq_some_iff.mp hafter
  rw [hset, hset'] at hsame
  obtain ⟨-, hperm⟩ := hsame
  rw [hvalues, hvalues'] at hperm
  exact absurd hperm (by decide)

end Gomi.Dns
