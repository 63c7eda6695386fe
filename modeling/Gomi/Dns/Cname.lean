import Gomi.Dns.Reload

/-!
# A CNAME record is alone at its name

A name with a CNAME record may have no other record, and only one CNAME value
(`Gomi.Dns.Alone`). `UpsertDynamicRecord` checks that. The other ways in do not: an UPDATE message
adds an A record next to a CNAME record (`Gomi.Dns.address_next_to_cname`) or the other way round,
a `Sync` gives an address to a name that has a CNAME record, and a file is taken as it is.

If these callers keep to what the API checks (`Gomi.Dns.Separate`) and the first file does, every
CNAME record is alone in every state of the server (`Gomi.Dns.cname_alone`). The files that the
server writes need no condition: they are read back with no more sets and values than it had.
-/

namespace Gomi.Dns

open Go

/-! ### Contents -/

/-- **Every CNAME record is alone at its name**: the name has no address of the inventory, no dynamic A
or TXT record and at most one CNAME value. -/
def Alone (static : String → Bool) (f : Contents) : Prop :=
  ∀ name set, f name typeCNAME = some set →
    static name = false ∧ f name typeA = none ∧ f name typeTXT = none ∧ set.values.length ≤ 1

/-- There is room for a set of a type at a name. -/
def Room (static : String → Bool) (f : Contents) (name : String) (rrType : UInt16) : Prop :=
  if rrType = typeCNAME then static name = false ∧ f name typeA = none ∧ f name typeTXT = none
  else f name typeCNAME = none

instance (static : String → Bool) (f : Contents) (name : String) (rrType : UInt16) :
    Decidable (Room static f name rrType) :=
  inferInstanceAs (Decidable (if rrType = typeCNAME then _ else _))

/-- There is room for what a change adds. -/
def Change.Placed (static : String → Bool) (f : Contents) : Change → Prop
  | .addValue name rrType _ _ _ => Room static f name rrType
  | .put name rrType _ values _ =>
    Room static f name rrType ∧ (rrType = typeCNAME → values.length ≤ 1)
  | .dropName _ | .dropSet _ _ | .dropValue _ _ _ _ => True

instance (static : String → Bool) (f : Contents) : (c : Change) → Decidable (c.Placed static f)
  | .addValue name rrType _ _ _ => inferInstanceAs (Decidable (Room static f name rrType))
  | .put .. => inferInstanceAs (Decidable (_ ∧ _))
  | .dropName _ | .dropSet _ _ | .dropValue _ _ _ _ => isTrue trivial

/-- There is room for each of a list of changes, after those before it. -/
def PlacedAll (static : String → Bool) : List Change → Contents → Prop
  | [], _ => True
  | c :: cs, f => c.Placed static f ∧ PlacedAll static cs (c.effect f)

instance decidablePlacedAll (static : String → Bool) :
    (cs : List Change) → (f : Contents) → Decidable (PlacedAll static cs f)
  | [], _ => isTrue trivial
  | c :: cs, f =>
    have := decidablePlacedAll static cs (c.effect f)
    inferInstanceAs (Decidable (_ ∧ _))

section Contents

variable {static static' : String → Bool} {f g : Contents} {c : Change} {name : String} {rrType : UInt16}

/-- With fewer sets and values, a CNAME record is still alone. -/
theorem Alone.mono (h : Alone static f) (hstatic : ∀ n, static' n = true → static n = true)
    (hsub : ∀ n t set', g n t = some set' → ∃ set, f n t = some set ∧
      set'.values.length ≤ set.values.length) : Alone static' g := by
  intro n set' hset'
  obtain ⟨set, hset, hlen⟩ := hsub n typeCNAME set' hset'
  obtain ⟨hn, ha, htxt, hone⟩ := h n set hset
  have hnone : ∀ t, f n t = none → g n t = none := by
    intro t ht
    refine Option.eq_none_iff_forall_ne_some.mpr fun x hx => ?_
    obtain ⟨y, hy, -⟩ := hsub n t x hx
    cases ht.symm.trans hy
  refine ⟨?_, hnone _ ha, hnone _ htxt, hlen.trans hone⟩
  by_contra hstat
  exact absurd (hstatic n (by simpa using hstat)) (by simp [hn])

/-- A set is added where there is room. -/
theorem Alone.add (h : Alone static f) (new : RecordSet) (hroom : Room static f name rrType)
    (hnew : rrType = typeCNAME → new.values.length ≤ 1)
    (hg : ∀ n t, g n t = if name = n ∧ rrType = t then some new else f n t) : Alone static g := by
  intro n set hset
  rw [hg] at hset
  rw [Room] at hroom
  split at hset
  · rename_i heq
    obtain ⟨rfl, rfl⟩ := heq
    cases hset
    rw [if_pos rfl] at hroom
    refine ⟨hroom.1, ?_, ?_, hnew rfl⟩
    · rw [hg, if_neg (fun h => absurd h.2 (by decide)), hroom.2.1]
    · rw [hg, if_neg (fun h => absurd h.2 (by decide)), hroom.2.2]
  · obtain ⟨hn, ha, htxt, hone⟩ := h n set hset
    -- the new set is not at the name of a CNAME record
    have hother : ∀ t, t ≠ typeCNAME → f n t = none → g n t = none := by
      intro t ht hft
      rw [hg]
      split
      · rename_i heq
        obtain ⟨rfl, rfl⟩ := heq
        rw [if_neg ht, hset] at hroom
        cases hroom
      · exact hft
    exact ⟨hn, hother _ (by decide) ha, hother _ (by decide) htxt, hone⟩

/-- **A change for which there is room.** -/
theorem Alone.effect (h : Alone static f) (hc : c.Placed static f) : Alone static (c.effect f) := by
  have hdrop : (∀ n t set', c.effect f n t = some set' → ∃ set, f n t = some set ∧
      set'.values.length ≤ set.values.length) → Alone static (c.effect f) := fun hsub =>
    h.mono (fun _ hn => hn) hsub
  cases c with
  | dropName name | dropSet name rrType =>
    refine hdrop fun n t set' hset' => ?_
    rw [Change.effect] at hset'
    split at hset'
    · cases hset'
    · exact ⟨set', hset', le_rfl⟩
  | dropValue =>
    refine hdrop fun n t set' hset' => ?_
    rw [Change.effect] at hset'
    split at hset'
    · obtain ⟨set, hset, hremove⟩ := Option.bind_eq_some_iff.mp hset'
      refine ⟨set, hset, ?_⟩
      simp only [RecordSet.remove] at hremove
      split at hremove
      · cases hremove
      · cases hremove
        exact List.length_filter_le _ _
    · exact ⟨set', hset', le_rfl⟩
  | addValue name rrType ttl value now =>
    refine h.add (RecordSet.add (f name rrType) rrType ttl value now) hc (fun ht => ?_) fun n t => ?_
    · simp [RecordSet.add, ht]
    · rw [Change.effect]
      by_cases heq : name = n ∧ rrType = t
      · obtain ⟨rfl, rfl⟩ := heq
        rfl
      · rw [if_neg heq, if_neg (show ¬Change.Concerns n t (.addValue name rrType ttl value now) from heq)]
  | put name rrType ttl values now =>
    refine h.add (RecordSet.replacement (f name rrType) ttl values now) hc.1 hc.2 fun n t => ?_
    rw [Change.effect]
    by_cases heq : name = n ∧ rrType = t
    · obtain ⟨rfl, rfl⟩ := heq
      rfl
    · rw [if_neg heq, if_neg (show ¬Change.Concerns n t (.put name rrType ttl values now) from heq)]

theorem Alone.effects {cs : List Change} (h : Alone static f) (hcs : PlacedAll static cs f) :
    Alone static (effects cs f) := by
  induction cs generalizing f with
  | nil => exact h
  | cons c cs ih =>
    rw [effects_cons]
    exact ih (h.effect hcs.1) hcs.2

end Contents

/-! ### Runs -/

/-- Whether the inventory has an address for a name. -/
def EmbeddedServer.static (s : EmbeddedServer) (name : String) : Bool :=
  !(s.records.getD name []).isEmpty

variable (lib : NameLib)

/-- **What is asked of the callers**, of the server with its records loaded: an UPDATE message adds
records only where the API would, and the inventory gives no address to a name with a CNAME
record. -/
def Separate (s : EmbeddedServer) (c : Call × Surroundings) : Prop :=
  ∀ s₀ ∈ s.ensureDynamicRecordsLoaded lib c.2, match c.1 with
    | .sync (some inv) =>
      ∀ kv ∈ (collect lib inv).records.toList, s₀.dynamicRecords.get kv.1 typeCNAME = none
    | .update msg =>
      PlacedAll s₀.static (accepted (requested lib s₀ (.update msg) c.2)) s₀.dynamicRecords.get
    | _ => True

instance (s : EmbeddedServer) : (c : Call × Surroundings) → Decidable (Separate lib s c)
  | (.sync (some _), env) | (.update _, env) =>
    inferInstanceAs (Decidable (∀ s₀ ∈ s.ensureDynamicRecordsLoaded lib env, _))
  | (.sync none, _) | (.list, _) | (.upsert _, _) | (.delete _ _, _) | (.restart, _) =>
    isTrue fun _ _ => trivial

/-- The file of a server, if it has records, gives CNAME records that are alone. -/
def EmbeddedServer.FileAlone (s : EmbeddedServer) : Prop :=
  ∀ entries, s.file = .records entries → ∀ modTime,
    Alone (fun _ => false) (readEntries lib s.ttl modTime entries).get

/-- What every step keeps. -/
structure Exclusive (s : EmbeddedServer) : Prop where
  formed : Formed lib s.dynamicRecords.get
  alone : Alone s.static s.dynamicRecords.get
  /-- The first `Sync` loads the file before it has records. -/
  unsynced : s.dynamicLoaded = false → s.records = ∅
  file : s.FileAlone lib

section Runs

variable {lib} {s s₀ s' : EmbeddedServer} {c : Call} {env : Surroundings}

theorem Exclusive.ensure (h : Exclusive lib s)
    (hload : s.ensureDynamicRecordsLoaded lib env = some s₀) : Exclusive lib s₀ := by
  have hformed := h.formed.ensure hload
  rcases ensureDynamicRecordsLoaded_eq_some hload with ⟨rfl, -⟩ | ⟨hun, rfl | ⟨entries, hfile, rfl⟩⟩
  · exact h
  · exact ⟨hformed, h.alone, (by simp), h.file⟩
  · refine ⟨hformed, ?_, (by simp), h.file⟩
    refine (h.file entries hfile env.modTime).mono (fun n hn => ?_) fun n t set hset => ⟨set, hset, le_rfl⟩
    have hfalse : s.static n = false := by simp [EmbeddedServer.static, h.unsynced hun]
    cases hfalse.symm.trans hn

/-- The check of the API is that there is room. -/
theorem room_of_placement {name : String} {rrType : UInt16}
    (h : s.validateDynamicRecordPlacement name rrType = .ok ()) :
    Room s.static s.dynamicRecords.get name rrType := by
  have hconflict : s.cnameConflict name rrType = false := by
    simp only [EmbeddedServer.validateDynamicRecordPlacement] at h
    split at h
    · cases h
    · split at h
      · cases h
      · rename_i hfalse
        simpa using hfalse
  rw [EmbeddedServer.cnameConflict] at hconflict
  rw [Room]
  split at hconflict
  · rename_i htype
    rw [if_pos htype]
    obtain ⟨hstatic, hkeys⟩ := Bool.or_eq_false_iff.mp hconflict
    have hnone : ∀ t, t ≠ typeCNAME → s.dynamicRecords.get name t = none := by
      intro t ht
      by_contra hsome
      have hmem : t ∈ (s.dynamicRecords.row name).keys :=
        Std.ExtTreeMap.mem_keys.mpr (Std.ExtTreeMap.mem_iff_isSome_getElem?.mpr
          (Option.isSome_iff_ne_none.mpr hsome))
      have hall := List.any_eq_false.mp hkeys t hmem
      exact ht (by simpa using hall)
    exact ⟨hstatic, hnone _ (by decide), hnone _ (by decide)⟩
  · rename_i htype
    rw [if_neg htype]
    simpa using hconflict

/-- There is room for all that a call changes. -/
theorem placedAll_of_separate (hload : s.ensureDynamicRecordsLoaded lib env = some s₀)
    (hsep : Separate lib s (c, env)) :
    PlacedAll s₀.static (accepted (requested lib s₀ c env)) s₀.dynamicRecords.get := by
  cases c with
  | sync => trivial
  | list => trivial
  | restart => trivial
  | update => exact hsep s₀ hload
  | delete =>
    simp only [requested]
    split <;> simp [accepted, PlacedAll, Change.Placed]
  | upsert record =>
    simp only [requested]
    split
    · trivial
    · rename_i name rrType ttl values hshape
      split
      · trivial
      · rename_i hplace
        obtain ⟨-, -, -, -, -, hone, -⟩ := validateDynamicRecordShape_eq_ok hshape
        exact ⟨⟨room_of_placement hplace, fun ht => (hone ht).le⟩, trivial⟩

/-- **Every step keeps CNAME records alone.** -/
theorem Exclusive.step (h : Exclusive lib s) (hstep : Dns.step lib s (c, env) = some s')
    (hsep : Separate lib s (c, env)) : Exclusive lib s' := by
  have hformed := h.formed.step hstep
  cases step_cases hstep with
  | idle => exact h
  | restarted =>
    refine ⟨hformed, fun n set hset => ?_, fun _ => rfl, h.file⟩
    cases hset
  | listed hload => exact h.ensure hload
  | synced inv hc hload =>
    subst hc
    have h₀ := h.ensure hload
    refine ⟨hformed, fun n set hset => ?_, fun hf => ?_, h₀.file⟩
    · obtain ⟨-, ha, htxt, hone⟩ := h₀.alone n set hset
      refine ⟨?_, ha, htxt, hone⟩
      by_contra hstatic
      -- the name is among those of the inventory
      have hne : (collect lib inv).records.getD n [] ≠ [] := by
        simpa [EmbeddedServer.static] using hstatic
      obtain ⟨ips, hips⟩ : ∃ ips, (collect lib inv).records[n]? = some ips := by
        cases hget : (collect lib inv).records[n]? with
        | some ips => exact ⟨ips, rfl⟩
        | none =>
          rw [Std.ExtTreeMap.getD_eq_getD_getElem?, hget] at hne
          exact absurd rfl hne
      have hnone := hsep _ hload (n, ips) (Table.mem_toList.mpr hips)
      cases hnone.symm.trans hset
    · exact absurd ((loaded_of_ensure hload).symm.trans hf) (by simp)
  | changed hc hload hget hout =>
    have h₀ := h.ensure hload
    have hm := h₀.alone.effects (placedAll_of_separate hload hsep)
    rw [← hget] at hm
    obtain ⟨hdyn, hrec, -, httl, -, hloaded⟩ := hout.memory
    rw [hdyn] at hformed
    refine ⟨hdyn ▸ hformed, ?_, fun hf => ?_, fun entries hfile modTime => ?_⟩
    · rw [hdyn]
      refine hm.mono (fun n hn => ?_) fun n t set hset => ⟨set, hset, le_rfl⟩
      rwa [EmbeddedServer.static, hrec] at hn
    · rw [hloaded, loaded_of_ensure hload] at hf
      cases hf
    · rw [httl]
      rcases hout.file with hsame | hnew
      · exact h₀.file entries (hsame.symm.trans hfile) modTime
      · obtain rfl : dynamicRecordEntries _ = entries := File.records.inj (hnew.symm.trans hfile)
        refine hm.mono (by simp) fun n t set' hset' => ?_
        rw [get_readEntries hformed] at hset'
        obtain ⟨set, hset, hread⟩ := Option.bind_eq_some_iff.mp hset'
        refine ⟨set, hset, ?_⟩
        simp only [RecordSet.reread] at hread
        split at hread
        · cases hread
        · cases hread
          exact length_normalizeDynamicRecordValues_le.trans (sortStrings_perm _).length_eq.le

/-- **CNAME records are alone in every state** of a server, new on a file whose CNAME records are, if
the callers keep to what the API checks. -/
theorem cname_alone {ttl : UInt32} {path : String} {file : File} {calls : List (Call × Surroundings)}
    (hfile : EmbeddedServer.FileAlone lib { ttl, dynamicRecordsPath := path, file })
    (hrun : Steps (Under (Graph (step lib)) (Separate lib))
      { ttl, dynamicRecordsPath := path, file } calls s) :
    Alone s.static s.dynamicRecords.get := by
  have hinit : Exclusive lib { ttl, dynamicRecordsPath := path, file } :=
    ⟨formed_empty, fun n set hset => absurd hset (by simp), fun _ => rfl, hfile⟩
  have hinv : Exclusive lib s :=
    hrun.invariant (I := Exclusive lib) (fun hstep hs => hs.step hstep.1 hstep.2) hinit
  exact hinv.alone

end Runs

/-- The set of one value of the sample zone, through the API. -/
def sampleRecord (name type value : String) : Call :=
  .upsert { name, type, ttl := 60, values := [value], createdAt := zeroTime, updatedAt := zeroTime }

/-- A CNAME record is replaced by an A record in one message, and the server is restarted. -/
theorem cname_alone_replaced :
    ∃ (calls : List (Call × Surroundings)) (s : EmbeddedServer),
      Steps (Under (Graph (step asciiNames)) (Separate asciiNames)) sampleServer calls s ∧
      s.dynamicRecords.get "www.example.com." typeA ≠ none ∧
      Alone s.static s.dynamicRecords.get := by
  have heval : ((executeUnder (step asciiNames) (fun s c => decide (Separate asciiNames s c))
      sampleServer
      [(.sync (some sampleInventory), { now := 1000000000 }),
        (sampleRecord "www.example.com" "CNAME" "host.example.com", { now := 2000000000 }),
        (sampleUpdate [sampleRR "www.example.com." classANY (.other typeCNAME),
          sampleRR "www.example.com." classINET (.a (some 0x0a000001))], { now := 3000000000 }),
        (.restart, { now := 4000000000 }),
        (.sync (some sampleInventory), { now := 5000000000 })]).any fun s =>
          (s.dynamicRecords.get "www.example.com." typeA).isSome) = true := by
    decide
  obtain ⟨s, hrun, hget⟩ := (Option.any_eq_true _ _).mp heval
  have hsteps := steps_under_of_execute hrun
  refine ⟨_, s, hsteps, by simpa [Option.isSome_iff_ne_none] using hget, ?_⟩
  exact cname_alone (fun entries hfile => absurd hfile (by simp)) hsteps

/-- **An address next to a CNAME record**: an UPDATE message adds it. -/
theorem address_next_to_cname :
    ∃ (calls : List (Call × Surroundings)) (s : EmbeddedServer),
      Steps (Graph (step asciiNames)) sampleServer calls s ∧
      s.dynamicRecords.get "www.example.com." typeCNAME ≠ none ∧
      s.dynamicRecords.get "www.example.com." typeA ≠ none ∧
      ¬Alone s.static s.dynamicRecords.get := by
  have heval : ((execute (step asciiNames) sampleServer
      [(.sync (some sampleInventory), { now := 1000000000 }),
        (sampleRecord "www.example.com" "CNAME" "host.example.com", { now := 2000000000 }),
        (sampleUpdate [sampleRR "www.example.com." classINET (.a (some 0x0a000001))],
          { now := 3000000000 })]).any fun s =>
          (s.dynamicRecords.get "www.example.com." typeCNAME).isSome &&
            (s.dynamicRecords.get "www.example.com." typeA).isSome) = true := by
    decide
  obtain ⟨s, hrun, hget⟩ := (Option.any_eq_true _ _).mp heval
  obtain ⟨hcname, haddr⟩ := Bool.and_eq_true_iff.mp hget
  refine ⟨_, s, steps_graph.mpr hrun, by simpa [Option.isSome_iff_ne_none] using hcname,
    by simpa [Option.isSome_iff_ne_none] using haddr, fun halone => ?_⟩
  obtain ⟨set, hset⟩ := Option.isSome_iff_exists.mp hcname
  obtain ⟨-, hnone, -⟩ := halone _ set hset
  exact absurd haddr (by simp [hnone])

end Gomi.Dns
