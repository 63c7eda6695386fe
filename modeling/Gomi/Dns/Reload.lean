import Gomi.Dns.Changes

/-!
# The records that a file gives back

What a new process reads from a file that the server has written, for each name and type
(`Gomi.Dns.get_readEntries`): the set with its values normalized, or nothing if no value is left.
The names and types come back as they were because the server stores canonical names and the three
dynamic types only (`Gomi.Dns.Formed`), whatever calls it has served (`Gomi.Dns.Formed.step`).
-/

namespace Gomi.Dns

open Go

variable {lib : NameLib}

/-! ### Normalized values -/

section Values

variable {rrType : UInt16} {value v : String} {raw : List String}

theorem normalizeValue_eq_some :
    normalizeValue lib rrType value = some v ↔ trimSpace value ≠ "" ∧
      v = if rrType = typeCNAME then (canonicalFQDN lib (trimSpace value)).getD (trimSpace value)
        else trimSpace value := by
  simp only [normalizeValue]
  split
  · simp [*]
  · rename_i hne
    split
    · simp [hne, eq_comm]
    · simp [hne, eq_comm]

/-- **A normalized value is its own normal form.** -/
theorem normalizeValue_of_eq_some (h : normalizeValue lib rrType value = some v) :
    normalizeValue lib rrType v = some v := by
  obtain ⟨hne, rfl⟩ := normalizeValue_eq_some.mp h
  rw [normalizeValue_eq_some]
  split
  · cases hcan : canonicalFQDN lib (trimSpace value) with
    | none => simp [hne, hcan]
    | some =>
      obtain ⟨htrim, hname⟩ := trimSpace_of_canonicalFQDN hcan
      simp [htrim, hname, canonicalFQDN_of_eq_some hcan]
  · simp [hne]

variable (lib) in
/-- The loop keeps the values it has, adds normal forms only, and adds each once. -/
theorem foldl_addNormalized (rrType : UInt16) (raw : List String) {acc : List String} (hacc : acc.Nodup) :
    (raw.foldl (addNormalized lib rrType) acc).Nodup ∧
      (raw.foldl (addNormalized lib rrType) acc).length ≤ acc.length + raw.length ∧
      ∀ v, v ∈ raw.foldl (addNormalized lib rrType) acc ↔
        v ∈ acc ∨ ∃ u ∈ raw, normalizeValue lib rrType u = some v := by
  induction raw generalizing acc with
  | nil => exact ⟨hacc, by simp, fun v => by simp⟩
  | cons u raw ih =>
    rw [List.foldl_cons]
    cases hu : normalizeValue lib rrType u with
    | none =>
      have hskip : addNormalized lib rrType acc u = acc := by rw [addNormalized, hu]
      obtain ⟨hnodup, hlen, hmem⟩ := ih hacc
      rw [hskip]
      refine ⟨hnodup, ?_, fun v => ?_⟩
      · rw [List.length_cons]
        omega
      · simp [hmem, hu]
    | some w =>
      have hadd : addNormalized lib rrType acc u = addDistinct acc w := by rw [addNormalized, hu]
      have hone : (addDistinct acc w).length ≤ acc.length + 1 := by
        rw [addDistinct]
        split <;> simp
      obtain ⟨hnodup, hlen, hmem⟩ := ih (nodup_addDistinct hacc w)
      rw [hadd]
      refine ⟨hnodup, ?_, fun v => ?_⟩
      · rw [List.length_cons]
        omega
      · rw [hmem, mem_addDistinct]
        simp only [List.mem_cons, exists_eq_or_imp, hu, Option.some.injEq, or_assoc]
        rw [eq_comm (a := v)]

theorem mem_normalizeDynamicRecordValues :
    v ∈ normalizeDynamicRecordValues lib rrType raw ↔
      ∃ u ∈ raw, normalizeValue lib rrType u = some v := by
  have h := (foldl_addNormalized lib rrType raw List.nodup_nil).2.2 v
  rw [normalizeDynamicRecordValues, (sortStrings_perm _).mem_iff, h]
  simp

theorem nodup_normalizeDynamicRecordValues : (normalizeDynamicRecordValues lib rrType raw).Nodup :=
  (sortStrings_perm _).nodup_iff.mpr (foldl_addNormalized lib rrType raw List.nodup_nil).1

theorem length_normalizeDynamicRecordValues_le :
    (normalizeDynamicRecordValues lib rrType raw).length ≤ raw.length := by
  have h := (foldl_addNormalized lib rrType raw List.nodup_nil).2.1
  rw [normalizeDynamicRecordValues, (sortStrings_perm _).length_eq]
  simpa using h

end Values

/-! ### What is stored -/

variable (lib) in
/-- The contents have canonical names and dynamic types only. -/
def Formed (f : Contents) : Prop :=
  ∀ name rrType set, f name rrType = some set → canonicalFQDN lib name = some name ∧
    IsDynamicType rrType

variable (lib) in
/-- A change that adds to such names and types only. -/
def Change.Formed : Change → Prop
  | .addValue name rrType _ _ _ | .put name rrType _ _ _ =>
    canonicalFQDN lib name = some name ∧ IsDynamicType rrType
  | .dropName _ | .dropSet _ _ | .dropValue _ _ _ _ => True

/-- What holds of the contents and is kept by each of the changes. -/
theorem effects_induction {P : Contents → Prop} {cs : List Change}
    (hstep : ∀ c ∈ cs, ∀ f, P f → P (c.effect f)) {f : Contents} (hf : P f) : P (effects cs f) :=
  List.foldlRecOn cs _ hf fun f hf c hc => hstep c hc f hf

theorem Formed.effect {f : Contents} {c : Change} (hf : Formed lib f) (hc : c.Formed lib) :
    Formed lib (c.effect f) := by
  intro name rrType set hset
  rw [Change.effect] at hset
  split at hset
  · rename_i hconcerns
    cases c with
    | dropName n | dropSet n t => cases hset
    | dropValue =>
      obtain ⟨old, hold, -⟩ := Option.bind_eq_some_iff.mp hset
      exact hf name rrType old hold
    | addValue n t ttl value now | put n t ttl values now =>
      obtain ⟨rfl, rfl⟩ := hconcerns
      exact hc
  · exact hf name rrType set hset

theorem mem_of_mem_accepted {ε α : Type} {reqs : List (Except ε α)} {a : α} (h : a ∈ accepted reqs) :
    .ok a ∈ reqs := by
  induction reqs with
  | nil => exact absurd h List.not_mem_nil
  | cons r reqs ih =>
    cases r with
    | error => exact absurd h List.not_mem_nil
    | ok =>
      rcases List.mem_cons.mp h with rfl | h
      · exact List.mem_cons_self
      · exact List.mem_cons_of_mem _ (ih h)

theorem isDynamicType_of_value {rr : RR} {value : String} (h : dynamicRecordValue lib rr = some value) :
    IsDynamicType rr.rrType := by
  simp only [dynamicRecordValue] at h
  rw [RR.rrType]
  cases hdata : rr.data with
  | a => exact Or.inl rfl
  | txt => exact Or.inr (Or.inl rfl)
  | cname => exact Or.inr (Or.inr rfl)
  | ns target | soa data | other rrType => exact absurd h (by simp [hdata])

variable {ttl : UInt32} {s : EmbeddedServer}

/-- What a record of a message may ask for: to remove something, or to add the record's value. -/
theorem changeOf_eq_ok {zone : String} {rr : RR} {now : Time} {c : Change}
    (h : changeOf lib ttl zone rr now = .ok c) :
    (∃ name, c = .dropName name) ∨ (∃ name rrType, c = .dropSet name rrType) ∨
      (∃ name rrType value, c = .dropValue name rrType value now) ∨
      ∃ name value, canonicalFQDN lib rr.name = some name ∧ rr.cls = classINET ∧
        dynamicRecordValue lib rr = some value ∧
        c = .addValue name rr.rrType (if rr.ttl = 0 then ttl else rr.ttl) value now := by
  simp only [changeOf] at h
  cases hname : canonicalFQDN lib rr.name with
  | none => exact absurd h (by simp [hname])
  | some name =>
    simp only [hname] at h
    split at h
    · cases h
    · split at h
      · cases h
        split
        · exact Or.inl ⟨_, rfl⟩
        · exact Or.inr (Or.inl ⟨_, _, rfl⟩)
      · split at h
        · cases hvalue : dynamicRecordValue lib rr with
          | none => exact absurd h (by simp [hvalue])
          | some =>
            simp only [hvalue] at h
            cases h
            exact Or.inr (Or.inr (Or.inl ⟨_, _, _, rfl⟩))
        · split at h
          · rename_i hcls
            cases hvalue : dynamicRecordValue lib rr with
            | none => exact absurd h (by simp [hvalue])
            | some value =>
              simp only [hvalue] at h
              cases h
              exact Or.inr (Or.inr (Or.inr ⟨name, value, rfl, hcls, rfl, rfl⟩))
          · cases h

theorem mem_requests {zone : String} {rrs : List RR} {clock : ℕ → Time}
    {r : Except DynamicError Change} (h : r ∈ requests lib ttl zone rrs clock) :
    ∃ rr ∈ rrs, ∃ now, changeOf lib ttl zone rr now = r := by
  induction rrs generalizing clock with
  | nil => exact absurd h List.not_mem_nil
  | cons rr rrs ih =>
    rcases List.mem_cons.mp h with rfl | h
    · exact ⟨rr, List.mem_cons_self, clock 0, rfl⟩
    · obtain ⟨rr', hrr', hreq⟩ := ih h
      exact ⟨rr', List.mem_cons_of_mem _ hrr', hreq⟩

/-- What `validateDynamicRecordShape` has made sure of. -/
theorem validateDynamicRecordShape_eq_ok {record : DynamicRecord} {name : String} {rrType : UInt16}
    {values : List String}
    (h : s.validateDynamicRecordShape lib record = .ok (name, rrType, ttl, values)) :
    canonicalFQDN lib record.name = some name ∧ dynamicTypeFromName record.type = some rrType ∧
      ttl ≠ 0 ∧ values = normalizeDynamicRecordValues lib rrType record.values ∧ values ≠ [] ∧
      (rrType = typeCNAME → values.length = 1) ∧
      ∀ v ∈ values, validDynamicRecordValue lib rrType v = true := by
  simp only [EmbeddedServer.validateDynamicRecordShape] at h
  split at h
  · cases h
  · cases hname : canonicalFQDN lib record.name with
    | none => exact absurd h (by simp [hname])
    | some n => cases htype : dynamicTypeFromName record.type with
      | none => exact absurd h (by simp [hname, htype])
      | some t =>
        simp only [hname, htype] at h
        generalize (if record.ttl = 0 then s.ttl else record.ttl) = ttl' at h
        split at h
        · cases h
        · rename_i httl
          split at h
          · cases h
          · rename_i hvalues
            split at h
            · cases h
            · rename_i hone
              split at h
              · rename_i hall
                obtain ⟨rfl, rfl, rfl, rfl⟩ : n = name ∧ t = rrType ∧ ttl' = ttl ∧
                    normalizeDynamicRecordValues lib t record.values = values := by simpa using h
                refine ⟨rfl, rfl, httl, rfl, hvalues, fun ht => ?_, fun v hv => ?_⟩
                · by_contra hlen
                  exact hone ⟨ht, hlen⟩
                · exact List.all_eq_true.mp hall v hv
              · cases h

/-- **The changes that a call asks for** are removals, the additions of a message, or one set that
has passed the checks of the API. -/
theorem requested_cases {c : Call} {env : Surroundings} {a : Change}
    (h : a ∈ accepted (requested lib s c env)) :
    (∃ name, a = .dropName name) ∨ (∃ name rrType, a = .dropSet name rrType) ∨
      (∃ name rrType value now, a = .dropValue name rrType value now) ∨
      (∃ msg rr name value now, c = .update msg ∧ rr ∈ msg.updates ∧
        canonicalFQDN lib rr.name = some name ∧ rr.cls = classINET ∧
        dynamicRecordValue lib rr = some value ∧
        a = .addValue name rr.rrType (if rr.ttl = 0 then s.ttl else rr.ttl) value now) ∨
      ∃ record name rrType ttl values, c = .upsert record ∧
        s.validateDynamicRecordShape lib record = .ok (name, rrType, ttl, values) ∧
        s.validateDynamicRecordPlacement name rrType = .ok () ∧
        a = .put name rrType ttl values env.now := by
  have hmem := mem_of_mem_accepted h
  cases c with
  | sync inv | list | restart => exact absurd hmem List.not_mem_nil
  | upsert record =>
    simp only [requested] at hmem
    split at hmem
    · exact absurd hmem (by simp)
    · rename_i name rrType ttl values hshape
      split at hmem
      · exact absurd hmem (by simp)
      · rename_i hplace
        obtain rfl : a = .put name rrType ttl values env.now := by simpa using hmem
        exact Or.inr (Or.inr (Or.inr (Or.inr ⟨record, name, rrType, ttl, values, rfl, hshape, hplace,
          rfl⟩)))
  | delete rawName rawType =>
    simp only [requested] at hmem
    split at hmem
    · exact absurd hmem (by simp)
    · exact absurd hmem (by simp)
    · rename_i name rrType _ _
      obtain rfl : a = .dropSet name rrType := by simpa using hmem
      exact Or.inr (Or.inl ⟨_, _, rfl⟩)
  | update msg =>
    simp only [requested] at hmem
    split at hmem
    · exact absurd hmem (by simp)
    · split at hmem
      · exact absurd hmem (by simp)
      · split at hmem
        · exact absurd hmem (by simp)
        · obtain ⟨rr, hrr, now, hreq⟩ := mem_requests hmem
          rcases changeOf_eq_ok hreq with h | h | ⟨n, t, v, h⟩ | ⟨name, value, hname, hcls, hvalue, h⟩
          · exact Or.inl h
          · exact Or.inr (Or.inl h)
          · exact Or.inr (Or.inr (Or.inl ⟨n, t, v, now, h⟩))
          · exact Or.inr (Or.inr (Or.inr (Or.inl ⟨msg, rr, name, value, now, rfl, hrr, hname, hcls,
              hvalue, h⟩)))

theorem formed_of_requested {c : Call} {env : Surroundings} {a : Change}
    (h : a ∈ accepted (requested lib s c env)) : a.Formed lib := by
  rcases requested_cases h with ⟨n, rfl⟩ | ⟨n, t, rfl⟩ | ⟨n, t, v, now, rfl⟩ |
    ⟨msg, rr, name, value, now, -, -, hname, -, hvalue, rfl⟩ |
    ⟨record, name, rrType, ttl, values, -, hshape, -, rfl⟩
  · trivial
  · trivial
  · trivial
  · exact ⟨canonicalFQDN_of_eq_some hname, isDynamicType_of_value hvalue⟩
  · obtain ⟨hname, htype, -⟩ := validateDynamicRecordShape_eq_ok hshape
    exact ⟨canonicalFQDN_of_eq_some hname, isDynamicType_of_name htype⟩

/-! ### Reading the file -/

section Reading

variable {ttl : UInt32} {modTime : Time} {entries : List Entry} {m : DynamicRecords} {name : String}
  {rrType : UInt16} {set : RecordSet}

theorem read_eq_some {entry : Entry} {e : String × UInt16 × RecordSet}
    (h : entry.read lib ttl modTime = some e) :
    canonicalFQDN lib entry.name = some e.1 ∧ dynamicTypeFromName entry.type = some e.2.1 ∧
      e.2.2.values = normalizeDynamicRecordValues lib e.2.1 entry.values ∧ e.2.2.values ≠ [] ∧
      e.2.2.ttl = if entry.ttl = 0 then ttl else entry.ttl := by
  simp only [Entry.read] at h
  split at h
  · rename_i name rrType hname htype
    split at h
    · cases h
    · rename_i hvalues
      cases h
      exact ⟨hname, htype, rfl, hvalues, rfl⟩
  · cases h

theorem mem_entries_of_get_readEntries
    (h : (readEntries lib ttl modTime entries).get name rrType = some set) :
    ∃ entry ∈ entries, entry.read lib ttl modTime = some (name, rrType, set) := by
  rcases TwoLevel.get_setAll_eq_some h with hnone | hmem
  · cases hnone
  · exact List.mem_filterMap.mp hmem

theorem formed_readEntries : Formed lib (readEntries lib ttl modTime entries).get := by
  intro name rrType set h
  obtain ⟨entry, -, hread⟩ := mem_entries_of_get_readEntries h
  obtain ⟨hname, htype, -⟩ := read_eq_some hread
  exact ⟨canonicalFQDN_of_eq_some hname, isDynamicType_of_name htype⟩

variable (lib) in
/-- A set as it is read back, if one of its values is. -/
def RecordSet.reread (ttl : UInt32) (modTime : Time) (rrType : UInt16) (set : RecordSet) :
    Option RecordSet :=
  let values := normalizeDynamicRecordValues lib rrType (sortStrings set.values)
  if values = [] then none
  else some
    { ttl := if set.ttl = 0 then ttl else set.ttl
      values
      createdAt := if set.createdAt = zeroTime then modTime else set.createdAt
      updatedAt := if set.updatedAt = zeroTime then modTime else set.updatedAt }

theorem read_entryOf (hname : canonicalFQDN lib name = some name) (htype : IsDynamicType rrType) :
    Entry.read lib ttl modTime (entryOf (name, rrType, set)) =
      (set.reread lib ttl modTime rrType).map fun set => (name, rrType, set) := by
  have hn : canonicalFQDN lib (entryOf (name, rrType, set)).name = some name := hname
  have ht : dynamicTypeFromName (entryOf (name, rrType, set)).type = some rrType :=
    dynamicTypeFromName_dynamicTypeName htype
  simp only [Entry.read, hn, ht]
  by_cases hvalues : normalizeDynamicRecordValues lib rrType (sortStrings set.values) = []
  · have hnone : set.reread lib ttl modTime rrType = none := if_pos hvalues
    rw [hnone]
    exact if_pos hvalues
  · rw [RecordSet.reread, if_neg hvalues, Option.map_some]
    exact if_neg hvalues

/-- **What is read of a file that the server has written.** -/
theorem get_readEntries (hm : Formed lib m.get) (name : String) (rrType : UInt16) :
    (readEntries lib ttl modTime (dynamicRecordEntries m)).get name rrType =
      (m.get name rrType).bind fun set => set.reread lib ttl modTime rrType := by
  have hmem : ∀ set', (name, rrType, set') ∈
      (dynamicRecordEntries m).filterMap (Entry.read lib ttl modTime) ↔
      ∃ set, m.get name rrType = some set ∧ set.reread lib ttl modTime rrType = some set' := by
    intro set'
    rw [dynamicRecordEntries, List.filterMap_map, List.mem_filterMap]
    constructor
    · rintro ⟨⟨n, t, set⟩, hentry, hread⟩
      have hget := TwoLevel.mem_entries.mp hentry
      obtain ⟨hn, ht⟩ := hm n t set hget
      rw [Function.comp_apply, read_entryOf hn ht] at hread
      obtain ⟨set'', hset, heq⟩ := Option.map_eq_some_iff.mp hread
      obtain ⟨rfl, rfl, rfl⟩ : n = name ∧ t = rrType ∧ set'' = set' := by simpa using heq
      exact ⟨set, hget, hset⟩
    · rintro ⟨set, hget, hset⟩
      obtain ⟨hn, ht⟩ := hm name rrType set hget
      refine ⟨(name, rrType, set), TwoLevel.mem_entries.mpr hget, ?_⟩
      rw [Function.comp_apply, read_entryOf hn ht, hset, Option.map_some]
  cases hread : (m.get name rrType).bind fun set => set.reread lib ttl modTime rrType with
  | none =>
    refine (TwoLevel.get_setAll_of_notMem fun set' hset' => ?_).trans (TwoLevel.get_empty _ _)
    obtain ⟨set, hget, hset⟩ := (hmem set').mp hset'
    rw [hget, Option.bind_some, hset] at hread
    cases hread
  | some set' =>
    obtain ⟨set, hget, hset⟩ := Option.bind_eq_some_iff.mp hread
    refine TwoLevel.get_setAll_of_mem ((hmem set').mpr ⟨set, hget, hset⟩) fun set'' hset'' => ?_
    obtain ⟨set₁, hget₁, hset₁⟩ := (hmem set'').mp hset''
    obtain rfl : set₁ = set := Option.mem_unique hget₁ hget
    exact Option.mem_unique hset₁ hset

end Reading

/-! ### Steps -/

section Steps

variable {s s₀ s' : EmbeddedServer} {c : Call} {env : Surroundings}

theorem Formed.ensure (h : Formed lib s.dynamicRecords.get)
    (hload : s.ensureDynamicRecordsLoaded lib env = some s₀) :
    Formed lib s₀.dynamicRecords.get := by
  rcases ensureDynamicRecordsLoaded_eq_some hload with ⟨rfl, -⟩ | ⟨-, rfl | ⟨_, -, rfl⟩⟩
  · exact h
  · exact h
  · exact formed_readEntries

theorem formed_empty : Formed lib (∅ : DynamicRecords).get := by
  intro name rrType set h
  cases h

theorem Formed.requested (c : Call) (env : Surroundings) (h : Formed lib s.dynamicRecords.get) :
    Formed lib (effects (accepted (requested lib s c env)) s.dynamicRecords.get) :=
  effects_induction (fun _ ha _ hf => Formed.effect hf (formed_of_requested ha)) h

/-- **Every step keeps the form of the contents.** -/
theorem Formed.step (h : Formed lib s.dynamicRecords.get)
    (hstep : Dns.step lib s (c, env) = some s') : Formed lib s'.dynamicRecords.get := by
  cases step_cases hstep with
  | idle => exact h
  | restarted => exact formed_empty
  | listed hload => exact h.ensure hload
  | synced inv hc hload =>
    have hloaded := h.ensure hload
    exact hloaded
  | changed hc hload hget hout =>
    have hm := (h.ensure hload).requested c env
    rw [← hget] at hm
    rw [hout.memory.1]
    exact hm

end Steps

end Gomi.Dns
