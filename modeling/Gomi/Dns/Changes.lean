import Gomi.Dns.Embedded

/-!
# What the calls of the embedded server do

The dynamic records seen as a function of a name and a type (`Gomi.Dns.Contents`), and the changes
that callers ask for (`Gomi.Dns.Change`), each with what the server makes of that function. An UPDATE message
asks for a list of them, of which each may be refused, by its own form alone
(`Gomi.Dns.changeOf`); a call of the API asks for one.

What the server makes of it is said once, for all proofs about runs:

* `Gomi.Dns.applyDynamicUpdates_spec`: the loop over a message applies the changes before the first
  refused one, and stops there;
* `Gomi.Dns.step_cases`: all that a step can do. The changes it has accepted are in memory also if
  it then fails (`Gomi.Dns.Outcome`).
-/

namespace Gomi.Dns

open Go EmbeddedServer

variable {name : String} {rrType : UInt16} {ε α : Type} {m : DynamicRecords} {ok : Bool}

/-! ### Changes -/

/-- The sets of values, by name and type. -/
abbrev Contents : Type := String → UInt16 → Option RecordSet

/-- **A change of the dynamic records.** -/
inductive Change
  /-- Nothing is left at a name. -/
  | dropName (name : String)
  /-- A set is removed. -/
  | dropSet (name : String) (rrType : UInt16)
  /-- A value is removed. -/
  | dropValue (name : String) (rrType : UInt16) (value : String) (now : Time)
  /-- A value is added. -/
  | addValue (name : String) (rrType : UInt16) (ttl : UInt32) (value : String) (now : Time)
  /-- A set is replaced. -/
  | put (name : String) (rrType : UInt16) (ttl : UInt32) (values : List String) (now : Time)
  deriving DecidableEq

/-- What the server makes of the set at the place of a change. -/
def Change.cell : Change → Option RecordSet → Option RecordSet
  | .dropName _, _ | .dropSet _ _, _ => none
  | .dropValue _ _ value now, x => x.bind fun set => set.remove value now
  | .addValue _ rrType ttl value now, x => some (RecordSet.add x rrType ttl value now)
  | .put _ _ ttl values now, x => some (RecordSet.replacement x ttl values now)

/-- Whether a change concerns a name and a type. -/
def Change.Concerns (name : String) (rrType : UInt16) : Change → Prop
  | .dropName n => n = name
  | .dropSet n t | .dropValue n t _ _ | .addValue n t _ _ _ | .put n t _ _ _ => n = name ∧ t = rrType

instance (name : String) (rrType : UInt16) : (c : Change) → Decidable (c.Concerns name rrType)
  | .dropName n => inferInstanceAs (Decidable (n = name))
  | .dropSet .. | .dropValue .. | .addValue .. | .put .. => inferInstanceAs (Decidable (_ ∧ _))

/-- The contents after a change. -/
def Change.effect (c : Change) (f : Contents) : Contents := fun name rrType =>
  if c.Concerns name rrType then c.cell (f name rrType) else f name rrType

/-- The contents after a list of changes. -/
def effects (cs : List Change) (f : Contents) : Contents := cs.foldl (fun f c => c.effect f) f

@[simp] theorem effects_nil {f : Contents} : effects [] f = f := rfl

@[simp] theorem effects_cons (c : Change) (cs : List Change) (f : Contents) :
    effects (c :: cs) f = effects cs (c.effect f) := rfl

/-- The accepted part of a list of requests: all before the first that is refused. -/
def accepted {ε α : Type} : List (Except ε α) → List α
  | .ok a :: rest => a :: accepted rest
  | _ => []

/-- The first error of a list of requests. -/
def firstError {ε α : Type} : List (Except ε α) → Option ε
  | [] => none
  | .ok _ :: rest => firstError rest
  | .error e :: _ => some e

/-- Without an error everything is accepted. -/
theorem firstError_eq_none {reqs : List (Except ε α)} :
    firstError reqs = none ↔ reqs = (accepted reqs).map .ok := by
  induction reqs with
  | nil => exact ⟨fun _ => rfl, fun _ => rfl⟩
  | cons r reqs ih =>
    cases r with
    | error => exact ⟨fun h => absurd h (by simp [firstError]), fun h => absurd h (by simp [accepted])⟩
    | ok => simp [firstError, accepted, ih]

theorem firstError_eq_none_iff {reqs : List (Except ε α)} :
    firstError reqs = none ↔ ∀ r ∈ reqs, r.isOk = true := by
  induction reqs with
  | nil => simp [firstError]
  | cons r reqs ih =>
    cases r with
    | error => simp [firstError, Except.isOk, Except.toBool]
    | ok => simp [firstError, Except.isOk, Except.toBool, ih]

/-! ### UPDATE messages -/

section Update

variable (lib : NameLib)

/-- **The change that a record of an UPDATE message asks for**, by the record's class: the removal of a
name, of a set or of a value, or the addition of a value. -/
def changeOf (ttl : UInt32) (zone : String) (rr : RR) (now : Time) : Except DynamicError Change :=
  match canonicalFQDN lib rr.name with
  | none => .error .format
  | some name =>
    if nameInZone name zone = false then .error .notZone
    else if rr.cls = classANY then
      .ok (if rr.rrType = typeANY then .dropName name else .dropSet name rr.rrType)
    else if rr.cls = classNONE then match dynamicRecordValue lib rr with
      | none => .error .unsupported
      | some value => .ok (.dropValue name rr.rrType value now)
    else if rr.cls = classINET then match dynamicRecordValue lib rr with
      | none => .error .unsupported
      | some value => .ok (.addValue name rr.rrType (if rr.ttl = 0 then ttl else rr.ttl) value now)
    else .error .format

/-- What the records of a message ask for. -/
def requests (ttl : UInt32) (zone : String) : List RR → (ℕ → Time) → List (Except DynamicError Change)
  | [], _ => []
  | rr :: rrs, clock => changeOf lib ttl zone rr (clock 0) :: requests ttl zone rrs fun i => clock (i + 1)

variable {records : DynamicRecords}

theorem get_deleteDynamicRecordValue {value : String} {now : Time} :
    (deleteDynamicRecordValue records name rrType value now).get =
      (Change.dropValue name rrType value now).effect records.get := by
  funext n t
  rw [Change.effect, deleteDynamicRecordValue]
  by_cases h : name = n ∧ rrType = t
  · obtain ⟨rfl, rfl⟩ := h
    rw [if_pos ⟨rfl, rfl⟩]
    show _ = (records.get name rrType).bind fun set => set.remove value now
    cases hget : records.get name rrType with
    | none => exact hget
    | some set =>
      rw [Option.bind_some]
      dsimp only
      cases set.remove value now with
      | none => exact (records.get_erase name name rrType rrType).trans (if_pos ⟨rfl, rfl⟩)
      | some set => exact (records.get_set name name rrType rrType set).trans (if_pos ⟨rfl, rfl⟩)
  · rw [if_neg (show ¬Change.Concerns n t (.dropValue name rrType value now) from h)]
    split
    · rfl
    · split
      · exact (records.get_erase name n rrType t).trans (if_neg h)
      · exact (records.get_set name n rrType t _).trans (if_neg h)

/-- A set that is stored at the place of a change. -/
theorem get_set_eq {c : Change} {set : RecordSet}
    (hconcerns : ∀ n t, c.Concerns n t ↔ name = n ∧ rrType = t)
    (hcell : c.cell (records.get name rrType) = some set) :
    (records.set name rrType set).get = c.effect records.get := by
  funext n t
  rw [TwoLevel.get_set, Change.effect]
  by_cases h : name = n ∧ rrType = t
  · obtain ⟨rfl, rfl⟩ := h
    rw [if_pos ⟨rfl, rfl⟩, if_pos ((hconcerns _ _).mpr ⟨rfl, rfl⟩), hcell]
  · rw [if_neg h, if_neg (mt (hconcerns n t).mp h)]

theorem get_deleteDynamicRecordSet (name : String) (rrType : UInt16) :
    (deleteDynamicRecordSet records name rrType).get =
      (Change.dropSet name rrType).effect records.get := by
  funext n t
  exact records.get_erase name n rrType t

/-- A record of a message is applied as the change it asks for, or refused for the same reason. -/
theorem applyDynamicUpdate_spec (ttl : UInt32) (zone : String) (records : DynamicRecords) (rr : RR)
    (now : Time) :
    (∃ e, changeOf lib ttl zone rr now = .error e ∧
      applyDynamicUpdate lib ttl zone records rr now = .error e) ∨
    ∃ c records', changeOf lib ttl zone rr now = .ok c ∧
      applyDynamicUpdate lib ttl zone records rr now = .ok records' ∧
      records'.get = c.effect records.get := by
  simp only [changeOf, applyDynamicUpdate]
  cases canonicalFQDN lib rr.name with
  | none => exact Or.inl ⟨_, rfl, rfl⟩
  | some name =>
    dsimp only
    split
    · exact Or.inl ⟨_, rfl, rfl⟩
    · split
      -- the class tells what is asked for
      · split
        · exact Or.inr ⟨.dropName name, _, rfl, rfl, funext₂ (TwoLevel.get_eraseRow _ _)⟩
        · exact Or.inr ⟨_, _, rfl, rfl, get_deleteDynamicRecordSet name _⟩
      · split
        · cases dynamicRecordValue lib rr with
          | none => exact Or.inl ⟨_, rfl, rfl⟩
          | some => exact Or.inr ⟨_, _, rfl, rfl, get_deleteDynamicRecordValue⟩
        · split
          · cases dynamicRecordValue lib rr with
            | none => exact Or.inl ⟨_, rfl, rfl⟩
            | some => exact Or.inr ⟨_, _, rfl, rfl, get_set_eq (fun _ _ => Iff.rfl) rfl⟩
          · exact Or.inl ⟨_, rfl, rfl⟩

/-- **The loop over a message**: the changes before the first refused one are applied. -/
theorem applyDynamicUpdates_spec (ttl : UInt32) (zone : String) (rrs : List RR) :
    ∀ (clock : ℕ → Time) (records : DynamicRecords),
      (applyDynamicUpdates lib ttl zone rrs clock records).2 =
        firstError (requests lib ttl zone rrs clock) ∧
      (applyDynamicUpdates lib ttl zone rrs clock records).1.get =
        effects (accepted (requests lib ttl zone rrs clock)) records.get := by
  induction rrs with
  | nil => exact fun _ _ => ⟨rfl, rfl⟩
  | cons rr rrs ih =>
    intro clock records
    rcases applyDynamicUpdate_spec lib ttl zone records rr (clock 0) with
      ⟨e, hreq, happ⟩ | ⟨c, records', hreq, happ, hget⟩
    · simp only [requests, applyDynamicUpdates, hreq, happ]
      exact ⟨rfl, rfl⟩
    · simp only [requests, applyDynamicUpdates, hreq, happ, firstError, accepted, effects_cons, ← hget]
      exact ih _ _

end Update

/-! ### Calls -/

section Calls

variable (lib : NameLib)

/-- The calls that ask for changes of the records. -/
def Call.IsChange : Call → Prop
  | .upsert _ | .delete _ _ | .update _ => True
  | .sync _ | .list | .restart => False

/-- **What a call asks of a server**, whose records are loaded. -/
def requested (s : EmbeddedServer) (c : Call) (env : Surroundings) : List (Except DynamicError Change) :=
  match c with
  | .upsert record => match s.validateDynamicRecordShape lib record with
    | .error e => [.error e]
    | .ok (name, rrType, ttl, values) => match s.validateDynamicRecordPlacement name rrType with
      | .error e => [.error e]
      | .ok () => [.ok (.put name rrType ttl values env.now)]
  | .delete rawName rawType => match canonicalFQDN lib rawName, dynamicTypeFromName rawType with
    | none, _ => [.error .format]
    | some _, none => [.error .unsupported]
    | some name, some rrType => [.ok (.dropSet name rrType)]
  | .update msg =>
    if msg.unpacks = false then [.error .format]
    else match updateZone lib msg with
      | none => [.error .format]
      | some zone =>
        if zone ∉ s.zones then [.error .notZone]
        else requests lib s.ttl zone msg.updates env.changedAt
  | .sync _ | .list | .restart => []

/-- The file can be written, or there is none. -/
def CanPersist (s : EmbeddedServer) (env : Surroundings) : Prop :=
  s.dynamicRecordsPath = "" ∨ env.writable = true

instance (s : EmbeddedServer) (env : Surroundings) : Decidable (CanPersist s env) :=
  inferInstanceAs (Decidable (_ ∨ _))

/-- The file after the records were written to it. -/
def EmbeddedServer.saved (s : EmbeddedServer) (records : DynamicRecords) : File :=
  if s.dynamicRecordsPath = "" then s.file else .records (dynamicRecordEntries records)

/-- **How a call that asks for changes ends**, `m` being the records with the accepted changes. -/
inductive Outcome (s : EmbeddedServer) (env : Surroundings) (reqs : List (Except DynamicError Change))
    (m : DynamicRecords) : EmbeddedServer × Bool → Prop
  /-- A change was refused, after the ones before it. -/
  | refused (e : DynamicError) (herr : firstError reqs = some e) :
      Outcome s env reqs m ({ s with dynamicRecords := m }, false)
  /-- The file could not be written. -/
  | unsaved (herr : firstError reqs = none) (hsave : ¬CanPersist s env) :
      Outcome s env reqs m ({ s with dynamicRecords := m }, false)
  /-- All changes are made and saved. -/
  | saved (herr : firstError reqs = none) (hsave : CanPersist s env) :
      Outcome s env reqs m ({ s with dynamicRecords := m, file := s.saved m, serialAt := env.now }, true)

variable {lib} {s s₀ s' : EmbeddedServer} {c : Call} {env : Surroundings}
  {reqs : List (Except DynamicError Change)}

/-- However the call ends, the accepted changes are in memory, and nothing else has changed there but
the serial number. -/
theorem Outcome.memory (h : Outcome s env reqs m (s', ok)) :
    s'.dynamicRecords = m ∧ s'.records = s.records ∧ s'.zones = s.zones ∧ s'.ttl = s.ttl ∧
      s'.dynamicRecordsPath = s.dynamicRecordsPath ∧ s'.dynamicLoaded = s.dynamicLoaded := by
  cases h <;> exact ⟨rfl, rfl, rfl, rfl, rfl, rfl⟩

theorem Outcome.file (h : Outcome s env reqs m (s', ok)) :
    s'.file = s.file ∨ s'.file = .records (dynamicRecordEntries m) := by
  cases h with
  | refused | unsaved => exact Or.inl rfl
  | saved =>
    show s.saved m = s.file ∨ s.saved m = _
    rw [EmbeddedServer.saved]
    split
    · exact Or.inl rfl
    · exact Or.inr rfl

theorem persistDynamicRecords_cases (s : EmbeddedServer) (env : Surroundings) :
    CanPersist s env ∧ s.persistDynamicRecords env = some { s with file := s.saved s.dynamicRecords } ∨
      ¬CanPersist s env ∧ s.persistDynamicRecords env = none := by
  rw [persistDynamicRecords, saved, CanPersist]
  by_cases hpath : s.dynamicRecordsPath = ""
  · exact Or.inl ⟨Or.inl hpath, by rw [if_pos hpath, if_pos hpath]⟩
  · by_cases hwrite : env.writable = true
    · simp [hpath, hwrite]
    · simp [hpath, hwrite]

variable (lib) in
theorem ensureDynamicRecordsLoaded_of_loaded (env : Surroundings) (h : s.dynamicLoaded = true) :
    s.ensureDynamicRecordsLoaded lib env = some s := if_pos h

/-- Loading changes the dynamic records only. -/
theorem ensureDynamicRecordsLoaded_eq_some (h : s.ensureDynamicRecordsLoaded lib env = some s₀) :
    s₀ = s ∧ s.dynamicLoaded = true ∨
      s.dynamicLoaded = false ∧ (s₀ = { s with dynamicLoaded := true } ∨
        ∃ entries, s.file = .records entries ∧
          s₀ = { s with dynamicRecords := readEntries lib s.ttl env.modTime entries
                        dynamicLoaded := true }) := by
  rw [ensureDynamicRecordsLoaded] at h
  split at h
  · rename_i hloaded
    exact Or.inl ⟨(Option.some.inj h).symm, hloaded⟩
  · rename_i hloaded
    refine Or.inr ⟨by simpa using hloaded, ?_⟩
    obtain ⟨s₁, hload, rfl⟩ := Option.map_eq_some_iff.mp h
    simp only [loadDynamicRecords] at hload
    split at hload
    · exact Or.inl (by rw [Option.some.inj hload])
    · split at hload
      · split at hload
        · exact Or.inl (by rw [Option.some.inj hload])
        · cases hload
        · rename_i entries hfile
          exact Or.inr ⟨entries, hfile, by rw [← Option.some.inj hload]⟩
      · cases hload

theorem loaded_of_ensure (h : s.ensureDynamicRecordsLoaded lib env = some s₀) :
    s₀.dynamicLoaded = true := by
  rcases ensureDynamicRecordsLoaded_eq_some h with ⟨rfl, h⟩ | ⟨-, rfl | ⟨_, -, rfl⟩⟩
  · exact h
  · rfl
  · rfl

variable (lib) in
/-- **A call that asks for changes**, of a server whose records are loaded. -/
theorem call_outcome (env : Surroundings) (hloaded : s.dynamicLoaded = true) (hc : c.IsChange) :
    ∃ m : DynamicRecords, m.get = effects (accepted (requested lib s c env)) s.dynamicRecords.get ∧
      Outcome s env (requested lib s c env) m (call lib s c env) := by
  have hensure := ensureDynamicRecordsLoaded_of_loaded lib env hloaded
  cases c with
  | sync _ | list | restart => exact hc.elim
  | upsert record =>
    simp only [call, requested, upsertDynamicRecord]
    cases s.validateDynamicRecordShape lib record with
    | error e => exact ⟨s.dynamicRecords, rfl, Outcome.refused e rfl⟩
    | ok shape =>
      obtain ⟨name, rrType, ttl, values⟩ := shape
      simp only [hensure]
      cases s.validateDynamicRecordPlacement name rrType with
      | error e => exact ⟨s.dynamicRecords, rfl, Outcome.refused e rfl⟩
      | ok =>
        refine ⟨_, get_set_eq (c := .put name rrType ttl values env.now) (fun _ _ => Iff.rfl) rfl, ?_⟩
        have hsave := persistDynamicRecords_cases
          { s with dynamicRecords := s.dynamicRecords.set name rrType (RecordSet.replacement
            (s.dynamicRecords.get name rrType) ttl values env.now) } env
        rcases hsave with ⟨hcan, heq⟩ | ⟨hcan, heq⟩
        · simp only [heq]
          exact Outcome.saved rfl hcan
        · simp only [heq]
          exact Outcome.unsaved rfl hcan
  | delete rawName rawType =>
    simp only [call, requested, deleteDynamicRecord]
    cases canonicalFQDN lib rawName with
    | none => exact ⟨s.dynamicRecords, rfl, Outcome.refused .format rfl⟩
    | some name => cases dynamicTypeFromName rawType with
      | none => exact ⟨s.dynamicRecords, rfl, Outcome.refused .unsupported rfl⟩
      | some rrType =>
        simp only [hensure]
        refine ⟨_, get_deleteDynamicRecordSet name rrType, ?_⟩
        rcases persistDynamicRecords_cases
          { s with dynamicRecords := deleteDynamicRecordSet s.dynamicRecords name rrType } env
          with ⟨hcan, heq⟩ | ⟨hcan, heq⟩
        · simp only [heq]
          exact Outcome.saved rfl hcan
        · simp only [heq]
          exact Outcome.unsaved rfl hcan
  | update msg =>
    simp only [call, requested, serveDynamicUpdate]
    split
    · exact ⟨s.dynamicRecords, rfl, Outcome.refused .format rfl⟩
    · cases updateZone lib msg with
      | none => exact ⟨s.dynamicRecords, rfl, Outcome.refused .format rfl⟩
      | some zone =>
        dsimp only
        split
        · exact ⟨s.dynamicRecords, rfl, Outcome.refused .notZone rfl⟩
        · simp only [hensure]
          obtain ⟨herr, hget⟩ := applyDynamicUpdates_spec lib s.ttl zone msg.updates
            env.changedAt s.dynamicRecords
          refine ⟨_, hget, ?_⟩
          cases hres : (applyDynamicUpdates lib s.ttl zone msg.updates env.changedAt
            s.dynamicRecords).2 with
          | some e =>
            have hne : decide (updateErrorCode e = .success) = false := by cases e <;> rfl
            simp only [hne]
            exact Outcome.refused e (herr.symm.trans hres)
          | none =>
            rcases persistDynamicRecords_cases { s with dynamicRecords := (applyDynamicUpdates lib
              s.ttl zone msg.updates env.changedAt s.dynamicRecords).1 } env
              with ⟨hcan, heq⟩ | ⟨hcan, heq⟩
            · simp only [heq]
              exact Outcome.saved (herr.symm.trans hres) hcan
            · simp only [heq]
              exact Outcome.unsaved (herr.symm.trans hres) hcan

variable (lib) in
/-- A call that asks for changes fails before the records are loaded, or is one of the server with the
records loaded. -/
theorem call_of_ensure (s : EmbeddedServer) (env : Surroundings) (hc : c.IsChange) :
    call lib s c env = (s, false) ∨
      ∃ s₀, s.ensureDynamicRecordsLoaded lib env = some s₀ ∧
        call lib s c env = call lib s₀ c env := by
  have hloaded : ∀ {s₀}, s.ensureDynamicRecordsLoaded lib env = some s₀ →
      s₀.ensureDynamicRecordsLoaded lib env = some s₀ ∧ s₀.zones = s.zones ∧ s₀.ttl = s.ttl := by
    intro s₀ h
    refine ⟨ensureDynamicRecordsLoaded_of_loaded lib env (loaded_of_ensure h), ?_⟩
    rcases ensureDynamicRecordsLoaded_eq_some h with ⟨rfl, -⟩ | ⟨-, rfl | ⟨_, -, rfl⟩⟩ <;>
      exact ⟨rfl, rfl⟩
  cases c with
  | sync _ | list | restart => exact hc.elim
  | upsert record =>
    cases hshape : s.validateDynamicRecordShape lib record with
    | error => exact Or.inl (by simp only [call, upsertDynamicRecord, hshape]; rfl)
    | ok shape => cases hensure : s.ensureDynamicRecordsLoaded lib env with
      | none =>
        exact Or.inl (by simp only [call, upsertDynamicRecord, hshape, hensure]; rfl)
      | some s₀ =>
        obtain ⟨hload, -, httl⟩ := hloaded hensure
        have hshape' : s₀.validateDynamicRecordShape lib record = .ok shape := by
          rw [← hshape, validateDynamicRecordShape,
            validateDynamicRecordShape, httl]
        refine Or.inr ⟨s₀, rfl, ?_⟩
        simp only [call, upsertDynamicRecord, hensure, hload, hshape', hshape]
  | delete rawName rawType =>
    cases hname : canonicalFQDN lib rawName with
    | none => exact Or.inl (by simp only [call, deleteDynamicRecord, hname]; rfl)
    | some => cases htype : dynamicTypeFromName rawType with
      | none =>
        exact Or.inl (by simp only [call, deleteDynamicRecord, hname, htype]; rfl)
      | some =>
        simp only [call, deleteDynamicRecord, hname, htype]
        cases hensure : s.ensureDynamicRecordsLoaded lib env with
        | none => exact Or.inl rfl
        | some s₀ => exact Or.inr ⟨s₀, rfl, by simp only [(hloaded hensure).1]⟩
  | update msg =>
    by_cases hunpack : msg.unpacks = false
    · exact Or.inl (by simp only [call, serveDynamicUpdate, if_pos hunpack]; rfl)
    simp only [call, serveDynamicUpdate, if_neg hunpack]
    cases updateZone lib msg with
    | none => exact Or.inl rfl
    | some zone =>
      by_cases hmem : zone ∉ s.zones
      · exact Or.inl (by simp only [if_pos hmem]; rfl)
      cases hensure : s.ensureDynamicRecordsLoaded lib env with
      | none => exact Or.inl (by simp only [if_neg hmem]; rfl)
      | some s₀ =>
        obtain ⟨hload, hzones, -⟩ := hloaded hensure
        exact Or.inr ⟨s₀, rfl, by simp only [hload, hzones, if_neg hmem]⟩

/-- **All that a step can do.** -/
inductive Stepped (lib : NameLib) (s : EmbeddedServer) (c : Call) (env : Surroundings) :
    EmbeddedServer → Prop
  /-- The call fails at once. -/
  | idle : Stepped lib s c env s
  | restarted (hc : c = .restart) : Stepped lib s c env s.restart
  /-- The records are listed. -/
  | listed {s₀ : EmbeddedServer} (hload : s.ensureDynamicRecordsLoaded lib env = some s₀) :
      Stepped lib s c env s₀
  | synced {s₀ : EmbeddedServer} (inv : Inventory) (hc : c = .sync (some inv))
      (hload : s.ensureDynamicRecordsLoaded lib env = some s₀) :
      Stepped lib s c env
        { s₀ with zones := (collect lib inv).zones
                  records := (collect lib inv).records
                  serialAt := env.now }
  /-- Changes are asked for. -/
  | changed {s₀ s' : EmbeddedServer} {ok : Bool} {m : DynamicRecords} (hc : c.IsChange)
      (hload : s.ensureDynamicRecordsLoaded lib env = some s₀)
      (hget : m.get = effects (accepted (requested lib s₀ c env)) s₀.dynamicRecords.get)
      (hout : Outcome s₀ env (requested lib s₀ c env) m (s', ok)) : Stepped lib s c env s'

theorem step_cases (h : step lib s (c, env) = some s') : Stepped lib s c env s' := by
  cases h
  have hchange : c.IsChange → Stepped lib s c env (call lib s c env).1 := by
    intro hc
    rcases call_of_ensure lib s env hc with heq | ⟨s₀, hload, heq⟩
    · rw [heq]
      exact Stepped.idle
    · obtain ⟨m, hget, hout⟩ := call_outcome lib env (loaded_of_ensure hload) hc
      rw [heq]
      exact Stepped.changed hc hload hget hout
  cases c with
  | upsert record | delete name type | update msg => exact hchange trivial
  | restart => exact Stepped.restarted rfl
  | list =>
    simp only [call, listDynamicRecords]
    cases hload : s.ensureDynamicRecordsLoaded lib env with
    | none => exact Stepped.idle
    | some => exact Stepped.listed hload
  | sync inv =>
    simp only [call, sync]
    cases inv with
    | none => exact Stepped.idle
    | some inv =>
      cases hload : s.ensureDynamicRecordsLoaded lib env with
      | none => exact Stepped.idle
      | some => exact Stepped.synced inv rfl hload

end Calls

end Gomi.Dns
