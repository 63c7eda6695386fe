import Gomi.Dns.Changes

/-!
# The serial number of the zones

A secondary server asks for a zone again when its serial number has grown, so a change of what is
served must make it grow. The server takes the second of its clock for the number, at each `Sync`
and at each change that has succeeded. Two changes within one second share a number
(`Gomi.Dns.two_contents_one_serial`), and the changes of a message that fails in the end are served
under the old one.

If each call comes in a later second than the last one that has set the number, and a call that
fails changes nothing (`Gomi.Dns.Spaced`), then two answers or two transfers that differ have
different numbers, and the later one has the larger (`Gomi.Dns.serial_identifies`).
-/

namespace Gomi.Dns

open Go EmbeddedServer

/-! ### Conditions -/

/-- The clock of a call is in a later second than that of the serial number, and in the range of
32-bit seconds. -/
def InLaterSecond (s : EmbeddedServer) (env : Surroundings) : Prop :=
  unix s.serialAt < unix env.now ∧ 0 < unix env.now ∧ unix env.now < 2 ^ 32

instance (s : EmbeddedServer) (env : Surroundings) : Decidable (InLaterSecond s env) :=
  inferInstanceAs (Decidable (_ ∧ _))

variable (lib : NameLib)

/-- A call that is refused at its first change, or is accepted and saved. -/
def WholeOrNothing (s : EmbeddedServer) (c : Call) (env : Surroundings) : Prop :=
  ∀ s₀ ∈ s.ensureDynamicRecordsLoaded lib env, accepted (requested lib s₀ c env) = [] ∨
    (∀ r ∈ requested lib s₀ c env, r.isOk = true) ∧ CanPersist s₀ env

instance (s : EmbeddedServer) (c : Call) (env : Surroundings) : Decidable (WholeOrNothing lib s c env) :=
  inferInstanceAs (Decidable (∀ s₀ ∈ s.ensureDynamicRecordsLoaded lib env, _))

/-- **What is asked of the calls**: one process, a second between two changes, and no change by a
call that fails. -/
def Spaced (s : EmbeddedServer) (c : Call × Surroundings) : Prop :=
  match c.1 with
  | .restart => False
  | .list => True
  | .sync _ => InLaterSecond s c.2
  | .upsert _ | .delete _ _ | .update _ => InLaterSecond s c.2 ∧ WholeOrNothing lib s c.1 c.2

instance (s : EmbeddedServer) : (c : Call × Surroundings) → Decidable (Spaced lib s c)
  | (.restart, _) => isFalse id
  | (.list, _) => isTrue trivial
  | (.sync _, env) => inferInstanceAs (Decidable (InLaterSecond s env))
  | (.upsert _, _) | (.delete _ _, _) | (.update _, _) => inferInstanceAs (Decidable (_ ∧ _))

/-! ### Runs -/

/-- The same records are served, under the same number. -/
structure SameServed (s s' : EmbeddedServer) : Prop where
  ttl : s'.ttl = s.ttl
  records : s'.records = s.records
  dynamicRecords : s'.dynamicRecords = s.dynamicRecords
  serialAt : s'.serialAt = s.serialAt

/-- Nothing has changed for a client, or the number has grown. -/
def Advanced (s s' : EmbeddedServer) : Prop := SameServed s s' ∨ unix s.serialAt < unix s'.serialAt

/-- A server that serves a zone has loaded its records and has a number. -/
structure Numbered (s : EmbeddedServer) : Prop where
  serving : s.zones = ∅ ∨ s.dynamicLoaded = true ∧ 0 < unix s.serialAt
  bound : unix s.serialAt < 2 ^ 32

section Runs

variable {lib} {s s₀ s' s'' : EmbeddedServer} {c : Call} {env : Surroundings}

theorem SameServed.refl (s : EmbeddedServer) : SameServed s s := ⟨rfl, rfl, rfl, rfl⟩

theorem Advanced.trans (h : Advanced s s') (h' : Advanced s' s'') : Advanced s s'' := by
  rcases h with h | h
  · rcases h' with h' | h'
    · left
      exact ⟨h'.ttl.trans h.ttl, h'.records.trans h.records, h'.dynamicRecords.trans h.dynamicRecords,
        h'.serialAt.trans h.serialAt⟩
    · right
      rwa [h.serialAt] at h'
  · rcases h' with h' | h'
    · right
      rwa [h'.serialAt]
    · exact Or.inr (h.trans h')

theorem Spaced.change (h : Spaced lib s (c, env)) (hc : c.IsChange) :
    InLaterSecond s env ∧ WholeOrNothing lib s c env := by
  cases c with
  | sync inv | list | restart => exact hc.elim
  | upsert => exact h
  | delete => exact h
  | update => exact h

/-- A change is saved under a new number, or there was none. -/
theorem Outcome.advanced {m : DynamicRecords} {ok : Bool}
    (hget : m.get = effects (accepted (requested lib s c env)) s.dynamicRecords.get)
    (hout : Outcome s env (requested lib s c env) m (s', ok))
    (hwhole : accepted (requested lib s c env) = [] ∨
      (∀ r ∈ requested lib s c env, r.isOk = true) ∧ CanPersist s env) :
    SameServed s s' ∨ s'.serialAt = env.now := by
  have hsame : accepted (requested lib s c env) = [] → m = s.dynamicRecords := by
    intro hnil
    rw [hnil, effects_nil] at hget
    exact TwoLevel.ext_get fun n t => congrFun (congrFun hget n) t
  cases hout with
  | refused e herr =>
    rcases hwhole with hnil | ⟨hall, -⟩
    · exact Or.inl ⟨rfl, rfl, hsame hnil, rfl⟩
    · exact absurd (firstError_eq_none_iff.mpr hall) (by simp [herr])
  | unsaved herr hsave =>
    rcases hwhole with hnil | ⟨-, hcan⟩
    · exact Or.inl ⟨rfl, rfl, hsame hnil, rfl⟩
    · exact absurd hcan hsave
  | saved => exact Or.inr rfl

/-- **One step**: what is served is as before, or the number has grown. -/
theorem advanced_of_step (hstep : step lib s (c, env) = some s') (hspaced : Spaced lib s (c, env))
    (hloaded : s.dynamicLoaded = true) : s'.dynamicLoaded = true ∧ Advanced s s' := by
  have hensure := ensureDynamicRecordsLoaded_of_loaded lib env hloaded
  cases step_cases hstep with
  | idle => exact ⟨hloaded, Or.inl (SameServed.refl s)⟩
  | restarted hc =>
    subst hc
    exact hspaced.elim
  | listed hload =>
    obtain rfl := Option.mem_unique hensure hload
    exact ⟨hloaded, Or.inl (SameServed.refl s)⟩
  | synced inv hc hload =>
    subst hc
    obtain rfl := Option.mem_unique hensure hload
    exact ⟨hloaded, Or.inr hspaced.1⟩
  | changed hc hload hget hout =>
    obtain rfl := Option.mem_unique hensure hload
    obtain ⟨hlater, hwhole⟩ := hspaced.change hc
    refine ⟨hout.memory.2.2.2.2.2.trans hloaded, ?_⟩
    rcases hout.advanced hget (hwhole s hload) with hsame | hserial
    · exact Or.inl hsame
    · right
      rw [hserial]
      exact hlater.1

theorem Numbered.step (h : Numbered s) (hstep : Dns.step lib s (c, env) = some s')
    (hspaced : Spaced lib s (c, env)) : Numbered s' := by
  have hzones : ∀ {s₀ : EmbeddedServer}, s.ensureDynamicRecordsLoaded lib env = some s₀ →
      s₀.zones = s.zones ∧ s₀.serialAt = s.serialAt := by
    intro s₀ hload
    rcases ensureDynamicRecordsLoaded_eq_some hload with ⟨rfl, -⟩ | ⟨-, rfl | ⟨_, -, rfl⟩⟩
    · exact ⟨rfl, rfl⟩
    · exact ⟨rfl, rfl⟩
    · exact ⟨rfl, rfl⟩
  cases step_cases hstep with
  | idle => exact h
  | restarted hc =>
    subst hc
    exact hspaced.elim
  | listed hload =>
    obtain ⟨hz, hs⟩ := hzones hload
    refine ⟨?_, hs ▸ h.bound⟩
    rcases h.serving with hempty | ⟨-, hpos⟩
    · exact Or.inl (hz.trans hempty)
    · exact Or.inr ⟨loaded_of_ensure hload, hs ▸ hpos⟩
  | synced inv hc hload =>
    subst hc
    have hloaded := loaded_of_ensure hload
    exact ⟨Or.inr ⟨hloaded, hspaced.2.1⟩, hspaced.2.2⟩
  | changed hc hload hget hout =>
    obtain ⟨hz, hs⟩ := hzones hload
    obtain ⟨hlater, hwhole⟩ := hspaced.change hc
    obtain ⟨-, -, hz', -, -, hl'⟩ := hout.memory
    have hserial : unix s'.serialAt = unix s.serialAt ∨ s'.serialAt = env.now := by
      rcases hout.advanced hget (hwhole _ hload) with hsame | hnow
      · exact Or.inl (by rw [hsame.serialAt, hs])
      · exact Or.inr hnow
    constructor
    · rcases h.serving with hempty | ⟨-, hpos⟩
      · exact Or.inl (hz'.trans (hz.trans hempty))
      · refine Or.inr ⟨hl'.trans (loaded_of_ensure hload), ?_⟩
        rcases hserial with heq | heq
        · rwa [heq]
        · rw [heq]
          exact hlater.2.1
    · rcases hserial with heq | heq
      · rw [heq]
        exact h.bound
      · rw [heq]
        exact hlater.2.2

/-! ### What clients see -/

theorem toNat_serial (now : Time) (hpos : 0 < unix s.serialAt) (hbound : unix s.serialAt < 2 ^ 32) :
    ((s.serial now).toNat : ℤ) = unix s.serialAt := by
  have hserial : ((serialOf s.serialAt).toNat : ℤ) = unix s.serialAt := by
    rw [serialOf, Int.emod_eq_of_lt hpos.le hbound, UInt32.toNat_ofNat_of_lt']
    · exact Int.toNat_of_nonneg hpos.le
    · have : UInt32.size = 2 ^ 32 := rfl
      omega
  have hne : serialOf s.serialAt ≠ 0 := by
    intro h0
    rw [h0] at hserial
    have : ((0 : UInt32).toNat : ℤ) = 0 := rfl
    omega
  rw [serial, if_neg hne, hserial]

/-- **The serial number identifies what is served.** A server that is new on any file has served a
zone, and some calls later again. If a transfer of the zone or the answer to a question differ,
the later number is the larger one. -/
theorem serial_identifies {ttl : UInt32} {path : String} {file : File}
    {calls₁ calls₂ : List (Call × Surroundings)} {s₁ s₂ : EmbeddedServer} {zone : String} {now₁ now₂ : Time}
    (hfirst : Steps (Under (Graph (step lib)) (Spaced lib))
      { ttl, dynamicRecordsPath := path, file } calls₁ s₁)
    (hlater : Steps (Under (Graph (step lib)) (Spaced lib)) s₁ calls₂ s₂)
    (hzone : zone ∈ s₁.zones) :
    (s₂.zoneRecords lib now₂ zone ≠ s₁.zoneRecords lib now₁ zone →
      s₁.serial now₁ < s₂.serial now₂) ∧
    ∀ zoneOrder typeOrder name qType,
      s₂.queryRecords lib zoneOrder typeOrder now₂ name qType ≠
        s₁.queryRecords lib zoneOrder typeOrder now₁ name qType →
      s₁.serial now₁ < s₂.serial now₂ := by
  have hinit : Numbered { ttl, dynamicRecordsPath := path, file } :=
    ⟨Or.inl rfl, (by decide : unix zeroTime < 2 ^ 32)⟩
  have hnum : ∀ {s s' : EmbeddedServer} {calls}, Steps (Under (Graph (step lib)) (Spaced lib)) s calls s' →
      Numbered s → Numbered s' := fun hrun hs =>
    hrun.invariant (I := Numbered) (fun hstep hs => hs.step hstep.1 hstep.2) hs
  have h₁ := hnum hfirst hinit
  have h₂ := hnum hlater h₁
  obtain ⟨hloaded, hpos⟩ : s₁.dynamicLoaded = true ∧ 0 < unix s₁.serialAt := by
    refine h₁.serving.resolve_left fun hempty => ?_
    rw [hempty] at hzone
    cases hzone
  have hadv : s₂.dynamicLoaded = true ∧ Advanced s₁ s₂ := by
    refine hlater.invariant (I := fun s => s.dynamicLoaded = true ∧ Advanced s₁ s) (fun hstep hs => ?_)
      ⟨hloaded, Or.inl (SameServed.refl s₁)⟩
    obtain ⟨hloaded', hnext⟩ := advanced_of_step hstep.1 hstep.2 hs.1
    exact ⟨hloaded', hs.2.trans hnext⟩
  rcases hadv.2 with hsame | hgrown
  · -- nothing has changed, so nothing differs
    have hserial : s₂.serial now₂ = s₁.serial now₁ := by
      refine UInt32.toNat_inj.mp (Int.ofNat_inj.mp ?_)
      rw [toNat_serial now₁ hpos h₁.bound, toNat_serial now₂ (hsame.serialAt ▸ hpos) h₂.bound, hsame.serialAt]
    have hzone : s₂.zoneRecords lib now₂ zone = s₁.zoneRecords lib now₁ zone := by
      simp only [zoneRecords, soaRR, nsRR, staticRRs, hsame.ttl, hsame.records, hsame.dynamicRecords,
        hserial]
    refine ⟨fun hne => absurd hzone hne, fun _ _ name qType hne => absurd ?_ hne⟩
    have hanswers : s₂.dynamicAnswers lib name qType = s₁.dynamicAnswers lib name qType := by
      funext rrType
      rw [dynamicAnswers, dynamicAnswers, hsame.dynamicRecords]
    simp only [queryRecords, staticRRs, apexRRs, soaRR, nsRR, hanswers, hsame.ttl, hsame.records,
      hsame.dynamicRecords, hserial]
  · have hlt : s₁.serial now₁ < s₂.serial now₂ := by
      have hn₁ := toNat_serial now₁ hpos h₁.bound
      have hn₂ := toNat_serial now₂ (hpos.trans hgrown) h₂.bound
      rw [UInt32.lt_iff_toNat_lt]
      omega
    exact ⟨fun _ => hlt, fun _ _ _ _ _ => hlt⟩

end Runs

/-- A record is added a second after the `Sync`. -/
theorem serial_identifies_added :
    ∃ (s₁ s₂ : EmbeddedServer) (calls₁ calls₂ : List (Call × Surroundings)),
      Steps (Under (Graph (step asciiNames)) (Spaced asciiNames)) sampleServer calls₁ s₁ ∧
      Steps (Under (Graph (step asciiNames)) (Spaced asciiNames)) s₁ calls₂ s₂ ∧
      s₂.zoneRecords asciiNames 0 "example.com." ≠ s₁.zoneRecords asciiNames 0 "example.com." ∧
      s₁.serial 0 < s₂.serial 0 := by
  have heval : ((executeUnder (step asciiNames) (fun s c => decide (Spaced asciiNames s c))
      sampleServer [(.sync (some sampleInventory), { now := 1000000000 })]).any fun s₁ =>
        s₁.zones.contains "example.com." &&
        (executeUnder (step asciiNames) (fun s c => decide (Spaced asciiNames s c)) s₁
          [(sampleUpdate [sampleRR "host.example.com." classINET (.a (some 0x0a000001))],
            { now := 2000000000 })]).any fun s₂ =>
          s₂.zoneRecords asciiNames 0 "example.com." ≠
            s₁.zoneRecords asciiNames 0 "example.com.") = true := by
    decide
  simp only [Option.any_eq_true, Bool.and_eq_true, decide_eq_true_eq] at heval
  obtain ⟨s₁, hrun₁, hzone, s₂, hrun₂, hne⟩ := heval
  have hsteps₁ := steps_under_of_execute hrun₁
  have hsteps₂ := steps_under_of_execute hrun₂
  refine ⟨s₁, s₂, _, _, hsteps₁, hsteps₂, hne, ?_⟩
  exact (serial_identifies hsteps₁ hsteps₂ (Std.ExtTreeSet.contains_iff_mem.mp hzone)).1 hne

/-- **Two contents under one serial number**: a record is added half a second after the `Sync`. -/
theorem two_contents_one_serial :
    ∃ (s₁ s₂ : EmbeddedServer),
      Steps (Graph (step asciiNames)) sampleServer
        [(.sync (some sampleInventory), { now := 1000000000 })] s₁ ∧
      Steps (Graph (step asciiNames)) s₁
        [(sampleUpdate [sampleRR "host.example.com." classINET (.a (some 0x0a000001))],
          { now := 1500000000 })] s₂ ∧
      "example.com." ∈ s₁.zones ∧
      s₂.zoneRecords asciiNames 0 "example.com." ≠ s₁.zoneRecords asciiNames 0 "example.com." ∧
      s₁.serial 0 = s₂.serial 0 := by
  have heval : ((execute (step asciiNames) sampleServer
      [(.sync (some sampleInventory), { now := 1000000000 })]).any fun s₁ =>
        s₁.zones.contains "example.com." &&
        (execute (step asciiNames) s₁
          [(sampleUpdate [sampleRR "host.example.com." classINET (.a (some 0x0a000001))],
            { now := 1500000000 })]).any fun s₂ =>
          s₂.zoneRecords asciiNames 0 "example.com." ≠
            s₁.zoneRecords asciiNames 0 "example.com." && s₁.serial 0 = s₂.serial 0) = true := by
    decide
  simp only [Option.any_eq_true, Bool.and_eq_true, decide_eq_true_eq] at heval
  obtain ⟨s₁, hrun₁, hzone, s₂, hrun₂, hne, hserial⟩ := heval
  exact ⟨s₁, s₂, steps_graph.mpr hrun₁, steps_graph.mpr hrun₂, Std.ExtTreeSet.contains_iff_mem.mp hzone,
    hne, hserial⟩

end Gomi.Dns
