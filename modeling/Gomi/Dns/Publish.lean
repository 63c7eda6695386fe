import Gomi.Dns.Rfc2136

/-!
# What the RFC 2136 controller publishes

After a `Sync` that returns nil, the remote server should have exactly the desired A records,
wherever the controller has written. It has, as long as the controller's map tells what the remote
server has. Two things break that (`Gomi.Dns.Rfc2136.stale_records`):

* a name moves to another zone, and the records in its old zone are never removed;
* an exchange is carried out and its answer is lost. The map is not changed then, and if the next
  `Sync` wants just what the map has, or nothing where it has nothing, nothing is sent.

A third one is the remote server's: it passes over an address at the name of a CNAME record, and
answers as if it had taken it.

Without the first and the third, and if the answer's loss is followed by a `Sync` that sends something
for the name (`Gomi.Dns.Rfc2136.Steady`), the desired records are published
(`Gomi.Dns.Rfc2136.sync_converges`). The invariant is that the map is right about every name that is
not in doubt (`Gomi.Dns.Rfc2136.Consistent`).
-/

namespace Gomi.Dns.Rfc2136

open Go

/-! ### Desired records -/

/-- The addresses that a map has for a zone and a name. -/
def published (records : Table RecordSet) (zone name : String) : Finset UInt32 :=
  match records[name]? with
  | some rec' => if rec'.zone = zone then rec'.ips.toFinset else ∅
  | none => ∅

/-- A map of records under their own names, with names and zones in canonical form. -/
def WellKeyed (lib : NameLib) (records : Table RecordSet) : Prop :=
  ∀ (n : String) (rec' : RecordSet), records[n]? = some rec' →
    rec'.name = n ∧ Canonical lib n ∧ Canonical lib rec'.zone

section Collect

variable {lib : NameLib} {c : Controller} {records : Table RecordSet}

theorem Canonical.ne_empty {n : String} (h : Canonical lib n) : n ≠ "" := by
  rw [← h.2]
  exact lib.canonical_ne_empty n

theorem canonical_of_canonicalFQDN {raw name : String} (h : canonicalFQDN lib raw = some name) :
    Canonical lib name := by
  obtain ⟨-, rfl, -, hname⟩ := canonicalFQDN_eq_some.mp h
  exact ⟨hname, lib.canonical_canonical _ hname⟩

theorem canonical_of_hostFQDN {hostname fallback domain name : String}
    (h : hostFQDN lib hostname fallback domain = some name) : Canonical lib name := by
  simp only [hostFQDN] at h
  generalize (if trim (trimSpace hostname) '.' = "" then trim (trimSpace fallback) '.'
    else trim (trimSpace hostname) '.') = host at h
  split at h
  · cases h
  · split at h
    · split at h
      · rename_i hname
        obtain rfl := Option.some.inj h
        exact ⟨hname, lib.canonical_canonical _ hname⟩
      · cases h
    · exact canonical_of_canonicalFQDN h

/-- The domains of the subnets are in canonical form. -/
theorem canonical_of_domainBySubnet {subnets : List Subnet} {ref zone : String}
    (h : (domainBySubnet lib subnets)[ref]? = some zone) : Canonical lib zone := by
  refine List.foldlRecOn (motive := fun domains : Table String =>
    ∀ ref zone : String, domains[ref]? = some zone → Canonical lib zone) subnets _ ?_ ?_ ref zone h
  · intro ref zone hnone
    cases hnone
  · intro domains hdomains sub _ ref zone hget
    split at hget
    · rename_i zone' hzone
      rcases Table.insert_cases hget with ⟨-, rfl⟩ | ⟨-, hget⟩
      · exact canonical_of_canonicalFQDN hzone
      · exact hdomains ref zone hget
    · exact hdomains ref zone hget

theorem canonical_of_zone {host : Host} {subnets : List Subnet} {domain : String}
    (h : host.zone lib (domainBySubnet lib subnets) = some domain) : Canonical lib domain := by
  rw [Host.zone] at h
  split at h
  · rename_i domain' hdomain
    obtain rfl := Option.some.inj h
    exact canonical_of_canonicalFQDN hdomain
  · split at h
    · cases h
    · rename_i hne
      obtain rfl := Option.some.inj h
      rw [Std.ExtTreeMap.getD_eq_getD_getElem?] at hne ⊢
      cases hget : (domainBySubnet lib subnets)[host.subnetRef]? with
      | none => exact absurd (by rw [hget]; rfl) hne
      | some zone => exact canonical_of_domainBySubnet hget

theorem WellKeyed.addRecord (h : WellKeyed lib records) (hzone : c.zone ≠ "" → Canonical lib c.zone)
    {name domain rawIP : String} (hname : Canonical lib name) (hdomain : Canonical lib domain) :
    WellKeyed lib (c.addRecord name domain records rawIP) := by
  simp only [Controller.addRecord]
  split
  · exact h
  · split
    · exact h
    · intro n rec' hget
      rcases Table.insert_cases hget with ⟨rfl, rfl⟩ | ⟨-, hget⟩
      · rw [Std.ExtTreeMap.getD_eq_getD_getElem?]
        cases hold : records[name]? with
        | none =>
          refine ⟨rfl, hname, ?_⟩
          show Canonical lib (if c.zone ≠ "" then c.zone else domain)
          split
          · exact hzone ‹_›
          · exact hdomain
        | some old =>
          obtain ⟨hn, hold⟩ := h name old hold
          have hne : ¬old.name = "" := hn ▸ hname.ne_empty
          rw [Option.getD_some, if_neg hne]
          exact ⟨hn, hold⟩
      · exact h n rec' hget

variable (lib) in
theorem canonical_zone (cfg : Config) (h : (newRFC2136Controller lib cfg).zone ≠ "") :
    Canonical lib (newRFC2136Controller lib cfg).zone := by
  simp only [newRFC2136Controller, canonicalOrEmpty] at h ⊢
  cases hzone : canonicalFQDN lib cfg.zone with
  | none => exact absurd (by rw [hzone]; rfl) h
  | some zone => exact canonical_of_canonicalFQDN hzone

/-- **The desired records are under their own names**, which are in canonical form. -/
theorem wellKeyed_collectRecords (hzone : c.zone ≠ "" → Canonical lib c.zone) (inv : Inventory) :
    WellKeyed lib (c.collectRecords lib inv) := by
  refine List.foldlRecOn _ _ (fun n rec' h => ?_) fun records h host _ => ?_
  · cases h
  · rw [Controller.addHost]
    split
    · exact h
    · rename_i domain hdomain
      split
      · exact h
      · rename_i name hname
        exact List.foldlRecOn host.ips _ h fun _ h _ _ =>
          h.addRecord hzone (canonical_of_hostFQDN hname) (canonical_of_zone hdomain)

theorem equalRecordSet_iff {a b : RecordSet} : equalRecordSet a b = true ↔ a = b := by
  have hzip : ∀ l l' : List UInt32,
      (l.length = l'.length ∧ (l.zip l').all (fun p => decide (p.1 = p.2)) = true) ↔ l = l' := by
    intro l l'
    rw [← List.forall₂_eq_eq_eq, List.forall₂_iff_zip]
    simp
  cases a
  cases b
  simp only [equalRecordSet, Bool.and_eq_true, decide_eq_true_eq, RecordSet.mk.injEq, and_assoc, hzip]
  tauto

end Collect

/-! ### Messages -/

section Messages

variable {lib : NameLib} {S : RemoteServer} {zone n : String} {msg : List RR}

/-- **A message about the addresses of one name.** -/
def Addressing (n : String) (msg : List RR) : Prop := ∀ rr ∈ msg, rr.name = n ∧ rr.rrType = typeA

theorem addressing_replaceA (c : Controller) (rec' : RecordSet) :
    Addressing rec'.name (c.replaceA rec') := by
  intro rr hrr
  rcases List.mem_cons.mp hrr with rfl | hrr
  · exact ⟨rfl, rfl⟩
  · obtain ⟨ip, -, rfl⟩ := List.mem_map.mp hrr
    exact ⟨rfl, rfl⟩

theorem addressing_deleteA (rec' : RecordSet) : Addressing rec'.name (deleteA rec') := by
  intro rr hrr
  rw [List.mem_singleton.mp hrr]
  exact ⟨rfl, rfl⟩

/-- It leaves the CNAME records alone. -/
theorem Conforms.hasCNAME_apply (h : Conforms lib S) (hmsg : Addressing n msg) (s : S.State)
    (zone z m : String) : S.hasCNAME (S.apply s zone msg) z m = S.hasCNAME s z m :=
  List.foldlRecOn msg _ (motive := fun s' => S.hasCNAME s' z m = S.hasCNAME s z m) rfl
    fun s' ih rr hrr => (h.hasCNAME s' rr zone z m (hmsg rr hrr).2).trans ih

/-- It leaves the addresses of the other names alone. -/
theorem Conforms.addresses_apply (h : Conforms lib S) (hmsg : Addressing n msg) (s : S.State)
    (hzone : Plain lib zone) (hn : Plain lib n) {z m : String} (hz : Plain lib z) (hm : Plain lib m)
    (hne : ¬(z = zone ∧ m = n)) : S.addresses (S.apply s zone msg) z m = S.addresses s z m := by
  refine List.foldlRecOn msg _ (motive := fun s' => S.addresses s' z m = S.addresses s z m) rfl
    fun s' ih rr hrr => ?_
  obtain ⟨rfl, -⟩ := hmsg rr hrr
  exact (h.elsewhere s' rr hzone hn hz hm hne).trans ih

/-- Addresses are added one by one. -/
theorem Conforms.addresses_add (h : Conforms lib S) (hzone : Plain lib zone) (hn : Plain lib n)
    (ttl : UInt32) (ips : List UInt32) {s : S.State} (hcname : S.hasCNAME s zone n = false) :
    S.addresses (S.apply s zone (ips.map (addressRR n ttl))) zone n =
      S.addresses s zone n ∪ ips.toFinset := by
  induction ips generalizing s with
  | nil => exact (Finset.union_empty _).symm
  | cons ip ips ih =>
    have hcname' : S.hasCNAME (S.update s zone (addressRR n ttl ip)) zone n = false :=
      (h.hasCNAME s _ zone zone n rfl).trans hcname
    have hstep : S.apply s zone ((ip :: ips).map (addressRR n ttl)) =
        S.apply (S.update s zone (addressRR n ttl ip)) zone (ips.map (addressRR n ttl)) := rfl
    rw [hstep, ih hcname', h.add s ttl ip hzone hn hcname, List.toFinset_cons, Finset.insert_union,
      Finset.union_insert]

variable {rec' : RecordSet} {s : S.State}

/-- **`replaceA` leaves the given addresses.** -/
theorem Conforms.addresses_replaceA (h : Conforms lib S) (c : Controller) (hzone : Plain lib rec'.zone)
    (hname : Plain lib rec'.name) (hcname : S.hasCNAME s rec'.zone rec'.name = false) :
    S.addresses (S.apply s rec'.zone (c.replaceA rec')) rec'.zone rec'.name = rec'.ips.toFinset := by
  have hcname' : S.hasCNAME (S.update s rec'.zone (deleteARRSet rec'.name)) rec'.zone rec'.name = false :=
    (h.hasCNAME s _ _ _ _ rfl).trans hcname
  have hadd := h.addresses_add hzone hname c.ttl rec'.ips hcname'
  rw [h.delete s hzone hname, Finset.empty_union] at hadd
  exact hadd

end Messages

/-! ### Exchanges -/

section Exchanges

variable {lib : NameLib} {decodes : String → Bool} {S : RemoteServer} {c : Controller}
  {s s' : System S} {n zone : String} {r : S.State}

variable (lib) in
/-- **The map is right about every name that is not in doubt.** -/
structure Consistent (s : System S) : Prop where
  /-- The records of the map are under their own names. -/
  named : ∀ (n : String) (rec' : RecordSet), s.last[n]? = some rec' → rec'.name = n
  /-- A doubt is about the zone that the map has. -/
  zoned : ∀ (n : String) (rec' : RecordSet) (z : String), s.last[n]? = some rec' →
    s.doubtful[n]? = some z → rec'.zone = z
  /-- The controller writes under plain names, and where the map says that it has. -/
  plain : ∀ z n : String, (z, n) ∈ s.written → Plain lib z ∧ Plain lib n
  written : ∀ (n : String) (rec' : RecordSet), s.last[n]? = some rec' → (rec'.zone, n) ∈ s.written
  /-- Where the controller has written, the remote server has what the map says. -/
  remote : ∀ z n : String, (z, n) ∈ s.written → s.doubtful[n]? ≠ some z →
    S.addresses s.remote z n = published s.last z n

/-- The zone that a name's records are in, as far as the controller has any. -/
def System.InZone (s : System S) (n zone : String) : Prop :=
  (∀ rec' ∈ s.last[n]?, rec'.zone = zone) ∧ ∀ z ∈ s.doubtful[n]?, z = zone

instance (s : System S) (n zone : String) : Decidable (s.InZone n zone) :=
  inferInstanceAs (Decidable (_ ∧ _))

theorem published_of_ne {records : Table RecordSet} {z : String}
    (h : ∀ rec' ∈ records[n]?, rec'.zone = zone) (hz : z ≠ zone) : published records z n = ∅ := by
  rw [published]
  split
  · rename_i rec' hget
    rw [if_neg]
    rw [h rec' hget]
    exact hz.symm
  · rfl

theorem Consistent.plain_cons (h : Consistent lib s) (hzone : Plain lib zone) (hn : Plain lib n)
    (z m : String) (hmem : (z, m) ∈ (zone, n) :: s.written) : Plain lib z ∧ Plain lib m := by
  rcases List.mem_cons.mp hmem with heq | hmem
  · obtain ⟨rfl, rfl⟩ := Prod.mk.inj heq
    exact ⟨hzone, hn⟩
  · exact h.plain z m hmem

/-- An exchange for a name, in its zone, whose answer is lost. -/
theorem Consistent.lost (h : Consistent lib s) (hplain : Plain lib zone ∧ Plain lib n)
    (hzone : s.InZone n zone)
    (hr : ∀ z m, Plain lib z → Plain lib m → ¬(z = zone ∧ m = n) →
      S.addresses r z m = S.addresses s.remote z m) :
    Consistent lib { s with remote := r, written := (zone, n) :: s.written
                            doubtful := s.doubtful.insert n zone } := by
  refine ⟨h.named, fun m rec' z hlast hdoubt => ?_, h.plain_cons hplain.1 hplain.2,
    fun m rec' hlast => List.mem_cons_of_mem _ (h.written m rec' hlast), fun z m hmem hdoubt => ?_⟩
  · rcases Table.insert_cases hdoubt with ⟨rfl, rfl⟩ | ⟨-, hdoubt⟩
    · exact hzone.1 rec' hlast
    · exact h.zoned m rec' z hlast hdoubt
  · have hdoubt' : (if n = m then some zone else s.doubtful[m]?) ≠ some z := by
      rwa [← Table.get_insert]
    have hne : ¬(z = zone ∧ m = n) := by
      rintro ⟨rfl, rfl⟩
      exact hdoubt' (if_pos rfl)
    have hold := (List.mem_cons.mp hmem).resolve_left fun heq => hne (Prod.mk.inj heq)
    obtain ⟨hz, hm⟩ := h.plain z m hold
    show S.addresses r z m = published s.last z m
    rw [hr z m hz hm hne]
    refine h.remote z m hold fun hz => ?_
    -- the doubt about another zone of this name would be about this one
    by_cases hm : n = m
    · subst hm
      exact hne ⟨hzone.2 z hz, rfl⟩
    · rw [if_neg hm] at hdoubt'
      exact hdoubt' hz

/-- An exchange that is answered, after which the map has the name's new records. -/
theorem Consistent.answered (h : Consistent lib s) (hplain : Plain lib zone ∧ Plain lib n)
    (hzone : s.InZone n zone) {last : Table RecordSet}
    (hr : ∀ z m, Plain lib z → Plain lib m → ¬(z = zone ∧ m = n) →
      S.addresses r z m = S.addresses s.remote z m)
    (hlast : ∀ m : String, m ≠ n → last[m]? = s.last[m]?)
    (hnew : ∀ rec' ∈ last[n]?, rec'.name = n ∧ rec'.zone = zone)
    (hnewr : S.addresses r zone n = published last zone n) :
    Consistent lib { s with last, remote := r, written := (zone, n) :: s.written
                            doubtful := s.doubtful.erase n } := by
  refine ⟨fun m rec' hget => ?_, fun m rec' z hget hdoubt => ?_, h.plain_cons hplain.1 hplain.2,
    fun m rec' hget => ?_, fun z m hmem hdoubt => ?_⟩
  · by_cases hm : m = n
    · subst hm
      exact (hnew rec' hget).1
    · exact h.named m rec' ((hlast m hm).symm.trans hget)
  · obtain ⟨hm, hdoubt⟩ := Table.erase_cases hdoubt
    exact h.zoned m rec' z ((hlast m hm.symm).symm.trans hget) hdoubt
  · by_cases hm : m = n
    · subst hm
      rw [(hnew rec' hget).2]
      exact List.mem_cons_self
    · exact List.mem_cons_of_mem _ (h.written m rec' ((hlast m hm).symm.trans hget))
  · obtain ⟨hzp, hmp⟩ := h.plain_cons hplain.1 hplain.2 z m hmem
    show S.addresses r z m = published last z m
    by_cases hm : m = n
    · subst hm
      by_cases hz : z = zone
      · rw [hz, hnewr]
      · have hold := (List.mem_cons.mp hmem).resolve_left fun heq => hz (Prod.mk.inj heq).1
        have hnot : s.doubtful[m]? ≠ some z := fun hd => hz (hzone.2 z hd)
        rw [hr z m hzp hmp fun heq => hz heq.1, h.remote z m hold hnot, published_of_ne hzone.1 hz,
          published_of_ne (fun rec' hget => (hnew rec' hget).2) hz]
    · have hold := (List.mem_cons.mp hmem).resolve_left fun heq => hm (Prod.mk.inj heq).2
      have hnot : s.doubtful[m]? ≠ some z := by
        intro hd
        have herase : (s.doubtful.erase n)[m]? = some z := by
          rw [Table.get_erase, if_neg fun heq => hm heq.symm, hd]
        exact hdoubt herase
      rw [hr z m hzp hmp fun heq => hm heq.2, h.remote z m hold hnot, published, published, hlast m hm]

end Exchanges

/-! ### The loops -/

section Loops

variable {lib : NameLib} {decodes : String → Bool} {S : RemoteServer} {c : Controller}
  {desired : Table RecordSet} {exchanges : String → Exchange} {key n : String} {s s' : System S} {ok : Bool}

/-- What the controller has about a name: the map's records, and the zone of a doubt. -/
def System.view (s : System S) (n : String) : Option RecordSet × Option String :=
  (s.last[n]?, s.doubtful[n]?)

/-- A name has given records in the map, and is not in doubt. -/
def Settled (records : Option RecordSet) (view : Option RecordSet × Option String) : Prop :=
  view = (records, none)

/-- No desired name is that of a CNAME record. -/
def Unaliased (desired : Table RecordSet) (s : System S) : Prop :=
  ∀ (n : String) (rec' : RecordSet), desired[n]? = some rec' → S.hasCNAME s.remote rec'.zone n = false

/-- **An exchange for a name, in its zone.** If it is answered, the map is changed at the name, and the
doubt about it is gone. -/
theorem Consistent.exchanged {zone : String} {msg : List RR} {exchange : Exchange}
    {f : Table RecordSet → Table RecordSet} (hS : Conforms lib S) (hs : Consistent lib s)
    (hplain : Plain lib zone ∧ Plain lib key) (hzone : s.InZone key zone)
    (hmsg : Addressing key msg) (hother : ∀ m, m ≠ key → (f s.last)[m]? = s.last[m]?)
    (hnew : ∀ rec' ∈ (f s.last)[key]?, rec'.name = key ∧ rec'.zone = zone)
    (hremote : S.addresses (S.apply s.remote zone msg) zone key = published (f s.last) zone key)
    (h : (match s.exchangeUpdate decodes c zone key msg exchange with
      | (s, false) => (s, false)
      | (s, true) => ({ s with last := f s.last }, true)) = (s', ok)) :
    (Consistent lib s' ∧ ∀ desired, Unaliased desired s → Unaliased desired s') ∧
      (∀ n, n ≠ key → s'.view n = s.view n) ∧ (ok = true → Settled (f s.last)[key]? (s'.view key)) := by
  have hr : ∀ z m, Plain lib z → Plain lib m → ¬(z = zone ∧ m = key) →
      S.addresses (S.apply s.remote zone msg) z m = S.addresses s.remote z m :=
    fun z m hz hm => hS.addresses_apply hmsg s.remote hplain.1 hplain.2 hz hm
  have halias : ∀ {last : Table RecordSet} {written : List (String × String)} {doubtful : Table String}
      (desired : Table RecordSet), Unaliased desired s → Unaliased desired
        ({ last, remote := S.apply s.remote zone msg, written, doubtful } : System S) :=
    fun _ hnone n rec' hrec => (hS.hasCNAME_apply hmsg _ _ _ _).trans (hnone n rec' hrec)
  unfold System.exchangeUpdate at h
  by_cases hsends : c.sends decodes = false
  · rw [if_pos hsends] at h
    obtain ⟨rfl, rfl⟩ := Prod.mk.inj h
    exact ⟨⟨hs, fun _ => id⟩, fun _ _ => rfl, by simp⟩
  rw [if_neg hsends] at h
  cases exchange <;> obtain ⟨rfl, rfl⟩ := Prod.mk.inj h
  case refused => exact ⟨⟨hs, fun _ => id⟩, fun _ _ => rfl, by simp⟩
  case lost =>
    refine ⟨⟨hs.lost hplain hzone hr, halias⟩, fun n hn => Prod.ext rfl ?_, by simp⟩
    exact (Table.get_insert _ _ _ _).trans (if_neg hn.symm)
  case answered =>
    refine ⟨⟨hs.answered hplain hzone hr hother hnew hremote, halias⟩,
      fun n hn => Prod.ext (hother n hn) ?_, fun _ => Prod.ext rfl ?_⟩
    · exact (Table.get_erase _ _ _).trans (if_neg hn.symm)
    · exact (Table.get_erase _ _ _).trans (if_pos rfl)

/-- What the first loop needs of a name: its records stay in their zone, and it is not in doubt if the
map has what is desired. -/
def Replaceable (desired : Table RecordSet) (n : String) (view : Option RecordSet × Option String) : Prop :=
  ∀ rec' ∈ desired[n]?, (∀ old ∈ view.1, old.zone = rec'.zone) ∧ (∀ z ∈ view.2, z = rec'.zone) ∧
    (view.1 = some rec' → view.2 = none)

variable (lib) in
/-- The desired records are under their own names, and these and their zones are plain. -/
def PlainlyKeyed (desired : Table RecordSet) : Prop :=
  ∀ (n : String) (rec' : RecordSet), desired[n]? = some rec' →
    rec'.name = n ∧ Plain lib rec'.zone ∧ Plain lib n

/-- **A turn of the first loop.** -/
theorem replaceTurn_spec (hS : Conforms lib S) (hdesired : PlainlyKeyed lib desired)
    (hs : Consistent lib s ∧ Unaliased desired s) (hkey : Replaceable desired key (s.view key))
    (h : replaceTurn decodes c desired exchanges key s = (s', ok)) :
    (Consistent lib s' ∧ Unaliased desired s') ∧ (∀ n, n ≠ key → s'.view n = s.view n) ∧
      (ok = true → ∀ rec' ∈ desired[key]?, Settled (some rec') (s'.view key)) := by
  simp only [replaceTurn] at h
  split at h
  · rename_i hnone
    obtain ⟨rfl, rfl⟩ := Prod.mk.inj h
    exact ⟨hs, fun _ _ => rfl, fun _ rec' hrec => absurd (hnone.symm.trans hrec) (by simp)⟩
  · rename_i rec' hget
    obtain ⟨hname, hplain⟩ := hdesired key rec' hget
    obtain ⟨hlast, hdoubt, hsure⟩ := hkey rec' hget
    have hrec : ∀ rec'' ∈ desired[key]?, rec'' = rec' := fun rec'' h'' =>
      Option.mem_unique h'' hget
    split at h
    · -- the map has what is desired, and is right about it
      rename_i hequal
      obtain ⟨rfl, rfl⟩ := Prod.mk.inj h
      refine ⟨hs, fun _ _ => rfl, fun _ rec'' h'' => ?_⟩
      obtain rfl := hrec rec'' h''
      have heq := equalRecordSet_iff.mp hequal
      rw [Std.ExtTreeMap.getD_eq_getD_getElem?] at heq
      cases hold : s.last[key]? with
      | none =>
        rw [hold] at heq
        rw [← heq] at hname
        exact absurd hname.symm hplain.2.canonical.ne_empty
      | some old =>
        rw [hold, Option.getD_some] at heq
        have hview : (s.view key).1 = some rec'' := by rw [System.view, hold, heq]
        exact Prod.ext hview (hsure hview)
    · subst hname
      have hzone : s.InZone rec'.name rec'.zone := ⟨hlast, hdoubt⟩
      have hinsert : (s.last.insert rec'.name rec')[rec'.name]? = some rec' :=
        (Table.get_insert _ _ _ _).trans (if_pos rfl)
      have hnew : ∀ rec'' ∈ (s.last.insert rec'.name rec')[rec'.name]?,
          rec''.name = rec'.name ∧ rec''.zone = rec'.zone := by
        rw [hinsert]
        rintro rec'' ⟨⟩
        exact ⟨rfl, rfl⟩
      have hremote : S.addresses (S.apply s.remote rec'.zone (c.replaceA rec')) rec'.zone rec'.name =
          published (s.last.insert rec'.name rec') rec'.zone rec'.name := by
        rw [hS.addresses_replaceA c hplain.1 hplain.2 (hs.2 _ rec' hget), published, hinsert]
        exact (if_pos rfl).symm
      obtain ⟨⟨hs', halias⟩, hframe, hsettled⟩ := hs.1.exchanged (f := (·.insert rec'.name rec')) hS
        hplain hzone (addressing_replaceA c rec')
        (fun m hm => (Table.get_insert _ _ _ _).trans (if_neg hm.symm)) hnew hremote h
      refine ⟨⟨hs', halias _ hs.2⟩, hframe, fun hok rec'' h'' => ?_⟩
      rw [hrec rec'' h'', ← hinsert]
      exact hsettled hok

/-- What the second loop needs of a name: it is in the map, and as desired if it is desired. -/
def Deletable (desired : Table RecordSet) (n : String) (view : Option RecordSet × Option String) : Prop :=
  view.1 ≠ none ∧ ∀ rec' ∈ desired[n]?, Settled (some rec') view

/-- **A turn of the second loop.** -/
theorem deleteTurn_spec (hS : Conforms lib S) (hs : Consistent lib s)
    (hkey : Deletable desired key (s.view key))
    (h : deleteTurn decodes c desired exchanges key s = (s', ok)) :
    Consistent lib s' ∧ (∀ n, n ≠ key → s'.view n = s.view n) ∧
      (ok = true → Settled desired[key]? (s'.view key)) := by
  simp only [deleteTurn] at h
  split at h
  · rename_i hnone
    exact absurd hnone hkey.1
  · rename_i rec' hget
    split at h
    · rename_i hdesired
      obtain ⟨rfl, rfl⟩ := Prod.mk.inj h
      refine ⟨hs, fun _ _ => rfl, fun _ => ?_⟩
      obtain ⟨want, hwant⟩ : ∃ want, desired[key]? = some want :=
        ⟨_, Std.ExtTreeMap.getElem?_eq_some_getElem (Std.ExtTreeMap.contains_iff_mem.mp hdesired)⟩
      rw [hwant]
      exact hkey.2 want hwant
    · rename_i hdesired
      have hundesired : desired[key]? = none :=
        Std.ExtTreeMap.getElem?_eq_none (mt Std.ExtTreeMap.contains_iff_mem.mpr hdesired)
      have hname := hs.named key rec' hget
      subst hname
      have hzone : s.InZone rec'.name rec'.zone := by
        refine ⟨fun old hold => ?_, fun z hz => (hs.zoned _ rec' z hget hz).symm⟩
        rw [Option.mem_unique hold hget]
      have herase : (s.last.erase rec'.name)[rec'.name]? = none :=
        (Table.get_erase _ _ _).trans (if_pos rfl)
      have hplain := hs.plain _ _ (hs.written _ rec' hget)
      have hremote : S.addresses (S.apply s.remote rec'.zone (deleteA rec')) rec'.zone rec'.name =
          published (s.last.erase rec'.name) rec'.zone rec'.name := by
        rw [published, herase]
        exact hS.delete s.remote hplain.1 hplain.2
      obtain ⟨⟨hs', -⟩, hframe, hsettled⟩ := hs.exchanged (f := (·.erase rec'.name)) hS
        hplain hzone (addressing_deleteA rec')
        (fun m hm => (Table.get_erase _ _ _).trans (if_neg hm.symm))
        (fun rec'' h'' => by cases herase.symm.trans h'') hremote h
      rw [hundesired, ← herase]
      exact ⟨hs', hframe, hsettled⟩

variable {order : List String}

/-- **The first loop.** If it comes to its end, the map has the desired records, none of them in doubt, and
nothing else has changed. -/
theorem replaceLoop_spec (hS : Conforms lib S) (hdesired : PlainlyKeyed lib desired)
    (hs : Consistent lib s ∧ Unaliased desired s)
    (hpre : ∀ n, Replaceable desired n (s.view n)) (horder : order.Perm desired.keys)
    (h : sweep (replaceTurn decodes c desired exchanges) order s = (s', ok)) :
    Consistent lib s' ∧ (ok = true → (∀ n : String, desired[n]? = none → s'.view n = s.view n) ∧
      ∀ (n : String) (rec' : RecordSet), desired[n]? = some rec' → Settled (some rec') (s'.view n)) := by
  have hmem : ∀ n : String, n ∈ order ↔ n ∈ desired := fun n =>
    horder.mem_iff.trans Std.ExtTreeMap.mem_keys
  obtain ⟨hs', hframe, hdone⟩ := sweep_spec (fun s => Consistent lib s ∧ Unaliased desired s) System.view
    (Replaceable desired) (fun n v => ∀ rec' ∈ desired[n]?, Settled (some rec') v)
    (fun hI hP ht => replaceTurn_spec hS hdesired hI hP ht)
    (horder.nodup_iff.mpr Std.ExtTreeMap.nodup_keys) hs (fun n _ => hpre n) h
  refine ⟨hs'.1, fun hok => ⟨fun n hn => ?_, fun n rec' hrec => ?_⟩⟩
  · refine hframe n fun hin => ?_
    have hsome := Std.ExtTreeMap.getElem?_eq_some_getElem ((hmem n).mp hin)
    cases hn.symm.trans hsome
  · have hin : n ∈ desired := Std.ExtTreeMap.mem_iff_isSome_getElem?.mpr (by rw [hrec]; rfl)
    exact hdone hok n ((hmem n).mpr hin) rec' hrec

/-- **The second loop.** If it comes to its end, the map has the desired records and no others. -/
theorem deleteLoop_spec (hS : Conforms lib S) (hs : Consistent lib s)
    (hwanted : ∀ (n : String) (rec' : RecordSet), desired[n]? = some rec' → Settled (some rec') (s.view n))
    (hsure : ∀ n : String, s.last[n]? = none → s.doubtful[n]? = none) (horder : order.Perm s.last.keys)
    (h : sweep (deleteTurn decodes c desired exchanges) order s = (s', ok)) :
    Consistent lib s' ∧ (ok = true → ∀ n : String, Settled desired[n]? (s'.view n)) := by
  have hmem : ∀ n : String, n ∈ order ↔ n ∈ s.last := fun n =>
    horder.mem_iff.trans Std.ExtTreeMap.mem_keys
  have hpre : ∀ n ∈ order, Deletable desired n (s.view n) := by
    refine fun n hn => ⟨fun hnone => ?_, fun rec' hrec => hwanted n rec' hrec⟩
    have hsome := Std.ExtTreeMap.getElem?_eq_some_getElem ((hmem n).mp hn)
    cases hsome.symm.trans hnone
  obtain ⟨hs', hframe, hdone⟩ := sweep_spec (Consistent lib) System.view (Deletable desired)
    (fun n v => Settled desired[n]? v) (fun hI hP ht => deleteTurn_spec hS hI hP ht)
    (horder.nodup_iff.mpr Std.ExtTreeMap.nodup_keys) hs hpre h
  refine ⟨hs', fun hok n => ?_⟩
  by_cases hn : n ∈ order
  · exact hdone hok n hn
  · -- the map does not have the name, so it is not desired and not in doubt
    have hlast : s.last[n]? = none := Std.ExtTreeMap.getElem?_eq_none (mt (hmem n).mpr hn)
    have hnone : desired[n]? = none := by
      refine Option.eq_none_iff_forall_ne_some.mpr fun rec' hrec => ?_
      have hview := congrArg Prod.fst (hwanted n rec' hrec)
      cases hlast.symm.trans hview
    rw [hframe n hn, hnone]
    exact Prod.ext hlast (hsure n hlast)

end Loops

/-! ### Syncs -/

section Syncs

variable {lib : NameLib} {decodes : String → Bool} {S : RemoteServer} {c : Controller} {s s' : System S}
  {inv : Option Inventory} {env : Surroundings} {ok : Bool}

/-- **What is asked of a desired record**: it and its zone are written without escapes, there is no CNAME
record at its name, and a name whose records are published, or may be, stays in its zone. -/
def System.Admits (s : System S) (n : String) (rec' : RecordSet) : Prop :=
  Unescaped n ∧ Unescaped rec'.zone ∧ S.hasCNAME s.remote rec'.zone n = false ∧ s.InZone n rec'.zone

instance (s : System S) (n : String) (rec' : RecordSet) : Decidable (s.Admits n rec') :=
  inferInstanceAs (Decidable (_ ∧ _))

variable (lib) in
/-- **What is asked of the inventories**: the desired records are admitted; and for a name in doubt
something else is desired than the map has, so that an exchange settles it. -/
def Steady (c : Controller) (s : System S) (call : Option Inventory × Surroundings) : Prop :=
  ∀ inv ∈ call.1,
    (∀ kv ∈ (c.collectRecords lib inv).toList, s.Admits kv.1 kv.2) ∧
    ∀ kv ∈ s.doubtful.toList, s.last[kv.1]? ≠ (c.collectRecords lib inv)[kv.1]?

instance (c : Controller) (s : System S) (call : Option Inventory × Surroundings) :
    Decidable (Steady lib c s call) :=
  inferInstanceAs (Decidable (∀ inv ∈ call.1, _))

variable (lib) in
/-- The map is right about every name that is not in doubt, and a disabled controller has written
nothing. -/
structure Sound (c : Controller) (s : System S) : Prop where
  consistent : Consistent lib s
  disabled : c.enabled = false → s.written = []

/-- What the loops need of the names. -/
theorem Steady.names {i : Inventory} (hsteady : Steady lib c s (some i, env))
    (n : String) :
    Replaceable (c.collectRecords lib i) n (s.view n) ∧
      (s.last[n]? = (c.collectRecords lib i)[n]? → s.doubtful[n]? = none) := by
  obtain ⟨hadmits, hdoubts⟩ := hsteady i rfl
  have hsure : s.last[n]? = (c.collectRecords lib i)[n]? → s.doubtful[n]? = none := by
    intro heq
    by_contra hdoubt
    obtain ⟨z, hz⟩ := Option.ne_none_iff_exists'.mp hdoubt
    exact hdoubts (n, z) (Table.mem_toList.mpr hz) heq
  refine ⟨fun rec' hrec => ?_, hsure⟩
  obtain ⟨-, -, -, hlast, hdoubt⟩ := hadmits (n, rec') (Table.mem_toList.mpr hrec)
  exact ⟨hlast, hdoubt, fun hv => hsure (hv.trans hrec.symm)⟩

/-- What the first loop needs of the desired records. -/
theorem Steady.records {i : Inventory} (hsteady : Steady lib c s (some i, env))
    (hzone : c.zone ≠ "" → Canonical lib c.zone) :
    PlainlyKeyed lib (c.collectRecords lib i) ∧ Unaliased (c.collectRecords lib i) s := by
  refine ⟨fun n rec' hrec => ?_, fun n rec' hrec => ?_⟩
  · obtain ⟨hname, hn, hz⟩ := wellKeyed_collectRecords hzone i n rec' hrec
    obtain ⟨hn', hz', -⟩ := (hsteady i rfl).1 (n, rec') (Table.mem_toList.mpr hrec)
    exact ⟨hname, ⟨hz, hz'⟩, ⟨hn, hn'⟩⟩
  · obtain ⟨-, -, hcname, -⟩ := (hsteady i rfl).1 (n, rec') (Table.mem_toList.mpr hrec)
    exact hcname

/-- **One `Sync`** keeps the map right; if it returns nil, the map has exactly the desired records and no
name is in doubt. -/
theorem sync_spec (hS : Conforms lib S) (hzone : c.zone ≠ "" → Canonical lib c.zone)
    (hs : Sound lib c s) (hsteady : Steady lib c s (inv, env))
    (h : sync lib decodes c s inv env = some (s', ok)) :
    Sound lib c s' ∧ (ok = true → c.enabled = true → ∃ i, inv = some i ∧
      ∀ n, Settled (c.collectRecords lib i)[n]? (s'.view n)) := by
  simp only [sync] at h
  split at h
  · rename_i hoff
    obtain ⟨rfl, rfl⟩ := Prod.mk.inj (Option.some.inj h)
    exact ⟨hs, fun _ hon => absurd (hoff.symm.trans hon) (by simp)⟩
  · rename_i hon
    have hsound : ∀ {s' : System S}, Consistent lib s' → Sound lib c s' := fun hc =>
      ⟨hc, fun hoff => absurd hoff hon⟩
    split at h
    · obtain ⟨rfl, rfl⟩ := Prod.mk.inj (Option.some.inj h)
      exact ⟨hs, (by simp)⟩
    · split at h
      · obtain ⟨rfl, rfl⟩ := Prod.mk.inj (Option.some.inj h)
        exact ⟨hs, (by simp)⟩
      · rename_i inv
        obtain ⟨hdesired, halias⟩ := hsteady.records hzone
        have hsure := hsteady.names
        split at h
        · rename_i horder
          split at h
          · rename_i s₁ hloop
            obtain ⟨rfl, rfl⟩ := Prod.mk.inj (Option.some.inj h)
            obtain ⟨hs₁, -⟩ := replaceLoop_spec hS hdesired ⟨hs.consistent, halias⟩
              (fun n => (hsure n).1) horder hloop
            exact ⟨hsound hs₁, (by simp)⟩
          · rename_i s₁ hloop
            obtain ⟨hs₁, hdone⟩ := replaceLoop_spec hS hdesired ⟨hs.consistent, halias⟩
              (fun n => (hsure n).1) horder hloop
            obtain ⟨hframe, hwanted⟩ := hdone rfl
            split at h
            · rename_i horder'
              have hnone : ∀ n : String, s₁.last[n]? = none → s₁.doubtful[n]? = none := by
                intro n hn
                cases hwant : (c.collectRecords lib inv)[n]? with
                | some rec' => exact congrArg Prod.snd (hwanted n rec' hwant)
                | none =>
                  have hview := hframe n hwant
                  have hn' : s.last[n]? = none := (congrArg Prod.fst hview).symm.trans hn
                  exact (congrArg Prod.snd hview).trans ((hsure n).2 (hn'.trans hwant.symm))
              obtain ⟨hs', hsettled⟩ := deleteLoop_spec hS hs₁ hwanted hnone horder' (Option.some.inj h)
              exact ⟨hsound hs', fun hok _ => ⟨inv, rfl, hsettled hok⟩⟩
            · cases h
        · cases h

/-- **The desired records are published.** After any `Sync`s over steady inventories, with any exchanges
refused or their answers lost, a steady `Sync` that returns nil leaves on the remote server, wherever
the controller has ever written, the desired addresses, and none where nothing is desired. -/
theorem sync_converges (hS : Conforms lib S) (cfg : Config) {remote : S.State}
    {calls : List (Option Inventory × Surroundings)}
    (hrun : Steps (Under (Graph (step lib decodes (newRFC2136Controller lib cfg)))
      (Steady lib (newRFC2136Controller lib cfg))) { remote } calls s)
    (hsteady : Steady lib (newRFC2136Controller lib cfg) s (inv, env))
    (hsync : sync lib decodes (newRFC2136Controller lib cfg) s inv env = some (s', true)) :
    ∀ zone name, (zone, name) ∈ s'.written → ∃ i, inv = some i ∧
      S.addresses s'.remote zone name =
        published ((newRFC2136Controller lib cfg).collectRecords lib i) zone name := by
  have hzone := canonical_zone lib cfg
  generalize newRFC2136Controller lib cfg = c at hrun hsteady hsync hzone ⊢
  have hinit : Sound lib c ({ remote } : System S) := by
    refine ⟨⟨by simp, by simp, fun z n h => ?_, by simp, fun z n h => ?_⟩, fun _ => rfl⟩
    · exact absurd h List.not_mem_nil
    · exact absurd h List.not_mem_nil
  have hinv : Sound lib c s := by
    refine hrun.invariant (I := Sound lib c) (fun {s call s'} hstep hs => ?_) hinit
    obtain ⟨⟨s'', ok⟩, hsync, rfl⟩ := Option.map_eq_some_iff.mp hstep.1
    exact (sync_spec hS hzone hs hstep.2 hsync).1
  obtain ⟨hs', hdone⟩ := sync_spec hS hzone hinv hsteady hsync
  intro zone name hwritten
  have hon : c.enabled = true := by
    by_contra hoff
    rw [hs'.disabled (by simpa using hoff)] at hwritten
    exact absurd hwritten List.not_mem_nil
  obtain ⟨i, hi, hsettled⟩ := hdone rfl hon
  have hview := hsettled name
  refine ⟨i, hi, ?_⟩
  have hsure : s'.doubtful[name]? ≠ some zone := by
    have hnone : s'.doubtful[name]? = none := congrArg Prod.snd hview
    simp [hnone]
  have hlast : s'.last[name]? = (c.collectRecords lib i)[name]? := congrArg Prod.fst hview
  rw [hs'.consistent.remote zone name hwritten hsure, published, published, hlast]

end Syncs

/-- The controller of the samples. -/
def sampleController : Controller := newRFC2136Controller asciiNames sampleConfig

/-- The answer to the first exchange is lost; the second `Sync` sends the records again. -/
theorem sync_converges_again :
    ∃ (s s' : System sampleServer) (calls : List (Option Inventory × Surroundings)),
      Conforms asciiNames sampleServer ∧
      Steps (Under (Graph (step asciiNames (fun _ => true) sampleController))
        (Steady asciiNames sampleController)) sampleSystem calls s ∧
      s.doubtful["node.a.example."]? = some "a.example." ∧
      sync asciiNames (fun _ => true) sampleController s (sampleSync "a.example" .answered).1
        (sampleSync "a.example" .answered).2 = some (s', true) ∧
      ("a.example.", "node.a.example.") ∈ s'.written ∧
      ∀ zone name, (zone, name) ∈ s'.written → ∃ i, (sampleSync "a.example" .answered).1 = some i ∧
        sampleServer.addresses s'.remote zone name =
          published (sampleController.collectRecords asciiNames i) zone name := by
  have heval : ((executeUnder (step asciiNames (fun _ => true) sampleController)
      (fun s call => decide (Steady asciiNames sampleController s call)) sampleSystem
      [sampleSync "a.example" .lost]).any fun s =>
      (s.doubtful["node.a.example."]? = some "a.example.") &&
      decide (Steady asciiNames sampleController s (sampleSync "a.example" .answered)) &&
      (sync asciiNames (fun _ => true) sampleController s (sampleSync "a.example" .answered).1
        (sampleSync "a.example" .answered).2).any fun r =>
          r.2 && (("a.example.", "node.a.example.") ∈ r.1.written)) = true := by
    decide +kernel
  simp only [Option.any_eq_true, Bool.and_eq_true, decide_eq_true_eq] at heval
  obtain ⟨s, hrun, ⟨hdoubt, hsteady⟩, ⟨s', _⟩, hsync, rfl, hwritten⟩ := heval
  have hsteps := steps_under_of_execute hrun
  have hS := conforms_sampleServer asciiNames
  exact ⟨s, s', _, hS, hsteps, hdoubt, hsync, hwritten,
    sync_converges hS sampleConfig hsteps hsteady hsync⟩

/-- The sample controller's `Sync` after another one returns nil, and somewhere it has written the remote
server has not what is desired. -/
def LeavesStale (first last : Option Inventory × Surroundings) : Prop :=
  ∃ (s s' : System sampleServer) (i : Inventory) (zone name : String),
    Steps (Graph (step asciiNames (fun _ => true) sampleController)) sampleSystem [first] s ∧
    sync asciiNames (fun _ => true) sampleController s last.1 last.2 = some (s', true) ∧
    last.1 = some i ∧ (zone, name) ∈ s'.written ∧
    sampleServer.addresses s'.remote zone name ≠
      published (sampleController.collectRecords asciiNames i) zone name

theorem leavesStale_of_eval {first last : Option Inventory × Surroundings} (zone name : String)
    (h : ((execute (step asciiNames (fun _ => true) sampleController) sampleSystem [first]).any fun s =>
      (sync asciiNames (fun _ => true) sampleController s last.1 last.2).any fun r =>
        r.2 && last.1.any fun i => ((zone, name) ∈ r.1.written) &&
          sampleServer.addresses r.1.remote zone name ≠
            published (sampleController.collectRecords asciiNames i) zone name) = true) :
    LeavesStale first last := by
  simp only [Option.any_eq_true, Bool.and_eq_true, decide_eq_true_eq] at h
  obtain ⟨s, hrun, ⟨s', _⟩, hsync, rfl, i, hi, hwritten, hremote⟩ := h
  exact ⟨s, s', i, zone, name, steps_graph.mpr hrun, hsync, hi, hwritten, hremote⟩

/-- **Records that no `Sync` removes.** The machine's name stays and its domain becomes another one, and
the records in the old zone stay. Or the answer to the exchange that publishes its records is lost
and the machine is then removed from the inventory, and the records stay. -/
theorem stale_records :
    LeavesStale (sampleSync "a.example" .answered) (sampleSync "example" .answered) ∧
      LeavesStale (sampleSync "a.example" .lost) (sampleEmpty []) := by
  constructor
  · refine leavesStale_of_eval "a.example." "node.a.example." ?_
    decide +kernel
  · refine leavesStale_of_eval "a.example." "node.a.example." ?_
    decide +kernel

end Gomi.Dns.Rfc2136
