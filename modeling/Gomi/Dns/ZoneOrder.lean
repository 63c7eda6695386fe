import Gomi.Dns.Embedded

/-!
# The order of the zones

`zoneForNameLocked` takes the first zone of a Go map that a name is in, and such a map is visited in
any order. If a hosted zone lies within another one, then it is a matter of chance which of the two
its apex belongs to: the server answers with the SOA record of the zone, or that there is no such
name. If none does, the order makes no difference (`Gomi.Dns.EmbeddedServer.orderFree_iff`).
Transfers and UPDATE messages look their zone up in the map and do not depend on its order.
-/

namespace Gomi.Dns.EmbeddedServer

variable (lib : NameLib) (s : EmbeddedServer)

/-- An order in which the map of the zones is visited. -/
def Visits (order : List String) : Prop := order.Perm s.zones.toList

/-- `validateDynamicRecordPlacementLocked`, with the zones in some order. -/
def placementIn (order : List String) (name : String) (rrType : UInt16) : Except DynamicError Unit :=
  match zoneForName order name with
  | none => .error .notZone
  | some _ => if s.cnameConflict name rrType then .error .cnameConflict else .ok ()

/-- **Answers do not depend on the order of the zones**: neither the zone of a name nor where a record
may be placed nor a response does, and every apex answers with the SOA record of its zone. -/
structure OrderFree : Prop where
  zone : ∀ o o', s.Visits o → s.Visits o' → ∀ name, zoneForName o name = zoneForName o' name
  placement : ∀ o o', s.Visits o → s.Visits o' → ∀ name rrType,
    s.placementIn o name rrType = s.placementIn o' name rrType
  response : ∀ o o', s.Visits o → s.Visits o' → ∀ typeOrder now questions,
    s.serveDNS lib o typeOrder now questions = s.serveDNS lib o' typeOrder now questions
  apex : ∀ o, s.Visits o → ∀ typeOrder now name, lib.canonical name ∈ s.zones →
    (s.serveDNS lib o typeOrder now [⟨name, typeSOA, classINET⟩]).rcode = .success ∧
    s.soaRR now (lib.canonical name) ∈
      (s.serveDNS lib o typeOrder now [⟨name, typeSOA, classINET⟩]).answer

/-- No hosted zone lies within another one. -/
def Unnested : Prop := ∀ zone ∈ s.zones, ∀ outer ∈ s.zones, nameInZone zone outer → zone = outer

variable {lib s} {name : String}

theorem nameInZone_iff {zone : String} :
    nameInZone name zone ↔ name = zone ∨ '.' :: zone.toList <:+ name.toList := by
  simp [nameInZone, Go.hasSuffix]

theorem nameInZone_self : nameInZone name name := nameInZone_iff.mpr (.inl rfl)

/-- Of two zones that a name is in, one lies within the other. -/
theorem nameInZone_or {zone zone' : String} (h : nameInZone name zone) (h' : nameInZone name zone') :
    nameInZone zone zone' ∨ nameInZone zone' zone := by
  have hnested : ∀ {x y : String}, '.' :: x.toList <:+ '.' :: y.toList → nameInZone y x := by
    intro x y hsuffix
    rcases List.suffix_cons_iff.mp hsuffix with heq | hsuffix
    · exact nameInZone_iff.mpr (.inl (String.toList_injective (List.cons.inj heq).2.symm))
    · exact nameInZone_iff.mpr (.inr hsuffix)
  rcases nameInZone_iff.mp h with rfl | hsuffix
  · exact .inl h'
  rcases nameInZone_iff.mp h' with rfl | hsuffix'
  · exact .inr h
  exact (List.suffix_or_suffix_of_suffix hsuffix hsuffix').symm.imp hnested hnested

/-- The zone of a name is the only one that the name is in. -/
theorem Unnested.zoneForName (h : s.Unnested) {order : List String} (ho : s.Visits order)
    {zone : String} :
    zoneForName order name = some zone ↔ zone ∈ s.zones ∧ nameInZone name zone := by
  have hmem : ∀ z, z ∈ order ↔ z ∈ s.zones := fun z => ho.mem_iff.trans Std.ExtTreeSet.mem_toList
  have honly : ∀ {z}, z ∈ s.zones → nameInZone name z → zone ∈ s.zones → nameInZone name zone →
      z = zone := by
    intro z hz hin hzone hin'
    rcases nameInZone_or hin hin' with hnested | hnested
    · exact h z hz zone hzone hnested
    · exact (h zone hzone z hz hnested).symm
  constructor
  · intro hfind
    exact ⟨(hmem zone).mp (List.mem_of_find?_eq_some hfind), List.find?_some hfind⟩
  · rintro ⟨hzone, hin⟩
    cases hfind : EmbeddedServer.zoneForName order name with
    | none => exact absurd hin (List.find?_eq_none.mp hfind zone ((hmem zone).mpr hzone))
    | some z =>
      have hz := (hmem z).mp (List.mem_of_find?_eq_some hfind)
      rw [honly hz (List.find?_some hfind) hzone hin]

theorem inZone_eq (order : List String) : inZone name order = (zoneForName order name).isSome := by
  rw [Bool.eq_iff_iff]
  simp [inZone, zoneForName]

/-- **The order of the zones makes no difference exactly if no zone lies within another one.** -/
theorem orderFree_iff (s : EmbeddedServer) : s.OrderFree lib ↔ s.Unnested := by
  constructor
  · intro h zone hzone outer houter hin
    -- the one that is visited first is taken
    have hfirst : ∀ z ∈ s.zones, s.Visits (z :: s.zones.toList.erase z) := fun z hz =>
      (List.perm_cons_erase (Std.ExtTreeSet.mem_toList.mpr hz)).symm
    have heq := h.zone _ _ (hfirst zone hzone) (hfirst outer houter) zone
    rw [zoneForName, zoneForName, List.find?_cons_of_pos nameInZone_self,
      List.find?_cons_of_pos hin] at heq
    exact Option.some.inj heq
  · intro h
    have hzone : ∀ o o', s.Visits o → s.Visits o' → ∀ name, zoneForName o name = zoneForName o' name :=
      fun o o' ho ho' name => Option.ext fun z => (h.zoneForName ho).trans (h.zoneForName ho').symm
    refine ⟨hzone, ?_, ?_, ?_⟩
    · intro o o' ho ho' name rrType
      rw [placementIn, placementIn, hzone o o' ho ho']
    · intro o o' ho ho' typeOrder now questions
      have hin : ∀ name, inZone name o = inZone name o' := fun name => by
        rw [inZone_eq, inZone_eq, hzone o o' ho ho']
      have hquery : ∀ name qType, s.queryRecords lib o typeOrder now name qType =
          s.queryRecords lib o' typeOrder now name qType := fun name qType => by
        rw [queryRecords, queryRecords, hzone o o' ho ho']
      simp only [serveDNS, hin, hquery]
    · intro o ho typeOrder now name hname
      have hapex := (h.zoneForName ho).mpr ⟨hname, nameInZone_self⟩
      simp [serveDNS, queryRecords, inZone_eq, hapex, apexRRs, typeSOA, typeAXFR]

/-- A server with a zone within another one. -/
def nestedServer : EmbeddedServer := { zones := .ofList ["example.com.", "lab.example.com."] }

/-- **The apex of the inner zone may be unknown**, or answer with the SOA record. -/
theorem apex_by_chance :
    nestedServer.Visits ["lab.example.com.", "example.com."] ∧
      nestedServer.Visits ["example.com.", "lab.example.com."] ∧
      nestedServer.serveDNS asciiNames ["lab.example.com.", "example.com."] [] 0
        [⟨"lab.example.com.", typeSOA, classINET⟩] =
        { rcode := .success, answer := [nestedServer.soaRR 0 "lab.example.com."] } ∧
      nestedServer.serveDNS asciiNames ["example.com.", "lab.example.com."] [] 0
        [⟨"lab.example.com.", typeSOA, classINET⟩] = { rcode := .nameError } := by
  have hzones : nestedServer.zones.toList = ["example.com.", "lab.example.com."] := rfl
  rw [Visits, Visits, hzones]
  exact ⟨by decide, by decide, rfl, rfl⟩

end Gomi.Dns.EmbeddedServer
