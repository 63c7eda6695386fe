import Gomi.Dns.Names
import Gomi.Go.Addr
import Gomi.Go.Clock
import Gomi.TwoLevel

/-!
# Dynamic records

The embedded DNS server has, besides the records of the inventory, *dynamic* ones, which come
through the API and through DNS UPDATE messages: for each name and each of the types A, TXT and
CNAME a set of values with a time to live. This file has the sets, the resource records of the
DNS messages, and the functions between the two, and the entries of the file that the sets are
kept in.
-/

namespace Gomi.Dns

open Go

/-! ### Resource records -/

/-- `dns.TypeA`. -/
def typeA : UInt16 := 1

/-- `dns.TypeNS`. -/
def typeNS : UInt16 := 2

/-- `dns.TypeCNAME`. -/
def typeCNAME : UInt16 := 5

/-- `dns.TypeSOA`. -/
def typeSOA : UInt16 := 6

/-- `dns.TypeTXT`. -/
def typeTXT : UInt16 := 16

/-- `dns.TypeAXFR`. -/
def typeAXFR : UInt16 := 252

/-- `dns.TypeANY`. -/
def typeANY : UInt16 := 255

/-- `dns.ClassINET`. -/
def classINET : UInt16 := 1

/-- `dns.ClassNONE`. -/
def classNONE : UInt16 := 254

/-- `dns.ClassANY`. -/
def classANY : UInt16 := 255

/-- The data of an SOA record. -/
structure SOA where
  ns : String
  mbox : String
  serial : UInt32
  refresh : UInt32
  retry : UInt32
  expire : UInt32
  minttl : UInt32
  deriving DecidableEq

/-- The data of a resource record. The address of an A record is `none` if it is not an IPv4
address; the records of the types that the server does not store have only their type. -/
inductive RData
  | a (addr : Option UInt32)
  | txt (strings : List String)
  | cname (target : String)
  | ns (target : String)
  | soa (data : SOA)
  | other (rrType : UInt16)
  deriving DecidableEq

/-- A resource record. -/
structure RR where
  name : String
  cls : UInt16
  ttl : UInt32
  data : RData
  deriving DecidableEq

/-- `dns.RRToType`. -/
def RR.rrType (rr : RR) : UInt16 :=
  match rr.data with
  | .a _ => typeA
  | .txt _ => typeTXT
  | .cname _ => typeCNAME
  | .ns _ => typeNS
  | .soa _ => typeSOA
  | .other rrType => rrType

/-- `dynamicTypeName`. -/
def dynamicTypeName (rrType : UInt16) : String :=
  if rrType = typeA then "A"
  else if rrType = typeTXT then "TXT"
  else if rrType = typeCNAME then "CNAME"
  else "TYPE" ++ toString rrType.toNat

/-- `dynamicTypeFromName`. -/
def dynamicTypeFromName (name : String) : Option UInt16 :=
  let name := toUpper (trimSpace name)
  if name = "A" then some typeA
  else if name = "TXT" then some typeTXT
  else if name = "CNAME" then some typeCNAME
  else none

/-- The types of dynamic records. -/
def IsDynamicType (rrType : UInt16) : Prop := rrType = typeA ∨ rrType = typeTXT ∨ rrType = typeCNAME

theorem isDynamicType_of_name {name : String} {rrType : UInt16}
    (h : dynamicTypeFromName name = some rrType) : IsDynamicType rrType := by
  simp only [dynamicTypeFromName] at h
  split at h
  · exact Or.inl (Option.some.inj h).symm
  · split at h
    · exact Or.inr (Or.inl (Option.some.inj h).symm)
    · split at h
      · exact Or.inr (Or.inr (Option.some.inj h).symm)
      · cases h

/-- **The name of a dynamic type is read back.** -/
theorem dynamicTypeFromName_dynamicTypeName {rrType : UInt16} (h : IsDynamicType rrType) :
    dynamicTypeFromName (dynamicTypeName rrType) = some rrType := by
  rcases h with rfl | rfl | rfl <;> decide

/-! ### Sets of values -/

/-- `dynamicRecordSet`, with the zero values of Go as defaults. -/
structure RecordSet where
  ttl : UInt32 := 0
  values : List String := []
  createdAt : Time := zeroTime
  updatedAt : Time := zeroTime
  deriving DecidableEq

/-- The dynamic records, by name and type. -/
abbrev DynamicRecords : Type := TwoLevel String UInt16 RecordSet

variable (lib : NameLib)

/-- `dynamicRecordValue`: the text of a record's data. -/
def dynamicRecordValue (rr : RR) : Option String :=
  match rr.data with
  | .a addr => addr.map ipv4Text
  | .txt strings => some (String.join strings)
  | .cname target => canonicalFQDN lib target
  | _ => none

/-- A set with a value added, or a new one. -/
def RecordSet.add (set : Option RecordSet) (rrType : UInt16) (ttl : UInt32) (value : String)
    (now : Time) : RecordSet :=
  let set := set.getD {}
  { ttl := if set.ttl = 0 then ttl else set.ttl
    createdAt := if set.createdAt = zeroTime then now else set.createdAt
    updatedAt := now
    values := if rrType = typeCNAME then [value] else addDistinct set.values value }

/-- A set with a value removed, if one is left. -/
def RecordSet.remove (set : RecordSet) (value : String) (now : Time) : Option RecordSet :=
  let values := set.values.filter (· ≠ value)
  if values = [] then none else some { set with values, updatedAt := now }

/-- The set that `UpsertDynamicRecord` stores, over the one that is there. -/
def RecordSet.replacement (existing : Option RecordSet) (ttl : UInt32) (values : List String) (now : Time) :
    RecordSet where
  ttl := ttl
  values := values
  createdAt := match existing with
    | some set => if set.createdAt = zeroTime then now else set.createdAt
    | none => now
  updatedAt := now

/-- `addDynamicRecordValue`. -/
def addDynamicRecordValue (records : DynamicRecords) (name : String) (rrType : UInt16) (ttl : UInt32)
    (value : String) (now : Time) : DynamicRecords :=
  records.set name rrType (RecordSet.add (records.get name rrType) rrType ttl value now)

/-- `deleteDynamicRecordSet`. -/
def deleteDynamicRecordSet (records : DynamicRecords) (name : String) (rrType : UInt16) :
    DynamicRecords :=
  records.erase name rrType

/-- `deleteDynamicRecordValue`. -/
def deleteDynamicRecordValue (records : DynamicRecords) (name : String) (rrType : UInt16)
    (value : String) (now : Time) : DynamicRecords :=
  match records.get name rrType with
  | none => records
  | some set => match set.remove value now with
    | none => deleteDynamicRecordSet records name rrType
    | some set => records.set name rrType set

/-- What `normalizeDynamicRecordValues` makes of one value. -/
def normalizeValue (rrType : UInt16) (value : String) : Option String :=
  let value := trimSpace value
  if value = "" then none
  else if rrType = typeCNAME then some ((canonicalFQDN lib value).getD value)
  else some value

/-- One turn of the loop of `normalizeDynamicRecordValues`. -/
def addNormalized (rrType : UInt16) (values : List String) (value : String) : List String :=
  match normalizeValue lib rrType value with
  | none => values
  | some value => addDistinct values value

/-- `normalizeDynamicRecordValues`. -/
def normalizeDynamicRecordValues (rrType : UInt16) (raw : List String) : List String :=
  sortStrings (raw.foldl (addNormalized lib rrType) [])

/-- `hasDNSNameUnsafeChars`. -/
def hasDNSNameUnsafeChars (value : String) : Bool :=
  (trimSpace value).toList.any fun c => c ∈ [' ', '\t', '\r', '\n', '/']

/-- `validDynamicRecordValue`. -/
def validDynamicRecordValue (rrType : UInt16) (value : String) : Bool :=
  if rrType = typeA then (parseAddr4 value).isSome
  else if rrType = typeTXT then trimSpace value ≠ ""
  else if rrType = typeCNAME then !hasDNSNameUnsafeChars value && (canonicalFQDN lib value).isSome
  else false

/-- `dynamicRRs`: the records that are answered for a set. -/
def dynamicRRs (name : String) (rrType : UInt16) (set : RecordSet) : List RR :=
  set.values.filterMap fun value =>
    let rr (data : RData) : RR := { name, cls := classINET, ttl := set.ttl, data }
    if rrType = typeA then (parseAddr4 value).map fun addr => rr (.a (some addr))
    else if rrType = typeTXT then some (rr (.txt [value]))
    else if rrType = typeCNAME then (canonicalFQDN lib value).map fun target => rr (.cname target)
    else none

/-! ### The file -/

/-- `dynamicRecordEntry`. -/
structure Entry where
  name : String
  type : String
  ttl : UInt32
  values : List String
  createdAt : Time
  updatedAt : Time
  deriving DecidableEq

/-- The entry of a set. -/
def entryOf (e : String × UInt16 × RecordSet) : Entry where
  name := e.1
  type := dynamicTypeName e.2.1
  ttl := e.2.2.ttl
  values := sortStrings e.2.2.values
  createdAt := e.2.2.createdAt
  updatedAt := e.2.2.updatedAt

/-- `dynamicRecordEntries`: the entries by name and type. -/
def dynamicRecordEntries (records : DynamicRecords) : List Entry := records.entries.map entryOf

/-- The set that an entry of the file gives, if it is read at all. -/
def Entry.read (ttl : UInt32) (loadedAt : Time) (entry : Entry) : Option (String × UInt16 × RecordSet) :=
  match canonicalFQDN lib entry.name, dynamicTypeFromName entry.type with
  | some name, some rrType =>
    let values := normalizeDynamicRecordValues lib rrType entry.values
    if values = [] then none
    else some (name, rrType,
      { ttl := if entry.ttl = 0 then ttl else entry.ttl
        values
        createdAt := if entry.createdAt = zeroTime then loadedAt else entry.createdAt
        updatedAt := if entry.updatedAt = zeroTime then loadedAt else entry.updatedAt })
  | _, _ => none

/-- The records that the entries of a file give. -/
def readEntries (ttl : UInt32) (loadedAt : Time) (entries : List Entry) : DynamicRecords :=
  (∅ : DynamicRecords).setAll (entries.filterMap (Entry.read lib ttl loadedAt))

end Gomi.Dns
