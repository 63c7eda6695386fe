import Gomi.Dns.Inventory
import Gomi.Dns.Records
import Gomi.Transition

/-!
# The embedded DNS server

The server of `internal/infra/dns/embedded*.go`: the zones and the static records of the last
`Sync`, the dynamic records, the file in which these are kept, and the instant that the serial
number of the zones is made from. Every call holds the server's lock while it reads or changes
them, so a run of the server is a sequence of calls (`Gomi.Dns.Call`, `Gomi.Dns.step`).

What a call finds around it is in `Gomi.Dns.Surroundings`: the readings of the clock, and whether
the file can be read and written. The iteration order of a Go map is not determined; where the
answer to a query depends on it, the order is an argument.
-/

namespace Gomi.Dns

open Go

/-! ### State -/

/-- The errors of the dynamic records, that the file could not be read or written, and that the
inventory could not be listed. -/
inductive DynamicError
  | format
  | notZone
  | unsupported
  | cnameConflict
  | load
  | persist
  | inventory
  deriving DecidableEq

/-- The response codes. -/
inductive Rcode
  | success
  | formatError
  | serverFailure
  | nameError
  | notImplemented
  | refused
  | notZone
  deriving DecidableEq

/-- `updateErrorCode`. -/
def updateErrorCode : DynamicError → Rcode
  | .notZone => .notZone
  | .unsupported => .notImplemented
  | _ => .formatError

/-- The file of the dynamic records. -/
inductive File
  | missing
  | malformed
  | records (entries : List Entry)
  deriving DecidableEq

/-- `EmbeddedServer`, and the file at its path. -/
structure EmbeddedServer where
  ttl : UInt32 := 300
  dynamicRecordsPath : String := ""
  zones : Std.ExtTreeSet String compare := ∅
  records : Table (List UInt32) := ∅
  dynamicRecords : DynamicRecords := ∅
  dynamicLoaded : Bool := false
  serialAt : Time := zeroTime
  file : File := .missing

/-- What a call finds around it. `now` is the reading that the serial number is made from,
`changedAt` are those at the changes of an UPDATE message, in their order, and `modTime` is the
time of the file's last change. -/
structure Surroundings where
  now : Time
  changedAt : ℕ → Time := fun _ => now
  modTime : Time := 0
  readable : Bool := true
  writable : Bool := true

/-- `DynamicRecord`: it has the fields of an entry of the file. -/
abbrev DynamicRecord : Type := Entry

/-- What is read of a DNS UPDATE message: whether it can be unpacked, the names of its zone section
and the records of its update section. -/
structure UpdateMessage where
  unpacks : Bool := true
  zones : List String
  updates : List RR

variable (lib : NameLib)

/-- `updateZone`. -/
def updateZone (msg : UpdateMessage) : Option String :=
  match msg.zones with
  | [zone] => canonicalFQDN lib zone
  | _ => none

namespace EmbeddedServer

variable (s : EmbeddedServer)

/-! ### The file -/

/-- `loadDynamicRecordsLocked`. -/
def loadDynamicRecords (env : Surroundings) : Option EmbeddedServer :=
  if s.dynamicRecordsPath = "" then some s
  else if env.readable then match s.file with
    | .missing => some s
    | .malformed => none
    | .records entries =>
      some { s with dynamicRecords := readEntries lib s.ttl env.modTime entries }
  else none

/-- `ensureDynamicRecordsLoadedLocked`. -/
def ensureDynamicRecordsLoaded (env : Surroundings) : Option EmbeddedServer :=
  if s.dynamicLoaded then some s
  else (s.loadDynamicRecords lib env).map fun s => { s with dynamicLoaded := true }

/-- `persistDynamicRecordsLocked`: the file is replaced as a whole, or not at all. -/
def persistDynamicRecords (env : Surroundings) : Option EmbeddedServer :=
  if s.dynamicRecordsPath = "" then some s
  else if env.writable then some { s with file := .records (dynamicRecordEntries s.dynamicRecords) }
  else none

/-! ### The inventory -/

/-- `Sync`. The stores' lists are `none` if one of them fails. -/
def sync (inv : Option Inventory) (env : Surroundings) : EmbeddedServer × Except DynamicError Unit :=
  match inv with
  | none => (s, .error .inventory)
  | some inv => match s.ensureDynamicRecordsLoaded lib env with
    | none => (s, .error .load)
    | some s =>
      ({ s with zones := (collect lib inv).zones
                records := (collect lib inv).records
                serialAt := env.now }, .ok ())

/-! ### Calls of the API -/

/-- `zoneForNameLocked`, with the zones in some order. -/
def zoneForName (zoneOrder : List String) (name : String) : Option String :=
  zoneOrder.find? (nameInZone name)

/-- `validateDynamicRecordShape`: the name, the type, the time to live and the values of a record. -/
def validateDynamicRecordShape (record : DynamicRecord) :
    Except DynamicError (String × UInt16 × UInt32 × List String) :=
  if hasDNSNameUnsafeChars record.name then .error .format
  else match canonicalFQDN lib record.name with
    | none => .error .format
    | some name => match dynamicTypeFromName record.type with
      | none => .error .unsupported
      | some rrType =>
        let ttl := if record.ttl = 0 then s.ttl else record.ttl
        let values := normalizeDynamicRecordValues lib rrType record.values
        if ttl = 0 then .error .format
        else if values = [] then .error .format
        else if rrType = typeCNAME ∧ values.length ≠ 1 then .error .format
        else if values.all (validDynamicRecordValue lib rrType) then .ok (name, rrType, ttl, values)
        else .error .unsupported

/-- The check of `validateDynamicRecordPlacementLocked` that a CNAME record is alone at its name. -/
def cnameConflict (name : String) (rrType : UInt16) : Bool :=
  if rrType = typeCNAME then
    !(s.records.getD name []).isEmpty || (s.dynamicRecords.row name).keys.any (· ≠ typeCNAME)
  else (s.dynamicRecords.get name typeCNAME).isSome

/-- `validateDynamicRecordPlacementLocked`. Whether there is a zone for the name does not depend on
the order of the zones. -/
def validateDynamicRecordPlacement (name : String) (rrType : UInt16) : Except DynamicError Unit :=
  match zoneForName s.zones.toList name with
  | none => .error .notZone
  | some _ => if s.cnameConflict name rrType then .error .cnameConflict else .ok ()

/-- `ListDynamicRecords`. -/
def listDynamicRecords (env : Surroundings) : EmbeddedServer × Except DynamicError (List DynamicRecord) :=
  match s.ensureDynamicRecordsLoaded lib env with
  | none => (s, .error .load)
  | some s => (s, .ok (dynamicRecordEntries s.dynamicRecords))

/-- `UpsertDynamicRecord`. -/
def upsertDynamicRecord (record : DynamicRecord) (env : Surroundings) :
    EmbeddedServer × Except DynamicError DynamicRecord :=
  match s.validateDynamicRecordShape lib record with
  | .error e => (s, .error e)
  | .ok (name, rrType, ttl, values) => match s.ensureDynamicRecordsLoaded lib env with
    | none => (s, .error .load)
    | some s => match s.validateDynamicRecordPlacement name rrType with
      | .error e => (s, .error e)
      | .ok () =>
        let set := RecordSet.replacement (s.dynamicRecords.get name rrType) ttl values env.now
        let s := { s with dynamicRecords := s.dynamicRecords.set name rrType set }
        match s.persistDynamicRecords env with
        | none => (s, .error .persist)
        | some s => ({ s with serialAt := env.now }, .ok (entryOf (name, rrType, set)))

/-- `DeleteDynamicRecord`. -/
def deleteDynamicRecord (rawName rawType : String) (env : Surroundings) :
    EmbeddedServer × Except DynamicError Unit :=
  match canonicalFQDN lib rawName with
  | none => (s, .error .format)
  | some name => match dynamicTypeFromName rawType with
    | none => (s, .error .unsupported)
    | some rrType => match s.ensureDynamicRecordsLoaded lib env with
      | none => (s, .error .load)
      | some s =>
        let s := { s with dynamicRecords := deleteDynamicRecordSet s.dynamicRecords name rrType }
        match s.persistDynamicRecords env with
        | none => (s, .error .persist)
        | some s => ({ s with serialAt := env.now }, .ok ())

end EmbeddedServer

/-! ### UPDATE messages -/

/-- `applyDynamicUpdateLocked`, on the records of a server with the default time to live `ttl`. -/
def applyDynamicUpdate (ttl : UInt32) (zone : String) (records : DynamicRecords) (rr : RR) (now : Time) :
    Except DynamicError DynamicRecords :=
  match canonicalFQDN lib rr.name with
  | none => .error .format
  | some name =>
    if nameInZone name zone = false then .error .notZone
    else if rr.cls = classANY then
      if rr.rrType = typeANY then .ok (records.eraseRow name)
      else .ok (deleteDynamicRecordSet records name rr.rrType)
    else if rr.cls = classNONE then match dynamicRecordValue lib rr with
      | none => .error .unsupported
      | some value => .ok (deleteDynamicRecordValue records name rr.rrType value now)
    else if rr.cls = classINET then match dynamicRecordValue lib rr with
      | none => .error .unsupported
      | some value =>
        .ok (addDynamicRecordValue records name rr.rrType (if rr.ttl = 0 then ttl else rr.ttl) value now)
    else .error .format

/-- The loop over the records of a message: the records that it leaves, and the error that has
stopped it. -/
def applyDynamicUpdates (ttl : UInt32) (zone : String) :
    List RR → (ℕ → Time) → DynamicRecords → DynamicRecords × Option DynamicError
  | [], _, records => (records, none)
  | rr :: rrs, clock, records => match applyDynamicUpdate lib ttl zone records rr (clock 0) with
    | .error e => (records, some e)
    | .ok records => applyDynamicUpdates ttl zone rrs (fun i => clock (i + 1)) records

namespace EmbeddedServer

variable (s : EmbeddedServer)

/-- `serveDynamicUpdate`. -/
def serveDynamicUpdate (msg : UpdateMessage) (env : Surroundings) : EmbeddedServer × Rcode :=
  if msg.unpacks = false then (s, .formatError)
  else match updateZone lib msg with
    | none => (s, .formatError)
    | some zone =>
      if zone ∉ s.zones then (s, .notZone)
      else match s.ensureDynamicRecordsLoaded lib env with
        | none => (s, .serverFailure)
        | some s =>
          let (dynamicRecords, err) :=
            applyDynamicUpdates lib s.ttl zone msg.updates env.changedAt s.dynamicRecords
          let s := { s with dynamicRecords }
          match err with
          | some e => (s, updateErrorCode e)
          | none => match s.persistDynamicRecords env with
            | none => (s, .serverFailure)
            | some s => ({ s with serialAt := env.now }, .success)

/-! ### Queries -/

/-- The serial number of an instant: its second, in 32 bits. -/
def serialOf (t : Time) : UInt32 := UInt32.ofNat (unix t % 2 ^ 32).toNat

/-- The serial number of the zones; `now` is the reading that stands in for one that is zero. -/
def serial (now : Time) : UInt32 := if serialOf s.serialAt = 0 then serialOf now else serialOf s.serialAt

/-- `soaRR`. -/
def soaRR (now : Time) (zone : String) : RR where
  name := zone
  cls := classINET
  ttl := s.ttl
  data := .soa
    { ns := "ns1." ++ zone, mbox := "hostmaster." ++ zone, serial := s.serial now, refresh := 3600
      retry := 600, expire := 86400, minttl := s.ttl }

/-- `nsRR`. -/
def nsRR (zone : String) : RR where
  name := zone
  cls := classINET
  ttl := s.ttl
  data := .ns ("ns1." ++ zone)

/-- The A records of a static name. -/
def staticRRs (name : String) : List RR :=
  (s.records.getD name []).map fun ip => { name, cls := classINET, ttl := s.ttl, data := .a (some ip) }

/-- The records of a zone's name that its query is answered with. -/
def apexRRs (now : Time) (zone : String) (qType : UInt16) : List RR :=
  if qType = typeSOA then [s.soaRR now zone]
  else if qType = typeNS then [s.nsRR zone]
  else if qType = typeANY then [s.soaRR now zone, s.nsRR zone]
  else []

/-- The dynamic records of a name and a type that its query is answered with. -/
def dynamicAnswers (name : String) (qType rrType : UInt16) : List RR :=
  if qType ≠ typeANY ∧ qType ≠ rrType then []
  else match s.dynamicRecords.get name rrType with
    | none => []
    | some set => dynamicRRs lib name rrType set

/-- `queryRecordsLocked`: the answers, and whether the name is known. The zones and the types of the
name's dynamic records are visited in the given orders. -/
def queryRecords (zoneOrder : List String) (typeOrder : List UInt16) (now : Time) (name : String)
    (qType : UInt16) : List RR × Bool :=
  let static := if qType = typeA ∨ qType = typeANY then s.staticRRs name else []
  let isApex := zoneForName zoneOrder name = some name
  let apex := if isApex then s.apexRRs now name qType else []
  (static ++ apex ++ typeOrder.flatMap (s.dynamicAnswers lib name qType),
    s.records.contains name || isApex || s.dynamicRecords.rows.contains name)

/-- `zoneRecordsLocked`: the records of a zone, as a transfer sends them. -/
def zoneRecords (now : Time) (zone : String) : List RR :=
  let names := s.records.keys.filter (nameInZone · zone) ++
    s.dynamicRecords.rows.keys.filter fun name => !s.records.contains name && nameInZone name zone
  [s.soaRR now zone, s.nsRR zone] ++
    (sortStrings names).flatMap (fun name => s.staticRRs name ++
      (s.dynamicRecords.row name).toList.flatMap fun e => dynamicRRs lib name e.1 e.2) ++
    [s.soaRR now zone]

/-- A question. -/
structure Question where
  name : String
  qType : UInt16
  qClass : UInt16

/-- A response. -/
structure Response where
  rcode : Rcode
  answer : List RR := []
  deriving DecidableEq

/-- `ServeDNS`, for everything but UPDATE messages, and `serveAXFR`. -/
def serveDNS (zoneOrder : List String) (typeOrder : List UInt16) (now : Time) (questions : List Question) :
    Response :=
  match questions with
  | [q] =>
    let qName := lib.canonical q.name
    if q.qClass ≠ classINET ∧ q.qClass ≠ classANY then { rcode := .refused }
    else if q.qType = typeAXFR then
      if qName ∈ s.zones then { rcode := .success, answer := s.zoneRecords lib now qName }
      else { rcode := .refused }
    else
      let (answers, known) := s.queryRecords lib zoneOrder typeOrder now qName q.qType
      if inZone qName zoneOrder = false then { rcode := .refused }
      else if known = false then { rcode := .nameError }
      else { rcode := .success, answer := answers }
  | _ => { rcode := .formatError }

/-- A new process, on the file that is there. -/
def restart : EmbeddedServer :=
  { ttl := s.ttl, dynamicRecordsPath := s.dynamicRecordsPath, file := s.file }

end EmbeddedServer

/-! ### Runs -/

/-- A call of the server. -/
inductive Call
  | sync (inv : Option Inventory)
  | list
  | upsert (record : DynamicRecord)
  | delete (name type : String)
  | update (msg : UpdateMessage)
  | restart

/-- A call: the server it leaves, and whether it has succeeded. -/
def call (s : EmbeddedServer) (c : Call) (env : Surroundings) : EmbeddedServer × Bool :=
  match c with
  | .sync inv => let (s, res) := s.sync lib inv env; (s, res.isOk)
  | .list => let (s, res) := s.listDynamicRecords lib env; (s, res.isOk)
  | .upsert record => let (s, res) := s.upsertDynamicRecord lib record env; (s, res.isOk)
  | .delete name type => let (s, res) := s.deleteDynamicRecord lib name type env; (s, res.isOk)
  | .update msg => let (s, rcode) := s.serveDynamicUpdate lib msg env; (s, rcode = .success)
  | .restart => (s.restart, true)

/-- **A step of the server.** -/
def step (s : EmbeddedServer) (c : Call × Surroundings) : Option EmbeddedServer :=
  some (call lib s c.1 c.2).1

/-! ### A sample server

It has one zone and keeps its records in a file. -/

/-- An inventory of one subnet. -/
def sampleInventory : Inventory := { subnets := [{ name := "lab", domainName := "example.com" }] }

/-- The server before its first `Sync`. -/
def sampleServer : EmbeddedServer := { dynamicRecordsPath := "dns/records.json" }

/-- The server after its first `Sync`. -/
def sampleSynced : EmbeddedServer :=
  (call asciiNames sampleServer (.sync (some sampleInventory)) { now := 1000000000 }).1

/-- A record of an UPDATE message. -/
def sampleRR (name : String) (cls : UInt16) (data : RData) : RR := { name, cls, ttl := 0, data }

/-- An UPDATE message for the zone. -/
def sampleUpdate (updates : List RR) : Call := .update { zones := ["example.com."], updates }

end Gomi.Dns
