import Gomi.Dns.Inventory
import Gomi.Dns.Records
import Gomi.Sweep
import Gomi.Transition

/-!
# The RFC 2136 controller

The controller of `internal/infra/dns/rfc2136.go` publishes the addresses of the inventory on a
remote server, by UPDATE messages. It remembers what it has published in a map `last`, by name,
and `Sync` sends only what differs from it.

The remote server is the part of the system that the controller does not see; it is a parameter
(`Gomi.Dns.Rfc2136.RemoteServer`), of which RFC 2136 is assumed (`Gomi.Dns.Rfc2136.Conforms`). An
exchange may be answered, refused, or carried out while its answer is lost
(`Gomi.Dns.Rfc2136.Exchange`). What the remote server has, where the controller has ever written,
and for which names an answer was lost and none has come since, are in the state
(`Gomi.Dns.Rfc2136.System`); the last two are for the statements only.
-/

namespace Gomi.Dns.Rfc2136

open Go

/-! ### Records -/

/-- `recordSet`. -/
structure RecordSet where
  zone : String := ""
  name : String := ""
  ips : List UInt32 := []
  deriving DecidableEq

/-- `RFC2136Config`, without the algorithm of the signature. `stores` tells whether the three stores
are configured, and `ttl` is in nanoseconds. -/
structure Config where
  server : String := ""
  zone : String := ""
  ttl : Int := 0
  tsigName : String := ""
  tsigSecret : String := ""
  transport : String := ""
  stores : Bool := true

/-- The configuration of an `RFC2136Controller`. -/
structure Controller where
  server : String
  zone : String
  ttl : UInt32
  tsigName : String
  tsigSecret : String
  transport : String
  stores : Bool

/-- `dnsServerAddress`. -/
def dnsServerAddress (raw : String) : String :=
  let raw := trimSpace raw
  if raw = "" then "" else if raw.toList.contains ':' then raw else raw ++ ":53"

variable (lib : NameLib)

/-- `NewRFC2136Controller`. -/
def newRFC2136Controller (cfg : Config) : Controller :=
  let transport := toLower (trimSpace cfg.transport)
  { server := dnsServerAddress cfg.server
    zone := canonicalOrEmpty lib cfg.zone
    ttl := if 0 < cfg.ttl then UInt32.ofNat (cfg.ttl.toNat / 1000000000) else 300
    tsigName := canonicalOrEmpty lib cfg.tsigName
    tsigSecret := trimSpace cfg.tsigSecret
    transport := if transport = "" then "udp" else transport
    stores := cfg.stores }

/-- `Enabled`. -/
def Controller.enabled (c : Controller) : Bool := c.server ≠ "" && c.stores

/-- `addRecord`. -/
def Controller.addRecord (c : Controller) (name domain : String) (records : Table RecordSet)
    (rawIP : String) : Table RecordSet :=
  match parseAddr4 (trimSpace rawIP) with
  | none => records
  | some addr =>
    if c.zone ≠ "" ∧ inZone name [c.zone] = false then records
    else
      let zone := if c.zone ≠ "" then c.zone else domain
      let old := records.getD name {}
      let rec' := if old.name = "" then { name, zone } else old
      records.insert name { rec' with ips := addDistinct rec'.ips addr }

/-- One turn of the loops over the hosts. -/
def Controller.addHost (c : Controller) (domains : Table String) (records : Table RecordSet) (h : Host) :
    Table RecordSet :=
  match h.zone lib domains with
  | none => records
  | some domain => match hostFQDN lib h.hostname h.fallback domain with
    | none => records
    | some name => h.ips.foldl (c.addRecord name domain) records

/-- `collectRecords`. -/
def Controller.collectRecords (c : Controller) (inv : Inventory) : Table RecordSet :=
  inv.hosts.foldl (c.addHost lib (domainBySubnet lib inv.subnets)) ∅

/-- `equalRecordSet`. -/
def equalRecordSet (a b : RecordSet) : Bool :=
  a.name = b.name && a.zone = b.zone && a.ips.length = b.ips.length &&
    (a.ips.zip b.ips).all fun p => p.1 = p.2

/-! ### Messages -/

/-- `deleteARRSet`. -/
def deleteARRSet (name : String) : RR := { name, cls := classANY, ttl := 0, data := .other typeA }

/-- The A record that `replaceA` adds for an address. -/
def addressRR (name : String) (ttl ip : UInt32) : RR :=
  { name, cls := classINET, ttl, data := .a (some ip) }

/-- The message of `replaceA`. -/
def Controller.replaceA (c : Controller) (rec' : RecordSet) : List RR :=
  deleteARRSet rec'.name :: rec'.ips.map (addressRR rec'.name c.ttl)

/-- The message of `deleteA`. -/
def deleteA (rec' : RecordSet) : List RR := [deleteARRSet rec'.name]

/-! ### The remote server -/

/-- **A server that takes UPDATE messages**, as far as the controller depends on it. -/
structure RemoteServer where
  State : Type
  /-- The A records in a zone at a name. -/
  addresses : State → String → String → Finset UInt32
  /-- Whether there is a CNAME record in a zone at a name. -/
  hasCNAME : State → String → String → Bool
  /-- What one record of a message that is accepted for a zone does. -/
  update : State → String → RR → State

/-- The state after a message for a zone, whose records are taken in their order. -/
def RemoteServer.apply (S : RemoteServer) (s : S.State) (zone : String) (msg : List RR) : S.State :=
  msg.foldl (S.update · zone) s

/-- A name in canonical form. -/
def Canonical (n : String) : Prop := lib.isName n = true ∧ lib.canonical n = n

/-- A text without escapes. -/
def Unescaped (n : String) : Prop := '\\' ∉ n.toList

instance (n : String) : Decidable (Unescaped n) := inferInstanceAs (Decidable ('\\' ∉ n.toList))

/-- A name in canonical form and without escapes. Two of them are the same name only if they are the same
text. -/
structure Plain (n : String) : Prop where
  canonical : Canonical lib n
  unescaped : Unescaped n

/-- **The server is one of RFC 2136** (section 3.4.2), as far as the messages of the controller go. -/
structure Conforms (S : RemoteServer) : Prop where
  /-- A record of class ANY and type A removes the A records at its name. -/
  delete : ∀ (s : S.State) {zone n : String}, Plain lib zone → Plain lib n →
    S.addresses (S.update s zone (deleteARRSet n)) zone n = ∅
  /-- An A record is added, unless there is a CNAME record at its name. -/
  add : ∀ (s : S.State) (ttl ip : UInt32) {zone n : String}, Plain lib zone → Plain lib n →
    S.hasCNAME s zone n = false →
    S.addresses (S.update s zone (addressRR n ttl ip)) zone n = insert ip (S.addresses s zone n)
  /-- The A records of the other names, and of the other zones, are left alone. -/
  elsewhere : ∀ (s : S.State) (rr : RR) {zone z n : String}, Plain lib zone → Plain lib rr.name →
    Plain lib z → Plain lib n → ¬(z = zone ∧ n = rr.name) →
    S.addresses (S.update s zone rr) z n = S.addresses s z n
  /-- A record of type A leaves the CNAME records alone. -/
  hasCNAME : ∀ (s : S.State) (rr : RR) (zone z n : String), rr.rrType = typeA →
    S.hasCNAME (S.update s zone rr) z n = S.hasCNAME s z n

/-! ### Syncs -/

/-- **What becomes of an exchange.** -/
inductive Exchange
  /-- It is carried out, and the answer arrives. -/
  | answered
  /-- It is not carried out. -/
  | refused
  /-- It is carried out, and the controller sees an error. -/
  | lost
  deriving DecidableEq

/-- The controller's map, and the world around it. -/
structure System (S : RemoteServer) where
  last : Table RecordSet := ∅
  remote : S.State
  /-- Where the controller has ever written. -/
  written : List (String × String) := []
  /-- The names for which the last exchange that was carried out was not answered, with its zone. -/
  doubtful : Table String := ∅

/-- What a `Sync` finds: the orders in which the two maps are iterated, and the exchanges by name. -/
structure Surroundings where
  desiredOrder : List String
  lastOrder : List String
  replaced : String → Exchange := fun _ => .answered
  deleted : String → Exchange := fun _ => .answered

variable (decodes : String → Bool) {S : RemoteServer}

/-- Whether `exchangeUpdate` comes to send a message: with a signature, its key must be complete and
`decodes`. -/
def Controller.sends (c : Controller) : Bool :=
  (c.tsigName = "" && c.tsigSecret = "") ||
    (c.tsigName ≠ "" && c.tsigSecret ≠ "" && decodes c.tsigSecret)

/-- `exchangeUpdate`, and what it does to the remote server. -/
def System.exchangeUpdate (c : Controller) (s : System S) (zone name : String) (msg : List RR)
    (exchange : Exchange) : System S × Bool :=
  if c.sends decodes = false then (s, false)
  else match exchange with
    | .refused => (s, false)
    | .lost =>
      ({ s with remote := S.apply s.remote zone msg, written := (zone, name) :: s.written
                doubtful := s.doubtful.insert name zone }, false)
    | .answered =>
      ({ s with remote := S.apply s.remote zone msg, written := (zone, name) :: s.written
                doubtful := s.doubtful.erase name }, true)

/-- A turn of the first loop of `Sync`, over the desired records. -/
def replaceTurn (c : Controller) (desired : Table RecordSet) (exchanges : String → Exchange) (key : String)
    (s : System S) : System S × Bool :=
  match desired[key]? with
  | none => (s, true)
  | some rec' =>
    if equalRecordSet (s.last.getD key {}) rec' then (s, true)
    else match s.exchangeUpdate decodes c rec'.zone rec'.name (c.replaceA rec') (exchanges key) with
      | (s, false) => (s, false)
      | (s, true) => ({ s with last := s.last.insert key rec' }, true)

/-- A turn of the second loop of `Sync`, over the records that were published. -/
def deleteTurn (c : Controller) (desired : Table RecordSet) (exchanges : String → Exchange) (key : String)
    (s : System S) : System S × Bool :=
  match s.last[key]? with
  | none => (s, true)
  | some rec' =>
    if desired.contains key then (s, true)
    else match s.exchangeUpdate decodes c rec'.zone rec'.name (deleteA rec') (exchanges key) with
      | (s, false) => (s, false)
      | (s, true) => ({ s with last := s.last.erase key }, true)

/-- **`Sync`**: the system it leaves, and whether it returns nil. The stores' lists are `none` if one of
them fails. It has no result if an order is not one of the map's keys. -/
def sync (c : Controller) (s : System S) (inv : Option Inventory) (env : Surroundings) :
    Option (System S × Bool) :=
  if c.enabled = false then some (s, true)
  else if c.transport ≠ "udp" ∧ c.transport ≠ "tcp" then some (s, false)
  else match inv with
    | none => some (s, false)
    | some inv =>
      let desired := c.collectRecords lib inv
      if env.desiredOrder.Perm desired.keys then
        match sweep (replaceTurn decodes c desired env.replaced) env.desiredOrder s with
        | (s, false) => some (s, false)
        | (s, true) =>
          if env.lastOrder.Perm s.last.keys then
            some (sweep (deleteTurn decodes c desired env.deleted) env.lastOrder s)
          else none
      else none

/-- A step: one `Sync`. -/
def step (c : Controller) (s : System S) (call : Option Inventory × Surroundings) : Option (System S) :=
  (sync lib decodes c s call.1 call.2).map Prod.fst

/-! ### Samples -/

/-- What the sample server has at a name. -/
structure Node where
  ips : Finset UInt32 := ∅
  cname : Option String := none
  deriving DecidableEq

/-- What a record of an UPDATE message does to the records at its name. -/
def Node.update (node : Node) (rr : RR) : Node :=
  if rr.cls = classANY then
    { ips := if rr.rrType = typeA ∨ rr.rrType = typeANY then ∅ else node.ips
      cname := if rr.rrType = typeCNAME ∨ rr.rrType = typeANY then none else node.cname }
  else if rr.cls = classINET then match rr.data with
    | .a (some ip) => if node.cname = none then { node with ips := insert ip node.ips } else node
    | .cname target => if node.ips = ∅ then { node with cname := some target } else node
    | _ => node
  else node

/-- A server with the A and the CNAME records of any zones. -/
def sampleServer : RemoteServer where
  State := String → String → Node
  addresses s zone n := (s zone n).ips
  hasCNAME s zone n := (s zone n).cname.isSome
  update s zone rr := fun z n => if z = zone ∧ n = rr.name then (s z n).update rr else s z n

theorem Node.cname_update (node : Node) {rr : RR} (h : rr.rrType = typeA) :
    (node.update rr).cname = node.cname := by
  rw [Node.update]
  split
  · simp [h, typeA, typeCNAME, typeANY]
  · split
    · split
      · split <;> rfl
      · rename_i hdata
        simp [RR.rrType, hdata, typeA, typeCNAME] at h
      · rfl
    · rfl

theorem conforms_sampleServer : Conforms lib sampleServer where
  delete s zone n _ _ := by simp [sampleServer, Node.update, deleteARRSet, RR.rrType]
  add s ttl ip zone n _ _ hcname := by
    have hnone : (s zone n).cname = none := by simpa [sampleServer] using hcname
    simp [sampleServer, Node.update, addressRR, classINET, classANY, hnone]
  elsewhere s rr zone z n _ _ _ _ hne := by
    show (if z = zone ∧ n = rr.name then (s z n).update rr else s z n).ips = (s z n).ips
    rw [if_neg hne]
  hasCNAME s rr zone z n hrr := by
    show (if z = zone ∧ n = rr.name then (s z n).update rr else s z n).cname.isSome =
      (s z n).cname.isSome
    split
    · rw [Node.cname_update _ hrr]
    · rfl

/-- The sample server without records, before the first `Sync`. -/
def sampleSystem : System sampleServer := { remote := fun _ _ => {} }

/-- A machine with a fully qualified host name and an address, in a domain. -/
def sampleInventory (domain : String) : Inventory :=
  { machines := [{ name := "node", hostname := "node.a.example", domain, ip := "10.0.0.1" }] }

/-- A configuration without a signature. -/
def sampleConfig : Config := { server := "192.0.2.1" }

/-- A `Sync` of the sample inventory. -/
def sampleSync (domain : String) (exchange : Exchange) : Option Inventory × Surroundings :=
  (some (sampleInventory domain), { desiredOrder := ["node.a.example."], lastOrder := ["node.a.example."]
                                    replaced := fun _ => exchange })

/-- A `Sync` after the machine is gone. -/
def sampleEmpty (lastOrder : List String) : Option Inventory × Surroundings :=
  (some {}, { desiredOrder := [], lastOrder })

end Gomi.Dns.Rfc2136
