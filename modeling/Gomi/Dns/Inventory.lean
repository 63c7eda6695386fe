import Gomi.Dns.Names
import Gomi.Go.Addr
import Gomi.Table

/-!
# The hosts of the inventory

Both DNS controllers publish the addresses of the machines and the virtual machines under the
names that their domain and their host name give. This file has the part of the inventory that
they read, and how a host's domain is found: its own one, or else the one of its subnet.
-/

namespace Gomi.Dns

open Go

/-- The part of a subnet that the controllers read. -/
structure Subnet where
  name : String
  domainName : String := ""

/-- The part of a machine that the controllers read. -/
structure Machine where
  name : String
  hostname : String := ""
  domain : String := ""
  subnetRef : String := ""
  ip : String := ""

/-- The part of a virtual machine that the controllers read: of `network` the address of each
card, and of `networkInterfaces` the addresses of each interface. -/
structure VirtualMachine where
  name : String
  domain : String := ""
  subnetRef : String := ""
  network : List String := []
  ipAddresses : List String := []
  networkInterfaces : List (List String) := []

/-- What the three stores list. -/
structure Inventory where
  subnets : List Subnet := []
  machines : List Machine := []
  vms : List VirtualMachine := []

/-- `vmIPv4Candidates`. -/
def vmIPv4Candidates (v : VirtualMachine) : List String :=
  v.network ++ v.ipAddresses ++ v.networkInterfaces.flatten

/-- A host, as the two loops over machines and over virtual machines see it. -/
structure Host where
  hostname : String
  fallback : String
  domain : String
  subnetRef : String
  ips : List String

/-- A machine as a host. -/
def Machine.host (m : Machine) : Host where
  hostname := m.hostname
  fallback := m.name
  domain := m.domain
  subnetRef := m.subnetRef
  ips := [m.ip]

/-- A virtual machine as a host. -/
def VirtualMachine.host (v : VirtualMachine) : Host where
  hostname := v.name
  fallback := v.name
  domain := v.domain
  subnetRef := v.subnetRef
  ips := vmIPv4Candidates v

/-- The hosts in the order of the loops. -/
def Inventory.hosts (inv : Inventory) : List Host :=
  inv.machines.map Machine.host ++ inv.vms.map VirtualMachine.host

variable (lib : NameLib)

/-- The domains of the subnets, by their names: a later subnet of a name wins. -/
def domainBySubnet (subnets : List Subnet) : Table String :=
  subnets.foldl (fun domains sub => match canonicalFQDN lib sub.domainName with
    | some zone => domains.insert sub.name zone
    | none => domains) ∅

/-- The domain of a host: its own one, or else that of its subnet. -/
def Host.zone (h : Host) (domains : Table String) : Option String :=
  match canonicalFQDN lib h.domain with
  | some domain => some domain
  | none => if domains.getD h.subnetRef "" = "" then none else some (domains.getD h.subnetRef "")

/-! ### The records of the embedded server -/

/-- What `Sync` has collected. -/
structure Collected where
  zones : Std.ExtTreeSet String compare := ∅
  records : Table (List UInt32) := ∅

/-- `addRecord`. The map of the addresses that were seen has exactly those of the list. -/
def addRecord (records : Table (List UInt32)) (name rawIP : String) : Table (List UInt32) :=
  match parseAddr4 (trimSpace rawIP) with
  | none => records
  | some addr => records.insert name (addDistinct (records.getD name []) addr)

/-- One turn of the loops over the hosts. -/
def Collected.addHost (domains : Table String) (c : Collected) (h : Host) : Collected :=
  match h.zone lib domains with
  | none => c
  | some domain =>
    let c := { c with zones := c.zones.insert domain }
    match hostFQDN lib h.hostname h.fallback domain with
    | none => c
    | some name => { c with records := h.ips.foldl (addRecord · name) c.records }

/-- The zones and the records that `Sync` collects. -/
def collect (inv : Inventory) : Collected :=
  let zones := inv.subnets.foldl (fun zones sub => match canonicalFQDN lib sub.domainName with
    | some zone => zones.insert zone
    | none => zones) (∅ : Std.ExtTreeSet String compare)
  inv.hosts.foldl (Collected.addHost lib (domainBySubnet lib inv.subnets)) { zones }

end Gomi.Dns
