import Gomi.Dhcp.Server
import Gomi.Machine.Types

/-!
# Subnets

`internal/subnet/validate.go`: what is checked of a subnet before it is stored, and the part
of `internal/app/pxe_state.go` that builds the reservations of the DHCP server
(`syncDHCPReservations`). A subnet that has passed the check is a `Gomi.AcceptedSubnet`.

Both look at addresses with `net.ParseIP`, which also reads IPv6 addresses. The check does
not ask for more, and `reservationSet` keeps the `To4` of what was read, which is nil then.
-/

namespace Gomi

open Go

/-- `subnet.DHCPReservation`. -/
structure DHCPReservation where
  mac : String
  ip : String
  deriving DecidableEq

/-- `subnet.SubnetSpec`. -/
structure SubnetSpec where
  cidr : String
  pxeAddressRange : Option Dhcp.AddressRange := none
  defaultGateway : String := ""
  dnsServers : List String
  reservedRanges : List Dhcp.AddressRange := []
  reservations : List DHCPReservation := []
  leaseTime : ℤ := 0
  domainName : String := ""
  ntpServers : List String := []
  deriving DecidableEq

/-- `subnet.Subnet`. -/
structure Subnet where
  name : String
  spec : SubnetSpec
  deriving DecidableEq

/-! ### `ValidateSubnet` -/

/-- The number of bits of an address text, which is that of the family it is written in. -/
def addrBitLen (s : String) : ℕ :=
  match s.toList.find? fun c => c = '.' ∨ c = ':' with
  | some '.' => 32
  | _ => 128

/-- `dtoi`, of a text that it reads to the end: a decimal number below `0xFFFFFF`. -/
def dtoi (s : String) : Option ℕ :=
  let n := s.toList.foldl (fun n c => 10 * n + (c.toNat - '0'.toNat)) 0
  if allOf isDigit s.toList ∧ n < 0xFFFFFF then some n else none

/-- `net.ParseCIDR`, as far as its error is concerned. -/
def parseCIDR (s : String) : Except Err Unit :=
  let (addr, mask, found) := cut s '/'
  failIf (¬(found ∧ (parseIP addr).isSome ∧ (dtoi mask).any (· ≤ addrBitLen addr)))
    (.msg ("invalid CIDR address: " ++ s))

/-- A label of a domain name. -/
def isValidLabel (label : List Char) : Bool :=
  let size := (String.ofList label).utf8ByteSize
  0 < size ∧ size ≤ 63 ∧ label.zipIdx.all fun (c, i) =>
    isLower c ∨ isUpper c ∨ isDigit c ∨ (c = '-' ∧ 0 < i ∧ i < size - 1)

/-- `isValidDomainName`. -/
def isValidDomainName (name : String) : Bool :=
  name.utf8ByteSize ≤ 253 ∧ (name.toList.splitOn '.').all isValidLabel

/-- The first text of a list that is not an address. -/
def firstInvalidIP (l : List String) : Option String := l.find? fun s => (parseIP s).isNone

/-- The check of an address range, which is called `field`. -/
def validateRange (field : String) (r : Dhcp.AddressRange) : Except Err Unit := do
  failIf ((parseIP r.startIP).isNone) (.msg (field ++ ".start is invalid: " ++ r.startIP))
  failIf ((parseIP r.endIP).isNone) (.msg (field ++ ".end is invalid: " ++ r.endIP))

/-- The check of a list of ranges, the first of which has the index `i`. -/
def validateRanges (i : ℕ) : List Dhcp.AddressRange → Except Err Unit
  | [] => .ok ()
  | r :: rs => do
    validateRange ("spec.reservedRanges[" ++ toString i ++ "]") r
    validateRanges (i + 1) rs

/-- `ValidateSubnet`. -/
def validateSubnet (s : Subnet) : Except Err Unit := do
  failIf (trimSpace s.name = "") (.msg "name is required")
  failIf (trimSpace s.spec.cidr = "") (.msg "spec.cidr is required")
  failIf (s.spec.dnsServers = []) (.msg "spec.dnsServers is required")
  match parseCIDR s.spec.cidr with
  | .error e => .error (.msg ("spec.cidr is invalid: " ++ e.text))
  | .ok _ =>
  let gw := trimSpace s.spec.defaultGateway
  failIf (gw ≠ "" ∧ (parseIP gw).isNone) (.msg ("spec.defaultGateway is invalid: " ++ gw))
  match firstInvalidIP s.spec.dnsServers with
  | some dns => .error (.msg ("spec.dnsServers contains invalid IP: " ++ dns))
  | none =>
  match s.spec.pxeAddressRange with
  | some r => validateRange "spec.pxeAddressRange" r
  | none => .ok ()
  validateRanges 0 s.spec.reservedRanges
  let lt := s.spec.leaseTime
  failIf (lt ≠ 0 ∧ (lt < 60 ∨ 604800 < lt)) (.msg
    ("spec.leaseTime must be 0 (default) or between 60 and 604800 seconds: " ++ toString lt))
  let dn := trimSpace s.spec.domainName
  failIf (dn ≠ "" ∧ !isValidDomainName dn) (.msg ("spec.domainName is invalid: " ++ dn))
  match firstInvalidIP s.spec.ntpServers with
  | some ntp => .error (.msg ("spec.ntpServers contains invalid IP: " ++ ntp))
  | none => .ok ()

/-- A subnet that `ValidateSubnet` accepts. -/
structure AcceptedSubnet extends Subnet where
  valid : validateSubnet toSubnet = .ok ()

/-- What the lease pool reads of a subnet. -/
def Subnet.dhcp (s : Subnet) : Dhcp.SubnetSpec :=
  { pxeAddressRange := s.spec.pxeAddressRange, leaseTime := s.spec.leaseTime }

/-! ### `syncDHCPReservations` -/

/-- What `addStaticReservation` reads of a machine or a virtual machine. -/
structure AddressedNode where
  ipAssignmentStatic : Bool
  primaryMAC : String
  staticIP : String
  deriving DecidableEq

/-- `reservations[mac] = ip.To4()`, if the text of the address is read. -/
def addReservation (reservations : Table (Option UInt32)) (mac ip : String) : Table (Option UInt32) :=
  if mac ≠ "" ∧ (parseIP (trimSpace ip)).isSome then reservations.insert mac (parseIPv4 (trimSpace ip))
  else reservations

/-- `addStaticReservation`. -/
def addStaticReservation (reservations : Table (Option UInt32)) (h : AddressedNode) :
    Table (Option UInt32) :=
  if h.ipAssignmentStatic then addReservation reservations h.primaryMAC h.staticIP else reservations

/-- The reservations of the manual ones of a subnet and of the static addresses of machines and
virtual machines. -/
def reservationSet (manual : List DHCPReservation) (nodes : List AddressedNode) :
    Table (Option UInt32) :=
  let reservations := manual.foldl (fun t res =>
    addReservation t (toLower (trimSpace res.mac)) res.ip) ∅
  nodes.foldl addStaticReservation reservations

end Gomi
