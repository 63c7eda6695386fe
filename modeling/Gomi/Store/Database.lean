import Gomi.Table
import Gomi.BareMetal.Host

/-!
# The database

The two tables behind a claim, `machines` and `bare_metal_hosts`, with the
constraints that the database engine enforces:

* the primary keys, by `Gomi.Table`;
* `bare_metal_hosts.name REFERENCES machines(name)`;
* `UNIQUE(owner)`, for the owners that are not `NULL`.

The last two are fields of `Gomi.Database`, so a state that violates them cannot be
built: each write of this file says why it keeps them, and a statement that would
violate one has to fail. The columns `spec` and `status` of a machine are JSON texts
in the source; they are the decoded records here (`Gomi.MachineSpec`,
`Gomi.MachineStatus`), which is the same as long as a comparison of such texts is a
comparison of the records they decode to.
-/

namespace Gomi

/-! ### Rows -/

/-- A row of `bare_metal_hosts`; an owner that is `NULL` is `none`. -/
structure HostRow where
  pool : String
  owner : Option String := none
  state : HostState := .available
  revision : ℤ := 1
  attemptID : String := ""
  publicKey : String
  targetDisk : String
  deriving DecidableEq

/-- `scanHost`: the columns `hostColumns` of a row. -/
@[simps] def HostRow.scan (name : String) (r : HostRow) : Host :=
  { name, pool := r.pool, owner := r.owner.getD "", state := r.state, revision := r.revision,
    attemptID := r.attemptID, publicKey := r.publicKey, targetDisk := r.targetDisk }

/-- The row in another pool. -/
@[simps owner] def HostRow.inPool (pool : String) (r : HostRow) : HostRow :=
  { r with pool, revision := r.revision + 1 }

/-- The row claimed by an owner. -/
@[simps owner] def HostRow.claimedBy (owner : String) (r : HostRow) : HostRow :=
  { r with owner := some owner, state := .claimed, revision := r.revision + 1 }

/-- The row in another state of its claim. -/
@[simps owner] def HostRow.moved (next : HostState) (attempt : String) (r : HostRow) : HostRow :=
  { r with state := next, attemptID := attempt, revision := r.revision + 1 }

/-- The row without its claim. -/
@[simps owner] def HostRow.released (r : HostRow) : HostRow :=
  { r with owner := none, state := .available, attemptID := "", revision := r.revision + 1 }

/-- `machineSpecJSON`. -/
structure MachineSpec where
  sealedBootstrap : Option SealedBootstrap := none
  targetDisk : String := ""
  power : PowerConfig := {}
  network : NetworkConfig := {}
  osPreset : OSPreset := {}
  cloudInitRef : String := ""
  cloudInitRefs : List String := []
  ipAssignment : IPAssignmentMode := .unset
  subnetRef : String := ""
  role : Role := .default
  bridgeName : String := ""
  sshKeyRefs : List String := []
  loginUser : Option LoginUserSpec := none
  deriving DecidableEq

/-- `machineStatusJSON`. -/
structure MachineStatus where
  phase : Phase := .unset
  provision : Option ProvisionProgress := none
  lastPowerAction : String := ""
  lastDeployedCloudInitRef : String := ""
  lastError : String := ""
  powerState : PowerState := .unset
  powerStateAt : Option Time := none
  deriving DecidableEq

/-- A row of `machines`. -/
structure MachineRow where
  hostname : String := ""
  mac : String := ""
  ip : String := ""
  arch : String := ""
  firmware : Firmware := .other ""
  spec : MachineSpec := {}
  status : MachineStatus := {}
  createdAt : Time := 0
  updatedAt : Time := 0
  deriving DecidableEq

/-- `scanMachineRow`. -/
def MachineRow.scan (name : String) (r : MachineRow) : Machine :=
  { sealedBootstrap := r.spec.sealedBootstrap, name, hostname := r.hostname, mac := r.mac,
    ip := r.ip, arch := r.arch, firmware := r.firmware, power := r.spec.power,
    network := r.spec.network, osPreset := r.spec.osPreset, targetDisk := r.spec.targetDisk,
    cloudInitRef := r.spec.cloudInitRef, cloudInitRefs := r.spec.cloudInitRefs,
    ipAssignment := r.spec.ipAssignment, subnetRef := r.spec.subnetRef, role := r.spec.role,
    bridgeName := r.spec.bridgeName, sshKeyRefs := r.spec.sshKeyRefs,
    loginUser := r.spec.loginUser, phase := r.status.phase, provision := r.status.provision,
    lastPowerAction := r.status.lastPowerAction,
    lastDeployedCloudInitRef := r.status.lastDeployedCloudInitRef,
    lastError := r.status.lastError, powerState := r.status.powerState,
    powerStateAt := r.status.powerStateAt, createdAt := r.createdAt, updatedAt := r.updatedAt }

/-- The attempt id of a machine record, empty if it has no provisioning record. -/
def Machine.attempt (m : Machine) : String := (m.provision.map (·.attemptID)).getD ""

/-- The attempt id that is stored in a row of `machines`. -/
def MachineRow.attempt (r : MachineRow) : String :=
  (r.status.provision.map (·.attemptID)).getD ""

section Marshal

variable (lib : Lib)

/-- The bootstrap that is read back after `b` was stored. -/
def SealedBootstrap.marshal (b : SealedBootstrap) : SealedBootstrap :=
  { b with envelope := lib.marshalRaw b.envelope }

/-- The provisioning record that is read back after `p` was stored; an empty curtin
configuration is left out. -/
def ProvisionProgress.marshal (p : ProvisionProgress) : ProvisionProgress :=
  { p with curtinConfig := if p.curtinConfig = "" then "" else lib.marshalRaw p.curtinConfig }

/-- The webhook configuration that is read back: an empty map is left out. -/
def WebhookConfig.marshal (c : WebhookConfig) : WebhookConfig :=
  { c with headers := c.headers.filter (!·.isEmpty), bodyExtras := c.bodyExtras.filter (!·.isEmpty) }

/-- The power configuration that is read back. -/
def PowerConfig.marshal (c : PowerConfig) : PowerConfig :=
  { c with webhook := c.webhook.map (·.marshal) }

/-- `marshalMachineColumns`, the spec. -/
def marshalSpec (m : Machine) : MachineSpec :=
  { sealedBootstrap := m.sealedBootstrap.map (·.marshal lib), targetDisk := m.targetDisk,
    power := m.power.marshal, network := m.network, osPreset := m.osPreset,
    cloudInitRef := m.cloudInitRef, cloudInitRefs := m.cloudInitRefs,
    ipAssignment := m.ipAssignment, subnetRef := m.subnetRef, role := m.role,
    bridgeName := m.bridgeName, sshKeyRefs := m.sshKeyRefs, loginUser := m.loginUser }

/-- `marshalMachineColumns`, the status. -/
def marshalStatus (m : Machine) : MachineStatus :=
  { phase := m.phase, provision := m.provision.map (·.marshal lib),
    lastPowerAction := m.lastPowerAction,
    lastDeployedCloudInitRef := m.lastDeployedCloudInitRef, lastError := m.lastError,
    powerState := m.powerState, powerStateAt := m.powerStateAt }

/-- The row a full write of `m` leaves, with the given creation time: an insert takes
it from `m`, an update keeps the old one. -/
def Machine.toRow (m : Machine) (createdAt : Time) : MachineRow :=
  { hostname := m.hostname, mac := m.mac, ip := m.ip, arch := m.arch, firmware := m.firmware,
    spec := marshalSpec lib m, status := marshalStatus lib m, createdAt, updatedAt := m.updatedAt }

variable {lib}

@[simp] theorem Machine.toRow_attempt (m : Machine) (t : Time) :
    (m.toRow lib t).attempt = m.attempt := by
  cases hp : m.provision <;>
    simp [MachineRow.attempt, Machine.attempt, Machine.toRow, marshalStatus, hp,
      ProvisionProgress.marshal]

end Marshal

/-! ### The two tables -/

/-- The content of the database, with the constraints of its schema. -/
structure Database where
  /-- `machines`. -/
  machines : Table MachineRow
  /-- `bare_metal_hosts`. -/
  hosts : Table HostRow
  /-- The foreign key of a host. -/
  machine_of_host : ∀ {n : String} {r : HostRow}, hosts[n]? = some r → ∃ m, machines[n]? = some m
  /-- `UNIQUE(owner)`. -/
  owner_unique : ∀ {n n' : String} {r r' : HostRow} {o : String}, hosts[n]? = some r →
    hosts[n']? = some r' → r.owner = some o → r'.owner = some o → n = n'

namespace Database

/-- The empty database. -/
def empty : Database where
  machines := ∅
  hosts := ∅
  machine_of_host h := absurd h (by simp)
  owner_unique h := absurd h (by simp)

variable (db : Database)

/-- `WHERE owner = ?`. -/
def hostOfOwner (owner : String) : Option (String × HostRow) :=
  db.hosts.first fun _ r => r.owner == some owner

theorem hostOfOwner_eq_some {db : Database} {owner n : String} {r : HostRow} :
    db.hostOfOwner owner = some (n, r) ↔ db.hosts[n]? = some r ∧ r.owner = some owner := by
  constructor
  · intro h
    obtain ⟨hr, ho⟩ := Table.first_eq_some h
    exact ⟨hr, by simpa using ho⟩
  · rintro ⟨hr, ho⟩
    cases h : db.hostOfOwner owner with
    | none =>
      have := Table.first_eq_none.mp h n r hr
      simp [ho] at this
    | some kv =>
      obtain ⟨n', r'⟩ := kv
      obtain ⟨hr', ho'⟩ := Table.first_eq_some h
      -- the owner is unique, so the row found is the row given
      obtain rfl := db.owner_unique hr hr' ho (by simpa using ho')
      rw [hr] at hr'
      rw [Option.some.inj hr']

variable {owner : String} {f : HostRow → HostRow} {hfree : db.hostOfOwner owner = none}
  {n a : String}

theorem hostOfOwner_eq_none {db : Database} :
    db.hostOfOwner owner = none ↔ ∀ (n : String) (r : HostRow), db.hosts[n]? = some r → r.owner ≠ some owner := by
  rw [hostOfOwner, Table.first_eq_none]
  simp

/-- A full write of a machine row. -/
def setMachine (n : String) (row : MachineRow) : Database where
  machines := db.machines.insert n row
  hosts := db.hosts
  machine_of_host := by
    intro n' r hr
    rw [Table.get_insert]
    split
    · exact ⟨row, rfl⟩
    · exact db.machine_of_host hr
  owner_unique := db.owner_unique

/-- A change of a machine row, if there is one. -/
def modifyMachine (n : String) (f : MachineRow → MachineRow) : Database where
  machines := db.machines.modify n f
  hosts := db.hosts
  machine_of_host := by
    intro n' r hr
    obtain ⟨m, hm⟩ := db.machine_of_host hr
    rw [Table.get_modify, hm]
    split
    · exact ⟨f m, rfl⟩
    · exact ⟨m, rfl⟩
  owner_unique := db.owner_unique

/-- A machine can be deleted only if it is not enrolled. -/
def eraseMachine (n : String) (h : db.hosts[n]? = none) : Database where
  machines := db.machines.erase n
  hosts := db.hosts
  machine_of_host := by
    intro n' r hr
    rw [Table.get_erase, if_neg]
    · exact db.machine_of_host hr
    · rintro rfl
      simp [h] at hr
  owner_unique := db.owner_unique

/-- Enrollment of a machine, without an owner. -/
def enroll (n : String) (row : HostRow) (hm : db.machines[n]?.isSome) (ho : row.owner = none) :
    Database where
  machines := db.machines
  hosts := db.hosts.insert n row
  machine_of_host := by
    intro n' r hr
    rcases Table.insert_cases hr with ⟨rfl, -⟩ | ⟨-, hr⟩
    · exact Option.isSome_iff_exists.mp hm
    · exact db.machine_of_host hr
  owner_unique := by
    intro n₁ n₂ r₁ r₂ o h₁ h₂ ho₁ ho₂
    rcases Table.insert_cases h₁ with ⟨-, rfl⟩ | ⟨-, h₁⟩
    · simp [ho] at ho₁
    · rcases Table.insert_cases h₂ with ⟨-, rfl⟩ | ⟨-, h₂⟩
      · simp [ho] at ho₂
      · exact db.owner_unique h₁ h₂ ho₁ ho₂

/-- Removal of an enrollment. -/
def eraseHost (n : String) : Database where
  machines := db.machines
  hosts := db.hosts.erase n
  machine_of_host hr := db.machine_of_host (Table.erase_cases hr).2
  owner_unique h₁ h₂ := db.owner_unique (Table.erase_cases h₁).2 (Table.erase_cases h₂).2

/-- A change of a host row that leaves its owner alone or clears it. -/
def modifyHost (n : String) (f : HostRow → HostRow)
    (hf : ∀ r, (f r).owner = r.owner ∨ (f r).owner = none) : Database where
  machines := db.machines
  hosts := db.hosts.modify n f
  machine_of_host := by
    intro n' r hr
    rw [Table.get_modify] at hr
    split at hr
    · obtain ⟨r', hr', -⟩ := Option.map_eq_some_iff.mp hr
      exact db.machine_of_host hr'
    · exact db.machine_of_host hr
  owner_unique := by
    -- every row after the change comes from a row with the same owner before it
    have key : ∀ {n' : String} {r : HostRow} {o : String},
        (db.hosts.modify n f)[n']? = some r → r.owner = some o →
        ∃ r' : HostRow, db.hosts[n']? = some r' ∧ r'.owner = some o := by
      intro n' r o hr ho
      rw [Table.get_modify] at hr
      split at hr
      · obtain ⟨r', hr', rfl⟩ := Option.map_eq_some_iff.mp hr
        rcases hf r' with h | h
        · exact ⟨r', hr', h ▸ ho⟩
        · simp [h] at ho
      · exact ⟨r, hr, ho⟩
    intro n₁ n₂ r₁ r₂ o h₁ h₂ ho₁ ho₂
    obtain ⟨r₁', h₁', ho₁'⟩ := key h₁ ho₁
    obtain ⟨r₂', h₂', ho₂'⟩ := key h₂ ho₂
    exact db.owner_unique h₁' h₂' ho₁' ho₂'

/-- A change of a host row that gives it an owner that has no host. -/
def claimHost (n : String) (f : HostRow → HostRow) (owner : String)
    (hf : ∀ r, (f r).owner = some owner) (hfree : db.hostOfOwner owner = none) : Database where
  machines := db.machines
  hosts := db.hosts.modify n f
  machine_of_host := by
    intro n' r hr
    rw [Table.get_modify] at hr
    split at hr
    · obtain ⟨r', hr', -⟩ := Option.map_eq_some_iff.mp hr
      exact db.machine_of_host hr'
    · exact db.machine_of_host hr
  owner_unique := by
    have free := hostOfOwner_eq_none.mp hfree
    intro n₁ n₂ r₁ r₂ o h₁ h₂ ho₁ ho₂
    rw [Table.get_modify] at h₁ h₂
    split at h₁ <;> split at h₂
    · exact (‹n = n₁›).symm.trans ‹n = n₂›
    · obtain ⟨r', -, rfl⟩ := Option.map_eq_some_iff.mp h₁
      obtain rfl : owner = o := by simpa [hf] using ho₁
      exact absurd ho₂ (free _ _ h₂)
    · obtain ⟨r', -, rfl⟩ := Option.map_eq_some_iff.mp h₂
      obtain rfl : owner = o := by simpa [hf] using ho₂
      exact absurd ho₁ (free _ _ h₁)
    · exact db.owner_unique h₁ h₂ ho₁ ho₂

/-! ### Lookup after a write -/

variable {db}

@[simp] theorem setMachine_hosts {n : String} {row : MachineRow} :
    (db.setMachine n row).hosts = db.hosts := rfl

theorem setMachine_machines {row : MachineRow} :
    (db.setMachine n row).machines[a]? = if n = a then some row else db.machines[a]? :=
  Table.get_insert ..

theorem modifyMachine_machines {f : MachineRow → MachineRow} :
    (db.modifyMachine n f).machines[a]? =
      if n = a then db.machines[a]?.map f else db.machines[a]? :=
  Table.get_modify ..

theorem eraseMachine_machines {h : db.hosts[n]? = none} :
    (db.eraseMachine n h).machines[a]? = if n = a then none else db.machines[a]? :=
  Table.get_erase ..

theorem enroll_hosts {row : HostRow} {hm : db.machines[n]?.isSome} {ho : row.owner = none} :
    (db.enroll n row hm ho).hosts[a]? = if n = a then some row else db.hosts[a]? :=
  Table.get_insert ..

theorem eraseHost_hosts : (db.eraseHost n).hosts[a]? = if n = a then none else db.hosts[a]? :=
  Table.get_erase ..

theorem modifyHost_hosts {hf : ∀ r, (f r).owner = r.owner ∨ (f r).owner = none} :
    (db.modifyHost n f hf).hosts[a]? = if n = a then db.hosts[a]?.map f else db.hosts[a]? :=
  Table.get_modify ..

theorem claimHost_hosts {hf : ∀ r, (f r).owner = some owner} :
    (db.claimHost n f owner hf hfree).hosts[a]? =
      if n = a then db.hosts[a]?.map f else db.hosts[a]? :=
  Table.get_modify ..

end Database

end Gomi
