import Gomi.Go.Net
import Gomi.Interleaving.Since
import Gomi.Store.Writes

/-!
# Discovery of machines

A machine that boots over the network and is not known is recorded (`Gomi.Discovery.handlePXEBoot`):
its hardware address is looked up, and if there is no record for it, one is written under a name that
comes from the host name it sent, or from the address. The write is an upsert.

Discovery works on either store of machines. What it needs of a store is a
`Gomi.Discovery.MachineStore`, of which there are two, `Gomi.Discovery.sqlStore` and
`Gomi.Discovery.memoryStore`. They look an address up by its text, up to the case of letters. How
letters beyond ASCII are treated is left open, in `Gomi.Discovery.Casing`.
-/

namespace Gomi.Discovery

open Go Prog

/-! ### Letter case -/

/-- A text in ASCII. -/
def IsASCII (s : String) : Prop := ∀ c ∈ s.toList, c.toNat < 128

/-- The lower case of the ASCII letters of a text. -/
def asciiLower (s : String) : String := String.ofList (s.toList.map Char.toLower)

/-- A character beyond ASCII, or one of the two that may be the lower case of one. -/
def Foreign (c : Char) : Prop := 128 ≤ c.toNat ∨ c = 'k' ∨ c = 'i'

/-- Letter case, as far as it is used: `unicode.ToLower`, which is `toLowerRune`, and `LOWER` of the
database. Both are as in ASCII there. Beyond ASCII, the only characters with a lower case in ASCII
are the Kelvin sign and the dotted capital I. -/
structure Casing where
  toLowerRune : Char → Char
  lower : String → String
  toLowerRune_ascii : ∀ c, c.toNat < 128 → toLowerRune c = c.toLower
  lower_ascii : ∀ s, IsASCII s → lower s = asciiLower s
  toLowerRune_other : ∀ c, 128 ≤ c.toNat → Foreign (toLowerRune c)
  lower_other : ∀ s, ¬ IsASCII s → ∃ c ∈ (lower s).toList, Foreign c

/-- `strings.ToLower`. -/
def Casing.toLower (k : Casing) (s : String) : String := String.ofList (s.toList.map k.toLowerRune)

variable {s : String} {c : Char} {a : List UInt8}
variable {m : Machine}

theorem Casing.toLower_ascii (k : Casing) (hs : IsASCII s) : k.toLower s = asciiLower s :=
  congrArg String.ofList (List.map_congr_left fun c hc => k.toLowerRune_ascii c (hs c hc))

theorem Casing.toLower_other (k : Casing) (hs : ¬ IsASCII s) :
    ∃ c ∈ (k.toLower s).toList, Foreign c := by
  simp only [IsASCII, not_forall, not_lt] at hs
  obtain ⟨c, hc, hbig⟩ := hs
  refine ⟨k.toLowerRune c, ?_, k.toLowerRune_other c hbig⟩
  rw [toLower, String.toList_ofList]
  exact List.mem_map_of_mem hc

/-- A database and a library that know the letters of ASCII only. -/
def asciiCasing : Casing where
  toLowerRune := Char.toLower
  lower := asciiLower
  toLowerRune_ascii _ _ := rfl
  lower_ascii _ _ := rfl
  toLowerRune_other c hc := .inl (by rwa [toLower_eq_self hc])
  lower_other s hs := by
    simp only [IsASCII, not_forall, not_lt] at hs
    obtain ⟨c, hc, hbig⟩ := hs
    refine ⟨c, ?_, .inl hbig⟩
    rw [asciiLower, String.toList_ofList]
    exact List.mem_map.mpr ⟨c, hc, toLower_eq_self hbig⟩

/-! ### Spellings of an address -/

theorem hexValue_ascii (h : (hexValue c).isSome = true) : c.toNat < 128 := by
  by_contra hc
  have hnone : hexValue c = none := by
    have hlt : ∀ d : Char, d.toNat < 128 → ¬ c ≤ d := fun d hd h =>
      hc (lt_of_le_of_lt (show c.toNat ≤ d.toNat from h) hd)
    rw [hexValue, if_neg fun h => hlt '9' (by decide) h.2, if_neg fun h => hlt 'f' (by decide) h.2,
      if_neg fun h => hlt 'F' (by decide) h.2]
  simp [hnone] at h

theorem not_foreign_of_hexValue (h : (hexValue c).isSome = true) : ¬ Foreign c := by
  rintro (hbig | rfl | rfl)
  · exact absurd (hexValue_ascii h) (not_lt.mpr hbig)
  · exact absurd h (by decide)
  · exact absurd h (by decide)

theorem not_foreign_of_separator (h : c ∈ [':', '-', '.']) :
    ¬ Foreign c ∧ ¬ Foreign c.toLower := by
  unfold Foreign
  simp only [List.mem_cons, List.not_mem_nil, or_false] at h
  rcases h with rfl | rfl | rfl <;> decide

/-- An address is written in ASCII. -/
theorem isASCII_of_parseMAC (h : parseMAC s = some a) : IsASCII s := by
  intro c hc
  rcases parseMAC_chars h c hc with hhex | hsep
  · exact hexValue_ascii hhex
  · exact not_le.mp fun hbig => (not_foreign_of_separator hsep).1 (.inl hbig)

theorem not_foreign_of_parseMAC (h : parseMAC s = some a) :
    ∀ c ∈ (asciiLower s).toList, ¬ Foreign c := by
  intro d hd
  rw [asciiLower, String.toList_ofList] at hd
  obtain ⟨c, hc, rfl⟩ := List.mem_map.mp hd
  rcases parseMAC_chars h c hc with hhex | hsep
  · exact not_foreign_of_hexValue (hexValue_toLower c ▸ hhex)
  · exact (not_foreign_of_separator hsep).2

/-- **A text that is the same in lower case spells the same address.** -/
theorem parseMAC_of_lower {k : Casing} {t : String} (ht : parseMAC t = some a)
    (h : k.lower s = k.toLower t ∨ k.toLower s = k.toLower t) : parseMAC s = some a := by
  rw [k.toLower_ascii (isASCII_of_parseMAC ht)] at h
  have hs : IsASCII s := by
    by_contra hs
    rcases h with h | h
    · obtain ⟨c, hc, hbad⟩ := k.lower_other s hs
      exact not_foreign_of_parseMAC ht c (h ▸ hc) hbad
    · obtain ⟨c, hc, hbad⟩ := k.toLower_other hs
      exact not_foreign_of_parseMAC ht c (h ▸ hc) hbad
  rw [k.lower_ascii s hs, k.toLower_ascii hs, or_self] at h
  rw [← ht]
  exact parseMAC_congr (String.ofList_inj.mp h)

/-! ### Stores of machines -/

/-- **A store of machines**, as far as discovery uses it, with what it may rely on. -/
structure MachineStore (k : Casing) where
  State : Type
  /-- The record that is read under a name. -/
  record : State → String → Option Machine
  /-- `GetByMAC` may answer with a machine. -/
  finds : State → String → Machine → Bool
  /-- `GetByMAC` answers that there is none. -/
  lacks : State → String → Bool
  /-- `Upsert`. -/
  upsert : Machine → State → Except Err Unit × State
  finds_record : ∀ {s mac m}, finds s mac m = true → ∃ n, record s n = some m
  finds_mac : ∀ {s mac m}, finds s mac m = true →
    k.lower m.mac = k.toLower mac ∨ k.toLower m.mac = k.toLower mac
  lacks_ascii : ∀ {s mac n m}, lacks s mac = true → record s n = some m → IsASCII m.mac →
    IsASCII mac → asciiLower m.mac ≠ asciiLower mac
  upsert_other : ∀ {m s n}, n ≠ m.name → record (upsert m s).2 n = record s n
  upsert_own : ∀ {m s}, (upsert m s).1 = .ok () →
    ∃ m', record (upsert m s).2 m.name = some m' ∧ m'.mac = m.mac
  upsert_error : ∀ {m s e}, (upsert m s).1 = .error e → (upsert m s).2 = s

section Stores

variable (k : Casing)

/-- Whether a row is found by an address: `WHERE LOWER(mac) = ?`. -/
def rowMatches (mac : String) (r : MachineRow) : Bool := k.lower r.mac = k.toLower mac

/-- An upsert writes the row, or is refused and writes nothing. -/
theorem upsert_sql {lib : Lib} {db : Database} :
    (∃ t, Gomi.upsert lib m db = (.ok (), db.setMachine m.name (m.toRow lib t))) ∨
      Gomi.upsert lib m db = (.error .conflict, db) := by
  rcases @upsert_cases lib m db with ⟨-, h⟩ | ⟨row, -, -, h⟩ | h
  · exact .inl ⟨_, h⟩
  · exact .inl ⟨_, h⟩
  · exact .inr h

/-- **The SQL store.** Which of several rows is found is not specified. -/
def sqlStore (lib : Lib) : MachineStore k where
  State := Database
  record db n := db.machines[n]?.map (·.scan n)
  finds db mac m := db.machines.toList.any fun kv => kv.2.scan kv.1 = m ∧ rowMatches k mac kv.2
  lacks db mac := (db.machines.first fun _ r => rowMatches k mac r).isNone
  upsert m db := Gomi.upsert lib m db
  finds_record h := by
    obtain ⟨⟨n, r⟩, hmem, hr⟩ := List.any_eq_true.mp h
    obtain ⟨rfl, -⟩ := of_decide_eq_true hr
    exact ⟨n, by rw [Table.mem_toList.mp hmem]; rfl⟩
  finds_mac h := by
    obtain ⟨⟨n, r⟩, -, hr⟩ := List.any_eq_true.mp h
    obtain ⟨rfl, hmac⟩ := of_decide_eq_true hr
    exact .inl (of_decide_eq_true hmac)
  lacks_ascii h hrec hm hmac heq := by
    obtain ⟨r, hr, rfl⟩ := Option.map_eq_some_iff.mp hrec
    have hno := Table.first_eq_none.mp (Option.isNone_iff_eq_none.mp h) _ r hr
    refine absurd (of_decide_eq_false hno) (not_not.mpr ?_)
    rw [k.toLower_ascii hmac, ← heq]
    exact k.lower_ascii _ hm
  upsert_other {m db n} hne := by
    rcases upsert_sql with ⟨t, h⟩ | h
    · rw [h, Database.setMachine_machines, if_neg fun h => hne h.symm]
    · rw [h]
  upsert_own {m db} hok := by
    rcases upsert_sql with ⟨t, h⟩ | h
    · refine ⟨(m.toRow lib t).scan m.name, ?_, rfl⟩
      rw [h, Database.setMachine_machines, if_pos rfl]
      rfl
    · rw [h] at hok
      cases hok
  upsert_error {m db e} herr := by
    rcases upsert_sql with ⟨t, h⟩ | h
    · rw [h] at herr
      cases herr
    · rw [h]

/-- **The store in memory.** -/
def memoryStore : MachineStore k where
  State := Table Machine
  record machines n := machines[n]?
  finds machines mac m := machines.toList.any fun kv =>
    kv.2 = m ∧ k.toLower kv.2.mac = k.toLower mac
  lacks machines mac := (machines.first fun _ m => k.toLower m.mac = k.toLower mac).isNone
  upsert m machines := (.ok (), machines.insert m.name m)
  finds_record h := by
    obtain ⟨⟨n, r⟩, hmem, hr⟩ := List.any_eq_true.mp h
    obtain ⟨rfl, -⟩ := of_decide_eq_true hr
    exact ⟨n, Table.mem_toList.mp hmem⟩
  finds_mac h := by
    obtain ⟨⟨n, r⟩, -, hr⟩ := List.any_eq_true.mp h
    obtain ⟨rfl, hmac⟩ := of_decide_eq_true hr
    exact .inr hmac
  lacks_ascii h hrec hm hmac heq := by
    have hno := Table.first_eq_none.mp (Option.isNone_iff_eq_none.mp h) _ _ hrec
    refine absurd (of_decide_eq_false hno) (not_not.mpr ?_)
    rw [k.toLower_ascii hmac, k.toLower_ascii hm, heq]
  upsert_other hne := by
    rw [Table.get_insert, if_neg fun h => hne h.symm]
  upsert_own _ := ⟨_, by rw [Table.get_insert, if_pos rfl], rfl⟩
  upsert_error h := by cases h

end Stores

/-! ### Operations -/

/-- The operations of discovery. -/
inductive Op where
  | getByMAC (mac : String)
  | upsert (m : Machine)
  /-- `time.Now().UTC()`. -/
  | now
  deriving DecidableEq

/-- The replies to an operation. -/
def Res : Op → Type
  | .getByMAC _ => Except Err Machine
  | .upsert _ => Except Err Unit
  | .now => Time

variable {k : Casing} (S : MachineStore k)

/-- The replies that `GetByMAC` may give. -/
def MachineStore.replies (s : S.State) (mac : String) (r : Except Err Machine) : Bool :=
  match r with
  | .ok m => S.finds s mac m
  | .error .notFound => S.lacks s mac
  | .error (.msg _) => true
  | .error _ => false

/-- The state after an upsert was replied to; it may also fail without an effect. -/
def MachineStore.execute (s : S.State) (m : Machine) (r : Except Err Unit) : Option S.State :=
  if r = (S.upsert m s).1 then some (S.upsert m s).2
  else match r with
    | .error (.msg _) => some s
    | _ => none

theorem MachineStore.execute_cases {s s' : S.State} {r : Except Err Unit}
    (h : S.execute s m r = some s') :
    (r = (S.upsert m s).1 ∧ s' = (S.upsert m s).2) ∨ ((∃ text, r = .error (.msg text)) ∧ s' = s) := by
  unfold execute at h
  split at h
  · rename_i hres
    exact .inl ⟨hres, (Option.some.inj h).symm⟩
  · split at h
    · exact .inr ⟨⟨_, rfl⟩, (Option.some.inj h).symm⟩
    · cases h

/-- **The semantics of the operations.** -/
def step : (o : Op) → S.State → Res o → Option S.State
  | .getByMAC mac, s, r => if S.replies s mac r then some s else none
  | .upsert m, s, r => S.execute s m r
  | .now, s, _ => some s

/-! ### The service -/

/-- The arguments of `HandlePXEBoot`. -/
structure Request where
  mac : String
  clientHostname : String := ""
  arch : String := ""
  firmware : String := ""

/-- `generateName`. -/
def generateName (k : Casing) (mac clientHostname : String) : String :=
  let h := trimSpace clientHostname
  if h ≠ "" then k.toLower h
  else String.ofList ((k.toLower mac).toList.map fun c => if c = ':' then '-' else c)

/-- The machine that is recorded for a request. -/
def Request.machine (k : Casing) (req : Request) (now : Time) : Machine :=
  let name := generateName k req.mac req.clientHostname
  { name, hostname := name, mac := req.mac, arch := req.arch
    firmware := if req.firmware = "bios" then .bios else .uefi
    phase := .discovered, createdAt := now, updatedAt := now }

/-- `HandlePXEBoot`. -/
def handlePXEBoot (k : Casing) (req : Request) : Prog Res (Except Err Machine) := do
  match (← Prog.perform (Op.getByMAC req.mac) : Except Err Machine) with
  | .ok existing => return .ok existing
  | .error .notFound =>
    let now : Time ← Prog.perform Op.now
    let m := req.machine k now
    match (← Prog.perform (Op.upsert m) : Except Err Unit) with
    | .error e => return .error e
    | .ok _ => return .ok m
  | .error e => return .error e

/-! ### What a request does -/

/-- The calls of a request that is about to write. -/
def unknown (req : Request) (now : Time) : List (Call Res) :=
  [⟨.getByMAC req.mac, Except.error .notFound⟩, ⟨.now, now⟩]

/-- What a request may do: it writes only what its own address and host name give, after it has not
found the address. -/
def Allowed (k : Casing) (req : Request) (cs : List (Call Res)) : Op → Prop
  | .upsert m => ∃ now, cs = unknown req now ∧ m = req.machine k now
  | _ => True

/-- What a request has done that is answered with a machine. -/
def Answered (k : Casing) (req : Request) (cs : List (Call Res)) (a : Except Err Machine) : Prop :=
  ∀ m, a = .ok m → cs = [⟨.getByMAC req.mac, Except.ok m⟩] ∨
    ∃ now, cs = unknown req now ++ [⟨.upsert (req.machine k now), Except.ok ()⟩] ∧
      m = req.machine k now

theorem handlePXEBoot_obeys {req : Request} :
    (handlePXEBoot k req).Obeys (Allowed k req) (Answered k req) [] := by
  refine .perform_bind trivial fun r => ?_
  cases r with
  | ok => exact .pure fun m hm => .inl (by cases hm; rfl)
  | error e =>
    cases e with
    | notFound =>
      refine .perform_bind trivial fun now => ?_
      refine .perform_bind ⟨now, rfl, rfl⟩ fun r => ?_
      cases r with
      | error => exact .pure fun m hm => nomatch hm
      | ok => exact .pure fun m hm => .inr ⟨now, rfl, by cases hm; rfl⟩
    | alreadyExists | hostNotFound | conflict | capacity | msg text =>
      exact .pure fun m hm => nomatch hm

end Gomi.Discovery
