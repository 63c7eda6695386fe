import Gomi.Go.Net

/-!
# IPv4 addresses as numbers, and the texts of addresses

The lease pool works with IPv4 addresses as 32-bit numbers
(`binary.BigEndian.Uint32(ip.To4())`), and keeps them, and hardware addresses, as texts.

* `Gomi.Go.parseIPv4` is `net.ParseIP(s).To4()`, and `Gomi.Go.ipv4Text` is `ip.String()`; a
  text that was written is read back (`Gomi.Go.parseIPv4_ipv4Text`).
* `Gomi.Go.macText` is `mac.String()`, and different addresses have different texts
  (`Gomi.Go.macText_injective`).
-/

namespace Gomi.Go

/-! ### IPv4 addresses -/

/-- `ip.To4()`, of the eight groups of an address. -/
def to4 : List ℕ → Option UInt32
  | [0, 0, 0, 0, 0, 0xffff, hi, lo] => some (UInt32.ofNat (65536 * hi + lo))
  | _ => none

/-- `net.ParseIP(s).To4()`. -/
def parseIPv4 (s : String) : Option UInt32 := (parseIP s).bind to4

/-- The four bytes of an address, in decimal. -/
def ipv4Fields (ip : UInt32) : List (List Char) :=
  [Nat.toDigits 10 (ip.toNat / 16777216), Nat.toDigits 10 (ip.toNat / 65536 % 256),
    Nat.toDigits 10 (ip.toNat / 256 % 256), Nat.toDigits 10 (ip.toNat % 256)]

/-- `ip.String()`. -/
def ipv4Text (ip : UInt32) : String := String.ofList (['.'].intercalate (ipv4Fields ip))

/-- A decimal byte is read back. -/
theorem octet_toDigits {n : ℕ} (hn : n < 256) : octet (Nat.toDigits 10 n) = some n := by
  have h : ∀ m : Fin 256, octet (Nat.toDigits 10 m) = some (m : ℕ) := by decide +kernel
  exact h ⟨n, hn⟩

variable {c : Char}

/-- A decimal byte is made of digits. -/
theorem isDigit_of_mem_toDigits {n : ℕ} (hn : n < 256) (hc : c ∈ Nat.toDigits 10 n) :
    isDigit c = true := by
  have h : ∀ m : Fin 256, (Nat.toDigits 10 m).all isDigit = true := by decide +kernel
  exact List.all_eq_true.mp (h ⟨n, hn⟩) c hc

theorem isDigit_of_mem_ipv4Fields {ip : UInt32} {l : List Char} (hl : l ∈ ipv4Fields ip)
    (hc : c ∈ l) : isDigit c = true := by
  have hip := ip.toNat_lt
  simp only [ipv4Fields, List.mem_cons, List.not_mem_nil, or_false] at hl
  rcases hl with rfl | rfl | rfl | rfl
  · exact isDigit_of_mem_toDigits (by omega) hc
  · exact isDigit_of_mem_toDigits (by omega) hc
  · exact isDigit_of_mem_toDigits (by omega) hc
  · exact isDigit_of_mem_toDigits (by omega) hc

theorem parseIPv4Fields_ipv4Fields (ip : UInt32) :
    parseIPv4Fields (['.'].intercalate (ipv4Fields ip)) =
      some [ip.toNat / 65536, ip.toNat % 65536] := by
  have hip := ip.toNat_lt
  have hsplit : List.splitOn '.' (['.'].intercalate (ipv4Fields ip)) = ipv4Fields ip := by
    refine List.splitOn_intercalate '.' (fun l hl hdot => ?_) (by simp [ipv4Fields])
    exact absurd (isDigit_of_mem_ipv4Fields hl hdot) (by decide)
  rw [parseIPv4Fields, hsplit]
  simp only [ipv4Fields]
  rw [octet_toDigits (by omega), octet_toDigits (by omega), octet_toDigits (by omega),
    octet_toDigits (by omega)]
  simp only [Option.pure_def, Option.bind_eq_bind, Option.bind_some, Option.some.injEq,
    List.cons.injEq, and_true]
  constructor <;> omega

/-- The first separator of a dotted text is a dot. -/
theorem find_separator (ip : UInt32) :
    (['.'].intercalate (ipv4Fields ip)).find? (fun c => c = '.' ∨ c = ':' ∨ c = '%') = some '.' := by
  have hdigit : ∀ l ∈ ipv4Fields ip,
      l.find? (fun c => decide (c = '.' ∨ c = ':' ∨ c = '%')) = none := by
    intro l hl
    refine List.find?_eq_none.mpr fun c hc => ?_
    have hd := isDigit_of_mem_ipv4Fields hl hc
    simp only [decide_eq_true_eq]
    rintro (rfl | rfl | rfl) <;> exact absurd hd (by decide)
  have hfirst : ∃ l ls, ipv4Fields ip = l :: ls ∧ ls ≠ [] := ⟨_, _, rfl, by simp⟩
  obtain ⟨l, ls, heq, hne⟩ := hfirst
  have hl := hdigit l (by simp [heq])
  rw [heq, List.intercalate_cons_of_ne_nil hne, List.append_assoc, List.find?_append, hl]
  rfl

/-- **The text of an address is read back.** -/
theorem parseIPv4_ipv4Text (ip : UInt32) : parseIPv4 (ipv4Text ip) = some ip := by
  have hip := ip.toNat_lt
  rw [parseIPv4, parseIP, ipv4Text, String.toList_ofList, find_separator]
  show ((parseIPv4Fields _).map _).bind to4 = some ip
  rw [parseIPv4Fields_ipv4Fields]
  show some (UInt32.ofNat (65536 * (ip.toNat / 65536) + ip.toNat % 65536)) = some ip
  rw [Nat.div_add_mod, UInt32.ofNat_toNat]

/-- `netip.ParseAddr(s)`, if the address it reads is an IPv4 one (`Is4`). -/
def parseAddr4 (s : String) : Option UInt32 :=
  match s.toList.find? (fun c => c = '.' ∨ c = ':' ∨ c = '%') with
  | some '.' => match parseIPv4Fields s.toList with
    | some [hi, lo] => some (UInt32.ofNat (65536 * hi + lo))
    | _ => none
  | _ => none

/-- A character of a joined text is the separator, or of one of the texts. -/
theorem mem_intercalate_singleton {sep c : Char} {ls : List (List Char)}
    (hc : c ∈ [sep].intercalate ls) : c = sep ∨ ∃ l ∈ ls, c ∈ l := by
  induction ls with
  | nil => cases hc
  | cons l ls ih =>
    cases ls with
    | nil => exact Or.inr ⟨l, by simp, by simpa [List.intercalate] using hc⟩
    | cons l' ls =>
      rw [List.intercalate_cons_of_ne_nil (by simp)] at hc
      simp only [List.mem_append, List.mem_singleton] at hc
      rcases hc with (hc | hc) | hc
      · exact Or.inr ⟨l, by simp, hc⟩
      · exact Or.inl hc
      · rcases ih hc with hc | ⟨l'', hl'', hc⟩
        · exact Or.inl hc
        · exact Or.inr ⟨l'', List.mem_cons_of_mem l hl'', hc⟩

@[simp] theorem trimSpace_ipv4Text (ip : UInt32) : trimSpace (ipv4Text ip) = ipv4Text ip := by
  refine trimSpace_eq_self fun c hc => ?_
  rw [ipv4Text, String.toList_ofList] at hc
  rcases mem_intercalate_singleton hc with rfl | ⟨l, hl, hc⟩
  · decide
  · have hdigit := isDigit_of_mem_ipv4Fields hl hc
    simp only [isDigit, Bool.and_eq_true, decide_eq_true_eq, Char.le_def] at hdigit
    have h₁ : 48 ≤ c.toNat := hdigit.1
    have h₂ : c.toNat ≤ 57 := hdigit.2
    simp only [isSpace, Bool.or_eq_false_iff, Bool.and_eq_false_iff, decide_eq_false_iff_not,
      beq_eq_false_iff_ne]
    omega

theorem ipv4Text_ne_empty (ip : UInt32) : ipv4Text ip ≠ "" := by
  intro h
  have hlist := congrArg String.toList h
  rw [ipv4Text, String.toList_ofList] at hlist
  have hsep := find_separator ip
  rw [hlist] at hsep
  exact absurd hsep (by decide)

/-! ### Hardware addresses -/

/-- `net.HardwareAddr`. -/
abbrev HardwareAddr : Type := List UInt8

/-- `mac.String()`. -/
def macText (mac : HardwareAddr) : String := String.ofList ([':'].intercalate (mac.map hexPair))

/-- **Different hardware addresses have different texts.** -/
theorem macText_injective : Function.Injective macText := by
  intro a b h
  have hsplit : ∀ m : HardwareAddr, m ≠ [] →
      List.splitOn ':' ([':'].intercalate (m.map hexPair)) = m.map hexPair := by
    intro m hm
    refine List.splitOn_intercalate ':' (fun l hl => ?_) (by simpa using hm)
    obtain ⟨b, -, rfl⟩ := List.mem_map.mp hl
    exact fun hmem => forall_mem_hexPair (P := (· ≠ ':')) (by decide) hmem rfl
  have hlist : [':'].intercalate (a.map hexPair) = [':'].intercalate (b.map hexPair) :=
    String.ofList_injective h
  have hempty : ∀ m : HardwareAddr, [':'].intercalate (m.map hexPair) = [] ↔ m = [] := by
    rintro (_ | ⟨x, _ | ⟨y, m⟩⟩) <;> simp [hexPair, List.intercalate]
  rcases eq_or_ne a [] with rfl | ha
  · exact ((hempty b).mp (hlist.symm.trans ((hempty []).mpr rfl))).symm
  · have hb : b ≠ [] := fun h0 => ha ((hempty a).mp (hlist.trans ((hempty b).mpr h0)))
    have hmap : a.map hexPair = b.map hexPair := by
      rw [← hsplit a ha, hlist, hsplit b hb]
    exact (List.map_injective_iff.mpr hexPair_injective) hmap

/-- The characters of such a text. -/
theorem mem_macText {mac : HardwareAddr} (hc : c ∈ (macText mac).toList) :
    c = ':' ∨ ∃ b ∈ mac, c ∈ hexPair b := by
  rw [macText, String.toList_ofList] at hc
  rcases mem_intercalate_singleton hc with hc | ⟨l, hl, hc⟩
  · exact Or.inl hc
  · obtain ⟨b, hb, rfl⟩ := List.mem_map.mp hl
    exact Or.inr ⟨b, hb, hc⟩

theorem macText_char {mac : HardwareAddr} (hc : c ∈ (macText mac).toList) :
    isSpace c = false ∧ toLowerRune c = c := by
  rcases mem_macText hc with rfl | ⟨b, -, hc⟩
  · decide
  · exact forall_mem_hexPair (P := fun c => isSpace c = false ∧ toLowerRune c = c) (by decide) hc

@[simp] theorem trimSpace_macText (mac : HardwareAddr) : trimSpace (macText mac) = macText mac :=
  trimSpace_eq_self fun _ hc => (macText_char hc).1

@[simp] theorem toLower_macText (mac : HardwareAddr) : toLower (macText mac) = macText mac := by
  have hmap : (macText mac).toList.map toLowerRune = (macText mac).toList := by
    conv_rhs => rw [← List.map_id (macText mac).toList]
    exact List.map_congr_left fun c hc => (macText_char hc).2
  rw [toLower, hmap, String.ofList_toList]

example : ipv4Text 0xc0a8000a = "192.168.0.10" := by decide

example : macText [0x52, 0x54, 0, 0x12, 0x34, 0x56] = "52:54:00:12:34:56" := by decide

end Gomi.Go
