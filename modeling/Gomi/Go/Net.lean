import Gomi.Go.Strings

/-!
# Hardware and network addresses

`net.ParseMAC` and `net.ParseIP` of the Go standard library, on lists of
characters. Both are total functions that reject with `none`; which of its errors
Go would report is not modelled, since no caller looks at it.
-/

namespace Gomi.Go

variable {l : List Char} {s : String} {a b : Char} {bytes : List UInt8}

/-- The value of a hexadecimal digit. -/
def hexValue (c : Char) : Option ℕ :=
  if '0' ≤ c ∧ c ≤ '9' then some (c.toNat - '0'.toNat)
  else if 'a' ≤ c ∧ c ≤ 'f' then some (c.toNat - 'a'.toNat + 10)
  else if 'A' ≤ c ∧ c ≤ 'F' then some (c.toNat - 'A'.toNat + 10)
  else none

/-- `xtoi2`: the byte written by two digits. -/
def xtoi2 (a b : Char) : Option UInt8 := do
  let hi ← hexValue a
  let lo ← hexValue b
  return UInt8.ofNat (16 * hi + lo)

/-! ### Hardware addresses -/

/-- Bytes separated one by one, as in `52:54:00:12:34:56`. -/
def macBytes (sep : Char) : List Char → Option (List UInt8)
  | [a, b] => do return [← xtoi2 a b]
  | a :: b :: c :: rest => if c = sep then do return (← xtoi2 a b) :: (← macBytes sep rest) else none
  | _ => none

/-- Bytes separated two by two, as in `5254.0012.3456`. -/
def macWords (sep : Char) : List Char → Option (List UInt8)
  | [a, b, c, d] => do return [← xtoi2 a b, ← xtoi2 c d]
  | a :: b :: c :: d :: e :: rest =>
    if e = sep then do return (← xtoi2 a b) :: (← xtoi2 c d) :: (← macWords sep rest) else none
  | _ => none

/-- `net.ParseMAC`: a 48-bit, a 64-bit or a 20-byte address, in colon, dash or dot
form. -/
def parseMAC (s : String) : Option (List UInt8) := do
  let bytes ← match s.toList with
    | l@(_ :: _ :: ':' :: _) => macBytes ':' l
    | l@(_ :: _ :: '-' :: _) => macBytes '-' l
    | l@(_ :: _ :: _ :: _ :: '.' :: _) => macWords '.' l
    | _ => none
  if bytes.length = 6 ∨ bytes.length = 8 ∨ bytes.length = 20 then some bytes else none

theorem xtoi2_isSome {v : UInt8} (h : xtoi2 a b = some v) :
    (hexValue a).isSome = true ∧ (hexValue b).isSome = true := by
  unfold xtoi2 at h
  cases ha : hexValue a with
  | none => simp [ha] at h
  | some hi =>
    cases hb : hexValue b with
    | none => simp [ha, hb] at h
    | some lo => exact ⟨rfl, rfl⟩

variable {sep : Char}

theorem macBytes_chars (h : macBytes sep l = some bytes) :
    ∀ c ∈ l, (hexValue c).isSome = true ∨ c = sep := by
  fun_induction macBytes sep l generalizing bytes with
  | case1 a b =>
    simp only [Option.bind_eq_bind, Option.bind_eq_some_iff] at h
    obtain ⟨v, hv, -⟩ := h
    obtain ⟨ha, hb⟩ := xtoi2_isSome hv
    simp [ha, hb]
  | case2 a b rest ih =>
    simp only [Option.bind_eq_bind, Option.bind_eq_some_iff] at h
    obtain ⟨v, hv, w, hw, -⟩ := h
    obtain ⟨ha, hb⟩ := xtoi2_isSome hv
    simpa [ha, hb] using ih hw
  | case3 a b c rest hne => cases h
  | case4 l h₁ h₂ => cases h

theorem macWords_chars (h : macWords sep l = some bytes) :
    ∀ c ∈ l, (hexValue c).isSome = true ∨ c = sep := by
  fun_induction macWords sep l generalizing bytes with
  | case1 a b c d =>
    simp only [Option.bind_eq_bind, Option.bind_eq_some_iff] at h
    obtain ⟨v, hv, w, hw, -⟩ := h
    obtain ⟨ha, hb⟩ := xtoi2_isSome hv
    obtain ⟨hc, hd⟩ := xtoi2_isSome hw
    simp [ha, hb, hc, hd]
  | case2 a b c d rest ih =>
    simp only [Option.bind_eq_bind, Option.bind_eq_some_iff] at h
    obtain ⟨v, hv, w, hw, u, hu, -⟩ := h
    obtain ⟨ha, hb⟩ := xtoi2_isSome hv
    obtain ⟨hc, hd⟩ := xtoi2_isSome hw
    simpa [ha, hb, hc, hd] using ih hu
  | case3 a b c d e rest hne => cases h
  | case4 l h₁ h₂ => cases h

/-- The form of a hardware address is told by its first separator. -/
theorem parseMAC_eq : parseMAC s =
    (if s.toList[2]? = some ':' then macBytes ':' s.toList
      else if s.toList[2]? = some '-' then macBytes '-' s.toList
      else if s.toList[4]? = some '.' then macWords '.' s.toList
      else none).bind fun bytes =>
        if bytes.length = 6 ∨ bytes.length = 8 ∨ bytes.length = 20 then some bytes else none := by
  unfold parseMAC
  generalize s.toList = l
  split
  · rfl
  · rfl
  · rename_i hcolon hdash
    rw [if_neg (by exact fun h => hcolon (Option.some.inj h)),
      if_neg (by exact fun h => hdash (Option.some.inj h))]
    rfl
  · rename_i hcolon hdash hdot
    have hthird : ∀ c, l[2]? = some c → ∃ a b rest, l = a :: b :: c :: rest := by
      rcases l with _ | ⟨a, _ | ⟨b, _ | ⟨c, rest⟩⟩⟩ <;> simp
    have hfifth : ∀ e, l[4]? = some e → ∃ a b c d rest, l = a :: b :: c :: d :: e :: rest := by
      rcases l with _ | ⟨a, _ | ⟨b, _ | ⟨c, _ | ⟨d, _ | ⟨e, rest⟩⟩⟩⟩⟩ <;> simp
    rw [if_neg, if_neg, if_neg]
    · rfl
    · intro h
      obtain ⟨a, b, c, d, rest, rfl⟩ := hfifth _ h
      exact hdot a b c d rest rfl
    · intro h
      obtain ⟨a, b, rest, rfl⟩ := hthird _ h
      exact hdash a b rest rfl
    · intro h
      obtain ⟨a, b, rest, rfl⟩ := hthird _ h
      exact hcolon a b rest rfl

/-- A hardware address is written in hexadecimal digits and separators. -/
theorem parseMAC_chars {mac : List UInt8} (h : parseMAC s = some mac) :
    ∀ c ∈ s.toList, (hexValue c).isSome = true ∨ c ∈ [':', '-', '.'] := by
  rw [parseMAC_eq] at h
  obtain ⟨bytes, hbytes, -⟩ := Option.bind_eq_some_iff.mp h
  intro c hc
  split_ifs at hbytes
  · exact (macBytes_chars hbytes c hc).imp_right (by simp +contextual)
  · exact (macBytes_chars hbytes c hc).imp_right (by simp +contextual)
  · exact (macWords_chars hbytes c hc).imp_right (by simp +contextual)

/-! ### Letter case -/

theorem toLower_eq_self {c : Char} (hc : 128 ≤ c.toNat) : c.toLower = c := by
  unfold Char.toLower
  rw [dif_neg]
  rintro ⟨-, h⟩
  have : c.toNat ≤ 90 := h
  omega

/-- What holds of the lower case of all characters, if it is checked in ASCII. -/
theorem forall_toLower {p : Char → Char → Prop}
    (hascii : ∀ n : Fin 128, p (Char.ofNat n).toLower (Char.ofNat n)) (hself : ∀ c, p c c) (c : Char) : p c.toLower c := by
  by_cases hc : c.toNat < 128
  · simpa using hascii ⟨c.toNat, hc⟩
  · rw [toLower_eq_self (not_lt.mp hc)]
    exact hself c

theorem hexValue_toLower (c : Char) : hexValue c.toLower = hexValue c :=
  forall_toLower (p := fun x y => hexValue x = hexValue y) (by decide) (fun _ => rfl) c

theorem xtoi2_toLower : xtoi2 a.toLower b.toLower = xtoi2 a b := by
  simp only [xtoi2, hexValue_toLower]

/-- A character that is not a letter is its own lower case, and of no other character. -/
def Caseless (sep : Char) : Prop := ∀ c : Char, c.toLower = sep ↔ c = sep

theorem caseless_colon : Caseless ':' :=
  forall_toLower (p := fun x y => x = ':' ↔ y = ':') (by decide) fun _ => Iff.rfl

theorem caseless_dash : Caseless '-' :=
  forall_toLower (p := fun x y => x = '-' ↔ y = '-') (by decide) fun _ => Iff.rfl

theorem caseless_dot : Caseless '.' :=
  forall_toLower (p := fun x y => x = '.' ↔ y = '.') (by decide) fun _ => Iff.rfl

theorem macBytes_toLower (hsep : Caseless sep) (l : List Char) :
    macBytes sep (l.map Char.toLower) = macBytes sep l := by
  fun_induction macBytes sep l with
  | case1 a b => simp [macBytes, xtoi2_toLower]
  | case2 a b rest ih => simp [macBytes, xtoi2_toLower, (hsep sep).mpr rfl, ih]
  | case3 a b c rest hne => simp [macBytes, (hsep c).not.mpr hne]
  | case4 l h₁ h₂ =>
    rcases l with _ | ⟨a, _ | ⟨b, _ | ⟨c, rest⟩⟩⟩
    · rfl
    · rfl
    · exact absurd rfl (h₁ a b)
    · exact absurd rfl (h₂ a b c rest)

theorem macWords_toLower (hsep : Caseless sep) :
    macWords sep (l.map Char.toLower) = macWords sep l := by
  fun_induction macWords sep l with
  | case1 a b c d => simp [macWords, xtoi2_toLower]
  | case2 a b c d rest ih => simp [macWords, xtoi2_toLower, (hsep sep).mpr rfl, ih]
  | case3 a b c d e rest hne => simp [macWords, (hsep e).not.mpr hne]
  | case4 l h₁ h₂ =>
    rcases l with _ | ⟨a, _ | ⟨b, _ | ⟨c, _ | ⟨d, _ | ⟨e, rest⟩⟩⟩⟩⟩
    · rfl
    · rfl
    · rfl
    · rfl
    · exact absurd rfl (h₁ a b c d)
    · exact absurd rfl (h₂ a b c d e rest)

theorem getElem?_map_toLower (hsep : Caseless sep) {i : ℕ} :
    (l.map Char.toLower)[i]? = some sep ↔ l[i]? = some sep := by
  rw [List.getElem?_map]
  cases l[i]? with
  | none => simp
  | some c => simp [hsep c]

/-- **The case of the letters of a hardware address does not matter.** -/
theorem parseMAC_congr {t : String} (h : s.toList.map Char.toLower = t.toList.map Char.toLower) :
    parseMAC s = parseMAC t := by
  have hlower : ∀ s : String, parseMAC (String.ofList (s.toList.map Char.toLower)) = parseMAC s := by
    intro s
    simp only [parseMAC_eq, String.toList_ofList, getElem?_map_toLower caseless_colon,
      getElem?_map_toLower caseless_dash, getElem?_map_toLower caseless_dot,
      macBytes_toLower caseless_colon, macBytes_toLower caseless_dash, macWords_toLower caseless_dot]
  rw [← hlower s, h, hlower t]

/-! ### Network addresses -/

/-- A decimal number of at most 255, without leading zeros. -/
def octet (l : List Char) : Option ℕ :=
  if l = [] ∨ l.any (fun c => !isDigit c) ∨ (l.length ≠ 1 ∧ l.head? = some '0') then none
  else
    let v := l.foldl (fun v c => 10 * v + (c.toNat - '0'.toNat)) 0
    if v ≤ 255 then some v else none

/-- `parseIPv4Fields`: four octets, as two 16-bit groups. -/
def parseIPv4Fields (l : List Char) : Option (List ℕ) :=
  match l.splitOn '.' with
  | [a, b, c, d] => do
    return [256 * (← octet a) + (← octet b), 256 * (← octet c) + (← octet d)]
  | _ => none

/-- The loop of `parseIPv6`, which has room for `room` more groups: it appends the
groups it reads to `ip` and remembers the position of an ellipsis. -/
def parseIPv6Groups : ℕ → List ℕ → Option ℕ → List Char → Option (List ℕ × Option ℕ)
  | 0, ip, ellipsis, s => if s = [] then some (ip, ellipsis) else none
  | room + 1, ip, ellipsis, s =>
    let digits := s.takeWhile fun c => (hexValue c).isSome
    let next := ip ++ [digits.foldl (fun v c => 16 * v + (hexValue c).getD 0) 0]
    if digits = [] ∨ 4 < digits.length then none
    else match s.dropWhile fun c => (hexValue c).isSome with
      | [] => some (next, ellipsis)
      | '.' :: _ =>
        -- a trailing IPv4 address takes the room of two groups
        if (ellipsis = none ∧ ip.length ≠ 6) ∨ 8 < ip.length + 2 then none
        else (parseIPv4Fields s).map fun fields => (ip ++ fields, ellipsis)
      | [':'] => none
      | ':' :: ':' :: rest =>
        if ellipsis.isSome then none
        else if rest = [] then some (next, some next.length)
        else parseIPv6Groups room next (some next.length) rest
      | ':' :: rest => parseIPv6Groups room next ellipsis rest
      | _ => none

/-- Expansion of the ellipsis to eight groups. -/
def expandEllipsis : List ℕ × Option ℕ → Option (List ℕ)
  | (ip, none) => if ip.length = 8 then some ip else none
  | (ip, some e) =>
    if ip.length < 8 then some (ip.take e ++ List.replicate (8 - ip.length) 0 ++ ip.drop e) else none

/-- `netip.ParseAddr` on an IPv6 text; one with a zone is rejected, as `net.ParseIP`
does. -/
def parseIPv6 (l : List Char) : Option (List ℕ) :=
  if '%' ∈ l then none
  else match l with
    | [':', ':'] => some (List.replicate 8 0)
    | ':' :: ':' :: rest => (parseIPv6Groups 8 [] (some 0) rest).bind expandEllipsis
    | _ => (parseIPv6Groups 8 [] none l).bind expandEllipsis

/-- `net.ParseIP`: the eight 16-bit groups of an address; an IPv4 address is mapped
into IPv6. -/
def parseIP (s : String) : Option (List ℕ) :=
  match s.toList.find? fun c => c = '.' ∨ c = ':' ∨ c = '%' with
  | some '.' => (parseIPv4Fields s.toList).map ([0, 0, 0, 0, 0, 0xffff] ++ ·)
  | some ':' => parseIPv6 s.toList
  | _ => none

example : parseMAC "52:54:00:12:34:56" = some [0x52, 0x54, 0, 0x12, 0x34, 0x56] := by decide

example : parseMAC "5254.0012.3456" = parseMAC "52-54-00-12-34-56" := by decide

example : parseIP "192.168.0.10" = parseIP "::ffff:c0a8:a" := by decide

end Gomi.Go
