import Gomi.Go.Strings

/-!
# Domain names

Both DNS controllers write a domain name in *canonical form*, in lower case and with a final
dot, before they use it as a key (`Gomi.Dns.canonicalFQDN`). A canonical name is left alone by a
second pass (`Gomi.Dns.canonicalFQDN_of_eq_some`), which is why what was written under a name is
found again under it.

The two functions of the library `dnsutil` that this rests on are a parameter
(`Gomi.Dns.NameLib`), with what is assumed of them.
-/

namespace Gomi.Dns

open Go

/-- **The library of domain names**, with what is assumed of it. -/
structure NameLib where
  /-- `dnsutil.IsName`. -/
  isName : String → Bool
  /-- `dnsutil.Canonical`. -/
  canonical : String → String
  /-- The canonical form of a text, if it is a name, is its own canonical form. -/
  canonical_canonical : ∀ s, isName (canonical s) = true → canonical (canonical s) = canonical s
  /-- A canonical form ends in a dot. -/
  canonical_dot : ∀ s, hasSuffix (canonical s) "." = true
  /-- A text without space at its ends has a canonical form without space at its ends. -/
  trimSpace_canonical : ∀ s, s ≠ "" → trimSpace s = s → trimSpace (canonical s) = canonical s

/-! ### The names of the program -/

variable (lib : NameLib)

theorem NameLib.canonical_ne_empty (s : String) : lib.canonical s ≠ "" := by
  intro hempty
  have hdot := lib.canonical_dot s
  rw [hempty] at hdot
  exact absurd hdot (by decide)

/-- `canonicalFQDN`: the canonical form of a name, if it is one. -/
def canonicalFQDN (raw : String) : Option String :=
  let raw := trimSpace raw
  if raw = "" then none
  else
    let out := lib.canonical raw
    if out = "." ∨ lib.isName out = false then none else some out

/-- `canonicalOrEmpty`. -/
def canonicalOrEmpty (raw : String) : String := (canonicalFQDN lib raw).getD ""

/-- `nameInZone`. -/
def nameInZone (name zone : String) : Bool := name = zone || hasSuffix name ("." ++ zone)

/-- `inZone`. -/
def inZone (name : String) (zones : List String) : Bool := zones.any (nameInZone name)

/-- `hostFQDN`: the name of a host in a domain. -/
def hostFQDN (hostname fallback domain : String) : Option String :=
  let host := trim (trimSpace hostname) '.'
  let host := if host = "" then trim (trimSpace fallback) '.' else host
  if host = "" then none
  else
    let candidate := lib.canonical host
    if nameInZone candidate domain then if lib.isName candidate then some candidate else none
    else canonicalFQDN lib (host ++ "." ++ trimSuffix domain ".")

variable {lib} {raw name : String}

theorem canonicalFQDN_eq_some : canonicalFQDN lib raw = some name ↔
      trimSpace raw ≠ "" ∧ name = lib.canonical (trimSpace raw) ∧ name ≠ "." ∧ lib.isName name = true := by
  simp only [canonicalFQDN]
  split
  · simp [*]
  · rename_i hne
    split
    · rename_i hcond
      simp only [reduceCtorEq, false_iff, not_and]
      rintro - rfl hdot
      simpa using hcond.resolve_left hdot
    · rename_i hcond
      simp only [not_or, Bool.not_eq_false] at hcond
      constructor
      · intro h
        obtain rfl := Option.some.inj h
        exact ⟨hne, rfl, hcond⟩
      · rintro ⟨-, rfl, -⟩
        rfl

/-- A canonical name has no space at its ends, and is not empty. -/
theorem trimSpace_of_canonicalFQDN (h : canonicalFQDN lib raw = some name) :
    trimSpace name = name ∧ name ≠ "" := by
  obtain ⟨hne, rfl, -, -⟩ := canonicalFQDN_eq_some.mp h
  exact ⟨lib.trimSpace_canonical _ hne (trimSpace_trimSpace raw), lib.canonical_ne_empty _⟩

/-- **A name in canonical form is its own canonical form.** -/
theorem canonicalFQDN_of_eq_some (h : canonicalFQDN lib raw = some name) :
    canonicalFQDN lib name = some name := by
  obtain ⟨htrim, hne⟩ := trimSpace_of_canonicalFQDN h
  obtain ⟨-, rfl, hdot, hname⟩ := canonicalFQDN_eq_some.mp h
  refine canonicalFQDN_eq_some.mpr ⟨?_, ?_, hdot, hname⟩
  · rwa [htrim]
  · rw [htrim, lib.canonical_canonical _ hname]

/-! ### A sample library

It changes US-ASCII letters, gives a text a final dot if it has none, and takes every text without a
backslash for a name. -/

/-- The lower case of a US-ASCII letter. -/
def lowerASCII (c : Char) : Char := if 'A' ≤ c ∧ c ≤ 'Z' then Char.ofNat (c.toNat + 32) else c

/-- A text with a final dot. -/
def dotted (l : List Char) : List Char := if l.getLast? = some '.' then l else l ++ ['.']

theorem lowerASCII_cases (c : Char) :
    lowerASCII c = c ∧ ¬('A' ≤ c ∧ c ≤ 'Z') ∨
      ∃ n : Fin 26, c = Char.ofNat (65 + n) ∧ lowerASCII c = Char.ofNat (97 + n) := by
  by_cases h : 'A' ≤ c ∧ c ≤ 'Z'
  · right
    have h₁ : 65 ≤ c.toNat := h.1
    have h₂ : c.toNat ≤ 90 := h.2
    refine ⟨⟨c.toNat - 65, by omega⟩, ?_, ?_⟩
    · rw [show 65 + (c.toNat - 65) = c.toNat by omega, Char.ofNat_toNat]
    · rw [lowerASCII, if_pos h, show 97 + (c.toNat - 65) = c.toNat + 32 by omega]
  · exact Or.inl ⟨if_neg h, h⟩

theorem lowerASCII_lowerASCII (c : Char) : lowerASCII (lowerASCII c) = lowerASCII c := by
  have hsmall : ∀ n : Fin 26, lowerASCII (Char.ofNat (97 + n)) = Char.ofNat (97 + n) := by decide
  rcases lowerASCII_cases c with ⟨h, -⟩ | ⟨n, -, h⟩
  · rw [h, h]
  · rw [h, hsmall]

theorem isSpace_lowerASCII (c : Char) : isSpace (lowerASCII c) = isSpace c := by
  have hletter : ∀ n : Fin 26, isSpace (Char.ofNat (97 + n)) = isSpace (Char.ofNat (65 + n)) := by decide
  rcases lowerASCII_cases c with ⟨h, -⟩ | ⟨n, hc, h⟩
  · rw [h]
  · rw [h, hc, hletter]

theorem getLast?_dotted (l : List Char) : (dotted l).getLast? = some '.' := by
  rw [dotted]
  split
  · assumption
  · simp

theorem dotted_dotted (l : List Char) : dotted (dotted l) = dotted l := by
  rw [dotted, if_pos (getLast?_dotted l)]

/-- Lower case reaches every letter of a fully qualified name. -/
theorem map_lowerASCII_dotted (l : List Char) :
    (dotted (l.map lowerASCII)).map lowerASCII = dotted (l.map lowerASCII) := by
  have hmap : (l.map lowerASCII).map lowerASCII = l.map lowerASCII := by
    rw [List.map_map]
    exact List.map_congr_left fun c _ => lowerASCII_lowerASCII c
  rw [dotted]
  split
  · exact hmap
  · rw [List.map_append, hmap]
    rfl

/-- The canonical form of the samples. -/
def lowerDotted (s : String) : String := String.ofList (dotted (s.toList.map lowerASCII))

theorem lowerDotted_lowerDotted (s : String) : lowerDotted (lowerDotted s) = lowerDotted s := by
  rw [lowerDotted, lowerDotted, String.toList_ofList, map_lowerASCII_dotted, dotted_dotted]

theorem trimSpace_lowerDotted (s : String) (hne : s ≠ "") (htrim : trimSpace s = s) :
    trimSpace (lowerDotted s) = lowerDotted s := by
  obtain ⟨c, rest, hl⟩ : ∃ c rest, s.toList = c :: rest := by
    cases hl : s.toList with
    | nil => exact absurd (String.toList_inj.mp (hl.trans String.toList_empty.symm)) hne
    | cons c rest => exact ⟨c, rest, rfl⟩
  have hc : isSpace c = false := by
    have htrim := congrArg String.toList htrim
    rw [trimSpace, String.toList_ofList, hl, trimList] at htrim
    by_contra hspace
    -- a space at the head would have been dropped
    rw [Bool.not_eq_false] at hspace
    have hlen := congrArg List.length htrim
    have hdrop := (List.rdropWhile_prefix isSpace ((c :: rest).dropWhile isSpace)).length_le
    have hdrop' := (List.dropWhile_suffix isSpace (l := rest)).length_le
    rw [List.dropWhile_cons_of_pos hspace] at hdrop hlen
    simp only [List.length_cons] at hlen
    omega
  obtain ⟨d, ds, hd⟩ : ∃ d ds, (lowerDotted s).toList = d :: ds ∧ isSpace d = false := by
    rw [lowerDotted, String.toList_ofList, hl, List.map_cons, dotted]
    split
    · exact ⟨lowerASCII c, _, rfl, (isSpace_lowerASCII c).trans hc⟩
    · exact ⟨lowerASCII c, _, rfl, (isSpace_lowerASCII c).trans hc⟩
  have hlast : (lowerDotted s).toList.getLast? = some '.' := by
    rw [lowerDotted, String.toList_ofList, getLast?_dotted]
  have hne' : (lowerDotted s).toList ≠ [] := by
    rw [hd.1]
    exact List.cons_ne_nil d ds
  refine trimSpace_eq_self_of_ends hne' ?_ ?_
  · simpa [hd.1] using hd.2
  · rw [List.getLast?_eq_getLast_of_ne_nil hne'] at hlast
    rw [Option.some.inj hlast]
    decide

/-- The sample library. -/
def asciiNames : NameLib where
  isName s := !s.toList.contains '\\'
  canonical := lowerDotted
  canonical_canonical s _ := lowerDotted_lowerDotted s
  canonical_dot s := by
    have hlast := getLast?_dotted (s.toList.map lowerASCII)
    obtain ⟨l, hl⟩ := List.getLast?_eq_some_iff.mp hlast
    simp [hasSuffix, lowerDotted, hl]
  trimSpace_canonical := trimSpace_lowerDotted

example : canonicalFQDN asciiNames " Host.Example.COM " = some "host.example.com." := by decide

example : hostFQDN asciiNames "" "node1." "example.com." = some "node1.example.com." := by decide

end Gomi.Dns
