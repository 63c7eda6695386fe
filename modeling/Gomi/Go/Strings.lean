import Mathlib.Tactic
import Mathlib.Data.List.DropRight

/-!
# Texts, as the Go standard library treats them

The functions of the Go packages `strings`, `path/filepath`, `encoding/hex` and
the shapes of regular expression that the modelled code uses, over Lean strings.
A Go string is a sequence of bytes; the texts here are sequences of Unicode
characters, so what is modelled is Go on valid UTF-8. All of them go through
`String.toList`, so that they evaluate on a concrete text.

* `Gomi.Go.trimSpace` – `strings.TrimSpace`. It is idempotent
  (`Gomi.Go.trimSpace_trimSpace`) and leaves a text without space alone
  (`Gomi.Go.trimSpace_eq_self`).
* `Gomi.Go.toLower` and `Gomi.Go.equalFold` – only the characters whose lower case,
  or whose fold, is an ASCII letter are changed. The code compares the results
  with ASCII texts only, and for these comparisons nothing else matters.
* `Gomi.Go.cut` and `Gomi.Go.splitLast` – the text around the *first* and around
  the *last* occurrence of a separator. They are related by
  `Gomi.Go.cut_splitLast`.
* `Gomi.Go.sortStrings` – `sort.Strings`, of which only that it permutes the list is used.
* `Gomi.Go.hexEncode` – `hex.EncodeToString`, which is injective
  (`Gomi.Go.hexEncode_injective`).
-/

namespace Gomi.Go

/-! ### Space -/

/-- `unicode.IsSpace`: the characters with the White_Space property. -/
def isSpace (c : Char) : Bool :=
  let n := c.toNat
  (9 ≤ n && n ≤ 13) || n == 0x20 || n == 0x85 || n == 0xA0 || n == 0x1680 ||
    (0x2000 ≤ n && n ≤ 0x200a) || n == 0x2028 || n == 0x2029 || n == 0x202f || n == 0x205f ||
    n == 0x3000

/-- Dropping what satisfies `p` at both ends of a list. -/
def trimList {α : Type} (p : α → Bool) (l : List α) : List α := (l.dropWhile p).rdropWhile p

/-- `strings.TrimSpace`. -/
def trimSpace (s : String) : String := String.ofList (trimList isSpace s.toList)

variable {α : Type} {l : List α} {s a b : String} {sep : Char}
variable {p : α → Bool}

theorem trimList_eq_self (h : ∀ a ∈ l, p a = false) : trimList p l = l := by
  have hd : l.dropWhile p = l := List.dropWhile_eq_self_iff.mpr fun hl =>
    by simp [h (l[0]) (List.getElem_mem hl)]
  have hr : l.rdropWhile p = l := List.rdropWhile_eq_self_iff.mpr fun hl =>
    by simp [h _ (List.getLast_mem hl)]
  rw [trimList, hd, hr]

theorem trimList_trimList :
    trimList p (trimList p l) = trimList p l := by
  have hd : (trimList p l).dropWhile p = trimList p l := by
    refine List.dropWhile_eq_self_iff.mpr fun hl => ?_
    -- the head of the trimmed list is the head of what `dropWhile` leaves
    have hpre : trimList p l <+: l.dropWhile p := List.rdropWhile_prefix p _
    have hne : l.dropWhile p ≠ [] := fun h0 => by
      rw [h0] at hpre
      exact absurd hl (by simp [List.prefix_nil.mp hpre])
    have hhead := List.head_dropWhile_not p hne
    rw [← hpre.head (List.length_pos_iff.mp hl), List.head_eq_getElem] at hhead
    simpa using hhead
  have hr : (trimList p l).rdropWhile p = trimList p l := List.rdropWhile_idempotent p _
  rw [trimList, hd, hr]

@[simp] theorem trimSpace_trimSpace (s : String) : trimSpace (trimSpace s) = trimSpace s := by
  simp [trimSpace, trimList_trimList]

/-- A text without space is left alone. -/
theorem trimSpace_eq_self (h : ∀ c ∈ s.toList, isSpace c = false) :
    trimSpace s = s := by
  rw [trimSpace, trimList_eq_self h, String.ofList_toList]

/-- A text that starts and ends with something else than space is left alone. -/
theorem trimSpace_eq_self_of_ends (hne : s.toList ≠ [])
    (hhead : isSpace (s.toList.head hne) = false) (hlast : isSpace (s.toList.getLast hne) = false) :
    trimSpace s = s := by
  have hd : s.toList.dropWhile isSpace = s.toList := by
    refine List.dropWhile_eq_self_iff.mpr fun hl => ?_
    rw [← List.head_eq_getElem hne, hhead]
    exact Bool.false_ne_true
  have hr : s.toList.rdropWhile isSpace = s.toList := by
    refine List.rdropWhile_eq_self_iff.mpr fun hl => ?_
    rw [hlast]
    exact Bool.false_ne_true
  rw [trimSpace, trimList, hd, hr, String.ofList_toList]

theorem trimList_rdropWhile :
    trimList p (l.rdropWhile p) = trimList p l := by
  have hspace : ∀ a ∈ (l.rtakeWhile p).reverse, p a = true :=
    fun a ha => List.mem_rtakeWhile_imp (List.mem_reverse.mp ha)
  conv_rhs => rw [← List.rdropWhile_append_rtakeWhile (p := p) (l := l), trimList, List.dropWhile_append]
  split
  · rename_i hempty
    rw [trimList, List.isEmpty_iff.mp hempty,
      List.dropWhile_eq_nil_iff.mpr fun a ha => hspace a (List.mem_reverse.mpr ha)]
  · conv_rhs => rw [List.rdropWhile, List.reverse_append, List.dropWhile_append_of_pos hspace]
    rfl

/-- `strings.Trim`, with one character to trim. -/
def trim (s : String) (c : Char) : String := String.ofList (trimList (· = c) s.toList)

/-- `strings.TrimLeft`, with one character to trim. -/
def trimLeft (s : String) (c : Char) : String := String.ofList (s.toList.dropWhile (· = c))

/-- `strings.TrimRight`, with one character to trim. -/
def trimRight (s : String) (c : Char) : String := String.ofList (s.toList.rdropWhile (· = c))

/-! ### Case -/

/-- `unicode.ToLower`, on the characters whose lower case is in ASCII: the capital
letters, the Kelvin sign and the dotted capital I. -/
def toLowerRune (c : Char) : Char :=
  if 'A' ≤ c ∧ c ≤ 'Z' then Char.ofNat (c.toNat + 32)
  else if c.toNat = 0x212a then 'k'
  else if c.toNat = 0x130 then 'i'
  else c

/-- `strings.ToLower`. -/
def toLower (s : String) : String := String.ofList (s.toList.map toLowerRune)

/-- `unicode.ToUpper`, on the characters whose upper case is in ASCII: the small
letters, the dotless i and the long s. -/
def toUpperRune (c : Char) : Char :=
  if 'a' ≤ c ∧ c ≤ 'z' then Char.ofNat (c.toNat - 32)
  else if c.toNat = 0x131 then 'I'
  else if c.toNat = 0x17f then 'S'
  else c

/-- `strings.ToUpper`. -/
def toUpper (s : String) : String := String.ofList (s.toList.map toUpperRune)

/-- The representative of a character's folding orbit, on the orbits that meet
ASCII: besides the capital letters, the Kelvin sign and the long s. -/
def foldRune (c : Char) : Char :=
  if 'A' ≤ c ∧ c ≤ 'Z' then Char.ofNat (c.toNat + 32)
  else if c.toNat = 0x212a then 'k'
  else if c.toNat = 0x17f then 's'
  else c

/-- `strings.EqualFold`, for an ASCII text on one side. -/
def equalFold (s t : String) : Bool := s.toList.map foldRune == t.toList.map foldRune

/-! ### Parts of a text -/

/-- `strings.HasPrefix`. -/
def hasPrefix (s start : String) : Bool := start.toList.isPrefixOf s.toList

/-- `strings.HasSuffix`. -/
def hasSuffix (s rest : String) : Bool := rest.toList.isSuffixOf s.toList

/-- `strings.TrimSuffix`. -/
def trimSuffix (s rest : String) : String :=
  if hasSuffix s rest then String.ofList (s.toList.take (s.toList.length - rest.toList.length)) else s

/-- `strings.TrimPrefix`. -/
def trimPrefix (s start : String) : String :=
  if hasPrefix s start then String.ofList (s.toList.drop start.toList.length) else s

/-- Spaces around a text do not matter if what follows its start is trimmed. -/
theorem trimSpace_trimPrefix {start : String} (hs : hasPrefix s start = true)
    (hne : start.toList ≠ []) (hhead : start.toList.dropWhile isSpace = start.toList)
    (hlast : start.toList.reverse.dropWhile isSpace = start.toList.reverse) :
    trimSpace (trimPrefix (trimSpace s) start) = trimSpace (trimPrefix s start) := by
  obtain ⟨r, hr⟩ := List.isPrefixOf_iff_prefix.mp hs
  have htrim : (trimSpace s).toList = start.toList ++ r.rdropWhile isSpace := by
    rw [trimSpace, String.toList_ofList, ← hr, trimList, List.dropWhile_append, hhead,
      if_neg (by simpa using hne), List.rdropWhile, List.reverse_append, List.dropWhile_append, hlast]
    split
    · rename_i hempty
      simp [List.rdropWhile, List.isEmpty_iff.mp hempty]
    · simp [List.rdropWhile]
  have hs' : hasPrefix (trimSpace s) start = true :=
    List.isPrefixOf_iff_prefix.mpr (htrim ▸ List.prefix_append _ _)
  rw [trimPrefix, trimPrefix, if_pos hs, if_pos hs', htrim, ← hr, List.drop_left, List.drop_left,
    trimSpace, trimSpace, String.toList_ofList, String.toList_ofList, trimList_rdropWhile]

/-- `strings.Cut`, for a one-character separator: the text before and after its first
occurrence, and whether there is one. -/
def cut (s : String) (sep : Char) : String × String × Bool :=
  match s.toList.dropWhile (· ≠ sep) with
  | [] => (s, "", false)
  | _ :: rest => (String.ofList (s.toList.takeWhile (· ≠ sep)), String.ofList rest, true)

/-- The text before and after the *last* occurrence of a separator, as
`strings.LastIndex` finds it. -/
def splitLast (s : String) (sep : Char) : Option (String × String) :=
  match s.toList.rdropWhile (· ≠ sep) with
  | [] => none
  | front => some (String.ofList front.dropLast, String.ofList (s.toList.rtakeWhile (· ≠ sep)))

/-- `filepath.Base`: the last element of a slash-separated path. -/
def base (path : String) : String :=
  if path = "" then "."
  else
    let trimmed := path.toList.rdropWhile (· = '/')
    if trimmed = [] then "/" else String.ofList (trimmed.rtakeWhile (· ≠ '/'))

theorem rdropWhile_ne_append [DecidableEq α] {a b : List α} {sep : α} (hb : sep ∉ b) :
    (a ++ sep :: b).rdropWhile (fun c => decide (c ≠ sep)) = a ++ [sep] := by
  have hall : ∀ c ∈ b.reverse, decide (c ≠ sep) = true := fun c hc =>
    decide_eq_true fun h => hb (h ▸ List.mem_reverse.mp hc)
  rw [List.rdropWhile, List.reverse_append, List.reverse_cons, List.append_assoc,
    List.dropWhile_append_of_pos hall]
  simp

theorem rtakeWhile_ne_append [DecidableEq α] {a b : List α} {sep : α} (hb : sep ∉ b) :
    (a ++ sep :: b).rtakeWhile (fun c => decide (c ≠ sep)) = b := by
  have hsplit := List.rdropWhile_append_rtakeWhile (p := fun c => decide (c ≠ sep))
    (l := a ++ sep :: b)
  rw [rdropWhile_ne_append hb, List.append_assoc, List.singleton_append] at hsplit
  simpa using hsplit

/-- **`splitLast` finds the last separator.** -/
theorem splitLast_eq_some : splitLast s sep = some (a, b) ↔
      s.toList = a.toList ++ sep :: b.toList ∧ sep ∉ b.toList := by
  constructor
  · intro h
    have hsplit := List.rdropWhile_append_rtakeWhile (p := fun c => decide (c ≠ sep))
      (l := s.toList)
    rw [splitLast] at h
    split at h
    · cases h
    · rename_i hne
      obtain ⟨rfl, rfl⟩ : String.ofList _ = a ∧ String.ofList _ = b := by simpa using h
      have hlast := List.rdropWhile_last_not (fun c => decide (c ≠ sep)) s.toList hne
      rw [decide_eq_true_iff, not_not] at hlast
      refine ⟨?_, fun hmem => ?_⟩
      · conv_lhs => rw [← hsplit, ← List.dropLast_append_getLast hne, hlast]
        simp
      · rw [String.toList_ofList] at hmem
        simpa using List.mem_rtakeWhile_imp hmem
  · rintro ⟨hs, hb⟩
    rw [splitLast, hs, rdropWhile_ne_append hb, rtakeWhile_ne_append hb]
    split
    · rename_i h0
      exact absurd h0 (by simp)
    · rename_i h0
      simp

/-- **`cut` finds the first separator.** -/
theorem cut_eq (hs : s.toList = a.toList ++ sep :: b.toList) (ha : sep ∉ a.toList) :
    cut s sep = (a, b, true) := by
  have hall : ∀ c ∈ a.toList, decide (c ≠ sep) = true := fun c hc =>
    decide_eq_true fun h => ha (h ▸ hc)
  rw [cut, hs, List.dropWhile_append_of_pos hall, List.takeWhile_append_of_pos hall]
  simp

/-- The first and the last separator agree exactly if there is none before the
last. -/
theorem cut_splitLast (h : splitLast s sep = some (a, b)) :
    (cut s sep).1 = a ↔ sep ∉ a.toList := by
  obtain ⟨hs, -⟩ := splitLast_eq_some.mp h
  constructor
  · rintro hcut hmem
    obtain ⟨a₁, a₂, ha, ha₁⟩ := List.eq_append_cons_of_mem hmem
    -- then `cut` stops at the end of `a₁`, which is shorter than `a`
    have hs₁ : s.toList = (String.ofList a₁).toList ++
        sep :: (String.ofList (a₂ ++ sep :: b.toList)).toList := by simp [hs, ha]
    rw [cut_eq hs₁ (by simpa using ha₁)] at hcut
    have hlen := congrArg (fun t => t.toList.length) hcut
    simp [ha] at hlen
  · intro ha
    rw [cut_eq hs ha]

/-! ### Lists of texts -/

/-- Appending what is not yet there, as the loops with a set of seen values do. -/
def addDistinct {α : Type} [DecidableEq α] (l : List α) (a : α) : List α :=
  if a ∈ l then l else l ++ [a]

theorem mem_addDistinct [DecidableEq α] {a b : α} : b ∈ addDistinct l a ↔ b ∈ l ∨ b = a := by
  rw [addDistinct]
  split
  · rename_i ha
    constructor
    · exact Or.inl
    · rintro (hb | rfl)
      · exact hb
      · exact ha
  · simp

theorem nodup_addDistinct [DecidableEq α] (h : l.Nodup) (a : α) : (addDistinct l a).Nodup := by
  rw [addDistinct]
  split
  · exact h
  · rename_i ha
    exact List.nodup_append.mpr ⟨h, List.nodup_singleton a, fun b hb c hc heq =>
      ha (List.mem_singleton.mp hc ▸ heq ▸ hb)⟩

/-- `sort.Strings`. -/
def sortStrings (l : List String) : List String := l.insertionSort (· ≤ ·)

theorem sortStrings_perm (l : List String) : (sortStrings l).Perm l := List.perm_insertionSort _ l

/-! ### Hexadecimal -/

/-- The two digits of a byte. -/
def hexPair (b : UInt8) : List Char := [Nat.digitChar (b.toNat / 16), Nat.digitChar (b.toNat % 16)]

/-- `hex.EncodeToString`. -/
def hexEncode (bs : List UInt8) : String := String.ofList (bs.flatMap hexPair)

theorem digitChar_inj : ∀ {m n : ℕ}, m < 16 → n < 16 →
    Nat.digitChar m = Nat.digitChar n → m = n := by
  have h : ∀ m n : Fin 16, Nat.digitChar m = Nat.digitChar n → m = n := by decide
  intro m n hm hn hmn
  simpa using h ⟨m, hm⟩ ⟨n, hn⟩ hmn

theorem hexPair_injective : Function.Injective hexPair := by
  intro a b h
  have ha := a.toNat_lt
  have hb := b.toNat_lt
  simp only [hexPair, List.cons.injEq, and_true] at h
  have h₁ := digitChar_inj (by omega) (by omega) h.1
  have h₂ := digitChar_inj (by omega) (by omega) h.2
  exact UInt8.toNat_inj.mp (by omega)

theorem flatMap_hexPair_injective : Function.Injective fun bs : List UInt8 => bs.flatMap hexPair := by
  intro bs
  induction bs with
  | nil =>
    rintro (_ | ⟨b, bs'⟩) h
    · rfl
    · cases h
  | cons b bs ih =>
    rintro (_ | ⟨b', bs'⟩) h
    · cases h
    · obtain ⟨h₁, h₂⟩ := List.append_inj (by simpa using h) (by simp [hexPair])
      rw [hexPair_injective h₁, ih h₂]

/-- **Different bytes have different texts.** -/
theorem hexEncode_injective : Function.Injective hexEncode := fun _ _ h =>
  flatMap_hexPair_injective (String.ofList_injective h)

section Digits

variable {P : Char → Prop} (hP : ∀ d : Fin 16, P (Nat.digitChar d)) {c : Char}

include hP

/-- What holds of the digits holds of the two of a byte, -/
theorem forall_mem_hexPair {b : UInt8} (hc : c ∈ hexPair b) : P c := by
  have hb := b.toNat_lt
  rcases List.mem_pair.mp hc with rfl | rfl
  · exact hP ⟨b.toNat / 16, by omega⟩
  · exact hP ⟨b.toNat % 16, by omega⟩

/-- and of every character of such a text. -/
theorem forall_mem_hexEncode {bs : List UInt8} (hc : c ∈ (hexEncode bs).toList) : P c := by
  rw [hexEncode, String.toList_ofList, List.mem_flatMap] at hc
  obtain ⟨b, -, hc⟩ := hc
  exact forall_mem_hexPair hP hc

end Digits

/-! ### Regular expressions

The patterns of the modelled code are all a sequence of fixed texts and classes of
characters; these are the pieces they are made of. -/

/-- `[0-9]`. -/
def isDigit (c : Char) : Bool := '0' ≤ c && c ≤ '9'

/-- `[a-z]`. -/
def isLower (c : Char) : Bool := 'a' ≤ c && c ≤ 'z'

/-- `[A-Z]`. -/
def isUpper (c : Char) : Bool := 'A' ≤ c && c ≤ 'Z'

/-- `^p+$`. -/
def allOf (p : Char → Bool) (l : List Char) : Bool := !l.isEmpty && l.all p

/-! ### Literals -/

/-- The characters of a text that is written in two parts. -/
theorem toList_two {a b : List Char} : (String.ofList a ++ String.ofList b).toList = a ++ b := by
  rw [String.toList_append, String.toList_ofList, String.toList_ofList]

/-- The characters of a text that is written in three parts. -/
theorem toList_three {a b c : List Char} :
    (String.ofList a ++ String.ofList b ++ String.ofList c).toList = a ++ b ++ c := by
  rw [String.toList_append, toList_two, String.toList_ofList]

end Gomi.Go
