import Gomi.Go.Strings

/-!
# Texts, as Python treats them

The methods of `str` that the modelled scripts use, over Lean strings, and the reading of a text file,
which replaces every end of a line by a line feed (`Gomi.Python.universalNewlines`).

What is space differs from Go: four separators of ASCII are space here and not there
(`Gomi.Python.isSpace_of_go`). A text that Go trims to something that starts with no space of Python is
stripped by both to the same start (`Gomi.Python.startsWith_lstrip`). The two ends of a text are
stripped independently of each other (`Gomi.Python.lstrip_rstrip`). Reading a text leaves alone what
has no carriage return (`Gomi.Python.newlines_append`), and space stays space
(`Gomi.Python.lstrip_universalNewlines`).
-/

namespace Gomi.Python

/-! ### Space -/

/-- `str.isspace`, of one character. -/
def isSpace (c : Char) : Bool := Go.isSpace c || (0x1c ≤ c.toNat && c.toNat ≤ 0x1f)

variable {c : Char} {s start : String}
variable {l : List Char} {a b part : String}

theorem isSpace_of_go (h : Go.isSpace c = true) : isSpace c = true := by
  rw [isSpace, h, Bool.true_or]

theorem isSpace_lf : isSpace '\n' = true := by decide

theorem isSpace_cr : isSpace '\r' = true := by decide

/-- `str.lstrip`. -/
def lstrip (s : String) : String := String.ofList (s.toList.dropWhile isSpace)

/-- `str.rstrip`. -/
def rstrip (s : String) : String := String.ofList (s.toList.rdropWhile isSpace)

/-- `str.startswith`, with one text. -/
def startsWith (s start : String) : Bool := start.toList.isPrefixOf s.toList

/-- `str.endswith`, with one text. -/
def endsWith (s rest : String) : Bool := rest.toList.isSuffixOf s.toList

/-- `in`, between texts. -/
def contains (s part : String) : Bool := decide (part.toList <:+: s.toList)

theorem startsWith_iff : startsWith s start = true ↔ ∃ rest, s.toList = start.toList ++ rest := by
  rw [startsWith, List.isPrefixOf_iff_prefix]
  exact ⟨fun ⟨rest, h⟩ => ⟨rest, h.symm⟩, fun ⟨rest, h⟩ => ⟨rest, h.symm⟩⟩

theorem startsWith_append {t : String} : startsWith (s ++ t) s = true :=
  startsWith_iff.mpr ⟨_, String.toList_append⟩

theorem startsWith_trans (hs : startsWith s a = true) (ha : startsWith a b = true) :
    startsWith s b = true := by
  rw [startsWith, List.isPrefixOf_iff_prefix] at *
  exact ha.trans hs

/-- A text does not start with two texts of which neither starts with the other. -/
theorem startsWith_eq_false (hs : startsWith s a = true) (hab : startsWith a b = false)
    (hba : startsWith b a = false) : startsWith s b = false := by
  by_contra h
  simp only [Bool.not_eq_false] at h
  rw [startsWith, List.isPrefixOf_iff_prefix] at hs h
  rcases List.prefix_or_prefix_of_prefix hs h with hle | hle
  · rw [startsWith, List.isPrefixOf_iff_prefix.mpr hle] at hba
    cases hba
  · rw [startsWith, List.isPrefixOf_iff_prefix.mpr hle] at hab
    cases hab

/-- Dropping more from a list makes no difference if what is left after the first starts with
something else. -/
theorem dropWhile_of_imp {α : Type} {p q : α → Bool} (hpq : ∀ a, p a = true → q a = true)
    {l : List α} {a : α} {rest : List α} (hl : l.dropWhile p = a :: rest) (ha : q a = false) :
    l.dropWhile q = a :: rest := by
  induction l with
  | nil => cases hl
  | cons b l ih =>
    cases hb : p b with
    | true =>
      rw [List.dropWhile_cons_of_pos hb] at hl
      rw [List.dropWhile_cons_of_pos (hpq b hb)]
      exact ih hl
    | false =>
      rw [List.dropWhile_cons_of_neg (by simp [hb])] at hl
      obtain ⟨rfl, rfl⟩ := List.cons.inj hl
      rw [List.dropWhile_cons_of_neg (by simp [ha])]

/-- **What Go trims, Python strips**: a text that is trimmed to some start is stripped to the same
start, if it has no space at its front. -/
theorem startsWith_lstrip (h : Go.hasPrefix (Go.trimSpace s) start = true)
    (hstart : start.toList = c :: l) (hc : isSpace c = false) :
    startsWith (lstrip s) start = true := by
  obtain ⟨rest, hrest⟩ := startsWith_iff.mp h
  rw [Go.trimSpace, String.toList_ofList, Go.trimList, hstart] at hrest
  have hsplit : (s.toList.dropWhile Go.isSpace).rdropWhile Go.isSpace ++ _ = _ :=
    List.rdropWhile_append_rtakeWhile
  rw [hrest, List.append_assoc] at hsplit
  rw [startsWith_iff, lstrip, String.toList_ofList, hstart]
  exact ⟨_, dropWhile_of_imp (fun _ => isSpace_of_go) hsplit.symm hc⟩

/-- Nothing is stripped from a text that starts without space. -/
theorem lstrip_eq_self (h : startsWith s start = true) (hstart : start.toList = c :: l)
    (hc : isSpace c = false) : lstrip s = s := by
  obtain ⟨rest, hrest⟩ := startsWith_iff.mp h
  have hdrop : s.toList.dropWhile isSpace = s.toList := by
    rw [hrest, hstart]
    exact List.dropWhile_cons_of_neg (by simp [hc])
  rw [lstrip, hdrop, String.ofList_toList]

theorem lstrip_lstrip : lstrip (lstrip s) = lstrip s := by
  rw [lstrip, lstrip, String.toList_ofList, List.dropWhile_idempotent]

theorem rstrip_rstrip : rstrip (rstrip s) = rstrip s := by
  rw [rstrip, rstrip, String.toList_ofList, List.rdropWhile_idempotent]

/-- What is dropped at the end of a list does not reach a front that ends in something else. -/
theorem rdropWhile_append {α : Type} {p : α → Bool} {a b : List α} (ha : a.rdropWhile p = a) :
    (a ++ b).rdropWhile p = a ++ b.rdropWhile p := by
  induction b using List.reverseRecOn with
  | nil => rw [List.append_nil, List.rdropWhile_nil, List.append_nil, ha]
  | append_singleton b c ih =>
    rw [← List.append_assoc, List.rdropWhile_concat, List.rdropWhile_concat, ih]
    split
    · rfl
    · rw [List.append_assoc]

theorem rstrip_append (ha : rstrip a = a) : rstrip (a ++ b) = a ++ rstrip b := by
  have ha' : a.toList.rdropWhile isSpace = a.toList := by
    have hlist := congrArg String.toList ha
    rwa [rstrip, String.toList_ofList] at hlist
  rw [rstrip, String.toList_append, rdropWhile_append ha', String.ofList_append, String.ofList_toList,
    rstrip]

/-- **Stripping at both ends**, in either order. -/
theorem lstrip_rstrip : lstrip (rstrip s) = rstrip (lstrip s) := by
  simp only [lstrip, rstrip, String.toList_ofList]
  congr 1
  induction s.toList using List.reverseRecOn with
  | nil => rfl
  | append_singleton l c ih =>
    rw [List.rdropWhile_concat, List.dropWhile_append]
    cases hc : isSpace c with
    | true =>
      rw [if_pos rfl, List.dropWhile_cons_of_pos hc]
      split
      · rename_i hempty
        rw [ih, List.isEmpty_iff.mp hempty]
        rfl
      · rw [ih, List.rdropWhile_concat_pos _ _ _ hc]
    | false =>
      have hneg : ¬isSpace c = true := by simp [hc]
      rw [if_neg (by simp), List.dropWhile_append, List.dropWhile_cons_of_neg hneg]
      split
      · exact (List.rdropWhile_concat_neg _ [] _ hneg).symm
      · rw [List.rdropWhile_concat_neg _ _ _ hneg]

/-- The end of a text does not depend on what is before it. -/
theorem endsWith_append (h : part.length ≤ b.length) : endsWith (a ++ b) part = endsWith b part := by
  rw [Bool.eq_iff_iff, endsWith, endsWith, List.isSuffixOf_iff_suffix, List.isSuffixOf_iff_suffix,
    String.toList_append]
  exact ⟨fun hpart => List.suffix_of_suffix_length_le hpart (List.suffix_append _ _) h,
    fun hpart => hpart.trans (List.suffix_append _ _)⟩

/-! ### Lines -/

/-- The ends of lines, as a text file is read. -/
def newlines : List Char → List Char
  | '\r' :: '\n' :: rest => '\n' :: newlines rest
  | '\r' :: rest => '\n' :: newlines rest
  | c :: rest => c :: newlines rest
  | [] => []

/-- `Path.read_text`, of a file with some text. -/
def universalNewlines (s : String) : String := String.ofList (newlines s.toList)

@[simp] theorem newlines_cons (hc : c ≠ '\r') :
    newlines (c :: l) = c :: newlines l := by
  rw [newlines]
  · rintro _ rfl
    exact absurd rfl hc
  · rintro rfl
    exact absurd rfl hc

/-- A text without carriage return is read as it is. -/
theorem newlines_append {a : List Char} (ha : '\r' ∉ a) {b : List Char} :
    newlines (a ++ b) = a ++ newlines b := by
  induction a with
  | nil => rfl
  | cons c a ih =>
    obtain ⟨hc, ha⟩ := not_or.mp (fun h => ha (List.mem_cons.mpr h))
    rw [List.cons_append, newlines_cons (Ne.symm hc), ih ha, List.cons_append]

/-- **Reading and stripping commute**: an end of a line is space, however it is written. -/
theorem dropWhile_newlines :
    (newlines l).dropWhile isSpace = newlines (l.dropWhile isSpace) := by
  fun_induction newlines l with
  | case1 rest ih => simpa [List.dropWhile_cons, isSpace_lf, isSpace_cr] using ih
  | case2 rest _ ih => simpa [List.dropWhile_cons, isSpace_lf, isSpace_cr] using ih
  | case3 c rest hcr hc ih =>
    cases hspace : isSpace c with
    | true => simpa [List.dropWhile_cons, hspace] using ih
    | false =>
      rw [List.dropWhile_cons_of_neg (by simp [hspace]), List.dropWhile_cons_of_neg (by simp [hspace]),
        newlines_cons fun h => hc h]
  | case4 => rfl

theorem lstrip_universalNewlines :
    lstrip (universalNewlines s) = universalNewlines (lstrip s) := by
  simp only [lstrip, universalNewlines, String.toList_ofList, dropWhile_newlines]

/-- What starts a text before its first end of a line starts it when it is read. -/
theorem startsWith_universalNewlines (hcr : '\r' ∉ start.toList) (hlf : '\n' ∉ start.toList) :
    startsWith (universalNewlines s) start = startsWith s start := by
  rw [startsWith, startsWith, universalNewlines, String.toList_ofList]
  generalize start.toList = a at hcr hlf
  generalize s.toList = l
  induction a generalizing l with
  | nil => simp
  | cons c a ih =>
    obtain ⟨hc, ha⟩ := not_or.mp (fun h => hcr (List.mem_cons.mpr h))
    obtain ⟨hc', ha'⟩ := not_or.mp (fun h => hlf (List.mem_cons.mpr h))
    cases l with
    | nil => rfl
    | cons b l =>
      by_cases hb : b = '\r'
      · subst hb
        obtain ⟨rest, hrest⟩ : ∃ rest, newlines ('\r' :: l) = '\n' :: rest := by
          cases l with
          | nil => exact ⟨_, rfl⟩
          | cons b l => by_cases hb : b = '\n' <;> simp [newlines, hb]
        rw [hrest, List.isPrefixOf_cons_cons, List.isPrefixOf_cons_cons, beq_eq_false_iff_ne.mpr
          (Ne.symm hc), beq_eq_false_iff_ne.mpr (Ne.symm hc'), Bool.false_and, Bool.false_and]
      · rw [newlines_cons hb, List.isPrefixOf_cons_cons, List.isPrefixOf_cons_cons, ih ha ha']

/-- A text that starts without carriage return is read with the same start. -/
theorem startsWith_universalNewlines_of (hcr : '\r' ∉ start.toList) (h : startsWith s start = true) :
    startsWith (universalNewlines s) start = true := by
  obtain ⟨rest, hrest⟩ := startsWith_iff.mp h
  rw [startsWith_iff]
  exact ⟨newlines rest, by rw [universalNewlines, String.toList_ofList, hrest, newlines_append hcr]⟩

end Gomi.Python
