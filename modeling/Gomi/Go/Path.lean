import Gomi.Go.Strings

/-!
# Paths, as the Go package `path/filepath` treats them

A path is absolute here and given by its components, from the root on. `Gomi.Go.clean` is what
`filepath.Clean` makes of them – empty components and `.` go, and `..` takes the component before
it away – and `Gomi.Go.join` is `filepath.Join` of a directory and a text.

A directory is looked at from inside: `Gomi.Go.child dir name` is the file of the directory that
`filepath.Join(dir, name)` is, if it is one at all. A text without a slash is its own file
(`Gomi.Go.child_eq_self`), but other texts can lead back into the directory. What is certain is
how the name of the file ends: `Gomi.Go.child_append`.

Names of files are told apart by their ends: `Gomi.Go.append_ne_append`.
-/

namespace Gomi.Go

variable {t s f c : String}

/-! ### Ends of texts -/

/-- **Texts with different ends are different.** -/
theorem append_ne_append (a b : String) (hst : s.toList.isSuffixOf t.toList = false)
    (hts : t.toList.isSuffixOf s.toList = false) : a ++ s ≠ b ++ t := by
  intro heq
  have hlist : a.toList ++ s.toList = b.toList ++ t.toList := by
    simpa using congrArg String.toList heq
  have hs : s.toList <:+ b.toList ++ t.toList := hlist ▸ List.suffix_append _ _
  rcases List.suffix_or_suffix_of_suffix hs (List.suffix_append _ _) with h | h
  · rw [List.isSuffixOf_iff_suffix.mpr h] at hst
    cases hst
  · rw [List.isSuffixOf_iff_suffix.mpr h] at hts
    cases hts

/-- A text with another end does not end so. -/
theorem hasSuffix_append (a : String) (hst : s.toList.isSuffixOf t.toList = false)
    (hts : t.toList.isSuffixOf s.toList = false) : hasSuffix (a ++ s) t = false := by
  rw [← Bool.not_eq_true, hasSuffix, List.isSuffixOf_iff_suffix]
  rintro ⟨stem, hstem⟩
  refine append_ne_append a (String.ofList stem) hst hts (String.toList_injective ?_)
  rw [← hstem, String.toList_append, String.toList_ofList]

theorem append_right_cancel {a b : String} (s : String) (h : a ++ s = b ++ s) : a = b :=
  (String.append_left_inj s).mp h

/-! ### Components -/

/-- The components of a path. -/
abbrev Path : Type := List String

/-- The components of a text: what stands between slashes. -/
def components (s : String) : Path := (s.toList.splitOn '/').map String.ofList

/-- One component, put at the end of a path that is clean. -/
def descend (path : Path) (c : String) : Path :=
  if c = "" ∨ c = "." then path else if c = ".." then path.dropLast else path ++ [c]

/-- `filepath.Clean`, of an absolute path. -/
def clean (path : Path) : Path := path.foldl descend []

/-- `filepath.Join`, of a directory and a text. -/
def join (dir : Path) (name : String) : Path := clean (dir ++ components name)

/-- One component, put at the end of a relative path that is clean. -/
def descendRelative (path : Path) (c : String) : Path :=
  if c = "" ∨ c = "." then path
  else if c = ".." ∧ path.getLast?.any (· ≠ "..") then path.dropLast
  else path ++ [c]

/-- `path.Clean`, of a text. -/
def cleanText (s : String) : String :=
  if hasPrefix s "/" then "/" ++ "/".intercalate (clean (components s))
  else match (components s).foldl descendRelative [] with
    | [] => "."
    | path => "/".intercalate path

/-- `filepath.Ext`: what the last component ends with, from its last dot on. -/
def extension (s : String) : String :=
  match splitLast (String.ofList (s.toList.rtakeWhile (· ≠ '/'))) '.' with
  | some (_, rest) => "." ++ rest
  | none => ""

/-- `filepath.Join`, of two texts. -/
def joinText (a b : String) : String :=
  if a = "" then if b = "" then "" else cleanText b
  else if b = "" then cleanText a
  else cleanText (a ++ "/" ++ b)

/-- `filepath.Dir`, of a text. -/
def dirText (s : String) : String :=
  match splitLast s '/' with
  | some (dir, _) => cleanText (dir ++ "/")
  | none => "."

/-- A path with a text appended to it. -/
def suffixed (path : Path) (t : String) : Path := path.dropLast ++ [path.getLastD "" ++ t]

/-- A text that is not empty makes another path. -/
theorem suffixed_ne {path : Path} (ht : t ≠ "") : suffixed path t ≠ path := by
  intro heq
  have hlast := congrArg (List.getLastD · "") heq
  rw [suffixed] at hlast
  have hlen := congrArg (fun s : String => s.toList.length) hlast
  simp at hlen
  exact ht hlen

/-- The file of a directory that a path is. -/
def fileIn (dir path : Path) : Option String :=
  match path with
  | [] => none
  | _ :: _ => if path.dropLast = dir then path.getLast? else none

/-- **The file of a directory that `filepath.Join(dir, name)` is.** -/
def child (dir : Path) (name : String) : Option String := fileIn dir (join dir name)

/-- A name that is a component of its own. -/
def Plain (c : String) : Prop := c ≠ "" ∧ c ≠ "." ∧ c ≠ ".."

theorem descend_plain (h : Plain c) (path : Path) : descend path c = path ++ [c] := by
  obtain ⟨h₁, h₂, h₃⟩ := h
  rw [descend, if_neg (by simp [h₁, h₂]), if_neg h₃]

theorem clean_snoc (path : Path) (h : Plain c) : clean (path ++ [c]) = clean path ++ [c] := by
  rw [clean, List.foldl_append, List.foldl_cons, List.foldl_nil, descend_plain h]
  rfl

theorem fileIn_eq_some {dir path : Path} :
    fileIn dir path = some f ↔ path = dir ++ [f] := by
  rcases List.eq_nil_or_concat path with rfl | ⟨path, c, rfl⟩
  · simp [fileIn]
  · rw [List.concat_eq_append]
    have hne : path ++ [c] ≠ [] := by simp
    obtain ⟨x, xs, hx⟩ := List.exists_cons_of_ne_nil hne
    have hfile : fileIn dir (path ++ [c]) = if path = dir then some c else none := by
      rw [hx, fileIn, ← hx, List.dropLast_concat, List.getLast?_concat]
    rw [hfile]
    constructor
    · intro h
      split at h
      · rename_i hpath
        rw [hpath, Option.some.inj h]
      · cases h
    · intro h
      obtain ⟨rfl, hc⟩ := List.append_inj' h rfl
      rw [if_pos rfl, List.singleton_inj.mp hc]

/-! ### Texts with an end -/

/-- A list is without a separator, or is cut at its last one. -/
theorem exists_last_separator {α : Type} [DecidableEq α] (sep : α) (l : List α) :
    sep ∉ l ∨ ∃ a b, l = a ++ sep :: b ∧ sep ∉ b := by
  by_cases h : sep ∈ l
  · right
    obtain ⟨a, b, hl, ha⟩ := List.eq_append_cons_of_mem (List.mem_reverse.mpr h)
    refine ⟨b.reverse, a.reverse, ?_, by simpa using ha⟩
    simpa using congrArg List.reverse hl
  · exact Or.inl h

/-- **The components of a text** are those before its last slash, and what comes after it, which is
where a text without a slash is appended. -/
theorem components_append (s : String) : ∃ init last, '/' ∉ last.toList ∧
    ∀ t : String, '/' ∉ t.toList → components (s ++ t) = init ++ [last ++ t] := by
  rcases exists_last_separator '/' s.toList with hs | ⟨a, b, hs, hb⟩
  · refine ⟨[], s, hs, fun t ht => ?_⟩
    have hst : '/' ∉ (s ++ t).toList := by simp [hs, ht]
    rw [components, List.splitOn_eq_singleton hst]
    simp
  · refine ⟨(a.splitOn '/').map String.ofList, String.ofList b, by simpa using hb, fun t ht => ?_⟩
    have hbt : '/' ∉ b ++ t.toList := by simp [hb, ht]
    rw [components, String.toList_append, hs, List.append_assoc, List.cons_append,
      List.splitOn_append_cons_self, List.splitOn_eq_singleton hbt]
    simp [String.ofList_append]

/-- An end without a slash that makes every name a component of its own. -/
def Ending (t : String) : Prop := '/' ∉ t.toList ∧ ∀ c, Plain (c ++ t)

/-- A text of at least three characters, none of which is a slash, is such an end. -/
theorem ending_of_length (hslash : '/' ∉ t.toList) (hlen : 3 ≤ t.toList.length) :
    Ending t := by
  refine ⟨hslash, fun c => ?_⟩
  have hne : ∀ u : String, u.toList.length < 3 → c ++ t ≠ u := by
    rintro u hu rfl
    rw [String.toList_append, List.length_append] at hu
    omega
  exact ⟨hne "" (by decide), hne "." (by decide), hne ".." (by decide)⟩

/-- **The file that a name leads to ends as the name does**, and has no slash. -/
theorem child_append {dir : Path} (ht : Ending t) (h : child dir (s ++ t) = some f) :
    ∃ c, '/' ∉ c.toList ∧ f = c ++ t := by
  obtain ⟨init, last, hlast, hst⟩ := components_append s
  rw [child, join, hst t ht.1, ← List.append_assoc, clean_snoc _ (ht.2 last), fileIn_eq_some] at h
  obtain ⟨-, hf⟩ := List.append_inj' h rfl
  exact ⟨last, hlast, (List.singleton_inj.mp hf).symm⟩

/-- **A name without a slash is its own file.** -/
theorem child_eq_self {dir : Path} (hdir : clean dir = dir) (hslash : '/' ∉ f.toList) (hf : Plain f) :
    child dir f = some f := by
  have hcomp : components f = [f] := by simp [components, List.splitOn_eq_singleton hslash]
  rw [child, join, hcomp, clean_snoc _ hf, hdir, fileIn_eq_some]

end Gomi.Go
