import Mathlib.Tactic

/-!
# Texts in JSON

How `json.Marshal` writes a text: between quotes, with escapes for quotes, backslashes, control
characters, the characters that HTML gives a meaning, and the two line separators of Unicode. A text
in which nothing is to be escaped is written as it is (`Gomi.Go.jsonString_of_plain`).
-/

namespace Gomi.Go

/-- `\u` and four hexadecimal digits. -/
def unicodeEscape (n : ℕ) : List Char :=
  ['\\', 'u', Nat.digitChar (n / 4096 % 16), Nat.digitChar (n / 256 % 16), Nat.digitChar (n / 16 % 16),
    Nat.digitChar (n % 16)]

/-- One character of a text. -/
def jsonEscape (c : Char) : List Char :=
  if c = '"' ∨ c = '\\' then ['\\', c]
  else if c.toNat = 8 then ['\\', 'b']
  else if c.toNat = 12 then ['\\', 'f']
  else if c = '\n' then ['\\', 'n']
  else if c = '\r' then ['\\', 'r']
  else if c = '\t' then ['\\', 't']
  else if c.toNat < 32 ∨ c = '<' ∨ c = '>' ∨ c = '&' ∨ c.toNat = 0x2028 ∨ c.toNat = 0x2029 then
    unicodeEscape c.toNat
  else [c]

/-- `json.Marshal` of a text. -/
def jsonString (s : String) : String :=
  "\"" ++ String.ofList (s.toList.flatMap jsonEscape) ++ "\""

theorem jsonString_of_plain {s : String} (h : ∀ c ∈ s.toList, jsonEscape c = [c]) :
    jsonString s = "\"" ++ s ++ "\"" := by
  have hsame : s.toList.flatMap jsonEscape = s.toList := by
    rw [List.flatMap_congr h]
    exact List.flatMap_singleton' _
  rw [jsonString, hsame, String.ofList_toList]

/-- A text in ASCII takes a byte for each character. -/
theorem utf8ByteSize_ascii {s : String} (h : ∀ c ∈ s.toList, c.toNat < 128) :
    s.utf8ByteSize = s.length := by
  rw [← s.ofList_toList] at h ⊢
  generalize s.toList = l at h ⊢
  rw [String.toList_ofList] at h
  induction l with
  | nil => rfl
  | cons c l ih =>
    have hc : c.val ≤ 127 := Nat.le_of_lt_succ (h c List.mem_cons_self)
    have hsize : c.utf8Size = 1 := by simp [Char.utf8Size, hc]
    rw [String.ofList_cons, String.utf8ByteSize_append, String.utf8ByteSize_singleton, hsize,
      ih fun d hd => h d (List.mem_cons_of_mem _ hd), String.length_append, String.length_singleton]

end Gomi.Go
