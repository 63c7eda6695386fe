import Gomi.Go.Strings

/-!
# Formatted texts

`fmt.Sprintf` of the Go standard library, for formats whose verbs are `%s`, `%[n]s` and `%%` and
whose arguments are texts. A verb with an index takes the argument of that index, counted from
one, and the verbs after it go on from there.

A format is read first, into pieces of text and the indices of the arguments between them
(`Gomi.Go.segments`); `Gomi.Go.sprintf` puts the arguments in. So what a fixed format does with
any arguments is settled by reading it once.
-/

namespace Gomi.Go

/-- A piece of a format. -/
inductive Segment where
  /-- A text. -/
  | text (s : List Char)
  /-- The argument of an index, counted from zero. -/
  | arg (i : ℕ)
  /-- A verb that is not one of the three. -/
  | other
  deriving DecidableEq

/-- One more character before the pieces of the rest. -/
def Segment.push (c : Char) : List Segment → List Segment
  | .text s :: rest => .text (c :: s) :: rest
  | rest => .text [c] :: rest

/-- Where the reader of a format is. -/
inductive FormatMode where
  | text
  /-- After a percent sign. -/
  | verb
  /-- In the index of a verb. -/
  | index (n : ℕ)
  deriving DecidableEq

/-- The pieces of a format, of which `argNum` is the next argument. -/
def segmentsFrom : FormatMode → ℕ → List Char → List Segment
  | .text, _, [] => []
  | .text, argNum, c :: format =>
    if c = '%' then segmentsFrom .verb argNum format
    else Segment.push c (segmentsFrom .text argNum format)
  | .verb, argNum, c :: format =>
    if c = 's' then .arg argNum :: segmentsFrom .text (argNum + 1) format
    else if c = '%' then Segment.push '%' (segmentsFrom .text argNum format)
    else if c = '[' then segmentsFrom (.index 0) argNum format
    else .other :: segmentsFrom .text argNum format
  | .index n, argNum, c :: format =>
    if isDigit c then segmentsFrom (.index (10 * n + (c.toNat - '0'.toNat))) argNum format
    else if c = ']' ∧ 0 < n then segmentsFrom .verb (n - 1) format
    else .other :: segmentsFrom .text argNum format
  | _, _, [] => [.other]

/-- The pieces of a format. -/
def segments (format : String) : List Segment := segmentsFrom .text 0 format.toList

/-- What a piece is replaced by. -/
def Segment.fill (args : List String) : Segment → List Char
  | .text s => s
  | .arg i => ((args[i]?).getD "%!s(MISSING)").toList
  | .other => "%!(NOVERB)".toList

/-- `fmt.Sprintf`. -/
def sprintf (format : String) (args : List String) : String :=
  String.ofList ((segments format).flatMap (Segment.fill args))

/-- A format that has been read. -/
theorem toList_sprintf {format : String} {read : List Segment} (h : segments format = read)
    (args : List String) : (sprintf format args).toList = read.flatMap (Segment.fill args) := by
  rw [sprintf, h, String.toList_ofList]

example : sprintf "%s: %[1]s, %s%%" ["a", "b"] = "a: a, b%" := by decide

end Gomi.Go
