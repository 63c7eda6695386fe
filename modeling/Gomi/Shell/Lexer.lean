import Mathlib.Tactic

/-!
# Words of the shell

How a POSIX shell reads a command text: the characters that have a meaning, what the quotes take
from them, and the tokens that the text falls into. A word is a list of parts
(`Gomi.Shell.Part`): plain text, text under quotes, and the expansions of parameters and commands,
each of which is under double quotes or not. Text under quotes is what it is; nothing in it is
expanded, split or taken as an operator.

The reader is a machine that goes through the text once (`Gomi.Shell.step`). Its state is the part
of the word it has read (in reverse) and its mode, so that a text can be read piece by piece
(`Gomi.Shell.run_append`). The result on which all quoting rests is `Gomi.Shell.run_quote`: a
text `s` that is put between single quotes, with each single quote in it as `'"'"'`, adds just `s` to
the word, whatever it is.

What is left out: here-documents, arithmetic expansion, and what a parameter expansion `${…}` may
contain besides a name. The text of a command substitution is kept as it is; to find its end,
brackets and quotes in it are matched, and a backslash in it is not looked at.
-/

namespace Gomi.Shell

variable {cs s t : List Char} {c : Char}

/-- A part of a word. -/
inductive Part where
  /-- Text without quotes. -/
  | lit (s : List Char)
  /-- Text under quotes, of any kind. -/
  | quoted (s : List Char)
  /-- The value of a parameter, under double quotes or not. -/
  | param (name : List Char) (quoted : Bool)
  /-- The output of a command, under double quotes or not. -/
  | subst (text : List Char) (quoted : Bool)
  deriving DecidableEq

/-- A word. -/
abbrev Word : Type := List Part

/-- A token. -/
inductive Token where
  | word (w : Word)
  | op (s : List Char)
  deriving DecidableEq

/-- What the machine is reading. -/
inductive Mode where
  | plain
  | single
  | double
  /-- After a backslash. -/
  | escape (quoted : Bool)
  /-- After a dollar sign. -/
  | dollar (quoted : Bool)
  /-- In the name of a parameter. -/
  | name (quoted : Bool) (read : List Char)
  /-- In the braces around the name of a parameter. -/
  | brace (quoted : Bool) (read : List Char)
  /-- In a command substitution, with the brackets and quotes that are open in it. -/
  | subst (quoted : Bool) (read nest : List Char)
  /-- In a command substitution between backquotes. -/
  | back (quoted : Bool) (read : List Char)
  | comment
  /-- After a character of an operator. -/
  | op (c : Char)
  deriving DecidableEq

/-- The state of the machine: the parts of the word, the last one first, and the mode. -/
structure State where
  parts : Word := []
  mode : Mode := .plain
  deriving DecidableEq

/-! ### One character -/

/-- A character that is added to a word without quotes. -/
def addLit (c : Char) : Word → Word
  | .lit s :: ps => .lit (s ++ [c]) :: ps
  | ps => .lit [c] :: ps

/-- A text that is added to a word under quotes; the empty one makes a word too. -/
def addQuoted (s : List Char) : Word → Word
  | .quoted t :: ps => .quoted (t ++ s) :: ps
  | ps => .quoted s :: ps

/-- The word that has ended, if there is one. -/
def emit : Word → List Token
  | [] => []
  | ps => [.word ps.reverse]

/-- What a character means to the shell. -/
inductive Class where
  | blank
  | newline
  | operator
  | singleQuote
  | doubleQuote
  | backslash
  | dollar
  | backquote
  | hash
  /-- Nothing. -/
  | other
  deriving DecidableEq

/-- The meaning of a character, by its code. -/
def classify (c : Char) : Class :=
  match c.toNat with
  | 9 | 32 => .blank
  | 10 => .newline
  -- `&`, `(`, `)`, `;`, `<`, `>` and `|`
  | 38 | 40 | 41 | 59 | 60 | 62 | 124 => .operator
  | 39 => .singleQuote
  | 34 => .doubleQuote
  | 92 => .backslash
  | 36 => .dollar
  | 96 => .backquote
  | 35 => .hash
  | _ => .other

/-- An operator of two characters. -/
def isPair (a b : Char) : Bool :=
  (a, b) ∈ [('&', '&'), ('|', '|'), (';', ';'), ('<', '<'), ('>', '>'), ('<', '&'), ('>', '&'),
    ('<', '>'), ('>', '|')]

/-- A character that a name starts with. -/
def isNameStart (c : Char) : Bool := c = '_' ∨ ('a' ≤ c ∧ c ≤ 'z') ∨ ('A' ≤ c ∧ c ≤ 'Z')

/-- A character of a name. -/
def isNameChar (c : Char) : Bool := isNameStart c ∨ ('0' ≤ c ∧ c ≤ '9')

/-- A parameter of one character. -/
def isSpecial (c : Char) : Bool := c ∈ ['@', '*', '#', '?', '-', '$', '!'] ∨ ('0' ≤ c ∧ c ≤ '9')

/-- The mode to which an expansion returns. -/
def Mode.around (quoted : Bool) : Mode := if quoted then .double else .plain

/-- A character without quotes. -/
def stepPlain (ps : Word) (c : Char) : List Token × State :=
  match classify c with
  | .blank => (emit ps, {})
  | .newline => (emit ps ++ [.op ['\n']], {})
  | .operator => (emit ps, { mode := .op c })
  | .singleQuote => ([], { parts := addQuoted [] ps, mode := .single })
  | .doubleQuote => ([], { parts := addQuoted [] ps, mode := .double })
  | .backslash => ([], { parts := ps, mode := .escape false })
  | .dollar => ([], { parts := ps, mode := .dollar false })
  | .backquote => ([], { parts := ps, mode := .back false [] })
  -- a comment starts where a word could
  | .hash => ([], if ps = [] then { mode := .comment } else { parts := addLit c ps })
  | .other => ([], { parts := addLit c ps })

/-- A character between double quotes. -/
def stepDouble (ps : Word) (c : Char) : State :=
  match classify c with
  | .doubleQuote => { parts := ps }
  | .backslash => { parts := ps, mode := .escape true }
  | .dollar => { parts := ps, mode := .dollar true }
  | .backquote => { parts := ps, mode := .back true [] }
  | _ => { parts := addQuoted [c] ps, mode := .double }

/-- Whether a backslash between double quotes takes the meaning from a character. -/
def isEscapable (c : Char) : Bool :=
  match classify c with
  | .dollar | .backquote | .doubleQuote | .backslash => true
  | _ => false

/-- A character after which an expansion has ended. -/
def stepAround (quoted : Bool) (ps : Word) (c : Char) : List Token × State :=
  if quoted then ([], stepDouble ps c) else stepPlain ps c

/-- The brackets and quotes that are open in a command substitution after one more character. -/
def nestNext (nest : List Char) (c : Char) : List Char :=
  match nest with
  | '\'' :: rest => if c = '\'' then rest else nest
  | '"' :: rest => if c = '"' then rest else nest
  | _ => if c = '\'' ∨ c = '"' ∨ c = '(' then c :: nest
    else if c = ')' then nest.drop 1 else nest

/-- **One step of the reader.** -/
def step (s : State) (c : Char) : List Token × State :=
  match s.mode with
  | .plain => stepPlain s.parts c
  | .single =>
    ([], if c = '\'' then { s with mode := .plain } else { s with parts := addQuoted [c] s.parts })
  | .double => ([], stepDouble s.parts c)
  | .escape quoted =>
    let kept := if quoted ∧ !isEscapable c then ['\\', c] else [c]
    ([], { parts := if c = '\n' then s.parts else addQuoted kept s.parts, mode := .around quoted })
  | .dollar quoted =>
    if c = '(' then ([], { s with mode := .subst quoted [] [] })
    else if c = '\x7b' then ([], { s with mode := .brace quoted [] })
    else if isNameStart c then ([], { s with mode := .name quoted [c] })
    else if isSpecial c then ([], { parts := .param [c] quoted :: s.parts, mode := .around quoted })
    else stepAround quoted (if quoted then addQuoted ['$'] s.parts else addLit '$' s.parts) c
  | .name quoted read =>
    if isNameChar c then ([], { s with mode := .name quoted (read ++ [c]) })
    else stepAround quoted (.param read quoted :: s.parts) c
  | .brace quoted read =>
    ([], if c = '\x7d' then { parts := .param read quoted :: s.parts, mode := .around quoted }
      else { s with mode := .brace quoted (read ++ [c]) })
  | .subst quoted read nest =>
    ([], if c = ')' ∧ nest = [] then { parts := .subst read quoted :: s.parts, mode := .around quoted }
      else { s with mode := .subst quoted (read ++ [c]) (nestNext nest c) })
  | .back quoted read =>
    ([], if classify c = .backquote then { parts := .subst read quoted :: s.parts, mode := .around quoted }
      else { s with mode := .back quoted (read ++ [c]) })
  | .comment => if c = '\n' then ([.op ['\n']], {}) else ([], s)
  | .op a =>
    if isPair a c then ([.op [a, c]], {})
    else ((.op [a] :: (stepPlain [] c).1), (stepPlain [] c).2)

/-! ### A text -/

/-- The tokens that have ended in a text, and the state after it. -/
def run (s : State) : List Char → List Token × State
  | [] => ([], s)
  | c :: cs => match step s c with
    | (ts, s') => match run s' cs with
      | (ts', s'') => (ts ++ ts', s'')

/-- The tokens that end with the text; there are none in a text that ends under quotes. -/
def finish (s : State) : Option (List Token) :=
  match s.mode with
  | .plain | .comment => some (emit s.parts)
  | .dollar false => some (emit (addLit '$' s.parts))
  | .name false read => some (emit (.param read false :: s.parts))
  | .op c => some [.op [c]]
  | _ => none

/-- **The tokens of a text.** -/
def tokens (text : List Char) : Option (List Token) :=
  (finish (run {} text).2).map ((run {} text).1 ++ ·)

theorem run_cons {s : State} :
    run s (c :: cs) = ((step s c).1 ++ (run (step s c).2 cs).1, (run (step s c).2 cs).2) := rfl

/-- A text is read piece by piece. -/
theorem run_append (s : State) (a b : List Char) :
    run s (a ++ b) = ((run s a).1 ++ (run (run s a).2 b).1, (run (run s a).2 b).2) := by
  induction a generalizing s with
  | nil => rfl
  | cons c a ih =>
    rw [List.cons_append, run_cons, run_cons, ih, List.append_assoc]

@[simp] theorem addQuoted_addQuoted {ps : Word} :
    addQuoted t (addQuoted s ps) = addQuoted (s ++ t) ps := by
  rcases ps with _ | ⟨p, ps⟩
  · rfl
  · cases p <;> simp [addQuoted]

/-! ### Quoting -/

/-- What a character is written as between single quotes. -/
def quoteChar (c : Char) : List Char := if c = '\'' then ['\'', '"', '\'', '"', '\''] else [c]

/-- **A text between single quotes**, in which a single quote is put between double quotes. -/
def quote (s : List Char) : List Char := '\'' :: s.flatMap quoteChar ++ ['\'']

/-- A character as it is written between single quotes is added to the word. -/
theorem run_quoteChar {ps : Word} :
    run { parts := addQuoted t ps, mode := .single } (quoteChar c) =
      ([], { parts := addQuoted (t ++ [c]) ps, mode := .single }) := by
  by_cases hc : c = '\''
  · -- out of the single quotes, a single quote between double quotes, and in again
    subst hc
    have hrun : run { parts := addQuoted t ps, mode := .single } (quoteChar '\'') =
        ([], { parts := addQuoted [] (addQuoted ['\''] (addQuoted [] (addQuoted t ps)))
               mode := .single }) := rfl
    rw [hrun]
    simp only [addQuoted_addQuoted, List.append_nil]
  · rw [quoteChar, if_neg hc, run_cons, run, step]
    simp only [if_neg hc, addQuoted_addQuoted, List.append_nil]

/-- **A quoted text adds just the text to the word.** -/
theorem run_quote {ps : Word} :
    run { parts := ps } (quote s) = ([], { parts := addQuoted s ps }) := by
  -- what has been read of the text is the last part of the word
  have hrest : ∀ t, run { parts := addQuoted t ps, mode := .single } (s.flatMap quoteChar ++ ['\'']) =
      ([], { parts := addQuoted (t ++ s) ps }) := by
    induction s with
    | nil =>
      intro t
      rw [List.append_nil]
      rfl
    | cons c s ih =>
      intro t
      rw [List.flatMap_cons, List.append_assoc, run_append, run_quoteChar, ih]
      simp
  have hopen : step { parts := ps } '\'' = ([], { parts := addQuoted [] ps, mode := .single }) := rfl
  rw [quote, List.cons_append, run_cons, hopen, hrest]
  rfl

theorem addQuoted_ne_nil {ps : Word} : addQuoted s ps ≠ [] := by
  rcases ps with _ | ⟨p, ps⟩
  · simp [addQuoted]
  · cases p <;> simp [addQuoted]

/-- A character at which a word ends. -/
def isBreak (c : Char) : Bool :=
  match classify c with
  | .blank | .newline | .operator => true
  | _ => false

/-- Whether a word ends with the start of a text. -/
def breaks (cs : List Char) : Bool := cs.head?.any isBreak

theorem breaks_append (h : breaks cs = true) (rest : List Char) :
    breaks (cs ++ rest) = true := by
  rcases cs with _ | ⟨c, cs⟩
  · cases h
  · exact h

/-- Where a word ends, it is a token, and the machine goes on as if there had been none. -/
theorem run_break {ps : Word} (hps : ps ≠ []) (hbreak : breaks cs = true) :
    run { parts := ps } cs = (.word ps.reverse :: (run {} cs).1, (run {} cs).2) := by
  rcases cs with _ | ⟨c, cs⟩
  · cases hbreak
  have hemit : emit ps = [.word ps.reverse] := by
    rcases ps with _ | ⟨p, ps⟩
    · exact absurd rfl hps
    · rfl
  have hstep : step { parts := ps } c = (.word ps.reverse :: (step {} c).1, (step {} c).2) := by
    have hc : isBreak c = true := hbreak
    show stepPlain ps c = (_ :: (stepPlain [] c).1, (stepPlain [] c).2)
    rw [isBreak] at hc
    rw [stepPlain, stepPlain, hemit]
    cases hclass : classify c <;> rw [hclass] at hc <;> first | rfl | cases hc
  rw [run_cons, run_cons, hstep]
  rfl

section Slots

variable {text : List Char} {ts : List Token} {ps : Word} (h : run {} text = (ts, { parts := ps }))
include h

/-- **A text with a quoted value in it**, after which a word ends: the value is in one word, with what
stands before it. -/
theorem run_slot (value : List Char) {rest : List Char} (hbreak : breaks rest = true) :
    run {} (text ++ (quote value ++ rest)) =
      (ts ++ .word (addQuoted value ps).reverse :: (run {} rest).1, (run {} rest).2) := by
  rw [run_append, h, run_append, run_quote, run_break (addQuoted_ne_nil) hbreak]
  rfl

/-- A text that ends with a quoted value. -/
theorem run_slot_end (value : List Char) :
    run {} (text ++ quote value) = (ts, { parts := addQuoted value ps }) := by
  rw [run_append, h, run_quote, List.append_nil]

end Slots

/-! ### What a word stands for -/

/-- A character by which a word without quotes may be replaced by the names of files, or by the home
directory of a user. -/
def isPattern (c : Char) : Bool := c ∈ ['*', '?', '[', '~']

/-- What a part stands for, with the values of the parameters, if it stands for one text whatever
the commands print and the files are. -/
def Part.value (env : List Char → List Char) : Part → Option (List Char)
  | .lit s => if s.any isPattern then none else some s
  | .quoted s => some s
  | .param name true => some (env name)
  | .param _ false => none
  | .subst _ _ => none

/-- What a word stands for. -/
def Word.value (env : List Char → List Char) (w : Word) : Option (List Char) :=
  (w.mapM (Part.value env)).map List.flatten

end Gomi.Shell
