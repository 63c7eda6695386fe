import Gomi.Shell.Lexer

/-!
# Commands of the shell

The grammar of the shell, over the tokens of `Gomi.Shell.tokens`: simple commands with assignments
and redirections, pipelines, lists, and the two compound commands `for … in` and `if`. A reserved
word is one only where a command may start, and only without quotes.

`Gomi.Shell.parse` reads a text; it has no result for a text with another construct.
-/

namespace Gomi.Shell

/-- A command. -/
inductive Command where
  /-- Assignments, words and redirections. -/
  | simple (assignments : List (List Char × Word)) (words : List Word)
      (redirections : List (List Char × Word))
  /-- Two commands with a pipe between them. -/
  | pipe (left right : Command)
  /-- One command after the other. -/
  | seq (left right : Command)
  /-- A loop over the fields of some words. -/
  | forIn (name : List Char) (items : List Word) (body : Command)
  /-- A command that runs if another one succeeds. -/
  | ifThen (condition body : Command)
  deriving DecidableEq

/-- An operator that is followed by the name of a file. -/
def isRedirection (s : List Char) : Bool := s ∈ [['<'], ['>'], ['>', '>'], ['<', '>'], ['>', '|']]

/-- An operator after which the next command of a list starts. -/
def isSeparator (s : List Char) : Bool := s ∈ [[';'], ['\n']]

/-- The words and the redirections of a simple command, and the tokens after it. -/
def simpleWords : List Token → List Word × List (List Char × Word) × List Token
  | .word w :: ts => (w :: (simpleWords ts).1, (simpleWords ts).2)
  | .op s :: .word w :: ts =>
    if isRedirection s then
      ((simpleWords ts).1, (s, w) :: (simpleWords ts).2.1, (simpleWords ts).2.2)
    else ([], [], .op s :: .word w :: ts)
  | ts => ([], [], ts)

/-- A word that assigns a value to a variable: a name and an equals sign, without quotes, and the
value. -/
def assignment? : Word → Option (List Char × Word)
  | .lit s :: ps =>
    let name := s.takeWhile (· ≠ '=')
    match name, s.dropWhile (· ≠ '=') with
    | c :: cs, '=' :: value =>
      if isNameStart c ∧ cs.all isNameChar then
        some (name, if value = [] then ps else .lit value :: ps)
      else none
    | _, _ => none
  | _ => none

/-- The assignments that a simple command starts with, and the other words. -/
def splitAssignments : List Word → List (List Char × Word) × List Word
  | [] => ([], [])
  | w :: ws => match assignment? w with
    | some a => (a :: (splitAssignments ws).1, (splitAssignments ws).2)
    | none => ([], w :: ws)

/-- A simple command. -/
def parseSimple (ts : List Token) : Option (Command × List Token) :=
  let (words, redirections, rest) := simpleWords ts
  if words = [] ∧ redirections = [] then none
  else some (.simple (splitAssignments words).1 (splitAssignments words).2 redirections, rest)

/-- A given word without quotes, and the tokens after it. -/
def expect (s : String) : List Token → Option (List Token)
  | .word [.lit t] :: ts => if t = s.toList then some ts else none
  | _ => none

/-- The words up to the next operator. -/
def takeWords : List Token → List Word × List Token
  | .word w :: ts => (w :: (takeWords ts).1, (takeWords ts).2)
  | ts => ([], ts)

/-- A separator, and the tokens after it. -/
def separator : List Token → Option (List Token)
  | .op s :: ts => if isSeparator s then some ts else none
  | _ => none

/-- Whether a list of commands ends before a token. -/
def ends : List Token → Bool
  | [] => true
  | .word [.lit s] :: _ => s ∈ ["do", "done", "then", "else", "elif", "fi"].map String.toList
  | _ => false

mutual

/-- A list of commands. -/
def parseList : ℕ → List Token → Option (Command × List Token)
  | 0, _ => none
  | fuel + 1, ts => do
    let (c, ts) ← parsePipeline fuel ts
    match separator ts with
    | some ts =>
      if ends ts then some (c, ts)
      else do
        let (d, ts) ← parseList fuel ts
        some (.seq c d, ts)
    | none => some (c, ts)

/-- A pipeline. -/
def parsePipeline : ℕ → List Token → Option (Command × List Token)
  | 0, _ => none
  | fuel + 1, ts => do
    let (c, ts) ← parseCommand fuel ts
    match ts with
    | .op ['|'] :: ts => do
      let (d, ts) ← parsePipeline fuel ts
      some (.pipe c d, ts)
    | ts => some (c, ts)

/-- A command. -/
def parseCommand : ℕ → List Token → Option (Command × List Token)
  | 0, _ => none
  | fuel + 1, ts =>
    match expect "for" ts with
    | some (.word [.lit name] :: ts) => do
      let (items, ts) := takeWords (← expect "in" ts)
      let (body, ts) ← parseList fuel (← expect "do" (← separator ts))
      some (.forIn name items body, ← expect "done" ts)
    | some _ => none
    | none => match expect "if" ts with
      | some ts => do
        let (condition, ts) ← parseList fuel ts
        let (body, ts) ← parseList fuel (← expect "then" ts)
        some (.ifThen condition body, ← expect "fi" ts)
      | none => parseSimple ts

end

/-- **The command of a text.** -/
def parse (text : List Char) : Option Command := do
  let ts ← tokens text
  match ← parseList (ts.length + 3) ts with
  | (c, []) => some c
  | _ => none

example : parse "a=1 b '$x'\"$x\" > c; if d | e; then f; fi".toList = some (.seq
    (.simple [("a".toList, [.lit "1".toList])]
      [[.lit "b".toList], [.quoted "$x".toList, .param "x".toList true]]
      [(['>'], [.lit "c".toList])])
    (.ifThen (.pipe (.simple [] [[.lit "d".toList]] []) (.simple [] [[.lit "e".toList]] []))
      (.simple [] [[.lit "f".toList]] []))) := by
  decide +kernel

end Gomi.Shell
