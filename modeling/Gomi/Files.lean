import Gomi.Go.Path
import Gomi.Interleaving.Sequential

/-!
# Files and links, under system calls that may fail

A file system as a program sees it that only ever creates, fills, links, renames and removes files:
a `Gomi.Files.Tree` gives the node at every path. Directories are not nodes; a call that needs one
may fail, as any call may.

* A file knows whether the last write of it ended (`whole`), so that a file which is being written,
  or whose writer has stopped half-way, can be told from a complete one.
* `os.Create`, `os.WriteFile` and what reads a file follow a link (`Gomi.Files.Tree.resolve`);
  `os.Rename` and `os.Remove` treat it as a node like any other.
* `os.RemoveAll` takes away any part of what is below a path: what it leaves is its reply.

`Gomi.Files.step` is the semantics. What the proofs use of it is that a call changes nothing but the
paths it names (`Gomi.Files.step_other`), and the inversions of the single calls. A path without a
link stays one as long as none is made and nothing is moved (`Gomi.Files.Tree.Plain.step`).
-/

namespace Gomi.Files

open Go

/-! ### Trees -/

/-- What is at a path. -/
inductive Node where
  | file (content : List UInt8) (whole : Bool)
  | link (target : Path)
  deriving DecidableEq

/-- The nodes of a file system, by their paths. -/
abbrev Tree : Type := Path → Option Node

namespace Tree

/-- The tree with another node at a path, or with none. -/
def set (t : Tree) (p : Path) (x : Option Node) : Tree := Function.update t p x

@[simp] theorem set_self (t : Tree) (p : Path) (x : Option Node) : t.set p x p = x :=
  Function.update_self ..

theorem set_of_ne (t : Tree) {p q : Path} (h : q ≠ p) (x : Option Node) : t.set p x q = t q :=
  Function.update_of_ne h ..

/-- The path that a link leads to; any other path leads to itself. -/
def resolve (t : Tree) (p : Path) : Path :=
  match t p with
  | some (.link target) => target
  | _ => p

theorem resolve_eq_self {t : Tree} {p : Path} (h : ∀ target, t p ≠ some (.link target)) :
    t.resolve p = p := by
  unfold resolve
  split
  · rename_i target htarget
    exact absurd htarget (h target)
  · rfl

/-- The file that a path leads to. -/
def lookup (t : Tree) (p : Path) : Option Node := t (t.resolve p)

end Tree

/-! ### Calls -/

/-- How a write ends. -/
inductive Written where
  /-- Everything was written. -/
  | done
  /-- The first bytes were written. -/
  | cut (n : ℕ)
  /-- The file could not be opened. -/
  | failed
  deriving DecidableEq

/-- The system calls. -/
inductive Op where
  /-- `os.MkdirAll`. -/
  | mkdirAll (p : Path)
  /-- `os.Create`. -/
  | create (p : Path)
  /-- `os.CreateTemp`: the path of the file, which did not exist. -/
  | createTemp (dir : Path)
  /-- `io.Copy` to a file that was created. -/
  | copy (p : Path) (content : List UInt8)
  /-- `Close`, of a file that was written. -/
  | close (p : Path)
  /-- `os.Chmod`. -/
  | chmod (p : Path)
  /-- `os.WriteFile`. -/
  | writeFile (p : Path) (content : List UInt8)
  /-- `os.Symlink`. -/
  | symlink (target p : Path)
  /-- `os.Rename`. -/
  | rename (p q : Path)
  /-- `os.Remove`. -/
  | remove (p : Path)
  /-- `os.RemoveAll`: the paths whose nodes are left. -/
  | removeAll (p : Path)
  /-- `os.Open` and a read of the whole file. -/
  | read (p : Path)
  /-- `os.Stat`: the size of a file, or a directory. -/
  | stat (p : Path)
  /-- `os.Lstat` of a regular file: its size. -/
  | lstat (p : Path)
  /-- `filepath.EvalSymlinks`. -/
  | evalSymlinks (p : Path)

/-- What `os.Stat` says of a path. -/
inductive Info where
  | directory
  | file (size : ℕ)
  deriving DecidableEq

/-- The replies to a call. -/
def Res : Op → Type
  | .mkdirAll _ | .create _ | .close _ | .chmod _ | .symlink .. | .rename .. | .remove _ => Bool
  | .createTemp _ | .evalSymlinks _ => Option Path
  | .copy .. | .writeFile .. => Written
  | .removeAll _ => Path → Bool
  | .read _ => Option (List UInt8)
  | .stat _ => Option Info
  | .lstat _ => Option ℕ

/-- The tree after a write to a path. -/
def Tree.written (t : Tree) (p : Path) (content : List UInt8) : Written → Tree
  | .done => t.set (t.resolve p) (some (.file content true))
  | .cut n => t.set (t.resolve p) (some (.file (content.take n) false))
  | .failed => t

/-- **The semantics of the calls**: the tree after a call was replied to, if that reply is
possible. -/
def step : (o : Op) → Tree → Res o → Option Tree
  | .mkdirAll _, t, _ => some t
  | .create p, t, true => some (t.set (t.resolve p) (some (.file [] false)))
  | .create _, t, false => some t
  | .createTemp dir, t, some p =>
    if p.dropLast = dir ∧ t p = none then some (t.set p (some (.file [] false))) else none
  | .createTemp _, t, none => some t
  | .copy p content, t, r => some (t.written p content r)
  | .close _, t, _ => some t
  | .chmod _, t, _ => some t
  | .writeFile p content, t, r => some (t.written p content r)
  | .symlink target p, t, true => if t p = none then some (t.set p (some (.link target))) else none
  | .symlink .., t, false => some t
  | .rename p q, t, true =>
    match t p with
    | some x => some ((t.set p none).set q (some x))
    | none => none
  | .rename .., t, false => some t
  | .remove p, t, true => some (t.set p none)
  | .remove _, t, false => some t
  | .removeAll p, t, left => some fun q => if p <+: q ∧ !left q then none else t q
  | .read p, t, some content =>
    match t.lookup p with
    | some (.file c _) => if c = content then some t else none
    | _ => none
  | .read _, t, none => some t
  | .stat p, t, some (.file size) =>
    match t.lookup p with
    | some (.file c _) => if c.length = size then some t else none
    | _ => none
  | .stat p, t, some .directory => if t.lookup p = none then some t else none
  | .stat _, t, none => some t
  | .lstat p, t, some size =>
    match t p with
    | some (.file c _) => if c.length = size then some t else none
    | _ => none
  | .lstat _, t, none => some t
  | .evalSymlinks p, t, some q => if t.resolve p = q then some t else none
  | .evalSymlinks _, t, none => some t

/-- The reply to a call that succeeds, if one that needs a name for a file fails. -/
def Tree.grant (t : Tree) : (o : Op) → Res o
  | .mkdirAll _ | .create _ | .close _ | .chmod _ | .symlink .. | .remove _ => true
  | .rename p _ => (t p).isSome
  | .createTemp _ => none
  | .copy .. | .writeFile .. => Written.done
  | .removeAll _ => fun _ => false
  | .read p => match t.lookup p with
    | some (.file content _) => some content
    | _ => none
  | .stat p => match t.lookup p with
    | some (.file content _) => some (.file content.length)
    | _ => none
  | .lstat p => match t p with
    | some (.file content _) => some content.length
    | _ => none
  | .evalSymlinks p => some (t.resolve p)

/-! ### What a call does -/

/-- The paths whose nodes a call may change. -/
def Op.Touches (t : Tree) : (o : Op) → Res o → Path → Prop
  | .create p, _, q => q = t.resolve p
  | .createTemp _, r, q => r = some q
  | .copy p _, _, q => q = t.resolve p
  | .writeFile p _, _, q => q = t.resolve p
  | .symlink _ p, _, q => q = p
  | .rename p p', _, q => q = p ∨ q = p'
  | .remove p, _, q => q = p
  | .removeAll p, _, q => p <+: q
  | _, _, _ => False

variable {t t' : Tree} {p q target : Path}

theorem Tree.written_of_ne {content : List UInt8} {r : Written} (h : q ≠ t.resolve p) :
    t.written p content r q = t q := by
  cases r with
  | done | cut n => exact t.set_of_ne h _
  | failed => rfl

theorem step_rename (h : step (.rename p q) t true = some t') :
    ∃ x, t p = some x ∧ t' = (t.set p none).set q (some x) := by
  simp only [step] at h
  split at h
  · rename_i x hx
    exact ⟨x, hx, (Option.some.inj h).symm⟩
  · cases h

theorem step_symlink (h : step (.symlink target p) t true = some t') :
    t p = none ∧ t' = t.set p (some (.link target)) := by
  simp only [step] at h
  split at h
  · rename_i hp
    exact ⟨hp, (Option.some.inj h).symm⟩
  · cases h

theorem step_createTemp {dir : Path} (h : step (.createTemp dir) t (some p) = some t') :
    t p = none ∧ t' = t.set p (some (.file [] false)) := by
  simp only [step] at h
  split at h
  · rename_i hp
    exact ⟨hp.2, (Option.some.inj h).symm⟩
  · cases h

/-- The calls that only look. -/
def Op.Looks : Op → Prop
  | .mkdirAll _ | .close _ | .chmod _ | .read _ | .stat _ | .lstat _ | .evalSymlinks _ => True
  | _ => False

variable {o : Op} {r : Res o}

theorem step_looks (h : step o t r = some t') (ho : o.Looks) : t' = t := by
  cases o with
  | mkdirAll p | close p | chmod p => exact (Option.some.inj h).symm
  | read =>
    cases r with
    | none => exact (Option.some.inj h).symm
    | some =>
      simp only [step] at h
      split at h
      · split at h
        · exact (Option.some.inj h).symm
        · cases h
      · cases h
  | stat =>
    match r with
    | none => exact (Option.some.inj h).symm
    | some .directory =>
      simp only [step] at h
      split at h
      · exact (Option.some.inj h).symm
      · cases h
    | some (.file size) =>
      simp only [step] at h
      split at h
      · split at h
        · exact (Option.some.inj h).symm
        · cases h
      · cases h
  | lstat =>
    cases r with
    | none => exact (Option.some.inj h).symm
    | some =>
      simp only [step] at h
      split at h
      · split at h
        · exact (Option.some.inj h).symm
        · cases h
      · cases h
  | evalSymlinks =>
    cases r with
    | none => exact (Option.some.inj h).symm
    | some =>
      simp only [step] at h
      split at h
      · exact (Option.some.inj h).symm
      · cases h
  | create _ | createTemp _ | copy _ _ | writeFile _ _ | symlink _ _ | rename _ _ | remove _
  | removeAll => exact ho.elim

/-- **A call changes nothing but the paths it names.** -/
theorem step_other (h : step o t r = some t') (hq : ¬o.Touches t r q) : t' q = t q := by
  cases o with
  | mkdirAll _ | close _ | chmod _ | read _ | stat _ | lstat _ | evalSymlinks _ =>
    rw [step_looks h trivial]
  | create p | remove p =>
    cases r with
    | false => rw [← Option.some.inj h]
    | true =>
      rw [← Option.some.inj h]
      exact t.set_of_ne hq _
  | createTemp =>
    cases r with
    | none => rw [← Option.some.inj h]
    | some =>
      obtain ⟨-, rfl⟩ := step_createTemp h
      exact t.set_of_ne (fun hqp => hq (by rw [hqp]; rfl)) _
  | copy p content | writeFile p content =>
    rw [← Option.some.inj h]
    exact Tree.written_of_ne hq
  | symlink =>
    cases r with
    | false => rw [← Option.some.inj h]
    | true =>
      obtain ⟨-, rfl⟩ := step_symlink h
      exact t.set_of_ne hq _
  | rename =>
    cases r with
    | false => rw [← Option.some.inj h]
    | true =>
      obtain ⟨x, -, rfl⟩ := step_rename h
      rw [Tree.set_of_ne _ fun hqp => hq (Or.inr hqp), Tree.set_of_ne _ fun hqp => hq (Or.inl hqp)]
  | removeAll =>
    rw [← Option.some.inj h]
    exact if_neg fun hc => hq hc.1

/-! ### Links -/

/-- **A link is made by `os.Symlink` or moved by `os.Rename`.** -/
theorem step_link (h : step o t r = some t') (hq : t' q = some (.link target)) :
    t q = some (.link target) ∨ o = .symlink target q ∨
      ∃ p, o = .rename p q ∧ t p = some (.link target) := by
  by_cases htouch : o.Touches t r q
  · cases o with
    | mkdirAll _ | close _ | chmod _ | read _ | stat _ | lstat _ | evalSymlinks _ => exact htouch.elim
    | create p =>
      obtain rfl : q = t.resolve p := htouch
      cases r with
      | false => exact Or.inl (Option.some.inj h ▸ hq)
      | true =>
        rw [← Option.some.inj h, Tree.set_self] at hq
        cases hq
    | createTemp =>
      obtain rfl : r = some q := htouch
      obtain ⟨-, rfl⟩ := step_createTemp h
      rw [Tree.set_self] at hq
      cases hq
    | copy p content | writeFile p content =>
      obtain rfl : q = t.resolve p := htouch
      rw [← Option.some.inj h] at hq
      cases r with
      | failed => exact Or.inl hq
      | done | cut _ =>
        rw [Tree.written, Tree.set_self] at hq
        cases hq
    | symlink target' p =>
      obtain rfl : q = p := htouch
      cases r with
      | false => exact Or.inl (Option.some.inj h ▸ hq)
      | true =>
        obtain ⟨-, rfl⟩ := step_symlink h
        rw [Tree.set_self] at hq
        cases hq
        exact Or.inr (Or.inl rfl)
    | rename p p' =>
      cases r with
      | false => exact Or.inl (Option.some.inj h ▸ hq)
      | true =>
        obtain ⟨x, hx, rfl⟩ := step_rename h
        by_cases hp' : q = p'
        · subst hp'
          rw [Tree.set_self] at hq
          exact Or.inr (Or.inr ⟨p, rfl, hx.trans hq⟩)
        · obtain rfl : q = p := htouch.resolve_right hp'
          rw [Tree.set_of_ne _ hp', Tree.set_self] at hq
          cases hq
    | remove p =>
      obtain rfl : q = p := htouch
      cases r with
      | false => exact Or.inl (Option.some.inj h ▸ hq)
      | true =>
        rw [← Option.some.inj h, Tree.set_self] at hq
        cases hq
    | removeAll =>
      rw [← Option.some.inj h] at hq
      dsimp only at hq
      split at hq
      · cases hq
      · exact Or.inl hq
  · rw [step_other h htouch] at hq
    exact Or.inl hq

/-- No node is a link. -/
def Tree.NoLinks (t : Tree) : Prop := ∀ p target, t p ≠ some (.link target)

/-- There is no link at the path. -/
def Tree.Plain (t : Tree) (p : Path) : Prop := ∀ target, t p ≠ some (.link target)

theorem Tree.Plain.resolve (h : t.Plain p) : t.resolve p = p := resolve_eq_self h

/-- A path without a link stays one if none is made and nothing is moved. -/
theorem Tree.Plain.step (hp : t.Plain p) (hsymlink : ∀ target q, o ≠ .symlink target q)
    (hrename : ∀ q q', o ≠ .rename q q') (h : Files.step o t r = some t') : t'.Plain p := by
  intro target hlink
  rcases step_link h hlink with hlink | ho | ⟨q, ho, -⟩
  · exact hp target hlink
  · exact hsymlink target p ho
  · exact hrename q p ho

end Gomi.Files
