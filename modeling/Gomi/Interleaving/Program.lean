import Mathlib.Tactic

/-!
# Programs over atomic operations

A request handler of a server touches the shared store only through a fixed
list of operations, each of which takes effect at one instant; between two of
them anything may happen. This file is the language of such handlers, and names
no store: a `Gomi.Prog` over an operation type `Op`, whose replies are typed by
`Res : Op → Type`, either has an answer or issues one operation and continues
with the reply. There is no loop constructor – a loop of a handler is a recursion
of Lean's, over the list it walks – so every program is a well-founded tree and
every handler terminates after finitely many operations.

## What a program is proved to do

The specification of a program is about its *own* calls only:
`Gomi.Prog.Obeys P Q` says that every operation the program issues is allowed by
`P`, given the calls it has made so far and the replies it got, and that its
answer satisfies `Q`. Nothing is assumed of the replies, so the specification
holds under every interference; what the replies were worth when they were given,
and what has become of them since, is the business of `Gomi.Interleaving.Run`.

The rules follow the constructors: `Gomi.Prog.obeys_ret`, `Gomi.Prog.obeys_call`,
`Gomi.Prog.Obeys.bind` for sequencing, `Gomi.Prog.Obeys.mono` for weakening.
`Gomi.Prog.Obeys.of_path` reads a specification back along a path: after the
calls `cs`, the next operation `o` satisfies `P cs o`.
-/

namespace Gomi

variable {Op : Type} {Res : Op → Type} {α β γ : Type}

/-- A program over the operations `Op`, where `o : Op` is replied to in `Res o`. -/
inductive Prog {Op : Type} (Res : Op → Type) (α : Type) : Type
  /-- The program has finished, with an answer. -/
  | ret (a : α) : Prog Res α
  /-- The program issues an operation and continues with its reply. -/
  | call (o : Op) (k : Res o → Prog Res α) : Prog Res α

/-- One operation together with the reply it got. -/
structure Call {Op : Type} (Res : Op → Type) where
  /-- The operation. -/
  op : Op
  /-- Its reply. -/
  res : Res op

namespace Prog

/-- Sequencing of programs. -/
def bind : Prog Res α → (α → Prog Res β) → Prog Res β
  | ret a, f => f a
  | call o k, f => call o fun r => (k r).bind f

instance : Monad (Prog Res) where
  pure := ret
  bind := bind

/-- The program that issues one operation and answers with its reply. -/
def perform (o : Op) : Prog Res (Res o) := call o ret

@[simp] theorem pure_eq {a : α} : (pure a : Prog Res α) = ret a := rfl

@[simp] theorem ret_bind {a : α} {f : α → Prog Res β} : (ret a >>= f) = f a := rfl

@[simp] theorem call_bind {o : Op} {k : Res o → Prog Res α} {f : α → Prog Res β} :
    (call o k >>= f) = call o fun r => k r >>= f := rfl

@[simp] theorem perform_bind (o : Op) (f : Res o → Prog Res β) :
    (perform o >>= f) = call o f := rfl

/-- The answer of a program that has finished. -/
def answer? : Prog Res α → Option α
  | ret a => some a
  | call _ _ => none

variable {p : Prog Res α} {a : α} {o : Op} {k : Res o → Prog Res α}
variable {f : α → Prog Res β}

theorem answer?_eq_some : p.answer? = some a ↔ p = ret a := by
  cases p <;> simp [answer?]

/-! ### Paths -/

/-- `Path p cs q`: the program `p`, having made the calls `cs`, is at `q`. -/
inductive Path : Prog Res α → List (Call Res) → Prog Res α → Prop
  /-- No call has been made. -/
  | nil (p : Prog Res α) : Path p [] p
  /-- A first call, and a path from there. -/
  | cons {o : Op} {k : Res o → Prog Res α} {r : Res o} {cs : List (Call Res)} {q : Prog Res α} :
      Path (k r) cs q → Path (call o k) (⟨o, r⟩ :: cs) q

/-- A path, extended by one call at its end. -/
theorem Path.snoc {cs : List (Call Res)} (h : Path p cs (call o k)) (r : Res o) :
    Path p (cs ++ [⟨o, r⟩]) (k r) := by
  generalize hq : call o k = q at h
  induction h with
  | nil => subst hq; exact Path.cons (Path.nil _)
  | cons _ ih => exact Path.cons (ih hq)

/-- A program that issues an operation finishes after its first reply or later. -/
theorem Path.call_ret {cs : List (Call Res)} (h : Path (call o k) cs (ret a)) :
    ∃ r cs', cs = ⟨o, r⟩ :: cs' ∧ Path (k r) cs' (ret a) := by
  generalize hp : call o k = p at h
  generalize hq : ret a = q at h
  cases h with
  | nil => exact absurd (hp.trans hq.symm) (by simp)
  | cons h =>
    obtain ⟨rfl, hk⟩ : o = _ ∧ _ := by simpa using hp
    obtain rfl := eq_of_heq hk
    exact ⟨_, _, rfl, hq ▸ h⟩

/-! ### Specifications -/

/-- **The specification of a program.** Every operation it issues is allowed by
`P`, given the calls made before it, and its answer satisfies `Q`, given all the
calls. The list `cs` is what has been called already. -/
def Obeys (P : List (Call Res) → Op → Prop) (Q : List (Call Res) → α → Prop) :
    Prog Res α → List (Call Res) → Prop
  | ret a, cs => Q cs a
  | call o k, cs => P cs o ∧ ∀ r, Obeys P Q (k r) (cs ++ [⟨o, r⟩])

variable {P P' : List (Call Res) → Op → Prop} {Q Q' : List (Call Res) → α → Prop}
  {cs : List (Call Res)}

@[simp] theorem obeys_ret : Obeys P Q (ret a) cs ↔ Q cs a := Iff.rfl

@[simp] theorem obeys_call :
    Obeys P Q (call o k) cs ↔ P cs o ∧ ∀ r, Obeys P Q (k r) (cs ++ [⟨o, r⟩]) := Iff.rfl

/-- Weakening of a specification. -/
theorem Obeys.mono (h : Obeys P Q p cs) (hP : ∀ cs o, P cs o → P' cs o)
    (hQ : ∀ cs a, Q cs a → Q' cs a) : Obeys P' Q' p cs := by
  induction p generalizing cs with
  | ret => exact hQ _ _ h
  | call o k ih => exact ⟨hP _ _ h.1, fun r => ih r (h.2 r)⟩

/-- **Sequencing.** The second program starts from the calls the first has made, which come after
those that were made before. -/
theorem Obeys.bind {R : List (Call Res) → β → Prop} (h : Obeys P Q p cs)
    (hf : ∀ cs' a, cs <+: cs' → Q cs' a → Obeys P R (f a) cs') : Obeys P R (p >>= f) cs := by
  induction p generalizing cs with
  | ret => exact hf _ _ List.prefix_rfl h
  | call o k ih =>
    refine ⟨h.1, fun r => ih r (h.2 r) fun cs' a hpre ha => ?_⟩
    exact hf cs' a ((List.prefix_append ..).trans hpre) ha

/-- What holds of every operation that a program may issue holds of every call that it has
made. -/
theorem Obeys.recorded {S : Call Res → Prop} (h : Obeys P Q p cs) (hS : ∀ cs c, P cs c.op → S c) :
    Obeys P (fun cs' a => Q cs' a ∧ ((∀ c ∈ cs, S c) → ∀ c ∈ cs', S c)) p cs := by
  induction p generalizing cs with
  | ret => exact ⟨h, id⟩
  | call o k ih =>
    refine ⟨h.1, fun r => (ih r (h.2 r)).mono (fun _ _ h => h) fun cs' a ⟨ha, hall⟩ => ⟨ha, ?_⟩⟩
    intro hcs
    refine hall fun c hc => ?_
    rcases List.mem_append.mp hc with hc | hc
    · exact hcs c hc
    · obtain rfl := List.mem_singleton.mp hc
      exact hS cs _ h.1

/-- An operation, and a program that continues with its reply. -/
theorem Obeys.perform_bind {f : Res o → Prog Res α} (h : P cs o)
    (hf : ∀ r, Obeys P Q (f r) (cs ++ [⟨o, r⟩])) : Obeys P Q (perform o >>= f) cs :=
  ⟨h, hf⟩

/-- A last operation, whose reply is the answer. -/
theorem Obeys.perform {Q : List (Call Res) → Res o → Prop} (h : P cs o)
    (hQ : ∀ r, Q (cs ++ [⟨o, r⟩]) r) : Obeys P Q (perform o) cs :=
  ⟨h, hQ⟩

/-- A program that branches. -/
theorem Obeys.ite {p : Prop} [Decidable p] {x y : Prog Res α} (hx : p → Obeys P Q x cs)
    (hy : ¬p → Obeys P Q y cs) : Obeys P Q (if p then x else y) cs :=
  iteInduction (motive := (Obeys P Q · cs)) hx hy

/-- A specification that forbids nothing. -/
theorem Obeys.of_forall (hP : ∀ cs o, P cs o) (hQ : ∀ cs a, Q cs a) :
    Obeys P Q p cs := by
  induction p generalizing cs with
  | ret a => exact hQ cs a
  | call o k ih => exact ⟨hP cs o, fun r => ih r⟩

/-- A program that is left with an answer. -/
theorem Obeys.pure (h : Q cs a) : Obeys P Q (Pure.pure a) cs := h

/-- A specification, read along a path: it holds of what is left of the program. -/
theorem Obeys.at_path {q : Prog Res α} {cs' : List (Call Res)} (h : Obeys P Q p cs)
    (hp : Path p cs' q) : Obeys P Q q (cs ++ cs') := by
  induction hp generalizing cs with
  | nil => simpa using h
  | cons _ ih => simpa using ih (h.2 _)

/-- **The next operation on a path is allowed.** -/
theorem Obeys.of_path (h : Obeys P Q p []) (hp : Path p cs (call o k)) : P cs o := by
  simpa using (h.at_path hp).1

/-- **The answer at the end of a path is as specified.** -/
theorem Obeys.of_path_ret (h : Obeys P Q p []) (hp : Path p cs (ret a)) : Q cs a := by
  simpa using h.at_path hp

/-! ### Programs of one kind of operation -/

/-- Every operation of the program is in `S`, and its answer in `A`, whatever the replies are. -/
def Uses (S : Op → Prop) (A : α → Prop) : Prog Res α → Prop
  | ret a => A a
  | call o k => S o ∧ ∀ r, Uses S A (k r)

variable {S : Op → Prop} {A : α → Prop}

@[simp] theorem uses_ret : Uses S A (ret a : Prog Res α) ↔ A a := Iff.rfl

@[simp] theorem uses_call : Uses S A (call o k) ↔ S o ∧ ∀ r, Uses S A (k r) := Iff.rfl

theorem Uses.pure (h : A a) : Uses S A (Pure.pure a : Prog Res α) := h

theorem Uses.perform {A : Res o → Prop} (h : S o) (hA : ∀ r, A r) : Uses S A (perform o) :=
  ⟨h, hA⟩

theorem Uses.perform_bind {f : Res o → Prog Res α} (h : S o) (hf : ∀ r, Uses S A (f r)) :
    Uses S A (Prog.perform o >>= f) :=
  ⟨h, hf⟩

theorem Uses.bind {B : β → Prop} (h : Uses S A p) (hf : ∀ a, A a → Uses S B (f a)) :
    Uses S B (p >>= f) := by
  induction p with
  | ret a => exact hf a h
  | call o k ih => exact ⟨h.1, fun r => ih r (h.2 r)⟩

theorem Uses.ite {p : Prop} [Decidable p] {x y : Prog Res α} (hx : p → Uses S A x)
    (hy : ¬p → Uses S A y) : Uses S A (if p then x else y) :=
  iteInduction hx hy

-- programs are taken apart by the rules above, never by unfolding
attribute [irreducible] Uses
attribute [irreducible] Obeys

end Prog

end Gomi
