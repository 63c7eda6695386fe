import Gomi.Interleaving.Interpret

/-!
# A program that runs alone

`Gomi.Prog.Exec step p s q s'` says that the program `p`, started in the state `s`, can get to
`q` and the state `s'`; a program that stops half-way has crashed, so that a statement about all
executions is about every crash point. The replies are whatever the semantics `step` allows.

For what holds at every point of every execution there is one rule, by the structure of the
program: `Gomi.Prog.Maintains step I A p` says that each operation of `p` keeps the property `I` of
states, and that `p` answers in `A`. Only the replies that are possible where `I` holds are
considered, so a program that looks before it writes is credited with what it saw:
`Gomi.Prog.Maintains.reaches` is the soundness of the rule.

Where more has to be known than one property of states, `Gomi.Prog.Ensures step I Q p s` follows the
executions of `p` from the state `s` on: every state they get to has the property `I`, and `Q` holds
of the answer and the state in which an execution ends.
-/

namespace Gomi.Prog

variable {Op : Type} {Res : Op → Type} {α β σ : Type}

/-! ### Executions -/

variable (step : (o : Op) → σ → Res o → Option σ)

/-- **The executions of a program that runs alone.** -/
inductive Exec : Prog Res α → σ → Prog Res α → σ → Prop
  /-- The program has stopped here. -/
  | stop (p : Prog Res α) (s : σ) : Exec p s p s
  /-- One operation, and an execution from there. -/
  | call {o : Op} {k : Res o → Prog Res α} {s s₁ s' : σ} {q : Prog Res α} (r : Res o)
      (hstep : step o s r = some s₁) (hrest : Exec (k r) s₁ q s') : Exec (call o k) s q s'

variable {step}

variable (step) in
/-- **The states that a program gets to**, at some point of an execution. -/
def Reaches (p : Prog Res α) (s s' : σ) : Prop := ∃ q, Exec step p s q s'

variable {o : Op} {p : Prog Res α} {f : α → Prog Res β} {a : α}
variable {s s' s₁ : σ} {answer : (o : Op) → σ → Res o} {x : α × σ}

variable (step) in
/-- The execution of a program to its end, where the replies are read off `answer`. -/
def evaluate (answer : (o : Op) → σ → Res o) : Prog Res α → σ → Option (α × σ)
  | ret a, s => some (a, s)
  | call o k, s => (step o s (answer o s)).bind fun s' => evaluate answer (k (answer o s)) s'

theorem Exec.of_evaluate (h : evaluate step answer p s = some x) :
    Exec step p s (.ret x.1) x.2 := by
  induction p generalizing s with
  | ret =>
    cases h
    exact Exec.stop _ s
  | call o k ih =>
    obtain ⟨s₁, hstep, hrest⟩ := Option.bind_eq_some_iff.mp h
    exact Exec.call _ hstep (ih _ hrest)

theorem Reaches.of_evaluate (h : evaluate step answer p s = some x) : Reaches step p s x.2 :=
  ⟨_, Exec.of_evaluate h⟩

variable (step) in
/-- The semantics that keeps the calls which were made, with their replies. -/
def traced (o : Op) (s : σ × List (Call Res)) (r : Res o) : Option (σ × List (Call Res)) :=
  (step o s.1 r).map fun s' => (s', s.2 ++ [⟨o, r⟩])

theorem traced_eq_some {s s' : σ × List (Call Res)} {r : Res o} (h : traced step o s r = some s') :
    step o s.1 r = some s'.1 ∧ s'.2 = s.2 ++ [⟨o, r⟩] := by
  obtain ⟨s₁, hstep, rfl⟩ := Option.map_eq_some_iff.mp h
  exact ⟨hstep, rfl⟩

/-! ### Invariants -/

variable (step)

/-- **Every operation of the program keeps `I`**, and it answers in `A`. -/
def Maintains (I : σ → Prop) (A : α → Prop) : Prog Res α → Prop
  | ret a => A a
  | call o k => ∀ s r s', I s → step o s r = some s' → I s' ∧ Maintains I A (k r)

variable {step} {I : σ → Prop} {A : α → Prop}

theorem Maintains.pure (h : A a) : Maintains step I A (Pure.pure a : Prog Res α) := h

theorem Maintains.perform_bind {f : Res o → Prog Res α}
    (h : ∀ s r s', I s → step o s r = some s' → I s' ∧ Maintains step I A (f r)) :
    Maintains step I A (Prog.perform o >>= f) := h

theorem Maintains.perform {A : Res o → Prop}
    (h : ∀ s r s', I s → step o s r = some s' → I s' ∧ A r) :
    Maintains step I A (Prog.perform o) := h

theorem Maintains.bind {B : β → Prop} (h : Maintains step I A p)
    (hf : ∀ a, A a → Maintains step I B (f a)) : Maintains step I B (p >>= f) := by
  induction p with
  | ret a => exact hf a h
  | call o k ih =>
    intro s r s' hs hstep
    obtain ⟨hs', hk⟩ := h s r s' hs hstep
    exact ⟨hs', ih r hk⟩

theorem Maintains.ite {p : Prop} [Decidable p] {x y : Prog Res α} (hx : p → Maintains step I A x)
    (hy : ¬p → Maintains step I A y) : Maintains step I A (if p then x else y) :=
  iteInduction hx hy

/-- A program of one kind of operation, each of which is carried out by a program that keeps `I`. -/
theorem Maintains.interpret {Op' : Type} {Res' : Op' → Type}
    {step : (o : Op') → σ → Res' o → Option σ} {f : (o : Op) → Prog Res' (Res o)} {S : Op → Prop}
    (hp : Uses S A p) (hf : ∀ o, S o → Maintains step I (fun _ => True) (f o)) :
    Maintains step I A (p.interpret f) := by
  induction p with
  | ret a =>
    have ha : A a := uses_ret.mp hp
    exact ha
  | call o k ih =>
    obtain ⟨ho, hk⟩ := uses_call.mp hp
    exact (hf o ho).bind fun r _ => ih r (hk r)

/-- **What every operation keeps holds at every point of every execution.** -/
theorem Maintains.reaches (h : Maintains step I A p) (hs : I s) (hreach : Reaches step p s s') :
    I s' := by
  obtain ⟨q, hexec⟩ := hreach
  induction hexec with
  | stop => exact hs
  | call r hstep _ ih =>
    obtain ⟨hs₁, hk⟩ := h _ r _ hs hstep
    exact ih hk hs₁

/-! ### Executions from one state -/

variable (step) (I)

/-- **Every execution from the state `s` stays in `I`**, and `Q` holds where it ends. -/
def Ensures (Q : α → σ → Prop) : Prog Res α → σ → Prop
  | ret a, s => Q a s
  | call o k, s => ∀ r s', step o s r = some s' → I s' ∧ Ensures Q (k r) s'

variable {step I} {Q : α → σ → Prop} {s s' : σ}

theorem Ensures.pure (h : Q a s) : Ensures step I Q (Pure.pure a : Prog Res α) s := h

theorem Ensures.perform_bind {f : Res o → Prog Res α}
    (h : ∀ r s', step o s r = some s' → I s' ∧ Ensures step I Q (f r) s') :
    Ensures step I Q (Prog.perform o >>= f) s := h

theorem Ensures.bind {R : β → σ → Prop} (h : Ensures step I Q p s)
    (hf : ∀ a s', Q a s' → Ensures step I R (f a) s') : Ensures step I R (p >>= f) s := by
  induction p generalizing s with
  | ret a => exact hf a s h
  | call o k ih =>
    intro r s' hstep
    obtain ⟨hs', hk⟩ := h r s' hstep
    exact ⟨hs', ih r hk⟩

theorem Ensures.mono {Q' : α → σ → Prop} (h : Ensures step I Q p s) (hQ : ∀ a s', Q a s' → Q' a s') :
    Ensures step I Q' p s := by
  induction p generalizing s with
  | ret a => exact hQ a s h
  | call o k ih =>
    intro r s' hstep
    obtain ⟨hs', hk⟩ := h r s' hstep
    exact ⟨hs', ih r hk⟩

theorem Ensures.ite {c : Prop} [Decidable c] {x y : Prog Res α} (hx : c → Ensures step I Q x s)
    (hy : ¬c → Ensures step I Q y s) : Ensures step I Q (if c then x else y) s :=
  iteInduction (motive := (Ensures step I Q · s)) hx hy

/-- What every operation keeps holds at the end, too. -/
theorem Ensures.stable {J : σ → Prop} (hJ : ∀ {o s r s'}, step o s r = some s' → J s → J s')
    (h : Ensures step I Q p s) (hs : J s) : Ensures step I (fun a s' => Q a s' ∧ J s') p s := by
  induction p generalizing s with
  | ret => exact ⟨h, hs⟩
  | call o k ih =>
    intro r s' hstep
    obtain ⟨hs', hk⟩ := h r s' hstep
    exact ⟨hs', ih r hk (hJ hstep hs)⟩

/-- **Every state that is reached has the property.** -/
theorem Ensures.reaches (h : Ensures step I Q p s) (hs : I s) (hreach : Reaches step p s s') :
    I s' := by
  obtain ⟨q, hexec⟩ := hreach
  induction hexec with
  | stop => exact hs
  | call r hstep _ ih =>
    obtain ⟨hs₁, hk⟩ := h r _ hstep
    exact ih hk hs₁

/-- **What is ensured of the end holds there.** -/
theorem Ensures.ends (h : Ensures step I Q p s) (hexec : Exec step p s (.ret a) s') : Q a s' := by
  generalize hq : (ret a : Prog Res α) = q at hexec
  induction hexec with
  | stop =>
    subst hq
    exact h
  | call r hstep _ ih => exact ih (h r _ hstep).2 hq

-- programs are taken apart by the rules above, never by unfolding
attribute [irreducible] Maintains Ensures

end Gomi.Prog
