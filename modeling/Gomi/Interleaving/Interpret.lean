import Gomi.Interleaving.Program

/-!
# Programs that are carried out by programs

One level of a system is often written over operations that are themselves programs of the
level below. `Gomi.Prog.interpret` replaces every operation of a program by such a program,
and passes on its answer; it commutes with sequencing (`Gomi.Prog.interpret_bind`), so that an
interpreted program is taken apart like any other.
-/

namespace Gomi.Prog

variable {Op Op' : Type} {Res : Op → Type} {Res' : Op' → Type} {α β γ : Type}

theorem bind_ret (p : Prog Res α) : p >>= ret = p := by
  induction p with
  | ret a => rfl
  | call o k ih => exact congrArg (call o) (funext ih)

theorem bind_assoc (p : Prog Res α) (f : α → Prog Res β) (g : β → Prog Res γ) :
    p >>= f >>= g = p >>= fun a => f a >>= g := by
  induction p with
  | ret a => rfl
  | call o k ih => exact congrArg (call o) (funext ih)

/-- **The program, with every operation carried out by a program** of another language. -/
def interpret (f : (o : Op) → Prog Res' (Res o)) : Prog Res α → Prog Res' α
  | ret a => ret a
  | call o k => f o >>= fun r => (k r).interpret f

variable {f : (o : Op) → Prog Res' (Res o)}

@[simp] theorem interpret_ret (a : α) : (ret a : Prog Res α).interpret f = ret a := rfl

@[simp] theorem interpret_call (o : Op) (k : Res o → Prog Res α) :
    (call o k).interpret f = f o >>= fun r => (k r).interpret f := rfl

@[simp] theorem interpret_perform (o : Op) : (perform o).interpret f = f o := bind_ret (f o)

@[simp] theorem interpret_bind (p : Prog Res α) (g : α → Prog Res β) :
    (p >>= g).interpret f = p.interpret f >>= fun a => (g a).interpret f := by
  induction p with
  | ret a => rfl
  | call o k ih =>
    calc (call o k >>= g).interpret f
        = f o >>= fun r => (k r >>= g).interpret f := rfl
      _ = f o >>= fun r => (k r).interpret f >>= fun a => (g a).interpret f := by simp only [ih]
      _ = (call o k).interpret f >>= fun a => (g a).interpret f := (bind_assoc _ _ _).symm

end Gomi.Prog
