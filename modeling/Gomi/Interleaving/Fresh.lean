import Gomi.Interleaving.Run

/-!
# Values that are given out once

Identifiers are texts of random buffers, and the argument that nobody else has one starts
from the generator: it returns no buffer twice. This file says so for any source of
values. A *source* (`Gomi.Source`) is a semantics with the values used so far, such that
nothing takes a value out of use and a call draws only values that are not in use.

From these two facts about a step come the two about a trace: a value that is drawn in it
was not in use before (`Gomi.Source.not_used`), and only one client draws it
(`Gomi.Source.drawer_unique`).
-/

namespace Gomi

variable {Op : Type} {Res : Op → Type} {σ β : Type} {step : (o : Op) → σ → Res o → Option σ}
  {used : σ → β → Prop} {draws : Call Res → β → Prop} {s s' : σ} {T : List (Event Res)} {b : β}
  {e e' : Event Res}

variable (step used draws) in
/-- **A source of fresh values.** -/
structure Source : Prop where
  /-- A value that is in use stays in use. -/
  keeps : ∀ {o s r s' b}, step o s r = some s' → used s b → used s' b
  /-- A value that is drawn was not in use, and now is. -/
  fresh : ∀ {o s r s' b}, step o s r = some s' → draws ⟨o, r⟩ b → ¬used s b ∧ used s' b

namespace Source

variable (S : Source step used draws)
include S

theorem after_used (h : after step s T = some s') (hb : used s b) : used s' b :=
  after_keeps (I := (used · b)) (fun _ _ _ _ hs hu => S.keeps hs hu) h hb

/-- A value that is drawn in a trace was not in use before it. -/
theorem not_used (hT : after step s T = some s') (he : e ∈ T) (hb : draws e.toCall b) :
    ¬used s b := by
  obtain ⟨T₁, T₂, rfl⟩ := List.append_of_mem he
  obtain ⟨s₁, s₂, h₁, hs, -⟩ := after_split hT
  exact fun hin => (S.fresh hs hb).1 (S.after_used h₁ hin)

/-- **No value is drawn by two clients.** -/
theorem drawer_unique (hT : after step s T = some s') (he : e ∈ T) (he' : e' ∈ T)
    (hb : draws e.toCall b) (hb' : draws e'.toCall b) : e.tid = e'.tid := by
  induction T generalizing s with
  | nil => cases he
  | cons e₀ T ih =>
    obtain ⟨s₁, hs, hrest⟩ := after_cons_eq_some.mp hT
    rcases List.mem_cons.mp he with rfl | hin <;> rcases List.mem_cons.mp he' with rfl | hin'
    · rfl
    · exact absurd (S.fresh hs hb).2 (S.not_used hrest hin' hb')
    · exact absurd (S.fresh hs hb').2 (S.not_used hrest hin hb)
    · exact ih hrest hin hin'

end Source

end Gomi
