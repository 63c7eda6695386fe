import Mathlib.Logic.Function.Basic
import Mathlib.Tactic

/-!
# Detached writes

A component that keeps a copy of its data in a store may write the store in the background:
a change starts a write and does not wait for it. This file is about such writes to a store
that maps keys to values, where a write sets the value of one key or removes it. It names no
particular component: keys and values are arbitrary types.

`Gomi.settle f ws` is the content of the store `f` after the writes `ws` have taken effect in
their order. It is what the store is heading for, and the point of this file is that it does
not change when a write takes effect ahead of earlier ones, provided that these are of other
keys (`Gomi.settle_land`).
-/

namespace Gomi

variable {κ α : Type} [DecidableEq κ] {f g : κ → Option α} {k : κ}

/-- A write: the key, and the value it has from then on. -/
abbrev KeyWrite (κ α : Type) : Type := κ × Option α

/-- **The store after some writes**, in their order. -/
def settle (f : κ → Option α) (ws : List (KeyWrite κ α)) : κ → Option α :=
  ws.foldl (fun f w => Function.update f w.1 w.2) f

@[simp] theorem settle_nil : settle f [] = f := rfl

@[simp] theorem settle_cons {w : KeyWrite κ α} {ws : List (KeyWrite κ α)} :
    settle f (w :: ws) = settle (Function.update f w.1 w.2) ws := rfl

theorem settle_append {ws ws' : List (KeyWrite κ α)} :
    settle f (ws ++ ws') = settle (settle f ws) ws' :=
  List.foldl_append

/-- Removals. -/
theorem settle_removals {ks : List κ} :
    settle f (ks.map fun k => (k, none)) k = if k ∈ ks then none else f k := by
  induction ks generalizing f with
  | nil => simp
  | cons k' ks ih =>
    rw [List.map_cons, settle_cons, ih]
    by_cases hk : k = k'
    · subst hk
      simp
    · simp [hk]

/-- Writes of other keys do not touch the value of a key. -/
theorem settle_update_comm {ws : List (KeyWrite κ α)} {v : Option α} (h : ∀ w ∈ ws, w.1 ≠ k) :
    settle (Function.update f k v) ws = Function.update (settle f ws) k v := by
  induction ws generalizing f with
  | nil => rfl
  | cons w ws ih =>
    have hw : w.1 ≠ k := h w List.mem_cons_self
    rw [settle_cons, settle_cons, Function.update_comm hw.symm]
    exact ih fun w' hw' => h w' (List.mem_cons_of_mem w hw')

/-- **A write that takes effect ahead of writes of other keys** does not change what the store is
heading for. -/
theorem settle_land {ws₁ ws₂ : List (KeyWrite κ α)} {w : KeyWrite κ α} (h : ∀ v ∈ ws₁, v.1 ≠ w.1) :
    settle (Function.update f w.1 w.2) (ws₁ ++ ws₂) = settle f (ws₁ ++ w :: ws₂) := by
  rw [settle_append, settle_update_comm h, settle_append, settle_cons]

end Gomi
