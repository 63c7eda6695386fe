import Mathlib.Tactic

/-!
# Loops that stop at the first failure

A loop over keys, each turn of which changes the state and may fail; the first failure ends the loop
(`Gomi.sweep`). If the turn for a key concerns that key only, as a *view* of the state by keys
tells, then the whole loop is described by its turns (`Gomi.sweep_spec`): what they keep is kept,
the keys that are not in the list are as before, and after a loop without failure each key of the
list is as its turn has left it.
-/

namespace Gomi

variable {σ κ ν : Type}

/-- **A loop over keys**, up to the first failure: the state it leaves, and whether there was none. -/
def sweep (turn : κ → σ → σ × Bool) : List κ → σ → σ × Bool
  | [], s => (s, true)
  | k :: ks, s => match turn k s with
    | (s', false) => (s', false)
    | (s', true) => sweep turn ks s'

/-- **The rule for loops.** `I` is kept by every turn; `Pre` is what the turn for a key needs of the key
and `Post` is what it leaves, if it succeeds. -/
theorem sweep_spec {turn : κ → σ → σ × Bool} (I : σ → Prop) (view : σ → κ → ν) (Pre Post : κ → ν → Prop)
    (hturn : ∀ {k s s' ok}, I s → Pre k (view s k) → turn k s = (s', ok) →
      I s' ∧ (∀ k', k' ≠ k → view s' k' = view s k') ∧ (ok = true → Post k (view s' k)))
    {ks : List κ} {s s' : σ} {ok : Bool} (hks : ks.Nodup) (hs : I s) (hpre : ∀ k ∈ ks, Pre k (view s k))
    (hrun : sweep turn ks s = (s', ok)) :
    I s' ∧ (∀ k, k ∉ ks → view s' k = view s k) ∧ (ok = true → ∀ k ∈ ks, Post k (view s' k)) := by
  induction ks generalizing s with
  | nil =>
    obtain ⟨rfl, rfl⟩ := Prod.mk.inj hrun
    exact ⟨hs, fun _ _ => rfl, fun _ k hk => absurd hk List.not_mem_nil⟩
  | cons k ks ih =>
    obtain ⟨hk, hks⟩ := List.nodup_cons.mp hks
    have hne : ∀ {k'}, k' ∉ k :: ks → k' ≠ k ∧ k' ∉ ks := fun h =>
      ⟨fun heq => h (heq ▸ List.mem_cons_self), fun hmem => h (List.mem_cons_of_mem _ hmem)⟩
    rw [sweep] at hrun
    split at hrun
    · rename_i s₁ hfirst
      obtain ⟨hs₁, hframe, -⟩ := hturn hs (hpre k List.mem_cons_self) hfirst
      obtain ⟨rfl, rfl⟩ := Prod.mk.inj hrun
      exact ⟨hs₁, fun k' hk' => hframe k' (hne hk').1, fun hok => absurd hok (by simp)⟩
    · rename_i s₁ hfirst
      obtain ⟨hs₁, hframe, hpost⟩ := hturn hs (hpre k List.mem_cons_self) hfirst
      -- the turns to come find their keys as they were
      have hpre₁ : ∀ k' ∈ ks, Pre k' (view s₁ k') := by
        intro k' hk'
        rw [hframe k' fun heq => hk (heq ▸ hk')]
        exact hpre k' (List.mem_cons_of_mem _ hk')
      obtain ⟨hs', hframe', hpost'⟩ := ih hks hs₁ hpre₁ hrun
      refine ⟨hs', fun k' hk' => ?_, fun hok k' hk' => ?_⟩
      · exact (hframe' k' (hne hk').2).trans (hframe k' (hne hk').1)
      · rcases List.mem_cons.mp hk' with rfl | hk'
        · rw [hframe' k' hk]
          exact hpost rfl
        · exact hpost' hok k' hk'

end Gomi
