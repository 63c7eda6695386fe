import Mathlib.Tactic

/-!
# Memories that forget

A memory of keys, each with the moment at which it was recorded. Asking for a key first drops what
is too old, then says whether the key is there, and records it if it is not (`Gomi.Retention.ask`).
So a key that was recorded may be taken for new again, once it has been dropped.

How old is too old is a bound on an *age*, of which only its order is used: it grows with the
present and shrinks with the moment of the record. If the clock does not go back, then no key is
taken for new twice exactly if any two questions for one key are no further apart than the bound
(`Gomi.Retention.nodup_news_iff`).
-/

namespace Gomi.Retention

variable {κ τ δ : Type} [LinearOrder δ]
variable {t t' : τ} {qs : List (κ × τ)}

section Memory

variable (age : τ → τ → δ) (bound : δ)

/-- The records that are not too old. -/
def evict (m : κ → Option τ) (now : τ) : κ → Option τ :=
  fun k => (m k).filter fun t => !decide (bound < age now t)

variable [DecidableEq κ]

/-- **A question for a key**: whether it was there, and the memory afterwards. -/
def ask (m : κ → Option τ) (k : κ) (now : τ) : Bool × (κ → Option τ) :=
  if (evict age bound m now k).isSome then (true, evict age bound m now)
  else (false, Function.update (evict age bound m now) k (some now))

/-- The keys that are taken for new, in a sequence of questions. -/
def news (m : κ → Option τ) : List (κ × τ) → List κ
  | [] => []
  | (k, now) :: qs =>
    if (ask age bound m k now).1 then news (ask age bound m k now).2 qs
    else k :: news (ask age bound m k now).2 qs

end Memory

variable {age : τ → τ → δ} {bound : δ} {m : κ → Option τ} {k : κ} {now : τ}

theorem evict_eq_some :
    evict age bound m now k = some t ↔ m k = some t ∧ age now t ≤ bound := by
  simp [evict, Option.filter_eq_some_iff]

theorem evict_eq_none (h : m k = none) : evict age bound m now k = none := by
  simp [evict, h]

variable [DecidableEq κ]

/-- A question leaves a record of another key as eviction leaves it. -/
theorem ask_of_ne {k' : κ} (hne : k' ≠ k) :
    (ask age bound m k now).2 k' = evict age bound m now k' := by
  unfold ask
  split
  · rfl
  · exact Function.update_of_ne hne _ _

/-- A key whose record is kept is known, and its record stays. -/
theorem ask_known (h : evict age bound m now k = some t) :
    ask age bound m k now = (true, evict age bound m now) := by
  simp [ask, h]

/-- A key without a record is new, and recorded. -/
theorem ask_new (h : evict age bound m now k = none) :
    ask age bound m k now = (false, Function.update (evict age bound m now) k (some now)) := by
  simp [ask, h]

theorem ask_recorded (h : ¬ (ask age bound m k now).1 = true) :
    (ask age bound m k now).2 k = some now := by
  unfold ask at h ⊢
  split at h
  · exact absurd rfl h
  · rename_i hnone
    rw [if_neg hnone]
    exact Function.update_self _ _ _

theorem mem_of_mem_news (h : k ∈ news age bound m qs) : ∃ t, (k, t) ∈ qs := by
  induction qs generalizing m with
  | nil => exact absurd h List.not_mem_nil
  | cons q qs ih =>
    rw [news] at h
    split at h
    · obtain ⟨t, ht⟩ := ih h
      exact ⟨t, List.mem_cons_of_mem _ ht⟩
    · rcases List.mem_cons.mp h with rfl | h
      · exact ⟨q.2, List.mem_cons_self⟩
      · obtain ⟨t, ht⟩ := ih h
        exact ⟨t, List.mem_cons_of_mem _ ht⟩

/-- A key is taken for new if it has no record, or one that is too old at some question for it. -/
theorem mem_news_of_late (hm : m k = none ∨ m k = some t) (hq : (k, t') ∈ qs)
    (hlate : bound < age t' t) : k ∈ news age bound m qs := by
  induction qs generalizing m with
  | nil => exact absurd hq List.not_mem_nil
  | cons q qs ih =>
    obtain ⟨k₀, t₀⟩ := q
    rw [news]
    have hkept : evict age bound m t₀ k = none ∨ evict age bound m t₀ k = some t := by
      cases h : evict age bound m t₀ k with
      | none => exact .inl rfl
      | some u =>
        obtain hm | hm := hm
        · simp [evict_eq_none hm] at h
        · rw [(evict_eq_some.mp h).1] at hm
          exact .inr hm
    by_cases hk : k₀ = k
    · subst hk
      rcases hkept with hnone | hsome
      · rw [ask_new hnone]
        exact List.mem_cons_self
      · -- the record is not too old yet, so this is not the late question
        rw [ask_known hsome]
        refine ih (.inr hsome) ((List.mem_cons.mp hq).resolve_left fun heq => ?_)
        have hage := (evict_eq_some.mp hsome).2
        rw [(Prod.mk.inj heq).2] at hlate
        exact hlate.not_ge hage
    · have htail : (k, t') ∈ qs := (List.mem_cons.mp hq).resolve_left fun heq =>
        hk (Prod.mk.inj heq).1.symm
      have hrest := ih (m := (ask age bound m k₀ t₀).2)
        (by rwa [ask_of_ne fun h => hk h.symm]) htail
      split
      · exact hrest
      · exact List.mem_cons_of_mem _ hrest

section Clock

variable [LinearOrder τ] {qs : List (κ × τ)}

/-- A recorded key is not taken for new by questions within the bound of its record. -/
theorem not_mem_news (hage : ∀ t, Monotone (age · t)) (hclock : qs.Pairwise (·.2 ≤ ·.2))
    (hm : m k = some t) (hclose : ∀ t', (k, t') ∈ qs → age t' t ≤ bound) :
    k ∉ news age bound m qs := by
  induction qs generalizing m with
  | nil => exact List.not_mem_nil
  | cons q qs ih =>
    obtain ⟨k₀, t₀⟩ := q
    obtain ⟨hfirst, hclock⟩ := List.pairwise_cons.mp hclock
    have htail : ∀ t', (k, t') ∈ qs → age t' t ≤ bound := fun t' h =>
      hclose t' (List.mem_cons_of_mem _ h)
    intro hnew
    obtain ⟨t', ht'⟩ := mem_of_mem_news hnew
    -- the record is not too old at the last question for the key, hence not before
    have hle : t₀ ≤ t' := by
      rcases List.mem_cons.mp ht' with heq | h
      · exact (Prod.mk.inj heq).2.ge
      · exact hfirst _ h
    have hkept : evict age bound m t₀ k = some t :=
      evict_eq_some.mpr ⟨hm, (hage t hle).trans (hclose t' ht')⟩
    rw [news] at hnew
    by_cases hk : k₀ = k
    · subst hk
      rw [ask_known hkept] at hnew
      exact ih hclock hkept htail hnew
    · have hrest := ih (m := (ask age bound m k₀ t₀).2) hclock
        (by rwa [ask_of_ne fun h => hk h.symm]) htail
      split at hnew
      · exact hrest hnew
      · exact hrest ((List.mem_cons.mp hnew).resolve_left fun h => hk h.symm)

/-- If two questions for a key without a record are too far apart, the key is taken for new twice. -/
theorem two_le_count_news (hage : ∀ t, Antitone (age t)) (hclock : qs.Pairwise (·.2 ≤ ·.2))
    (hm : m k = none) (hqs : [(k, t), (k, t')].Sublist qs) (hlate : bound < age t' t) :
    2 ≤ (news age bound m qs).count k := by
  induction qs generalizing m with
  | nil => exact absurd (List.sublist_nil.mp hqs) (by simp)
  | cons q qs ih =>
    obtain ⟨k₀, t₀⟩ := q
    obtain ⟨hfirst, hclock⟩ := List.pairwise_cons.mp hclock
    rw [news]
    by_cases hk : k₀ = k
    · subst hk
      rw [ask_new (evict_eq_none hm)]
      -- this question records the key, and a later one comes too late for the record
      have hpair : t₀ ≤ t ∧ (k₀, t') ∈ qs := by
        rcases List.cons_sublist_cons'.mp hqs with h | ⟨heq, h⟩
        · exact ⟨hfirst _ (h.mem List.mem_cons_self), h.mem (by simp)⟩
        · exact ⟨(Prod.mk.inj heq).2.ge, List.singleton_sublist.mp h⟩
      have hagain := mem_news_of_late (m := Function.update (evict age bound m t₀) k₀ (some t₀))
        (.inr (Function.update_self ..)) hpair.2 (hlate.trans_le (hage t' hpair.1))
      simpa using List.count_pos_iff.mpr hagain
    · have htail : [(k, t), (k, t')].Sublist qs := by
        rcases List.cons_sublist_cons'.mp hqs with h | ⟨heq, -⟩
        · exact h
        · exact absurd (Prod.mk.inj heq).1.symm hk
      have hrest := ih (m := (ask age bound m k₀ t₀).2) hclock
        (by rw [ask_of_ne fun h => hk h.symm, evict_eq_none hm]) htail
      split
      · exact hrest
      · exact hrest.trans List.count_le_count_cons

/-- **No key is taken for new twice** exactly if any two questions for one key are within the
bound. -/
theorem nodup_news_iff (hmono : ∀ t, Monotone (age · t)) (hanti : ∀ t, Antitone (age t))
    (hclock : qs.Pairwise (·.2 ≤ ·.2)) : (news age bound (fun _ => none) qs).Nodup ↔
      qs.Pairwise fun p q => p.1 = q.1 → age q.2 p.2 ≤ bound := by
  constructor
  · intro hnodup
    refine List.pairwise_iff_forall_sublist.mpr ?_
    rintro ⟨k, t⟩ ⟨k', t'⟩ hsub rfl
    by_contra hlate
    have htwice := two_le_count_news (m := fun _ => none) hanti hclock rfl hsub
      (not_le.mp hlate)
    have honce := List.nodup_iff_count_le_one.mp hnodup k
    omega
  · generalize (fun _ => none : κ → Option τ) = m
    intro hclose
    induction qs generalizing m with
    | nil => exact List.nodup_nil
    | cons q qs ih =>
      obtain ⟨hfirst, hclose⟩ := List.pairwise_cons.mp hclose
      rw [news]
      split
      · exact ih (List.Pairwise.of_cons hclock) _ hclose
      · rename_i hnew
        refine List.nodup_cons.mpr ⟨?_, ih (List.Pairwise.of_cons hclock) _ hclose⟩
        exact not_mem_news hmono (List.Pairwise.of_cons hclock) (ask_recorded hnew) fun t' ht' =>
          hfirst _ ht' rfl

end Clock

end Gomi.Retention
