import Gomi.Interleaving.Run
import Mathlib.Data.List.DropRight

/-!
# What has happened since

A request that reads and then writes is undisturbed if nothing of a certain kind has happened
since it read. `Gomi.since p T` is the part of the trace `T` after the last event that satisfies
`p`; it can be evaluated on a concrete trace. The calls that a client has made give positions of
the trace (`Gomi.exists_event_of_localOf`), so that the last call of a kind is where the trace is to
be cut (`Gomi.exists_since`).

A condition on a run that looks at each event and what came before it is `Gomi.EachStep`, and
`Gomi.EachStep.of_eval` checks it on a concrete trace.
-/

namespace Gomi

variable {Op : Type} {Res : Op → Type}
variable {t : ℕ} {T : List (Event Res)} {c : Call Res} {cs cs' : List (Call Res)}

/-- **The events after the last one that satisfies `p`**; all of them, if there is none. -/
def since (p : Event Res → Bool) (T : List (Event Res)) : List (Event Res) :=
  T.rtakeWhile fun e => !p e

/-- The part since an event that satisfies `p` and after which none does. -/
theorem since_eq {p : Event Res → Bool} {A M : List (Event Res)} {e : Event Res}
    (he : p e = true) (hM : ∀ x ∈ M, p x = false) : since p (A ++ e :: M) = M := by
  rw [since, List.rtakeWhile, List.reverse_append, List.reverse_cons, List.append_assoc,
    List.takeWhile_append_of_pos fun x hx => by simp [hM x (List.mem_reverse.mp hx)]]
  simp [he]

/-- **A call of a client is an event of the trace**, with the calls before it and after it on either
side. -/
theorem exists_event_of_localOf (h : localOf t T = cs ++ c :: cs') :
    ∃ A e M, T = A ++ e :: M ∧ e.tid = t ∧ e.toCall = c ∧ localOf t A = cs ∧ localOf t M = cs' := by
  induction T generalizing cs with
  | nil => exact absurd h (by simp)
  | cons x T ih =>
    have hx : localOf t (x :: T) = localOf t [x] ++ localOf t T := localOf_append t [x] T
    rcases eq_or_ne x.tid t with rfl | hne
    · rw [hx, localOf_singleton_self] at h
      cases cs with
      | nil =>
        obtain ⟨hc, hcs'⟩ := List.cons.inj h
        exact ⟨[], x, T, rfl, rfl, hc, rfl, hcs'⟩
      | cons =>
        obtain ⟨rfl, hT⟩ := List.cons.inj h
        obtain ⟨A, e, M, rfl, he, hcall, hA, hM⟩ := ih hT
        refine ⟨x :: A, e, M, rfl, he, hcall, ?_, hM⟩
        rw [← hA]
        exact (localOf_append _ [x] A).trans (by rw [localOf_singleton_self]; rfl)
    · rw [hx, localOf_singleton_ne hne, List.nil_append] at h
      obtain ⟨A, e, M, rfl, he, hcall, hA, hM⟩ := ih h
      refine ⟨x :: A, e, M, rfl, he, hcall, ?_, hM⟩
      rw [← hA]
      exact (localOf_append _ [x] A).trans (by rw [localOf_singleton_ne hne]; rfl)

/-- The events of client `t` whose operation is of a certain kind. -/
def madeBy (t : ℕ) (q : Op → Bool) (e : Event Res) : Bool := e.tid = t && q e.op

/-- **The trace, cut at the last call of a kind.** -/
theorem exists_since {q : Op → Bool} (h : localOf t T = cs ++ c :: cs') (hc : q c.op = true)
    (hcs' : ∀ d ∈ cs', q d.op = false) :
    ∃ A e, T = A ++ e :: since (madeBy t q) T ∧ e.tid = t ∧ e.toCall = c ∧ localOf t A = cs := by
  obtain ⟨A, e, M, rfl, rfl, rfl, hA, hM⟩ := exists_event_of_localOf h
  refine ⟨A, e, ?_, rfl, rfl, hA⟩
  rw [since_eq]
  · have hop : q e.op = true := hc
    simp [madeBy, hop]
  · intro x hx
    rcases eq_or_ne x.tid e.tid with hxe | hne
    · have hmem : x.toCall ∈ cs' := hM ▸ mem_localOf.mpr ⟨x, hx, hxe, rfl⟩
      have hop : q x.op = false := hcs' _ hmem
      simp [madeBy, hop]
    · simp [madeBy, hne]

/-! ### Conditions on each step of a trace -/

/-- **Every event of a trace meets a condition**, which may look at what came before it. -/
def EachStep (C : List (Event Res) → Event Res → Prop) (T : List (Event Res)) : Prop :=
  ∀ A e B, T = A ++ e :: B → C A e

variable {C : List (Event Res) → Event Res → Prop} {T T' : List (Event Res)}

theorem EachStep.initial_part (h : EachStep C (T ++ T')) : EachStep C T := by
  rintro A e B rfl
  exact h A e (B ++ T') (by simp)

/-- The check of a condition on the events of `B`, which come after those of `A`. -/
def eachStep (ok : List (Event Res) → Event Res → Bool) :
    List (Event Res) → List (Event Res) → Bool
  | _, [] => true
  | A, e :: B => ok A e && eachStep ok (A ++ [e]) B

/-- **A condition that has been checked.** -/
theorem EachStep.of_eval {ok : List (Event Res) → Event Res → Bool}
    (hok : ∀ A e, ok A e = true → C A e) (h : eachStep ok [] T = true) : EachStep C T := by
  suffices hall : ∀ A B, eachStep ok A B = true → ∀ A' e B', B = A' ++ e :: B' → C (A ++ A') e by
    intro A e B hT
    simpa using hall [] T h A e B hT
  intro A B
  induction B generalizing A with
  | nil => exact fun _ A' e B' hB => absurd hB (by simp)
  | cons x B ih =>
    intro hcheck A' e B' hB
    obtain ⟨hx, hrest⟩ := Bool.and_eq_true_iff.mp hcheck
    cases A' with
    | nil =>
      obtain ⟨rfl, -⟩ := List.cons.inj hB
      simpa using hok A x hx
    | cons y A' =>
      obtain ⟨rfl, hB'⟩ := List.cons.inj hB
      simpa using ih (A ++ [x]) hrest A' e B' hB'

end Gomi
