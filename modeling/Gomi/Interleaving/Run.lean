import Gomi.Interleaving.Program

/-!
# Interleaved runs

Any number of clients, each running a `Gomi.Prog`, share one state. A *run*
schedules them in any order, one atomic operation at a time; a client that is
never scheduled again has crashed, so every statement about all runs is a
statement about every crash point as well. Nothing here names a store or a
handler: the state `σ` and its semantics
`step : (o : Op) → σ → Res o → Option σ` – the state after `o` was replied to
with `r`, where that reply is possible at all – are parameters.

## Traces

A run leaves a trace of `Gomi.Event`s, and the trace determines the state:
`Gomi.after step s T` is the state `T` leads to from `s`. What one client has
seen of the trace is `Gomi.localOf`, the calls it made, in order. The bridge
between the two is `Gomi.Run.path`: the calls a client has made are a path of its
program. So a specification `Gomi.Prog.Obeys` of every client's program turns into
a fact about every event of the trace (`Gomi.Run.allowed`), and `Gomi.localOf_cons_sublist`
turns an earlier call of a client back into a position of the trace – which is
where the state the client saw can be looked up.

## The invariant rule

All that a proof about runs needs of the clients is that the trace is *lawful*
(`Gomi.Lawful`): every event is one that its client was allowed. `Gomi.Lawful.invariant`
is then the only induction on runs that a development needs. The invariant may speak of
the trace, and the step case may use that it held at *every* earlier point: this is what
a read-then-write handler calls for, whose write at the end of the trace is justified by
what it read somewhere in the middle.

`Gomi.play` executes a schedule and `Gomi.run_of_play` says the result is a run.
-/

namespace Gomi

variable {Op : Type} {Res : Op → Type} {α σ : Type}

/-- An event of a run: client `tid` issued `op` and got the reply `res`. -/
structure Event {Op : Type} (Res : Op → Type) where
  /-- The client. -/
  tid : ℕ
  /-- The operation it issued. -/
  op : Op
  /-- The reply it got. -/
  res : Res op

instance [DecidableEq Op] [∀ o, DecidableEq (Res o)] : DecidableEq (Event Res)
  | ⟨t, o, r⟩, ⟨t', o', r'⟩ =>
    if ho : o = o' then
      decidable_of_iff (t = t' ∧ ho ▸ r = r') (by subst ho; simp)
    else isFalse fun h => ho (congrArg Event.op h)

/-- An event, seen from its client. -/
def Event.toCall (e : Event Res) : Call Res := ⟨e.op, e.res⟩

/-- **What client `t` has seen of a trace**: the calls it made, in order. -/
def localOf (t : ℕ) (T : List (Event Res)) : List (Call Res) :=
  (T.filter fun e => e.tid = t).map Event.toCall

@[simp] theorem localOf_nil {t : ℕ} : localOf t ([] : List (Event Res)) = [] := rfl

@[simp] theorem localOf_append (t : ℕ) (T T' : List (Event Res)) :
    localOf t (T ++ T') = localOf t T ++ localOf t T' := by
  simp [localOf]

theorem localOf_singleton_self (e : Event Res) : localOf e.tid [e] = [e.toCall] := by
  simp [localOf]

theorem localOf_cons_self {e : Event Res} {T : List (Event Res)} :
    localOf e.tid (e :: T) = e.toCall :: localOf e.tid T := by
  simp [localOf]

variable {e : Event Res} {t : ℕ} {T₁ T₂ : List (Event Res)}
  {x : List (Event Res) × (ℕ → Prog Res α) × σ} {sched : List (ℕ × ((o : Op) → σ → Res o))}
  {p : List (Event Res) × (ℕ → Prog Res α) × σ → Bool}
variable {s s' : σ} {T : List (Event Res)} {c : Call Res}

theorem localOf_singleton_ne (h : e.tid ≠ t) : localOf t [e] = [] := by
  simp [localOf, h]

theorem mem_localOf :
    c ∈ localOf t T ↔ ∃ e ∈ T, e.tid = t ∧ e.toCall = c := by
  simp [localOf, and_assoc]

/-- **An earlier call is an earlier event.** The first of some calls a client made
in order is at some position of the trace, and the others come after it. -/
theorem localOf_cons_sublist {cs : List (Call Res)} (h : (c :: cs).Sublist (localOf t T)) :
    ∃ T₁ e T₂, T = T₁ ++ e :: T₂ ∧ e.tid = t ∧ e.toCall = c ∧ cs.Sublist (localOf t T₂) := by
  obtain ⟨A, B, hAB, hA, hB⟩ := List.cons_sublist_iff.mp h
  rw [localOf, List.map_eq_append_iff] at hAB
  obtain ⟨FA, FB, hF, rfl, rfl⟩ := hAB
  obtain ⟨TA, TB, rfl, rfl, rfl⟩ := List.filter_eq_append_iff.mp hF
  obtain ⟨e, he, rfl⟩ := List.mem_map.mp hA
  obtain ⟨heT, het⟩ := List.mem_filter.mp he
  obtain ⟨T₁, T₂, rfl⟩ := List.append_of_mem heT
  refine ⟨T₁, e, T₂ ++ TB, by simp, by simpa using het, rfl, ?_⟩
  rw [localOf_append]
  exact hB.trans (List.sublist_append_right _ _)

/-- Two positions of a trace are the same, or one is before the other. -/
theorem split_cases {A B : List (Event Res)} {e' : Event Res} (h : T₁ ++ e :: T₂ = A ++ e' :: B) :
    (T₁ = A ∧ e = e' ∧ T₂ = B) ∨ (∃ C, A = T₁ ++ e :: C ∧ T₂ = C ++ e' :: B) ∨
      ∃ C, T₁ = A ++ e' :: C ∧ B = C ++ e :: T₂ := by
  rcases List.append_eq_append_iff.mp h with ⟨C, hA, hT⟩ | ⟨C, hT₁, hB⟩
  · cases C with
    | nil =>
      obtain ⟨rfl, rfl⟩ := List.cons.inj hT
      exact Or.inl ⟨by simpa using hA.symm, rfl, rfl⟩
    | cons x C =>
      obtain ⟨rfl, rfl⟩ := List.cons.inj hT
      exact Or.inr (Or.inl ⟨C, hA, rfl⟩)
  · cases C with
    | nil =>
      obtain ⟨rfl, rfl⟩ := List.cons.inj hB
      exact Or.inl ⟨by simpa using hT₁, rfl, rfl⟩
    | cons x C =>
      obtain ⟨rfl, rfl⟩ := List.cons.inj hB
      exact Or.inr (Or.inr ⟨C, hT₁, rfl⟩)

/-! ### The state a trace leads to -/

variable (step : (o : Op) → σ → Res o → Option σ)

/-- **The state after a trace**, if every reply in it is possible where it is
given. -/
def after (s : σ) : List (Event Res) → Option σ
  | [] => some s
  | e :: T => (step e.op s e.res).bind fun s' => after s' T

variable {step}

@[simp] theorem after_nil : after step s [] = some s := rfl

theorem after_cons_eq_some : after step s (e :: T) = some s' ↔
      ∃ s₁, step e.op s e.res = some s₁ ∧ after step s₁ T = some s' := by
  simp [after, Option.bind_eq_some_iff]

theorem after_append_eq_some {T' : List (Event Res)} :
    after step s (T ++ T') = some s' ↔
      ∃ s₁, after step s T = some s₁ ∧ after step s₁ T' = some s' := by
  induction T generalizing s with
  | nil => simp
  | cons e T ih =>
    simp only [List.cons_append, after_cons_eq_some, ih]
    constructor
    · rintro ⟨s₁, h₁, s₂, h₂, h₃⟩
      exact ⟨s₂, ⟨s₁, h₁, h₂⟩, h₃⟩
    · rintro ⟨s₂, ⟨s₁, h₁, h₂⟩, h₃⟩
      exact ⟨s₁, h₁, s₂, h₂, h₃⟩

/-- The three states at a position of a trace: before its event, after it, and at
the end. -/
theorem after_split (h : after step s (T₁ ++ e :: T₂) = some s') :
    ∃ s₁ s₂, after step s T₁ = some s₁ ∧ step e.op s₁ e.res = some s₂ ∧
      after step s₂ T₂ = some s' := by
  obtain ⟨s₁, h₁, h₂⟩ := after_append_eq_some.mp h
  obtain ⟨s₂, h₂, h₃⟩ := after_cons_eq_some.mp h₂
  exact ⟨s₁, s₂, h₁, h₂, h₃⟩

/-- A property of states that every step keeps is kept by every trace. -/
theorem after_keeps {I : σ → Prop} (hstep : ∀ o s r s', step o s r = some s' → I s → I s')
    (h : after step s T = some s') (hs : I s) : I s' := by
  induction T generalizing s with
  | nil =>
    cases h
    exact hs
  | cons e T ih =>
    obtain ⟨s₁, h₁, h₂⟩ := after_cons_eq_some.mp h
    exact ih h₂ (hstep _ _ _ _ h₁ hs)

/-! ### Runs -/

variable (step)

/-- **The interleaved runs of a pool of clients**: at each step one client issues
its next operation, which takes effect at once. `Run step pool s₀ T c s` says that
the trace `T` leads from the initial state `s₀` to `s`, and leaves the clients at
`c`. -/
inductive Run (pool : ℕ → Prog Res α) (s₀ : σ) :
    List (Event Res) → (ℕ → Prog Res α) → σ → Prop
  /-- Nobody has been scheduled. -/
  | nil : Run pool s₀ [] pool s₀
  /-- Client `t` is scheduled for one operation. -/
  | snoc {T : List (Event Res)} {c : ℕ → Prog Res α} {s s' : σ} {t : ℕ} {o : Op}
      {k : Res o → Prog Res α} {r : Res o} :
      Run pool s₀ T c s → c t = .call o k → step o s r = some s' →
      Run pool s₀ (T ++ [⟨t, o, r⟩]) (Function.update c t (k r)) s'

variable {step} {pool : ℕ → Prog Res α} {s₀ s : σ} {T : List (Event Res)} {c : ℕ → Prog Res α}

/-- The trace of a run leads to its state. -/
theorem Run.after_eq (h : Run step pool s₀ T c s) : after step s₀ T = some s := by
  induction h with
  | nil => rfl
  | snoc _ _ hs ih =>
    exact after_append_eq_some.mpr ⟨_, ih, after_cons_eq_some.mpr ⟨_, hs, rfl⟩⟩

/-- **The calls of a client are a path of its program.** -/
theorem Run.path (h : Run step pool s₀ T c s) (t : ℕ) :
    Prog.Path (pool t) (localOf t T) (c t) := by
  induction h with
  | nil => exact Prog.Path.nil _
  | @snoc T c s s' u o k r _ hc _ ih =>
    rw [localOf_append]
    rcases eq_or_ne u t with rfl | hne
    · have hlast : localOf u [⟨u, o, r⟩] = [⟨o, r⟩] := localOf_singleton_self ⟨u, o, r⟩
      rw [hlast, Function.update_self]
      rw [hc] at ih
      exact ih.snoc r
    · rw [localOf_singleton_ne hne, List.append_nil, Function.update_of_ne hne.symm]
      exact ih

/-- A run can be stopped after any part of its trace, and then some client is
about to issue the next event. -/
theorem Run.split (h : Run step pool s₀ (T₁ ++ e :: T₂) c s) :
    ∃ c₁ s₁ k s₂, Run step pool s₀ T₁ c₁ s₁ ∧ c₁ e.tid = .call e.op k ∧
      step e.op s₁ e.res = some s₂ ∧
      Run step pool s₀ (T₁ ++ [e]) (Function.update c₁ e.tid (k e.res)) s₂ ∧
      after step s₂ T₂ = some s := by
  generalize hT : T₁ ++ e :: T₂ = T at h
  induction h generalizing T₂ with
  | nil => exact absurd hT (by simp)
  | @snoc T c s s' t o k r hrun hc hs ih =>
    rcases List.eq_nil_or_concat T₂ with rfl | ⟨T₂, e', rfl⟩
    · obtain ⟨rfl, he⟩ := List.append_inj' hT rfl
      cases he
      exact ⟨c, s, k, s', hrun, hc, hs, hrun.snoc hc hs, rfl⟩
    · have hT' : (T₁ ++ e :: T₂) ++ [e'] = T ++ [⟨t, o, r⟩] := by simpa using hT
      obtain ⟨hT₁, he⟩ := List.append_inj' hT' rfl
      cases he
      obtain ⟨c₁, s₁, k₁, s₂, h₁, h₂, h₃, h₄, h₅⟩ := ih hT₁
      exact ⟨c₁, s₁, k₁, s₂, h₁, h₂, h₃, h₄,
        by
          rw [List.concat_eq_append]
          exact after_append_eq_some.mpr ⟨_, h₅, after_cons_eq_some.mpr ⟨_, hs, rfl⟩⟩⟩

/-! ### The invariant rule -/

variable {P : ℕ → List (Call Res) → Op → Prop} {Q : ℕ → List (Call Res) → α → Prop}

/-- **Every event of a run is one its client's program allows.** -/
theorem Run.allowed (hpool : ∀ t, (pool t).Obeys (P t) (Q t) [])
    (h : Run step pool s₀ (T₁ ++ e :: T₂) c s) : P e.tid (localOf e.tid T₁) e.op := by
  obtain ⟨c₁, s₁, k, s₂, h₁, h₂, -⟩ := h.split
  have hp := h₁.path e.tid
  rw [h₂] at hp
  exact (hpool e.tid).of_path hp

variable (step P s₀)

/-- **A lawful trace**: it leads from `s₀` to `s`, and every event of it is one that `P` allows its
client, given the calls the client has made before. -/
structure Lawful (T : List (Event Res)) (s : σ) : Prop where
  /-- The trace leads to the present state. -/
  after_eq : after step s₀ T = some s
  /-- Every event was allowed. -/
  allowed : ∀ T₁ e T₂, T = T₁ ++ e :: T₂ → P e.tid (localOf e.tid T₁) e.op

variable {step P s₀}

/-- **The trace of a run is lawful.** -/
theorem Run.lawful (hpool : ∀ t, (pool t).Obeys (P t) (Q t) []) (h : Run step pool s₀ T c s) :
    Lawful step s₀ P T s :=
  ⟨h.after_eq, fun _ _ _ hT => (hT ▸ h).allowed hpool⟩

/-- A lawful trace, up to some point. -/
theorem Lawful.initial_part (h : Lawful step s₀ P (T₁ ++ T₂) s) :
    ∃ s₁, Lawful step s₀ P T₁ s₁ ∧ after step s₁ T₂ = some s := by
  obtain ⟨s₁, h₁, h₂⟩ := after_append_eq_some.mp h.after_eq
  refine ⟨s₁, ⟨h₁, fun A e B hT => h.allowed A e (B ++ T₂) ?_⟩, h₂⟩
  rw [hT]
  simp

/-- A lawful trace, taken apart at an event. -/
theorem Lawful.at_event (h : Lawful step s₀ P (T₁ ++ e :: T₂) s) :
    ∃ s₁ s₂, Lawful step s₀ P T₁ s₁ ∧ P e.tid (localOf e.tid T₁) e.op ∧
      step e.op s₁ e.res = some s₂ ∧ Lawful step s₀ P (T₁ ++ [e]) s₂ ∧
      after step s₂ T₂ = some s := by
  obtain ⟨s₁, h₁, h₂⟩ := h.initial_part
  have hT : T₁ ++ e :: T₂ = (T₁ ++ [e]) ++ T₂ := by simp
  obtain ⟨s₂, h₃, h₄⟩ := (hT ▸ h).initial_part
  obtain ⟨s₂', hs, h₅⟩ := after_cons_eq_some.mp h₂
  have hs₂ : after step s₀ (T₁ ++ [e]) = some s₂' :=
    after_append_eq_some.mpr ⟨s₁, h₁.after_eq, after_cons_eq_some.mpr ⟨s₂', hs, rfl⟩⟩
  obtain rfl := Option.mem_unique h₃.after_eq hs₂
  exact ⟨s₁, s₂, h₁, h.allowed T₁ e T₂ rfl, hs, h₃, h₄⟩

/-- A lawful trace determines its state. -/
theorem Lawful.unique (h : Lawful step s₀ P T s) (h' : Lawful step s₀ P T s') : s = s' :=
  Option.mem_unique h.after_eq h'.after_eq

/-- **The invariant rule.** An invariant of the trace and the state that holds at the start, and
that every allowed step keeps provided it held after *every* earlier part of the trace, holds after
every lawful trace. -/
theorem Lawful.invariant {I : List (Event Res) → σ → Prop} (h0 : I [] s₀)
    (hstep : ∀ T e s s', Lawful step s₀ P T s →
      (∀ T₁ T₂ s₁, T = T₁ ++ T₂ → Lawful step s₀ P T₁ s₁ → I T₁ s₁) →
      P e.tid (localOf e.tid T) e.op → step e.op s e.res = some s' →
      Lawful step s₀ P (T ++ [e]) s' → I (T ++ [e]) s')
    (h : Lawful step s₀ P T s) : I T s := by
  -- the part of the trace is generalised, so that the induction carries all earlier points
  suffices hall : ∀ T₁ T₂ s₁, T = T₁ ++ T₂ → Lawful step s₀ P T₁ s₁ → I T₁ s₁ from
    hall T [] s (by simp) h
  clear h
  induction T using List.reverseRecOn with
  | nil =>
    intro T₁ T₂ s₁ hT h₁
    obtain ⟨rfl, -⟩ := List.append_eq_nil_iff.mp hT.symm
    obtain rfl : s₀ = s₁ := by simpa using h₁.after_eq
    exact h0
  | append_singleton T e ih =>
    intro T₁ T₂ s₁ hT h₁
    rcases List.eq_nil_or_concat T₂ with rfl | ⟨T₂, e', rfl⟩
    · obtain rfl : T ++ [e] = T₁ := by simpa using hT
      obtain ⟨s, s', h, hP, hs, h', hend⟩ := h₁.at_event
      obtain rfl : s' = s₁ := by simpa using hend
      exact hstep T e s s' h ih hP hs h'
    · have hT' : T ++ [e] = (T₁ ++ T₂) ++ [e'] := by simpa using hT
      obtain ⟨rfl, -⟩ := List.append_inj' hT' rfl
      exact ih T₁ T₂ s₁ rfl h₁

/-! ### Answers -/

variable (step pool s₀) in
/-- After the trace `T`, the event `e` is the last of its client, which then answers
`a`. -/
def Answers (T : List (Event Res)) (e : Event Res) (a : α) : Prop :=
  ∃ c s, Run step pool s₀ (T ++ [e]) c s ∧ c e.tid = .ret a

/-- **An answer is as specified.** -/
theorem Answers.spec {a : α} (h : Answers step pool s₀ T e a)
    (hpool : ∀ t, (pool t).Obeys (P t) (Q t) []) : Q e.tid (localOf e.tid T ++ [e.toCall]) a := by
  obtain ⟨c, s, hrun, hret⟩ := h
  have hp := hrun.path e.tid
  rw [hret, localOf_append, localOf_singleton_self] at hp
  exact (hpool e.tid).of_path_ret hp

/-! ### Executing a schedule -/

/-- A trace, taken apart at an event that is given by its index. -/
theorem split_at_index {i : ℕ} (he : T[i]? = some e) : T = T.take i ++ e :: T.drop (i + 1) := by
  obtain ⟨hi, rfl⟩ := List.getElem?_eq_some_iff.mp he
  rw [← List.drop_eq_getElem_cons, List.take_append_drop]

variable (step)

/-- One scheduled step: client `t` issues its next operation and the replies are
read off `answer`. -/
def playStep (answer : (o : Op) → σ → Res o) (t : ℕ) :
    List (Event Res) × (ℕ → Prog Res α) × σ → Option (List (Event Res) × (ℕ → Prog Res α) × σ)
  | (T, c, s) => match c t with
    | .ret _ => none
    | .call o k => (step o s (answer o s)).map fun s' =>
        (T ++ [⟨t, o, answer o s⟩], Function.update c t (k (answer o s)), s')

/-- Execution of a schedule: which client is next, and where its reply is read
off. -/
def play : List (ℕ × ((o : Op) → σ → Res o)) →
    List (Event Res) × (ℕ → Prog Res α) × σ → Option (List (Event Res) × (ℕ → Prog Res α) × σ)
  | [], x => some x
  | (t, answer) :: sched, x => (playStep step answer t x).bind (play sched)

variable {step}

theorem Run.playStep {answer : (o : Op) → σ → Res o} (h : Run step pool s₀ T c s)
    (hx : Gomi.playStep step answer t (T, c, s) = some x) : Run step pool s₀ x.1 x.2.1 x.2.2 := by
  rw [Gomi.playStep] at hx
  rcases hc : c t with a | ⟨o, k⟩
  · rw [hc] at hx
    cases hx
  · rw [hc] at hx
    obtain ⟨s', hs, rfl⟩ := Option.map_eq_some_iff.mp hx
    exact h.snoc hc hs

theorem Run.play (h : Run step pool s₀ T c s) (hx : Gomi.play step sched (T, c, s) = some x) :
    Run step pool s₀ x.1 x.2.1 x.2.2 := by
  induction sched generalizing T c s with
  | nil =>
    obtain rfl : (T, c, s) = x := by simpa [Gomi.play] using hx
    exact h
  | cons p sched ih =>
    obtain ⟨t, answer⟩ := p
    obtain ⟨y, hy, hx⟩ := Option.bind_eq_some_iff.mp hx
    exact ih (h.playStep hy) hx

/-- **An executed schedule is a run.** -/
theorem run_of_play (hx : play step sched ([], pool, s₀) = some x) :
    Run step pool s₀ x.1 x.2.1 x.2.2 :=
  Run.nil.play hx

/-- The trace of an execution goes on from the trace it started with. -/
theorem play_isPrefix {y : List (Event Res) × (ℕ → Prog Res α) × σ}
    (hy : play step sched x = some y) : x.1 <+: y.1 := by
  induction sched generalizing x with
  | nil =>
    obtain rfl : x = y := by simpa [play] using hy
    exact List.prefix_refl _
  | cons p sched ih =>
    obtain ⟨t, answer⟩ := p
    obtain ⟨z, hz, hy⟩ := Option.bind_eq_some_iff.mp hy
    refine List.IsPrefix.trans ?_ (ih hy)
    obtain ⟨T, c, s⟩ := x
    rw [Gomi.playStep] at hz
    rcases hc : c t with a | ⟨o, k⟩
    · rw [hc] at hz
      cases hz
    · rw [hc] at hz
      obtain ⟨s', -, rfl⟩ := Option.map_eq_some_iff.mp hz
      exact List.prefix_append T _

/-- **An execution that ends where a check passes.** -/
theorem exists_run_of_play (h : (play step sched ([], pool, s₀)).any p = true) :
    ∃ T c s, Run step pool s₀ T c s ∧ p (T, c, s) = true := by
  obtain ⟨x, hx, hp⟩ := (Option.any_eq_true _ _).mp h
  exact ⟨x.1, x.2.1, x.2.2, run_of_play hx, hp⟩

/-- **An execution in two parts**, with a check after each of them. Both runs come from one
evaluation. -/
theorem exists_runs_of_play {sched' : List (ℕ × ((o : Op) → σ → Res o))}
    {q : List (Event Res) × (ℕ → Prog Res α) × σ → List (Event Res) × (ℕ → Prog Res α) × σ → Bool}
    (h : ((play step sched ([], pool, s₀)).any fun x =>
      p x && (play step sched' x).any (q x)) = true) :
    ∃ T c s T' c' s', Run step pool s₀ T c s ∧ p (T, c, s) = true ∧
      Run step pool s₀ (T ++ T') c' s' ∧ q (T, c, s) (T ++ T', c', s') = true := by
  obtain ⟨⟨T, c, s⟩, hx, hrest⟩ := (Option.any_eq_true _ _).mp h
  obtain ⟨hp, hrest⟩ := (Bool.and_eq_true_iff).mp hrest
  obtain ⟨⟨T₂, c', s'⟩, hy, hq⟩ := (Option.any_eq_true _ _).mp hrest
  have hrun := run_of_play hx
  obtain ⟨T', rfl⟩ := play_isPrefix hy
  exact ⟨T, c, s, T', c', s', hrun, hp, hrun.play hy, hq⟩

/-- Whether the last event of an execution was of client `t`, which has then answered, with an answer
that passes a check. -/
def answered (t : ℕ) (p : α → Bool) (x : List (Event Res) × (ℕ → Prog Res α) × σ) : Bool :=
  x.1.getLast?.any fun e => e.tid = t ∧ (x.2.1 t).answer?.any p

/-- **A run whose last event made client `t` answer.** -/
theorem Run.answers {p : α → Bool} (h : Run step pool s₀ T c s)
    (hcheck : answered t p (T, c, s) = true) :
    ∃ T₁ e a, T = T₁ ++ [e] ∧ e.tid = t ∧ Answers step pool s₀ T₁ e a ∧ p a = true := by
  obtain ⟨e, he, hrest⟩ := (Option.any_eq_true _ _).mp hcheck
  obtain ⟨rfl, hrest⟩ := of_decide_eq_true hrest
  obtain ⟨a, ha, hp⟩ := (Option.any_eq_true _ _).mp hrest
  have hT : T.dropLast ++ [e] = T := List.dropLast_append_getLast? e he
  refine ⟨T.dropLast, e, a, hT.symm, rfl, ⟨c, s, ?_, Prog.answer?_eq_some.mp ha⟩, hp⟩
  rw [hT]
  exact h

end Gomi
