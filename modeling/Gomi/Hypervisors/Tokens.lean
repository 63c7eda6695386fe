import Gomi.Hypervisors.Credentials

/-!
# A registration token is used once

A registration burns its token before it writes anything. How a store does that is looked at
here: the SQL store has a conditional `UPDATE` and reads the row afterwards
(`Gomi.Hypervisors.Tokens.sqlMarkUsed`), the store in memory checks and writes under its lock
(`Gomi.Hypervisors.Tokens.locked`). The requests are those of `Gomi.Hypervisors.Service`, with
`MarkUsed` carried out by either of the two (`Gomi.Hypervisors.Tokens.onStore`).

Either way the check and the write are one operation, so at most one call gets past it in any
interleaving (`Gomi.Hypervisors.Tokens.Traced.accepts_once`), and it does so with a token that has
not expired. But the stores do not draw the same line: at the very moment of its expiry a token is
refused by the SQL store, which asks for `expires_at > now`, and accepted in memory, where the
moment has to have passed.
-/

namespace Gomi.Hypervisors.Tokens

open Prog

/-- The two stores of tokens. -/
inductive Backend where
  | sql
  | memory

/-! ### Operations -/

/-- The operations of a request, down to those of the token store. -/
inductive Op where
  /-- An operation of another store. -/
  | registry (o : Hypervisors.Op)
  /-- `UPDATE registration_tokens`, of the SQL store. -/
  | update (tokenValue usedBy : String) (now : Time)
  /-- `Get`, of the SQL store. -/
  | select (tokenValue : String)
  /-- `MarkUsed` of the store in memory, which holds its lock. -/
  | locked (tokenValue usedBy : String) (now : Time)
  deriving DecidableEq

/-- The replies to an operation; an update is replied to with the number of rows. -/
def Res : Op → Type
  | .registry o => Hypervisors.Res o
  | .update .. => Except Err ℕ
  | .select _ | .locked .. => Except Err RegistrationToken

/-- `UPDATE registration_tokens SET used = 1, used_by = ? WHERE token = ? AND used = 0 AND
expires_at > ?`. -/
def update (tokenValue usedBy : String) (now : Time) : Statement ℕ := fun w =>
  match w.regTokens[tokenValue]? with
  | none => (.ok 0, w)
  | some t =>
    if t.used = false ∧ t.expiresAt > now then
      (.ok 1, { w with regTokens := w.regTokens.insert tokenValue { t with used := true, usedBy } })
    else (.ok 0, w)

/-- `Get`. -/
def select (tokenValue : String) : Statement RegistrationToken := fun w =>
  match w.regTokens[tokenValue]? with
  | none => (.error .notFound, w)
  | some t => (.ok t, w)

/-- `MarkUsed` of the store in memory. -/
def locked (tokenValue usedBy : String) (now : Time) : Statement RegistrationToken := fun w =>
  match w.regTokens[tokenValue]? with
  | none => (.error .notFound, w)
  | some t =>
    if t.used then (.error (.msg "token already used"), w)
    else if now > t.expiresAt then (.error (.msg "token expired"), w)
    else
      let t := { t with used := true, usedBy }
      (.ok t, { w with regTokens := w.regTokens.insert tokenValue t })

/-- **The semantics of the operations.** Nothing but the token store marks a token. -/
def step : (o : Op) → World → Res o → Option World
  | .registry (.markUsed ..), _, _ => none
  | .registry o, w, r => Hypervisors.step o w r
  | .update tokenValue usedBy now, w, r => w.execute (update tokenValue usedBy now) r
  | .select tokenValue, w, r => w.execute (select tokenValue) r
  | .locked tokenValue usedBy now, w, r => w.execute (locked tokenValue usedBy now) r

/-! ### The stores -/

/-- `MarkUsed` of the SQL store. -/
def sqlMarkUsed (tokenValue usedBy : String) (now : Time) :
    Prog Res (Except Err RegistrationToken) := do
  match ← Prog.perform (Op.update tokenValue usedBy now) with
  | .error e => return .error e
  | .ok 0 =>
    match ← Prog.perform (Op.select tokenValue) with
    | .error _ => return .error .notFound
    | .ok token =>
      if token.used then return .error (.msg "token already used")
      else return .error (.msg "token expired")
  | .ok (_ + 1) => Prog.perform (Op.select tokenValue)

/-- `MarkUsed`. -/
def markUsed (b : Backend) (tokenValue usedBy : String) (now : Time) :
    Prog Res (Except Err RegistrationToken) :=
  match b with
  | .sql => sqlMarkUsed tokenValue usedBy now
  | .memory => .perform (Op.locked tokenValue usedBy now)

/-- **What the operations of a request do on a store.** -/
def onStore (b : Backend) : (o : Hypervisors.Op) → Prog Res (Hypervisors.Res o)
  | .markUsed tokenValue usedBy now => markUsed b tokenValue usedBy now
  | o => .perform (Op.registry o)

/-- The clients that run the requests on a store. -/
def pool (b : Backend) (reqs : ℕ → Request) (t : ℕ) : Prog Res (Except Err String) :=
  (reqs t).prog.interpret (onStore b)

/-! ### Acceptance -/

/-- When a token was accepted by a call, if it was. -/
def acceptedAt (tok : String) : Call Res → Option Time
  | ⟨.update tokenValue _ now, .ok (_ + 1)⟩ => if tokenValue = tok then some now else none
  | ⟨.locked tokenValue _ now, .ok _⟩ => if tokenValue = tok then some now else none
  | _ => none

variable {b : Backend} {reqs : ℕ → Request} {w₀ w w' : World} {T A B : List (Event Res)}
  {e : Event Res} {tok : String}
variable {req : RegisterRequest} {t : RegistrationToken} {o : Op} {now : Time}
  {cs : List (Call Res)}
variable {usedBy : String}

theorem regTokens_of_step {o : Hypervisors.Op} {r : Hypervisors.Res o}
    (h : step (.registry o) w r = some w') : w'.regTokens = w.regTokens := by
  cases o with
  | vm =>
    obtain ⟨vm, -, rfl⟩ := Option.map_eq_some_iff.mp h
    rfl
  | markUsed => cases h
  | createAgentToken =>
    refine execute_same (·.regTokens) h ?_
    unfold createAgentToken
    split <;> rfl
  | getByToken =>
    refine execute_same (·.regTokens) h ?_
    unfold getByToken
    split <;> rfl
  | deleteByHypervisor => exact execute_same (·.regTokens) h rfl
  | session token | serviceAccount token => rw [Option.some.inj h]

/-- A token is accepted by a step: it was there, unused and not expired, and is used now. -/
def Accepts (tok : String) (w : World) (c : Call Res) (w' : World) : Prop :=
  ∃ now t usedBy, acceptedAt tok c = some now ∧ w.regTokens[tok]? = some t ∧ t.used = false ∧
    now ≤ t.expiresAt ∧ w'.regTokens[tok]? = some { t with used := true, usedBy }

/-- The write of a token, seen at any token. -/
theorem get_marked {tokenValue : String} :
    (World.regTokens { w with
      regTokens := w.regTokens.insert tokenValue { t with used := true, usedBy } })[tok]? =
      if tokenValue = tok then some { t with used := true, usedBy } else w.regTokens[tok]? :=
  Table.get_insert _ _ _ _

/-- **What a step does to a token**: nothing, or it is accepted. -/
theorem step_token {r : Res o} (h : step o w r = some w') :
    (acceptedAt tok ⟨o, r⟩ = none ∧ w'.regTokens[tok]? = w.regTokens[tok]?) ∨
      Accepts tok w ⟨o, r⟩ w' := by
  cases o with
  | registry => exact .inl ⟨rfl, by rw [regTokens_of_step h]⟩
  | select =>
    refine .inl ⟨rfl, execute_same (·.regTokens[tok]?) h ?_⟩
    unfold select
    split <;> rfl
  | update tokenValue usedBy now =>
    rcases execute_eq_some h with ⟨rfl, rfl⟩ | ⟨⟨text, rfl⟩, rfl⟩
    · cases hrow : w.regTokens[tokenValue]? with
      | none =>
        have heq : update tokenValue usedBy now w = (.ok 0, w) := by simp [update, hrow]
        rw [heq]
        exact .inl ⟨rfl, rfl⟩
      | some t =>
        by_cases hcond : t.used = false ∧ t.expiresAt > now
        · have heq : update tokenValue usedBy now w = (.ok 1, { w with
              regTokens := w.regTokens.insert tokenValue { t with used := true, usedBy } }) := by
            simp [update, hrow, hcond]
          rw [heq]
          rcases eq_or_ne tokenValue tok with rfl | hne
          · exact .inr ⟨now, t, usedBy, if_pos rfl, hrow, hcond.1, hcond.2.le,
              get_marked.trans (if_pos rfl)⟩
          · exact .inl ⟨if_neg hne, get_marked.trans (if_neg hne)⟩
        · have heq : update tokenValue usedBy now w = (.ok 0, w) := by
            simp only [update, hrow, if_neg hcond]
          rw [heq]
          exact .inl ⟨rfl, rfl⟩
    · exact .inl ⟨rfl, rfl⟩
  | locked tokenValue usedBy now =>
    rcases execute_eq_some h with ⟨rfl, rfl⟩ | ⟨⟨text, rfl⟩, rfl⟩
    · cases hrow : w.regTokens[tokenValue]? with
      | none =>
        have heq : locked tokenValue usedBy now w = (.error .notFound, w) := by simp [locked, hrow]
        rw [heq]
        exact .inl ⟨rfl, rfl⟩
      | some t =>
        by_cases hcond : t.used = false ∧ now ≤ t.expiresAt
        · have heq : locked tokenValue usedBy now w = (.ok { t with used := true, usedBy }, { w with
              regTokens := w.regTokens.insert tokenValue { t with used := true, usedBy } }) := by
            simp [locked, hrow, hcond]
          rw [heq]
          rcases eq_or_ne tokenValue tok with rfl | hne
          · exact .inr ⟨now, t, usedBy, if_pos rfl, hrow, hcond.1, hcond.2,
              get_marked.trans (if_pos rfl)⟩
          · exact .inl ⟨if_neg hne, get_marked.trans (if_neg hne)⟩
        · have heq : ∃ text, locked tokenValue usedBy now w = (.error (.msg text), w) := by
            simp only [locked, hrow]
            split
            · exact ⟨_, rfl⟩
            · rename_i hused
              refine ⟨_, if_pos ?_⟩
              by_contra hle
              exact hcond ⟨by simpa using hused, not_lt.mp hle⟩
          obtain ⟨text, heq⟩ := heq
          rw [heq]
          exact .inl ⟨rfl, rfl⟩
    · exact .inl ⟨rfl, rfl⟩

/-! ### The requests -/

/-- **What a request may do**, given the calls it has made: after its token check, a registration has
had its token accepted. -/
def Allows (r : Request) (cs : List (Call Res)) : Op → Prop
  | .registry o => ∀ req, r = .register req → o = .vm .now ∨
      ∃ c ∈ cs, (acceptedAt req.token c).isSome
  | _ => True

/-- The check of a token, by either store. -/
theorem markUsed_obeys {P : List (Call Res) → Op → Prop}
    (hupdate : ∀ cs, P cs (.update tok usedBy now)) (hselect : ∀ cs, P cs (.select tok))
    (hlocked : ∀ cs, P cs (.locked tok usedBy now)) :
    (markUsed b tok usedBy now).Obeys P (fun cs' a => ∀ t, a = .ok t →
      ∃ c ∈ cs', (acceptedAt tok c).isSome) cs := by
  cases b with
  | sql =>
    refine .perform_bind (hupdate _) fun r => ?_
    rcases r with e | _ | n
    · exact .pure (by simp)
    · refine .perform_bind (hselect _) fun r => ?_
      rcases r with e | t
      · exact .pure (by simp)
      · exact .ite (fun _ => .pure (by simp)) fun _ => .pure (by simp)
    · refine .perform (o := Op.select tok) (hselect _) fun r t ht => ?_
      exact ⟨⟨.update tok usedBy now, (.ok (n + 1) : Except Err ℕ)⟩, by simp, by simp [acceptedAt]⟩
  | memory =>
    refine .perform (o := Op.locked tok usedBy now) (hlocked _) ?_
    rintro r t rfl
    exact ⟨⟨.locked tok usedBy now, (.ok t : Except Err RegistrationToken)⟩, by simp,
      by simp [acceptedAt]⟩

/-- A request whose token has been accepted may do anything. -/
theorem obeys_of_accepted {α : Type} {p : Prog Res α}
    (h : ∃ c ∈ cs, (acceptedAt req.token c).isSome) :
    p.Obeys (Allows (.register req)) (fun _ _ => True) cs := by
  induction p generalizing cs with
  | ret => exact .pure trivial
  | call o k ih =>
    obtain ⟨c, hc, hacc⟩ := h
    refine .perform_bind ?_ fun r => ih r ⟨c, by simp [hc], hacc⟩
    cases o with
    | registry =>
      rintro req' hreq
      cases hreq
      exact .inr ⟨c, hc, hacc⟩
    | _ => trivial

/-- The token check of a registration takes the time first. -/
theorem interpret_markUsed :
    (Client.markUsed tok usedBy).interpret (onStore b) =
      Prog.call (Op.registry (.vm .now)) fun now => markUsed b tok usedBy now :=
  congrArg (Prog.call (Op.registry (.vm .now)))
    (funext fun now => interpret_perform (f := onStore b) (.markUsed tok usedBy now))

/-- **A registration checks its token first.** -/
theorem register_obeys :
    ((register req).interpret (onStore b)).Obeys (Allows (.register req)) (fun _ _ => True) [] := by
  rw [register]
  cases validateRegisterRequest req with
  | error => exact .pure trivial
  | ok _ =>
    rw [interpret_bind, interpret_markUsed]
    refine .bind (Q := fun cs a => ∀ t, a = .ok t →
      ∃ c ∈ cs, (acceptedAt req.token c).isSome) ?_ fun cs a _ ha => ?_
    · refine .perform_bind (o := Op.registry (.vm .now)) (fun _ _ => .inl rfl) fun now => ?_
      exact markUsed_obeys (fun _ => trivial) (fun _ => trivial) fun _ => trivial
    · rcases a with e | t
      · exact .pure trivial
      · exact obeys_of_accepted (ha t rfl)

theorem pool_obeys {r : Request} :
    (r.prog.interpret (onStore b)).Obeys (Allows r) (fun _ _ => True) [] := by
  cases r with
  | register => exact register_obeys
  | _ =>
    refine .of_forall (fun _ o => ?_) fun _ _ => trivial
    cases o with
    | registry => exact fun _ => nofun
    | _ => trivial

/-- A trace of a run of requests. -/
abbrev Traced (reqs : ℕ → Request) (w₀ : World) (T : List (Event Res)) (w : World) : Prop :=
  Lawful step w₀ (fun t => Allows (reqs t)) T w

theorem traced {c : ℕ → Prog Res (Except Err String)} (h : Run step (pool b reqs) w₀ T c w) :
    Traced reqs w₀ T w :=
  h.lawful fun _ => pool_obeys

/-! ### Runs -/

/-- A token that is used stays so. -/
theorem used_after (h : after step w T = some w')
    (hw : ∃ t, w.regTokens[tok]? = some t ∧ t.used = true) :
    ∃ t, w'.regTokens[tok]? = some t ∧ t.used = true := by
  refine after_keeps (I := fun w => ∃ t, w.regTokens[tok]? = some t ∧ t.used = true)
    (fun o s r s' hstep hs => ?_) h hw
  rcases step_token hstep with ⟨-, heq⟩ | ⟨now, t, usedBy, -, -, -, -, hmarked⟩
  · rwa [heq]
  · exact ⟨_, hmarked, rfl⟩

/-- A token expires when it did at the start, and is unused only if it was then. -/
theorem token_after (h : after step w₀ T = some w) (ht : w.regTokens[tok]? = some t) :
    ∃ t₀, w₀.regTokens[tok]? = some t₀ ∧
      t₀.expiresAt = t.expiresAt ∧ (t.used = false → t₀.used = false) := by
  refine after_keeps (I := fun w => ∀ t, w.regTokens[tok]? = some t → ∃ t₀,
    w₀.regTokens[tok]? = some t₀ ∧ t₀.expiresAt = t.expiresAt ∧ (t.used = false → t₀.used = false))
    (fun o s r s' hstep hs t ht => ?_) h (fun t ht => ⟨t, ht, rfl, id⟩) t ht
  rcases step_token hstep with ⟨-, heq⟩ | ⟨now, u, usedBy, -, hu, -, -, hmarked⟩
  · exact hs t (heq ▸ ht)
  · obtain ⟨t₀, ht₀, hexp, -⟩ := hs u hu
    obtain rfl : { u with used := true, usedBy } = t := Option.mem_unique hmarked ht
    exact ⟨t₀, ht₀, hexp, by simp⟩

theorem accepts_of_isSome {r : Res o} (h : step o w r = some w')
    (hacc : (acceptedAt tok ⟨o, r⟩).isSome) : Accepts tok w ⟨o, r⟩ w' := by
  rcases step_token h with ⟨hnone, -⟩ | hacc'
  · rw [hnone] at hacc
    cases hacc
  · exact hacc'

/-- **A token is accepted once.** -/
theorem Traced.accepts_once (hT : Traced reqs w₀ (A ++ e :: B) w)
    (he : (acceptedAt tok e.toCall).isSome) : ∀ x ∈ B, acceptedAt tok x.toCall = none := by
  intro x hx
  obtain ⟨C, D, rfl⟩ := List.append_of_mem hx
  obtain ⟨w₁, w₂, -, -, hstep, -, hrest⟩ := hT.at_event
  obtain ⟨-, t, usedBy, -, -, -, -, hmarked⟩ := accepts_of_isSome hstep he
  obtain ⟨w₃, w₄, hbefore, hxstep, -⟩ := after_split hrest
  obtain ⟨u, hu, hused⟩ := used_after hbefore ⟨_, hmarked, rfl⟩
  rcases step_token hxstep with ⟨hnone, -⟩ | ⟨-, u', -, -, hu', hunused, -⟩
  · exact hnone
  · obtain rfl := Option.mem_unique hu hu'
    cases hused.symm.trans hunused

/-- **A token is accepted unused and unexpired**, as it was at the start. -/
theorem Traced.accepts_valid (hT : Traced reqs w₀ T w) (he : e ∈ T)
    (hnow : acceptedAt tok e.toCall = some now) :
    ∃ t, w₀.regTokens[tok]? = some t ∧ t.used = false ∧ now ≤ t.expiresAt := by
  obtain ⟨A, B, rfl⟩ := List.append_of_mem he
  obtain ⟨w₁, w₂, hbefore, -, hstep, -, -⟩ := hT.at_event
  have hacc : (acceptedAt tok e.toCall).isSome := by simp [hnow]
  obtain ⟨now', t, usedBy, hnow', ht, hunused, hle, -⟩ := accepts_of_isSome hstep hacc
  obtain rfl : now = now' := Option.mem_unique hnow hnow'
  obtain ⟨t₀, ht₀, hexp, hused⟩ := token_after hbefore.after_eq ht
  exact ⟨t₀, ht₀, hused hunused, hexp ▸ hle⟩

/-- A client has got past the token check: it has gone on with the registry. -/
def Past (t : ℕ) (T : List (Event Res)) : Prop :=
  ∃ e ∈ T, e.tid = t ∧ ∃ o, e.op = .registry o ∧ o ≠ .vm .now

/-- **A registration that has got past the check has had its token accepted.** -/
theorem Traced.accepted_of_past {t : ℕ} (hT : Traced reqs w₀ T w) (hreq : reqs t = .register req)
    (hpast : Past t T) : ∃ e ∈ T, e.tid = t ∧ (acceptedAt req.token e.toCall).isSome := by
  obtain ⟨x, hx, rfl, o, ho, hne⟩ := hpast
  obtain ⟨A, B, rfl⟩ := List.append_of_mem hx
  have hallowed := hT.allowed A x B rfl
  rw [ho] at hallowed
  obtain ⟨c, hc, hacc⟩ := (hallowed req hreq).resolve_left hne
  obtain ⟨e, he, htid, rfl⟩ := mem_localOf.mp hc
  exact ⟨e, by simp [he], htid, hacc⟩

/-- Two acceptances of one token are the same event. -/
theorem Traced.accepted_unique {x : Event Res} (hT : Traced reqs w₀ T w) (he : e ∈ T) (hx : x ∈ T)
    (hacc : (acceptedAt tok e.toCall).isSome) (hacc' : (acceptedAt tok x.toCall).isSome) : e = x := by
  obtain ⟨A, B, rfl⟩ := List.append_of_mem he
  rcases List.mem_append.mp hx with hxA | hxB
  · obtain ⟨C, D, rfl⟩ := List.append_of_mem hxA
    have hT' : Traced reqs w₀ (C ++ x :: (D ++ e :: B)) w := by simpa using hT
    have hnone := hT'.accepts_once hacc' e (by simp)
    rw [hnone] at hacc
    cases hacc
  · rcases List.mem_cons.mp hxB with rfl | hxB
    · rfl
    · rw [hT.accepts_once hacc x hxB] at hacc'
      cases hacc'

/-! ### The two stores -/

/-- **Registration tokens are single use.** In any interleaving of any requests, on either store: of
the registrations that present one token, at most one gets past the check, with a token that was
there unused, and not after its expiry. And the two stores accept a token at the same times just
if it is not tried at the moment of its expiry. -/
theorem tokens_single_use (b : Backend) (reqs : ℕ → Request) (w₀ w : World) (T : List (Event Res))
    (c : ℕ → Prog Res (Except Err String)) (hrun : Run step (pool b reqs) w₀ T c w) (tok : String) :
    (∀ t t' req req', reqs t = .register req → reqs t' = .register req' → req.token = tok →
      req'.token = tok → Past t T → Past t' T → t = t') ∧
    (∀ t req, reqs t = .register req → req.token = tok → Past t T → ∃ e ∈ T, e.tid = t ∧
      ∃ now row, acceptedAt tok e.toCall = some now ∧ w₀.regTokens[tok]? = some row ∧
        row.used = false ∧ ¬ row.expiresAt < now) ∧
    ∀ usedBy now w, ((update tok usedBy now w).1 = .ok 1 ↔
        ∃ t, (locked tok usedBy now w).1 = .ok t) ↔
      ∀ t, w.regTokens[tok]? = some t → t.used = false → now ≠ t.expiresAt := by
  have hT := traced hrun
  refine ⟨?_, ?_, fun usedBy now w => ?_⟩
  · rintro t t' req req' hreq hreq' rfl htok hpast hpast'
    obtain ⟨e, he, rfl, hacc⟩ := hT.accepted_of_past hreq hpast
    obtain ⟨x, hx, rfl, hacc'⟩ := hT.accepted_of_past hreq' hpast'
    rw [htok] at hacc'
    rw [hT.accepted_unique he hx hacc hacc']
  · rintro t req hreq rfl hpast
    obtain ⟨e, he, rfl, hacc⟩ := hT.accepted_of_past hreq hpast
    obtain ⟨now, hnow⟩ := Option.isSome_iff_exists.mp hacc
    obtain ⟨row, hrow, hunused, hle⟩ := hT.accepts_valid he hnow
    exact ⟨e, he, rfl, now, row, hnow, hrow, hunused, not_lt.mpr hle⟩
  · -- the stores accept the same tokens at the same times, except at the moment of expiry
    cases hrow : w.regTokens[tok]? with
    | none => simp [update, locked, hrow]
    | some t =>
      cases hused : t.used with
      | true => simp [update, locked, hrow, hused]
      | false =>
        rcases lt_trichotomy now t.expiresAt with hlt | heq | hgt
        · simp [update, locked, hrow, hused, hlt, not_lt.mpr hlt.le, hlt.ne]
        · simp [update, locked, hrow, hused, heq]
        · simp [update, locked, hrow, hused, hgt, not_lt.mpr hgt.le, hgt.ne']

/-- The replies of a system in which no statement fails, at a certain time. -/
def replies (now : Time) : (o : Op) → World → Res o
  | .registry (.vm .now), _ => now
  | .registry o, w => World.answer Vm.Query.domainRuns o w
  | .update tokenValue usedBy t, w => (update tokenValue usedBy t w).1
  | .select tokenValue, w => (select tokenValue w).1
  | .locked tokenValue usedBy t, w => (locked tokenValue usedBy t w).1

/-- Two registrations with one token. -/
def twoRegistrations : ℕ → Request := fun _ => sampleRequests 1

theorem twoRegistrations_eval :
    ((play step ([0, 1, 0, 1, 0, 1, 0, 0].map fun t => (t, replies 0))
      ([], pool .sql twoRegistrations, sampleWorld)).any fun x =>
        (x.1.any fun e => e.tid = 0 ∧ e.op = .registry (.vm (.getHypervisor "hv1"))) &&
          (x.2.1 1).answer?.any fun a => a = .error (.msg "token validation: token already used")) =
      true := by
  decide +kernel

/-- Of two registrations with one token, that run at the same time, the first one gets past the check,
and so the second one does not. -/
theorem tokens_single_use_two : ∃ T c w, Run step (pool .sql twoRegistrations) sampleWorld T c w ∧
    Past 0 T ∧ ¬ Past 1 T := by
  obtain ⟨T, c, w, hrun, hcheck⟩ := exists_run_of_play twoRegistrations_eval
  obtain ⟨hany, -⟩ := Bool.and_eq_true_iff.mp hcheck
  obtain ⟨e, he, hget⟩ := List.any_eq_true.mp hany
  obtain ⟨htid, hop⟩ := of_decide_eq_true hget
  have hpast : Past 0 T := ⟨e, he, htid, _, hop, by simp⟩
  refine ⟨T, c, w, hrun, hpast, fun hpast' => ?_⟩
  have hsame := (tokens_single_use .sql twoRegistrations sampleWorld w T c hrun "reg").1 0 1 _ _ rfl
    rfl rfl rfl hpast hpast'
  exact absurd hsame (by decide)

/-- **The stores differ at the moment of expiry.** The token of the sample expires at time 1: at that
time it is refused by the SQL store and accepted in memory. -/
theorem stores_differ_at_expiry : (update "reg" "hv1" 1 sampleWorld).1 = .ok 0 ∧
    (locked "reg" "hv1" 1 sampleWorld).1 = .ok { expiresAt := 1, used := true, usedBy := "hv1" } := by
  decide +kernel

end Gomi.Hypervisors.Tokens
