import Gomi.Table

/-!
# Maps with two keys

A map from a first key to a row, where a row is a map from a second key to a value. The
maps here have no empty row: the last value of a row takes the row with it. So a map is
determined by what it has at each pair of keys (`Gomi.TwoLevel.ext_get`), and a change of
it is described by what it does to `Gomi.TwoLevel.get`:

* `Gomi.TwoLevel.get_set`, `Gomi.TwoLevel.get_erase`, `Gomi.TwoLevel.get_eraseRow`;
* `Gomi.TwoLevel.get_setAll_of_mem` and `Gomi.TwoLevel.get_setAll_of_notMem`, for the map that a
  list of values is written into, as a file is read;
* `Gomi.TwoLevel.mem_entries`, for the list of what a map has.
-/

namespace Gomi

/-- **A map with two keys**, without empty rows. -/
structure TwoLevel (κ ι α : Type) [Ord κ] [Std.TransOrd κ] [Ord ι] [Std.TransOrd ι] where
  /-- The rows, by their first key. -/
  rows : Std.ExtTreeMap κ (Std.ExtTreeMap ι α compare) compare
  /-- No row is empty. -/
  ne_empty : ∀ k : κ, rows[k]? ≠ some ∅

namespace TwoLevel

variable {κ ι α : Type} [Ord κ] [Std.TransOrd κ] [Ord ι] [Std.TransOrd ι]

instance : EmptyCollection (TwoLevel κ ι α) where
  emptyCollection := ⟨∅, fun k => by simp⟩

/-- The row of a first key. -/
def row (m : TwoLevel κ ι α) (k : κ) : Std.ExtTreeMap ι α compare := (m.rows[k]?).getD ∅

/-- The value at two keys. -/
def get (m : TwoLevel κ ι α) (k : κ) (i : ι) : Option α := (m.row k)[i]?

@[simp] theorem get_empty (k : κ) (i : ι) : (∅ : TwoLevel κ ι α).get k i = none := by
  show ((∅ : Std.ExtTreeMap κ (Std.ExtTreeMap ι α compare) compare)[k]?.getD ∅)[i]? = none
  simp

variable [Std.LawfulEqOrd ι] {m : TwoLevel κ ι α} {k : κ} {i : ι} {a : α} {l : List (κ × ι × α)}

/-- A row that is there has a value. -/
theorem exists_get_of_mem (h : k ∈ m.rows) : ∃ i a, m.get k i = some a := by
  have hget : m.rows[k]? = some m.rows[k] := Std.ExtTreeMap.getElem?_eq_some_getElem h
  by_contra hnone
  push Not at hnone
  refine m.ne_empty k (hget.trans (congrArg some (Std.ExtTreeMap.ext_getElem? fun i => ?_)))
  rw [Std.ExtTreeMap.getElem?_empty]
  refine Option.eq_none_iff_forall_ne_some.mpr fun a ha => hnone i a ?_
  rw [get, row, hget, Option.getD_some, ha]

theorem mem_rows_iff : k ∈ m.rows ↔ ∃ i a, m.get k i = some a := by
  refine ⟨exists_get_of_mem, ?_⟩
  rintro ⟨i, a, h⟩
  by_contra hk
  rw [get, row, Std.ExtTreeMap.getElem?_eq_none hk] at h
  cases h

variable [Std.LawfulEqOrd κ]

/-- **A map is determined by its values.** -/
theorem ext_get {m m' : TwoLevel κ ι α} (h : ∀ k i, m.get k i = m'.get k i) : m = m' := by
  have hrows : m.rows = m'.rows := by
    refine Std.ExtTreeMap.ext_getElem? fun k => ?_
    have hmem : k ∈ m.rows ↔ k ∈ m'.rows := by simp only [mem_rows_iff, h]
    by_cases hk : k ∈ m.rows
    · have hrow : m.row k = m'.row k := Std.ExtTreeMap.ext_getElem? (h k)
      have hk' := hmem.mp hk
      rw [row, row, Std.ExtTreeMap.getElem?_eq_some_getElem hk,
        Std.ExtTreeMap.getElem?_eq_some_getElem hk', Option.getD_some, Option.getD_some] at hrow
      rw [Std.ExtTreeMap.getElem?_eq_some_getElem hk, Std.ExtTreeMap.getElem?_eq_some_getElem hk',
        hrow]
    · rw [Std.ExtTreeMap.getElem?_eq_none hk, Std.ExtTreeMap.getElem?_eq_none (mt hmem.mpr hk)]
  cases m
  cases m'
  simpa using hrows

/-- What a map has, in the order of the keys. -/
def entries (m : TwoLevel κ ι α) : List (κ × ι × α) :=
  m.rows.toList.flatMap fun kr => kr.2.toList.map fun ia => (kr.1, ia.1, ia.2)

theorem mem_entries : (k, i, a) ∈ m.entries ↔ m.get k i = some a := by
  simp only [entries, List.mem_flatMap, List.mem_map, Prod.exists, Prod.mk.injEq,
    Std.ExtTreeMap.mem_toList_iff_getElem?_eq_some]
  constructor
  · rintro ⟨k, r, hr, i, a, ha, rfl, rfl, rfl⟩
    rw [get, row, hr, Option.getD_some, ha]
  · intro h
    obtain ⟨r, hr⟩ : ∃ r, m.rows[k]? = some r :=
      ⟨_, Std.ExtTreeMap.getElem?_eq_some_getElem (mem_rows_iff.mpr ⟨i, a, h⟩)⟩
    rw [get, row, hr, Option.getD_some] at h
    exact ⟨k, r, hr, i, a, h, rfl, rfl, rfl⟩

/-! ### Changes -/

variable [DecidableEq κ] [DecidableEq ι]

/-- The map with a value set. -/
def set (m : TwoLevel κ ι α) (k : κ) (i : ι) (a : α) : TwoLevel κ ι α where
  rows := m.rows.insert k ((m.row k).insert i a)
  ne_empty k' := by
    rw [Table.get_insert]
    split
    · exact fun h => Std.ExtTreeMap.insert_ne_empty (Option.some.inj h)
    · exact m.ne_empty k'

/-- The map without a row. -/
def eraseRow (m : TwoLevel κ ι α) (k : κ) : TwoLevel κ ι α where
  rows := m.rows.erase k
  ne_empty k' := by
    rw [Table.get_erase]
    split
    · simp
    · exact m.ne_empty k'

/-- The map without a value, and without its row if that is then empty. -/
def erase (m : TwoLevel κ ι α) (k : κ) (i : ι) : TwoLevel κ ι α :=
  if h : ((m.row k).erase i).isEmpty then m.eraseRow k
  else
    { rows := m.rows.insert k ((m.row k).erase i)
      ne_empty := fun k' => by
        rw [Table.get_insert]
        split
        · exact fun hk => h (Std.ExtTreeMap.isEmpty_iff.mpr (Option.some.inj hk))
        · exact m.ne_empty k' }

theorem get_set (m : TwoLevel κ ι α) (k k' : κ) (i i' : ι) (a : α) :
    (m.set k i a).get k' i' = if k = k' ∧ i = i' then some a else m.get k' i' := by
  rw [get, row, set, Table.get_insert]
  by_cases hk : k = k'
  · subst hk
    simp only [if_true, Option.getD_some, true_and]
    rw [Table.get_insert, get]
  · simp only [hk, false_and, if_false]
    rfl

omit [Std.LawfulEqOrd ι] [DecidableEq ι] in
theorem get_eraseRow (m : TwoLevel κ ι α) (k k' : κ) (i : ι) :
    (m.eraseRow k).get k' i = if k = k' then none else m.get k' i := by
  rw [get, row, eraseRow, Table.get_erase]
  by_cases hk : k = k'
  · simp [hk]
  · simp only [if_neg hk]
    rfl

theorem get_erase (m : TwoLevel κ ι α) (k k' : κ) (i i' : ι) :
    (m.erase k i).get k' i' = if k = k' ∧ i = i' then none else m.get k' i' := by
  rw [erase]
  split
  · rename_i hempty
    -- the whole row is gone, and it had no other value
    rw [get_eraseRow]
    by_cases hk : k = k'
    · subst hk
      have hrow := Table.get_erase (m.row k) i i'
      rw [Std.ExtTreeMap.isEmpty_iff.mp hempty, Std.ExtTreeMap.getElem?_empty] at hrow
      simpa [get] using hrow
    · simp [hk]
  · rw [get, row, Table.get_insert]
    by_cases hk : k = k'
    · subst hk
      simp only [if_true, Option.getD_some, true_and]
      rw [Table.get_erase, get]
    · simp only [hk, false_and, if_false]
      rfl

/-! ### Lists of values -/

/-- Writing a list of values, later ones over earlier ones. -/
def setAll (m : TwoLevel κ ι α) (l : List (κ × ι × α)) : TwoLevel κ ι α :=
  l.foldl (fun m e => m.set e.1 e.2.1 e.2.2) m

/-- What is not among the values written is as it was. -/
theorem get_setAll_of_notMem {m : TwoLevel κ ι α} (h : ∀ a, (k, i, a) ∉ l) :
    (m.setAll l).get k i = m.get k i := by
  refine List.foldlRecOn l _ (motive := fun b => get b k i = m.get k i) rfl fun b hb e he => ?_
  rw [get_set, if_neg, hb]
  rintro ⟨rfl, rfl⟩
  exact h e.2.2 he

/-- Every value of the result was there or was written. -/
theorem get_setAll_eq_some {m : TwoLevel κ ι α} :
    (m.setAll l).get k i = some a → m.get k i = some a ∨ (k, i, a) ∈ l := by
  refine List.foldlRecOn l _ (motive := fun b => get b k i = some a → _) Or.inl fun b hb e he h => ?_
  rw [get_set] at h
  split at h
  · rename_i heq
    obtain ⟨rfl, rfl⟩ := heq
    cases h
    exact Or.inr he
  · exact hb h

/-- What is written is there, if only one value is written at its keys. -/
theorem get_setAll_of_mem :
    ∀ {m : TwoLevel κ ι α}, (k, i, a) ∈ l → (∀ a', (k, i, a') ∈ l → a' = a) →
      (m.setAll l).get k i = some a := by
  induction l with
  | nil => exact fun h => absurd h List.not_mem_nil
  | cons e l ih =>
    intro m h hone
    have hone' : ∀ a', (k, i, a') ∈ l → a' = a := fun a' ha' => hone a' (List.mem_cons_of_mem _ ha')
    show ((m.set e.1 e.2.1 e.2.2).setAll l).get k i = some a
    by_cases hl : (k, i, a) ∈ l
    · exact ih hl hone'
    · obtain rfl : (k, i, a) = e := (List.mem_cons.mp h).resolve_right hl
      have hnot : ∀ a', (k, i, a') ∉ l := fun a' ha' => hl (hone' a' ha' ▸ ha')
      rw [get_setAll_of_notMem hnot, get_set, if_pos ⟨rfl, rfl⟩]

end TwoLevel

end Gomi
