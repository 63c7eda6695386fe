import Mathlib.Tactic

/-!
# Dictionaries, as Python has them

A `Gomi.Python.Dict` lists its entries in the order in which their keys were first set, with every key
once. `Gomi.Python.Dict.update` goes through the entries of one dictionary and sets what it finds in
another; what a key has afterwards depends on what the two have at this key alone
(`Gomi.Python.Dict.get_update`).
-/

namespace Gomi.Python

/-- A dictionary: its entries in their order. -/
structure Dict (K V : Type) where
  entries : List (K × V)
  nodup : (entries.map Prod.fst).Nodup

namespace Dict

variable {K V : Type} [DecidableEq K]

/-- The value of a key in a list of entries. -/
def find (k : K) : List (K × V) → Option V
  | [] => none
  | (a, v) :: l => if a = k then some v else find k l

/-- An entry is replaced where it is, or added at the end. -/
def put (k : K) (v : V) : List (K × V) → List (K × V)
  | [] => [(k, v)]
  | (a, w) :: l => if a = k then (k, v) :: l else (a, w) :: put k v l

theorem find_put (k a : K) (v : V) (l : List (K × V)) :
    find a (put k v l) = if k = a then some v else find a l := by
  induction l with
  | nil => rfl
  | cons e l ih =>
    obtain ⟨b, w⟩ := e
    by_cases hb : b = k
    · subst hb
      simp only [put, if_pos, find]
      split <;> rfl
    · by_cases hba : b = a
      · subst hba
        simp [put, hb, find, Ne.symm hb]
      · simp [put, hb, find, hba, ih]

variable {l : List (K × V)}

theorem mem_keys_put {k a : K} {v : V} :
    a ∈ (put k v l).map Prod.fst ↔ a = k ∨ a ∈ l.map Prod.fst := by
  induction l with
  | nil => simp [put]
  | cons e l ih =>
    obtain ⟨b, w⟩ := e
    by_cases hb : b = k
    · subst hb
      simp [put]
    · simp only [put, hb, if_false, List.map_cons, List.mem_cons, ih]
      tauto

theorem nodup_put {k : K} {v : V} (h : (l.map Prod.fst).Nodup) :
    ((put k v l).map Prod.fst).Nodup := by
  induction l with
  | nil => simp [put]
  | cons e l ih =>
    obtain ⟨b, w⟩ := e
    obtain ⟨hb, hl⟩ := List.nodup_cons.mp h
    by_cases hbk : b = k
    · subst hbk
      simpa [put] using h
    · simp only [put, hbk, if_false, List.map_cons]
      refine List.nodup_cons.mpr ⟨fun hmem => ?_, ih hl⟩
      rcases mem_keys_put.mp hmem with heq | hmem
      · exact hbk heq
      · exact hb hmem

theorem find_eq_none {k : K} : find k l = none ↔ k ∉ l.map Prod.fst := by
  induction l with
  | nil => simp [find]
  | cons e l ih =>
    by_cases h : e.1 = k
    · simp [find, h]
    · simp [find, h, ih, Ne.symm h]

/-- `d.get(k)`. -/
def get (d : Dict K V) (k : K) : Option V := find k d.entries

/-- `d[k] = v`. -/
def set (d : Dict K V) (k : K) (v : V) : Dict K V := ⟨put k v d.entries, nodup_put d.nodup⟩

@[simp] theorem get_set (d : Dict K V) (k a : K) (v : V) :
    (d.set k v).get a = if k = a then some v else d.get a := find_put k a v d.entries

/-! ### Updates -/

/-- One entry of another dictionary: what is set depends on the key, on what is there and on the
entry, and nothing need be set. -/
def updateEntry (f : K → Option V → V → Option V) (d : Dict K V) (e : K × V) : Dict K V :=
  match f e.1 (d.get e.1) e.2 with
  | none => d
  | some v => d.set e.1 v

/-- A loop over the entries of `other`. -/
def update (f : K → Option V → V → Option V) (d other : Dict K V) : Dict K V :=
  other.entries.foldl (updateEntry f) d

theorem get_updateEntry (f : K → Option V → V → Option V) (d : Dict K V) (e : K × V) (k : K) :
    (updateEntry f d e).get k =
      if e.1 = k then (f k (d.get k) e.2).or (d.get k) else d.get k := by
  unfold updateEntry
  by_cases h : e.1 = k
  · subst h
    split <;> simp_all
  · split <;> simp [h]

/-- **What a key has after an update.** -/
theorem get_update (f : K → Option V → V → Option V) (d other : Dict K V) (k : K) :
    (update f d other).get k =
      match other.get k with
      | none => d.get k
      | some v => (f k (d.get k) v).or (d.get k) := by
  obtain ⟨l, hl⟩ := other
  simp only [update, get]
  induction l generalizing d with
  | nil => rfl
  | cons e l ih =>
    obtain ⟨hnot, hl⟩ := List.nodup_cons.mp hl
    rw [List.foldl_cons, ih _ hl]
    have hget := get_updateEntry f d e k
    simp only [get] at hget
    rw [hget]
    by_cases h : e.1 = k
    · subst h
      simp [find, find_eq_none.mpr hnot]
    · simp [find, h]

end Dict

end Gomi.Python
