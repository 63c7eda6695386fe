import Mathlib.Tactic

/-!
# Tables with a text as primary key

A `Gomi.Table` is the content of a database table whose primary key is a text: a
finite map from keys to rows, whose rows are listed in the order of their keys.
This file has the few facts about lookup that the store proofs use, stated with
equality of keys.

* `Gomi.Table.get_insert`, `Gomi.Table.get_erase`, `Gomi.Table.get_modify` – lookup
  after a write; `Gomi.Table.insert_cases`, `Gomi.Table.erase_cases` – what is found then;
* `Gomi.Table.first`, the first row that satisfies a condition, in the order of the
  keys, with `Gomi.Table.first_eq_some` and `Gomi.Table.first_eq_none`.
-/

namespace Gomi

/-- A table: its rows by primary key. -/
abbrev Table (α : Type) : Type := Std.ExtTreeMap String α compare

namespace Table

variable {κ α : Type} [Ord κ] [Std.TransOrd κ] [Std.LawfulEqOrd κ] [DecidableEq κ]

theorem get_insert (t : Std.ExtTreeMap κ α compare) (k a : κ) (v : α) :
    (t.insert k v)[a]? = if k = a then some v else t[a]? := by
  rw [Std.ExtTreeMap.getElem?_insert]
  simp only [Std.compare_eq_iff_eq]

theorem get_erase (t : Std.ExtTreeMap κ α compare) (k a : κ) :
    (t.erase k)[a]? = if k = a then none else t[a]? := by
  rw [Std.ExtTreeMap.getElem?_erase]
  simp only [Std.compare_eq_iff_eq]

/-- A row after an insertion is the new one, or another one from before. -/
theorem insert_cases {t : Table α} {k a : String} {v x : α} (h : (t.insert k v)[a]? = some x) :
    k = a ∧ v = x ∨ k ≠ a ∧ t[a]? = some x := by
  rw [get_insert] at h
  split at h
  · exact Or.inl ⟨‹_›, Option.some.inj h⟩
  · exact Or.inr ⟨‹_›, h⟩

theorem erase_cases {t : Table α} {k a : String} {x : α} (h : (t.erase k)[a]? = some x) :
    k ≠ a ∧ t[a]? = some x := by
  rw [get_erase] at h
  split at h
  · cases h
  · exact ⟨‹_›, h⟩

/-- `UPDATE … WHERE` the key is `k`: the row of that key is changed, if there is
one. -/
def modify (t : Table α) (k : String) (f : α → α) : Table α :=
  match t[k]? with
  | some v => t.insert k (f v)
  | none => t

theorem get_modify (t : Table α) (k a : String) (f : α → α) :
    (t.modify k f)[a]? = if k = a then t[a]?.map f else t[a]? := by
  unfold modify
  cases h : t[k]? with
  | none =>
    by_cases hk : k = a
    · subst hk
      simp [h]
    · simp [hk]
  | some v =>
    rw [get_insert]
    by_cases hk : k = a
    · subst hk
      simp [h]
    · simp [hk]

/-- The first row, in the order of the keys, that satisfies a condition. -/
def first (t : Table α) (p : String → α → Bool) : Option (String × α) :=
  t.toList.find? fun kv => p kv.1 kv.2

theorem mem_toList {t : Table α} {k : String} {v : α} : (k, v) ∈ t.toList ↔ t[k]? = some v :=
  Std.ExtTreeMap.mem_toList_iff_getElem?_eq_some

theorem first_eq_some {t : Table α} {p : String → α → Bool} {k : String} {v : α}
    (h : t.first p = some (k, v)) : t[k]? = some v ∧ p k v = true := by
  have hp := List.find?_some (p := fun kv : String × α => p kv.1 kv.2) h
  exact ⟨mem_toList.mp (List.mem_of_find?_eq_some h), hp⟩

theorem first_eq_none {t : Table α} {p : String → α → Bool} :
    t.first p = none ↔ ∀ k v, t[k]? = some v → p k v = false := by
  rw [first, List.find?_eq_none]
  constructor
  · intro h k v hv
    simpa using h (k, v) (mem_toList.mpr hv)
  · rintro h ⟨k, v⟩ hkv
    simpa using h k v (mem_toList.mp hkv)

end Table

end Gomi
