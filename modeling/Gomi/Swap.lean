import Mathlib.Tactic

/-!
# Compare-and-swap of a record

A store offers a compare-and-swap: replace the record by `after` if it still is `before`.
An implementation is free in three respects, which are the parameters of `Gomi.swap`:
which pairs it admits at all, what of the records it compares, and what of `after` it
writes. `Gomi.swapWhole` compares and writes whole records. `Gomi.swap_agrees_iff` says for
which records such an implementation agrees with `Gomi.swapWhole` and both do what the
contract (`Gomi.IsSwap`) asks for.
-/

namespace Gomi

variable {α κ : Type} [DecidableEq κ] (admits : α → α → Bool)

/-- A compare-and-swap that compares `key`, and writes `after` into the stored record by
`write`: whether it happened, and the record it leaves. -/
def swap (key : α → κ) (write : α → α → α) (cur before after : α) : Bool × α :=
  if admits before after ∧ key cur = key before then (true, write cur after) else (false, cur)

/-- The compare-and-swap of whole records. -/
def swapWhole [DecidableEq α] (cur before after : α) : Bool × α :=
  swap admits id (fun _ after => after) cur before after

/-- **The contract of a compare-and-swap**: it happens exactly if the stored record is `before`,
and then leaves `after`. -/
def IsSwap (cur before after : α) (r : Bool × α) : Prop :=
  (r.1 = true ↔ cur = before) ∧ (r.1 = true → r.2 = after)

variable {admits} {key : α → κ} {write : α → α → α} {cur before after : α}

theorem swap_fst : (swap admits key write cur before after).1 = true ↔
    admits before after = true ∧ key cur = key before := by
  unfold swap
  split <;> simp_all

theorem swap_snd (h : (swap admits key write cur before after).1 = true) :
    (swap admits key write cur before after).2 = write cur after := by
  rw [swap, if_pos (swap_fst.mp h)]

/-- **When a partial compare-and-swap agrees with the whole one, and both keep the contract**: where
the stored record is `before`, the pair is admitted and writing `after` leaves all of it; elsewhere
an admitted pair is told apart by what is compared. -/
theorem swap_agrees_iff [DecidableEq α] :
    swap admits key write cur before after = swapWhole admits cur before after ∧
        IsSwap cur before after (swapWhole admits cur before after) ↔
      (cur = before → admits before after = true ∧ write cur after = after) ∧
        (admits before after = true → key cur = key before → cur = before) := by
  have hwhole : (swapWhole admits cur before after).1 = true ↔
      admits before after = true ∧ cur = before := swap_fst
  constructor
  · rintro ⟨heq, hiff, -⟩
    refine ⟨fun hcur => ?_, fun hadm hkey => ?_⟩
    · have htrue := hiff.mpr hcur
      have hsnd : (swapWhole admits cur before after).2 = after := swap_snd htrue
      have hpart : (swap admits key write cur before after).2 = write cur after :=
        swap_snd (by rw [heq]; exact htrue)
      exact ⟨(hwhole.mp htrue).1, by rw [← hpart, heq, hsnd]⟩
    · rw [← hiff, ← heq]
      exact swap_fst.mpr ⟨hadm, hkey⟩
  · rintro ⟨hsame, htell⟩
    refine ⟨?_, ⟨fun h => (hwhole.mp h).2, fun h => hwhole.mpr ⟨(hsame h).1, h⟩⟩, fun h => swap_snd h⟩
    by_cases h : cur = before
    · obtain ⟨hadm, hwrite⟩ := hsame h
      rw [swapWhole, swap, swap, if_pos ⟨hadm, congrArg key h⟩, if_pos ⟨hadm, h⟩, hwrite]
    · rw [swapWhole, swap, swap, if_neg fun hc => h (htell hc.1 hc.2), if_neg fun hc => h hc.2]

end Gomi
