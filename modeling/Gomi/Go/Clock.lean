import Gomi.Machine.Types

/-!
# Instants and durations

The arithmetic of the Go package `time` on `Gomi.Time`, an instant in nanoseconds since the
epoch. A duration is a 64-bit number of nanoseconds, so that products wrap around
(`Gomi.Go.Duration.seconds`) and the difference of two instants saturates
(`Gomi.Go.sub`).
-/

namespace Gomi.Go

/-- `time.Duration`, in nanoseconds. -/
abbrev Duration : Type := ℤ

/-- The largest duration. -/
def maxDuration : Duration := 2 ^ 63 - 1

/-- The least duration. -/
def minDuration : Duration := -2 ^ 63

/-- `time.Duration(n) * time.Second`, in 64 bits. -/
def Duration.seconds (n : ℤ) : Duration := Int.bmod (n * 1000000000) (2 ^ 64)

/-- `t.Sub(u)`. -/
def sub (t u : Time) : Duration := max minDuration (min maxDuration (t - u))

/-- The zero `time.Time`, the start of the year 1. -/
def zeroTime : Time := -62135596800 * 1000000000

/-- `t.Unix()`. -/
def unix (t : Time) : ℤ := t / 1000000000

/-- `time.Unix(sec, 0)`. The seconds are counted in 64 bits from the start of the year 1. -/
def ofUnix (sec : ℤ) : Time := (Int.bmod (sec + 62135596800) (2 ^ 64) - 62135596800) * 1000000000

/-- `n * d` for a duration, in 64 bits. -/
def Duration.mul (d : Duration) (n : ℤ) : Duration := Int.bmod (n * d) (2 ^ 64)

/-- `-d`, in 64 bits. -/
def Duration.neg (d : Duration) : Duration := Int.bmod (-d) (2 ^ 64)

/-- An instant that is no later than `u + d` is no more than `d` after `u`. -/
theorem sub_le {t u : Time} {d : Duration} (hd : 0 ≤ d) (h : t ≤ u + d) : sub t u ≤ d := by
  have hmin : minDuration ≤ d := le_trans (by decide) hd
  have hdiff : t - u ≤ d := sub_le_iff_le_add'.mpr h
  exact max_le hmin ((min_le_right _ _).trans hdiff)

/-- The difference grows with the first instant. -/
theorem sub_mono_left (u : Time) : Monotone (sub · u) := fun _ _ h =>
  max_le_max_left _ (min_le_min_left _ (Int.sub_le_sub_right h u))

/-- The difference shrinks with the second instant. -/
theorem sub_anti_right (t : Time) : Antitone (sub t) := fun _ _ h =>
  max_le_max_left _ (min_le_min_left _ (Int.sub_le_sub_left h t))

end Gomi.Go
