import Gomi.Go.Clock
import Gomi.Go.Strings

/-!
# Dates, as the Go package `time` writes them

`Gomi.Go.date` is the date of a day of the Gregorian calendar, in the years as it has them before its
introduction, too. `Gomi.Go.compactStamp` is `Time.Format` with the layout `20060102T150405Z`, of an
instant in UTC: it is the same text for all instants of a second.
-/

namespace Gomi.Go

/-- The year, the month and the day of a day that is given by its number since the epoch. -/
def date (day : ℤ) : ℤ × ℤ × ℤ :=
  -- years are counted from the first of March of the year 0, in eras of 400 years
  let shifted := day + 719468
  let era := shifted / 146097
  let dayOfEra := shifted % 146097
  let yearOfEra := (dayOfEra - dayOfEra / 1460 + dayOfEra / 36524 - dayOfEra / 146096) / 365
  let dayOfYear := dayOfEra - (365 * yearOfEra + yearOfEra / 4 - yearOfEra / 100)
  let monthFromMarch := (5 * dayOfYear + 2) / 153
  let month := if monthFromMarch < 10 then monthFromMarch + 3 else monthFromMarch - 9
  (yearOfEra + era * 400 + (if month ≤ 2 then 1 else 0), month,
    dayOfYear - (153 * monthFromMarch + 2) / 5 + 1)

/-- A number in at least the given number of digits. -/
def digits (width : ℕ) (n : ℤ) : String :=
  (if n < 0 then "-" else "") ++ String.ofList ((toString n.natAbs).toList.leftpad width '0')

/-- `t.Format("20060102T150405Z")`. -/
def compactStamp (t : Time) : String :=
  let (year, month, day) := date (unix t / 86400)
  let second := unix t % 86400
  digits 4 year ++ digits 2 month ++ digits 2 day ++ "T" ++
    digits 2 (second / 3600) ++ digits 2 (second / 60 % 60) ++ digits 2 (second % 60) ++ "Z"

/-- The text ends with a Z. -/
theorem compactStamp_ne {s : String} (t : Time) (hs : hasSuffix s "Z" = false) : compactStamp t ≠ s := by
  rintro rfl
  refine absurd hs ?_
  rw [Bool.not_eq_false, hasSuffix, List.isSuffixOf_iff_suffix, compactStamp, String.toList_append]
  exact List.suffix_append _ _

example : compactStamp (1709210096 * 1000000000 + 5) = "20240229T123456Z" := by decide

end Gomi.Go
