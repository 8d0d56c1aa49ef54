import LayeredPreferences.Database.Moment.Calendar
import Mathlib.Tactic.SplitIfs

set_option autoImplicit false

/-!
# Days and dates

From March of the year 0 on a date leads back to the day that it was worked out of.
-/
namespace LayeredPreferences.Database.Moment

variable {z b c d e y : Int}

theorem tdiv_of_nonneg {a : Int} (sign : 0 ≤ a) (k : Int) : a.tdiv k = a / k :=
  Int.tdiv_eq_ediv_of_nonneg sign

theorem tdiv_of_nonpos {a : Int} (sign : a ≤ 0) (k : Int) : a.tdiv k = -(-a / k) := by
  rw [← tdiv_of_nonneg (by omega), Int.neg_tdiv, Int.neg_neg]

/-- The leap days that were dropped up to the century are the same, whether they are counted from the day
or from the year. -/
theorem leap_days (later : 1721120 ≤ z) (century : (4 * z - 7468865).tdiv 146097 = c)
    (shifted : z + 1 + c - c.tdiv 4 + 1524 = b) (year : (20 * b - 2442).tdiv 7305 = y) : 1000 ≤ b ∧
    (y - 4716).tdiv 100 - ((y - 4716).tdiv 100).tdiv 4 = c - c.tdiv 4 + 3 := by
  rcases Int.le_total 0 (4 * z - 7468865) with after | before
  · rw [tdiv_of_nonneg after] at century
    have sign : 0 ≤ c := by omega
    rw [tdiv_of_nonneg sign] at shifted ⊢
    rw [tdiv_of_nonneg (by omega)] at year
    have same : (y - 4716) / 100 = c + 4 := by omega
    rw [tdiv_of_nonneg (by omega), same, tdiv_of_nonneg (by omega)]
    omega
  · -- In the first four centuries the quotient is cut off at zero, which counts one century more.
    rw [tdiv_of_nonpos before] at century
    have sign : c ≤ 0 := by omega
    rw [tdiv_of_nonpos sign] at shifted ⊢
    rw [tdiv_of_nonneg (by omega)] at year
    have few : -3 ≤ c := by omega
    have same : (y - 4716) / 100 = c + 3 := by omega
    rw [tdiv_of_nonneg (by omega), same, tdiv_of_nonneg (by omega)]
    omega

/-- Months are counted from March, which is the fourth. -/
theorem month_bounds (later : 1000 ≤ b) (year : (20 * b - 2442).tdiv 7305 = y)
    (days : (36525 * y).tdiv 100 = d) (month : (10000 * (b - d)).tdiv 306001 = e) :
    4 ≤ e ∧ e ≤ 15 := by
  rw [tdiv_of_nonneg (by omega)] at year days month
  omega

variable {instant : Int} (later : 1721120 ≤ (instant + 43200000) / dayLength)
include later

theorem startOfDay_dateOf :
    startOfDay (dateOf instant) = (instant + 43200000) / dayLength * dayLength - 43200000 := by
  unfold dateOf
  dsimp only
  generalize (instant + 43200000) / dayLength = z at *
  generalize century : (4 * z - 7468865).tdiv 146097 = c
  generalize shifted : z + 1 + c - c.tdiv 4 + 1524 = b
  generalize year : (20 * b - 2442).tdiv 7305 = y
  generalize days : (36525 * y).tdiv 100 = d
  generalize month : (10000 * (b - d)).tdiv 306001 = e
  obtain ⟨low, leap⟩ := leap_days later century shifted year
  obtain ⟨first, last⟩ := month_bounds low year days month
  unfold startOfDay
  dsimp only
  -- January and February count as months of the year before, as they did in the date.
  have counted : (if (if e < 14 then e - 1 else e - 13) ≤ 2 then
      ((if 2 < if e < 14 then e - 1 else e - 13 then y - 4716 else y - 4715) - 1,
        (if e < 14 then e - 1 else e - 13) + 12)
      else (if 2 < if e < 14 then e - 1 else e - 13 then y - 4716 else y - 4715,
        if e < 14 then e - 1 else e - 13)) = (y - 4716, e - 1) := by
    by_cases early : e < 14
    · rw [if_pos early, if_neg (by omega), if_pos (by omega)]
    · rw [if_neg early, if_pos (by omega), if_neg (by omega), Prod.mk.injEq]
      omega
  rw [counted]
  dsimp only
  rw [Int.sub_add_cancel, Int.sub_add_cancel, days]
  change _ = z * 86400000 - 43200000
  omega

/-- The date of an instant is also that of the start of its day. -/
theorem dateOf_startOfDay : dateOf (startOfDay (dateOf instant)) = dateOf instant := by
  have same : (startOfDay (dateOf instant) + 43200000) / dayLength
      = (instant + 43200000) / dayLength := by
    rw [startOfDay_dateOf later, Int.sub_add_cancel, Int.mul_ediv_cancel _ (by decide)]
  unfold dateOf at same ⊢
  rw [same]

theorem within_day : startOfDay (dateOf instant) ≤ instant ∧
    instant < startOfDay (dateOf instant) + dayLength := by
  rw [startOfDay_dateOf later]
  change _ / 86400000 * 86400000 - _ ≤ _ ∧ _ < _ / 86400000 * 86400000 - _ + 86400000
  omega

end LayeredPreferences.Database.Moment
