import Mathlib.Tactic.NormNum

/-! The days of the Gregorian calendar, counted from 1970-01-01, before its introduction as well. -/

namespace Beam.Calendar

def isLeap (year : ℤ) : Bool := decide (year % 4 = 0 ∧ (year % 100 ≠ 0 ∨ year % 400 = 0))

def monthStart : ℤ → ℤ
  | 1 => 0
  | 2 => 31
  | 3 => 59
  | 4 => 90
  | 5 => 120
  | 6 => 151
  | 7 => 181
  | 8 => 212
  | 9 => 243
  | 10 => 273
  | 11 => 304
  | 12 => 334
  | _ => 365

def monthLength (year : ℤ) : ℤ → ℤ
  | 2 => if isLeap year then 29 else 28
  | 4 | 6 | 9 | 11 => 30
  | _ => 31

def yearStart (year : ℤ) : ℤ :=
    365 * (year - 1) + (year - 1) / 4 - (year - 1) / 100 + (year - 1) / 400

def dayNumber (year month day : ℤ) : ℤ :=
  yearStart year + monthStart month + (if 2 < month ∧ isLeap year then 1 else 0) + (day - 1) -
    yearStart 1970

def marchStart (year : ℤ) : ℤ := 365 * year + year / 4 - year / 100 + year / 400 - 306

theorem yearStart_march (year : ℤ) : yearStart year + 59 + (if isLeap year then 1 else 0) =
    marchStart year := by
  unfold yearStart marchStart isLeap
  split
  · rename_i hleap
    have hleap := of_decide_eq_true hleap
    omega
  · rename_i hleap
    have hleap : ¬ (year % 4 = 0 ∧ (year % 100 ≠ 0 ∨ year % 400 = 0)) :=
      fun h => hleap (decide_eq_true h)
    omega

theorem yearStart_next (year : ℤ) : yearStart (year + 1) = marchStart year + 306 := by
  unfold yearStart marchStart
  rw [Int.add_sub_cancel]
  omega

theorem dayNumber_march {mp : ℤ} (h0 : 0 ≤ mp) (h11 : mp ≤ 11) (year day : ℤ) :
    dayNumber (year + if mp < 10 then 0 else 1) (mp + if mp < 10 then 3 else -9) day =
      marchStart year + (153 * mp + 2) / 5 + (day - 1) - yearStart 1970 := by
  have hmarch := yearStart_march year
  have hnext := yearStart_next year
  unfold dayNumber
  obtain rfl | rfl | rfl | rfl | rfl | rfl | rfl | rfl | rfl | rfl | rfl | rfl :
      mp = 0 ∨ mp = 1 ∨ mp = 2 ∨ mp = 3 ∨ mp = 4 ∨ mp = 5 ∨ mp = 6 ∨ mp = 7 ∨ mp = 8 ∨ mp = 9 ∨
        mp = 10 ∨ mp = 11 := by
    omega
  all_goals
    simp only [monthStart]
    norm_num
    omega

theorem dayOfYear_bounds {doe centuries years : ℤ} (h0 : 0 ≤ doe) (h1 : doe < 146097)
    (hcenturies : centuries = doe / 36524)
    (hyears : years = (doe - doe / 1460 + centuries - doe / 146096) / 365) :
    0 ≤ years ∧ years < 400 ∧ 0 ≤ doe - (365 * years + years / 4 - years / 100) ∧
      doe - (365 * years + years / 4 - years / 100) ≤ 365 := by
  have hfour : centuries = 0 ∨ centuries = 1 ∨ centuries = 2 ∨ centuries = 3 ∨
      centuries = 4 := by omega
  have hcentury : years / 100 = centuries ∨ years / 100 = centuries - 1 := by
    rcases hfour with rfl | rfl | rfl | rfl | rfl <;> omega
  refine ⟨by omega, by omega, ?_, ?_⟩
  · rcases hfour with rfl | rfl | rfl | rfl | rfl <;> rcases hcentury with h | h <;> omega
  · rcases hfour with rfl | rfl | rfl | rfl | rfl <;> rcases hcentury with h | h <;> omega

theorem dayOfYear_end {doe years : ℤ} (h0 : 0 ≤ doe) (h1 : doe < 146097)
    (hyears : years = (doe - doe / 1460 + doe / 36524 - doe / 146096) / 365) :
    doe < 365 * (years + 1) + (years + 1) / 4 - (years + 1) / 100 + (years + 1) / 400 := by
  generalize hcenturies : doe / 36524 = centuries at hyears
  have hfour : centuries = 0 ∨ centuries = 1 ∨ centuries = 2 ∨ centuries = 3 ∨
      centuries = 4 := by omega
  have hcentury : (years + 1) / 100 = centuries ∨ (years + 1) / 100 = centuries + 1 := by
    rcases hfour with rfl | rfl | rfl | rfl | rfl <;> omega
  have hquarter : doe / 1460 ≤ (years + 1) / 4 := by
    generalize hquarters : doe / 1460 = quarters at hyears ⊢
    have hle : quarters ≤ 100 := by omega
    omega
  rcases hfour with rfl | rfl | rfl | rfl | rfl <;> rcases hcentury with h | h <;> omega

theorem isLeap_of_step {years era : ℤ} (h0 : 0 ≤ years) (h1 : years < 400)
    (hstep : years / 4 - years / 100 < (years + 1) / 4 - (years + 1) / 100 + (years + 1) / 400) :
    isLeap (years + era * 400 + 1) = true := by
  have hfour : (years + 1) % 4 = 0 := by omega
  have hhundred : (years + 1) % 100 ≠ 0 ∨ (years + 1) % 400 = 0 := by omega
  exact decide_eq_true ⟨by omega, by omega⟩

structure Valid (year month day : ℤ) : Prop where
  inYear : 1 ≤ month ∧ month ≤ 12
  inMonth : 1 ≤ day ∧ day ≤ monthLength year month

instance (year month day : ℤ) : Decidable (Valid year month day) :=
  decidable_of_iff ((1 ≤ month ∧ month ≤ 12) ∧ 1 ≤ day ∧ day ≤ monthLength year month)
    ⟨fun ⟨hyear, hmonth⟩ => ⟨hyear, hmonth⟩, fun h => ⟨h.inYear, h.inMonth⟩⟩

theorem valid_march {mp dayOfYear : ℤ} (h0 : 0 ≤ mp) (h11 : mp ≤ 11) (year : ℤ)
    (hfrom : (153 * mp + 2) / 5 ≤ dayOfYear)
    (hto : dayOfYear < (153 * (mp + 1) + 2) / 5) (hyear : dayOfYear ≤ 365)
    (hlast : dayOfYear = 365 → isLeap (year + 1) = true) :
    Valid (year + if mp < 10 then 0 else 1) (mp + if mp < 10 then 3 else -9)
      (dayOfYear - (153 * mp + 2) / 5 + 1) := by
  refine ⟨by split <;> omega, by omega, ?_⟩
  obtain rfl | rfl | rfl | rfl | rfl | rfl | rfl | rfl | rfl | rfl | rfl | rfl :
      mp = 0 ∨ mp = 1 ∨ mp = 2 ∨ mp = 3 ∨ mp = 4 ∨ mp = 5 ∨ mp = 6 ∨ mp = 7 ∨ mp = 8 ∨ mp = 9 ∨
        mp = 10 ∨ mp = 11 := by
    omega
  case inr.inr.inr.inr.inr.inr.inr.inr.inr.inr.inr =>
    -- February: its last day is one of a leap year
    show dayOfYear - (153 * 11 + 2) / 5 + 1 ≤ if isLeap (year + 1) then 29 else 28
    by_cases hend : dayOfYear = 365
    · rw [if_pos (hlast hend)]
      omega
    · split <;> omega
  all_goals
    norm_num [monthLength]
    omega

def monthOffset (year month : ℤ) : ℤ := monthStart month + if 2 < month ∧ isLeap year then 1 else 0

theorem dayNumber_eq (year month day : ℤ) :
    dayNumber year month day = yearStart year + monthOffset year month + (day - 1) -
      yearStart 1970 := by
  unfold dayNumber monthOffset
  omega

theorem monthOffset_next (year : ℤ) {month : ℤ} (h1 : 1 ≤ month) (h11 : month ≤ 11) :
    monthOffset year (month + 1) = monthOffset year month + monthLength year month := by
  unfold monthOffset
  obtain rfl | rfl | rfl | rfl | rfl | rfl | rfl | rfl | rfl | rfl | rfl : month = 1 ∨ month = 2 ∨
      month = 3 ∨ month = 4 ∨
      month = 5 ∨ month = 6 ∨ month = 7 ∨ month = 8 ∨ month = 9 ∨ month = 10 ∨
        month = 11 := by omega
  all_goals cases hleap : isLeap year <;> simp [monthStart, monthLength, hleap]

theorem monthLength_pos (year month : ℤ) : 0 < monthLength year month := by
  unfold monthLength
  split
  · split <;> decide
  all_goals decide

theorem monthOffset_mono (year : ℤ) {month later : ℤ} (h1 : 1 ≤ month) (hle : month ≤ later)
    (h12 : later ≤ 12) :
    monthOffset year month ≤ monthOffset year later := by
  obtain ⟨between, rfl⟩ := Int.le.dest hle
  induction between with
  | zero => exact le_of_eq (by rw [Int.ofNat_zero, Int.add_zero])
  | succ between ih =>
    have hnext := monthOffset_next year (show 1 ≤ month + (between : ℤ) by omega) (by omega)
    have hpos := monthLength_pos year (month + between)
    have hbefore := ih (by omega) (by omega)
    rw [Int.natCast_succ, ← Int.add_assoc, hnext]
    omega

theorem yearStart_succ (year : ℤ) :
    yearStart (year + 1) = yearStart year + monthOffset year 12 + monthLength year 12 := by
  have hmarch := yearStart_march year
  have hnext := yearStart_next year
  unfold monthOffset
  cases hleap : isLeap year <;> simp [hleap, monthStart, monthLength] at hmarch ⊢ <;> omega

namespace Valid
variable {year month day year' month' day' : ℤ}

theorem bounds (h : Valid year month day) :
    yearStart year - yearStart 1970 ≤ dayNumber year month day ∧
      dayNumber year month day < yearStart (year + 1) - yearStart 1970 := by
  obtain ⟨⟨h1, h12⟩, hday, hlast⟩ := h
  have hfirst : monthOffset year 1 = 0 := rfl
  have hfrom := monthOffset_mono year (le_refl 1) h1 h12
  have hend : monthOffset year month + monthLength year month ≤ monthOffset year 12 +
      monthLength year 12 := by
    by_cases hdecember : month = 12
    · rw [hdecember]
    · have hnext := monthOffset_next year h1 (by omega)
      have hmono := monthOffset_mono year (show 1 ≤ month + 1 by omega) (by omega) (le_refl 12)
      have hpos := monthLength_pos year 12
      omega
  rw [dayNumber_eq, yearStart_succ]
  omega

theorem dayNumber_lt (h : Valid year month day) (h' : Valid year' month' day')
    (hlt : year < year' ∨ (year = year' ∧ (month < month' ∨ (month = month' ∧ day < day')))) :
    dayNumber year month day < dayNumber year' month' day' := by
  obtain hyear | ⟨rfl, hmonth | ⟨rfl, hday⟩⟩ := hlt
  · have hupper := h.bounds.2
    have hlower := h'.bounds.1
    have hmono : yearStart (year + 1) ≤ yearStart year' := by
      unfold yearStart
      omega
    omega
  · have hnext := monthOffset_next year h.inYear.1 (show month ≤ 11 by have := h'.inYear.2; omega)
    have hmono := monthOffset_mono year (show 1 ≤ month + 1 by have := h.inYear.1; omega)
      (show month + 1 ≤ month' by omega) h'.inYear.2
    have hlast := h.inMonth.2
    have hfirst := h'.inMonth.1
    rw [dayNumber_eq, dayNumber_eq]
    omega
  · rw [dayNumber_eq, dayNumber_eq]
    omega

end Valid

end Beam.Calendar
