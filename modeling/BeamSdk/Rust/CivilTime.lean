import Mathlib.Data.List.Lex
import BeamSdk.Rust.Expiry

/-! The Rust SDK's calendar, from which the dates that it signs and the times that it stamps are
written. -/

namespace Beam.Rust

structure CivilTime where
  year : ℤ
  month : ℤ
  day : ℤ
  hour : ℤ
  minute : ℤ
  second : ℤ
  deriving DecidableEq

open Expiry (civilFromDays secondNanos milliNanos)

def civilTime (totalSeconds : ℤ) : CivilTime :=
  let days := totalSeconds / 86400
  let secondsOfDay := totalSeconds % 86400
  let (year, month, day) := civilFromDays days
  ⟨year, month, day, secondsOfDay / 3600, secondsOfDay % 3600 / 60, secondsOfDay % 60⟩

def padded (width : ℕ) (value : ℤ) : String :=
  let sign := if value < 0 then "-" else ""
  let digits := toString value.natAbs
  sign ++ String.ofList (List.replicate (width - sign.length - digits.length) '0') ++ digits

namespace CivilTime

def date (time : CivilTime) : String :=
    padded 4 time.year ++ padded 2 time.month ++ padded 2 time.day

def amzDate (time : CivilTime) : String :=
  s!"{time.date}T{padded 2 time.hour}{padded 2 time.minute}{padded 2 time.second}Z"

def iso (time : CivilTime) (millis : ℤ) : String :=
  s!"{padded 4 time.year}-{padded 2 time.month}-{padded 2 time.day}" ++
    s!"T{padded 2 time.hour}:{padded 2 time.minute}:{padded 2 time.second}.{padded 3 millis}Z"

end CivilTime

/-- An instant is counted in nanoseconds from 1970 on; what is before it counts as its beginning. -/
def sinceEpoch (instant : ℤ) : ℤ := max instant 0

def amzDates (instant : ℤ) : String × String :=
  let time := civilTime (sinceEpoch instant / secondNanos)
  (time.amzDate, time.date)

def isoAt (instant : ℤ) : String :=
  (civilTime (sinceEpoch instant / secondNanos)).iso (sinceEpoch instant % secondNanos / milliNanos)

namespace CivilTime

structure Valid (time : CivilTime) : Prop where
  date : Calendar.Valid time.year time.month time.day
  hour : 0 ≤ time.hour ∧ time.hour ≤ 23
  minute : 0 ≤ time.minute ∧ time.minute ≤ 59
  second : 0 ≤ time.second ∧ time.second ≤ 59

instance (time : CivilTime) : Decidable time.Valid :=
  decidable_of_iff (Calendar.Valid time.year time.month time.day ∧
    (0 ≤ time.hour ∧ time.hour ≤ 23) ∧
    (0 ≤ time.minute ∧ time.minute ≤ 59) ∧ (0 ≤ time.second ∧ time.second ≤ 59))
    ⟨fun ⟨hdate, hhour, hminute, hsecond⟩ => ⟨hdate, hhour, hminute, hsecond⟩, fun h =>
      ⟨h.date, h.hour, h.minute, h.second⟩⟩

def seconds (time : CivilTime) : ℤ :=
  Calendar.dayNumber time.year time.month time.day * 86400 + time.hour * 3600 + time.minute *
    60 + time.second

def fields (time : CivilTime) : List ℤ :=
    [time.year, time.month, time.day, time.hour, time.minute, time.second]

theorem fields_injective {time time' : CivilTime} (h : time.fields = time'.fields) :
    time = time' := by
  cases time
  cases time'
  simpa [fields] using h

theorem seconds_lt {time time' : CivilTime} (h : time.Valid) (h' : time'.Valid)
    (hlt : time.fields < time'.fields) :
    time.seconds < time'.seconds := by
  obtain ⟨hdate, hhour, hminute, hsecond⟩ := h
  obtain ⟨hdate', hhour', hminute', hsecond'⟩ := h'
  have hsplit : (time.year < time'.year ∨ (time.year = time'.year ∧ (time.month < time'.month ∨
      (time.month = time'.month ∧ time.day < time'.day)))) ∨
      (time.year = time'.year ∧ time.month = time'.month ∧ time.day = time'.day ∧
        time.hour * 3600 + time.minute * 60 + time.second < time'.hour * 3600 + time'.minute * 60 +
          time'.second) := by
    simp only [fields, List.cons_lt_cons_iff, List.lt_irrefl, and_false, or_false] at hlt
    omega
  unfold seconds
  obtain hday | ⟨hyear, hmonth, hday, hlater⟩ := hsplit
  · have hnumber := hdate.dayNumber_lt hdate' hday
    omega
  · rw [hyear, hmonth, hday]
    omega

theorem fields_lt {time time' : CivilTime} (h : time.Valid) (h' : time'.Valid)
    (hlt : time.seconds < time'.seconds) :
    time.fields < time'.fields := by
  obtain hbefore | hsame | hafter := lt_trichotomy time.fields time'.fields
  · exact hbefore
  · rw [fields_injective hsame] at hlt
    exact absurd hlt (lt_irrefl _)
  · exact absurd (seconds_lt h' h hafter) (lt_asymm hlt)

theorem eq_of_seconds {time time' : CivilTime} (h : time.Valid) (h' : time'.Valid)
    (hsame : time.seconds = time'.seconds) :
    time = time' := by
  obtain hbefore | heq | hafter := lt_trichotomy time.fields time'.fields
  · exact absurd hsame (seconds_lt h h' hbefore).ne
  · exact fields_injective heq
  · exact absurd hsame (seconds_lt h' h hafter).ne'

end CivilTime

theorem civilFromDays_valid {days : ℤ} (h : 0 ≤ days) :
    Calendar.Valid (civilFromDays days).1 (civilFromDays days).2.1 (civilFromDays days).2.2 := by
  unfold civilFromDays
  simp only
  rw [if_pos (by omega)]
  generalize hera : (days + 719468) / 146097 = era
  generalize hdoe : days + 719468 - era * 146097 = doe
  generalize hyoe : (doe - doe / 1460 + doe / 36524 - doe / 146096) / 365 = yoe
  have hdoe0 : 0 ≤ doe := by omega
  have hdoe1 : doe < 146097 := by omega
  obtain ⟨hyoe0, hyoe1, hdoy0, hdoy1⟩ := Calendar.dayOfYear_bounds hdoe0 hdoe1 rfl hyoe.symm
  have hend := Calendar.dayOfYear_end hdoe0 hdoe1 hyoe.symm
  generalize hdoy : doe - (365 * yoe + yoe / 4 - yoe / 100) = doy at hdoy0 hdoy1 ⊢
  have hleap : doy = 365 → Calendar.isLeap (yoe + era * 400 + 1) = true := by
    intro hlast
    refine Calendar.isLeap_of_step hyoe0 hyoe1 ?_
    omega
  generalize hmp : (5 * doy + 2) / 153 = mp
  have hyear : (if mp + (if mp < 10 then 3 else -9) ≤ 2 then (1 : ℤ) else 0) = if mp < 10 then 0
      else 1 := by
    split <;> split <;> omega
  rw [hyear]
  exact Calendar.valid_march (by omega) (by omega) _ (by omega) (by omega) hdoy1 hleap

theorem civilTime_valid {totalSeconds : ℤ} (h : 0 ≤ totalSeconds) :
    (civilTime totalSeconds).Valid where
  date := civilFromDays_valid (by omega)
  hour := by
    show 0 ≤ totalSeconds % 86400 / 3600 ∧ totalSeconds % 86400 / 3600 ≤ 23
    omega
  minute := by
    show 0 ≤ totalSeconds % 86400 % 3600 / 60 ∧ totalSeconds % 86400 % 3600 / 60 ≤ 59
    omega
  second := by
    show 0 ≤ totalSeconds % 86400 % 60 ∧ totalSeconds % 86400 % 60 ≤ 59
    omega

theorem seconds_civilTime {totalSeconds : ℤ} (h : 0 ≤ totalSeconds) :
    (civilTime totalSeconds).seconds = totalSeconds := by
  have hday := Expiry.dayNumber_civil (show 0 ≤ totalSeconds / 86400 by omega)
  unfold civilTime CivilTime.seconds
  simp only
  rw [hday]
  omega

/-- The one valid time that says the seconds is found, and what is written of an instant is that
time. -/
theorem civil_time_gregorian {totalSeconds : ℤ} (h : 0 ≤ totalSeconds) :
    (civilTime totalSeconds).Valid ∧ (civilTime totalSeconds).seconds = totalSeconds ∧
      (∀ time : CivilTime, time.Valid → time.seconds = totalSeconds →
        time = civilTime totalSeconds) ∧
      (∀ later, totalSeconds < later → (civilTime totalSeconds).fields < (civilTime later).fields) ∧
      ∀ instant : ℤ, 0 ≤ instant → instant / secondNanos = totalSeconds →
        ∀ time : CivilTime, time.Valid → time.seconds = totalSeconds →
          amzDates instant = (time.amzDate, time.date) ∧
            isoAt instant = time.iso (instant % secondNanos / milliNanos) := by
  have hvalid := civilTime_valid h
  have hseconds := seconds_civilTime h
  have hunique : ∀ time : CivilTime, time.Valid → time.seconds = totalSeconds →
      time = civilTime totalSeconds :=
    fun time htime hsame => CivilTime.eq_of_seconds htime hvalid (hsame.trans hseconds.symm)
  refine ⟨hvalid, hseconds, hunique,
    fun later hlater => ?_, fun instant hinstant hsame time htime htotal => ?_⟩
  · have hlater0 : 0 ≤ later := h.trans hlater.le
    refine CivilTime.fields_lt hvalid (civilTime_valid hlater0) ?_
    rwa [hseconds, seconds_civilTime hlater0]
  · unfold amzDates isoAt
    rw [sinceEpoch, max_eq_left hinstant, hsame, hunique time htime htotal]
    exact ⟨rfl, rfl⟩

/-- A leap day of a century. -/
theorem civil_time_leap : (civilTime 951782400).Valid ∧ (civilTime 951782400).seconds = 951782400 ∧
    civilTime 951782400 = ⟨2000, 2, 29, 0, 0, 0⟩ := by
  obtain ⟨hvalid, hseconds, -⟩ := civil_time_gregorian (show (0 : ℤ) ≤ 951782400 by decide)
  exact ⟨hvalid, hseconds, by decide⟩

end Beam.Rust
