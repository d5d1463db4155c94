import Mathlib.Tactic.IntervalCases

/-!
# The Gregorian calendar

Days counted from the first of January of the year 1, and their dates in the Gregorian calendar extended backwards. The
date of a day is found by cycles of 400, 100, 4 years and one year; the last day of a leap year comes out as a fifth
hundred or a fifth year and is treated apart.
-/

namespace Library

structure Date where
  year : Nat
  month : Nat
  day : Nat
  deriving DecidableEq

def isLeapYear (year : Nat) : Bool := year % 4 = 0 && (year % 100 ≠ 0 || year % 400 = 0)

def daysBeforeYear (year : Nat) : Nat :=
  let past := year - 1
  past * 365 + past / 4 - past / 100 + past / 400

def daysInMonth (leap : Bool) : Nat → Nat
  | 2 => if leap then 29 else 28
  | 4 => 30
  | 6 => 30
  | 9 => 30
  | 11 => 30
  | _ => 31

def daysBeforeMonth (leap : Bool) (month : Nat) : Nat :=
  ((List.range (month - 1)).map fun m => daysInMonth leap (m + 1)).sum

/-- The month and the day of the month of a day of the year, counted from zero. -/
def monthAndDay (leap : Bool) (dayOfYear : Nat) : Nat × Nat :=
  -- the estimate is right or one too high
  let guess := (dayOfYear + 50) / 32
  let month := if dayOfYear < daysBeforeMonth leap guess then guess - 1 else guess
  (month, dayOfYear - daysBeforeMonth leap month + 1)

namespace Date

def IsValid (d : Date) : Prop :=
  1 ≤ d.year ∧ 1 ≤ d.month ∧ d.month ≤ 12 ∧ 1 ≤ d.day ∧ d.day ≤ daysInMonth (isLeapYear d.year) d.month

instance : DecidablePred IsValid := fun _ => instDecidableAnd

/-- The number of days before the date. -/
def toDays (d : Date) : Nat := daysBeforeYear d.year + daysBeforeMonth (isLeapYear d.year) d.month + (d.day - 1)

def ofYearDay (year dayOfYear : Nat) : Date :=
  let found := monthAndDay (isLeapYear year) dayOfYear
  ⟨year, found.1, found.2⟩

/-- The whole years before a day, by cycles of 400, 100, 4 years and one year. -/
def wholeYears (days : Nat) : Nat :=
  days / 146097 * 400 + days % 146097 / 36524 * 100 + days % 146097 % 36524 / 1461 * 4 +
    days % 146097 % 36524 % 1461 / 365

def ofDays (days : Nat) : Date :=
  if days % 146097 % 36524 % 1461 / 365 = 4 ∨ days % 146097 / 36524 = 4 then ⟨wholeYears days, 12, 31⟩
  else ofYearDay (wholeYears days + 1) (days % 146097 % 36524 % 1461 % 365)

end Date

lemma daysInMonth_le (leap : Bool) (month : Nat) : daysInMonth leap month ≤ 31 := by
  unfold daysInMonth
  split <;> grind

lemma monthAndDay_spec : ∀ leap : Bool, ∀ n < 365, 1 ≤ (monthAndDay leap n).1 ∧ (monthAndDay leap n).1 ≤ 12 ∧
    1 ≤ (monthAndDay leap n).2 ∧ (monthAndDay leap n).2 ≤ daysInMonth leap (monthAndDay leap n).1 ∧
    daysBeforeMonth leap (monthAndDay leap n).1 + ((monthAndDay leap n).2 - 1) = n := by
  decide +kernel

lemma daysBeforeYear_cycles (n400 : Nat) {n100 n4 n1 : Nat} (h100 : n100 ≤ 3) (h4 : n4 ≤ 24) (h1 : n1 ≤ 3) :
    daysBeforeYear (n400 * 400 + n100 * 100 + n4 * 4 + n1 + 1) =
      n400 * 146097 + n100 * 36524 + n4 * 1461 + n1 * 365 := by
  simp only [daysBeforeYear, Nat.add_sub_cancel]
  omega

lemma daysBeforeYear_mono : Monotone daysBeforeYear := by
  refine monotone_nat_of_le_succ fun year => ?_
  simp only [daysBeforeYear]
  omega

namespace Date

lemma ofYearDay_spec {year dayOfYear : Nat} (hyear : 1 ≤ year) (hday : dayOfYear < 365) :
    (ofYearDay year dayOfYear).IsValid ∧
      (ofYearDay year dayOfYear).toDays = daysBeforeYear year + dayOfYear := by
  obtain ⟨hmonth, hmonth', hlow, hhigh, hsum⟩ := monthAndDay_spec (isLeapYear year) dayOfYear hday
  refine ⟨⟨hyear, hmonth, hmonth', hlow, hhigh⟩, ?_⟩
  rw [toDays, Nat.add_assoc]
  exact congrArg (daysBeforeYear year + ·) hsum

lemma lastDay_spec {year : Nat} (hyear : 1 ≤ year) (hleap : isLeapYear year = true) :
    (⟨year, 12, 31⟩ : Date).IsValid ∧ (⟨year, 12, 31⟩ : Date).toDays = daysBeforeYear year + 365 := by
  refine ⟨⟨hyear, ?_⟩, ?_⟩
  · simp [daysInMonth]
  · rw [toDays, hleap]
    rfl

/-- The days of which the cycles leave a remainder within a year. -/
lemma ofDays_ordinary {days : Nat} (h1 : days % 146097 % 36524 % 1461 / 365 ≠ 4) (h100 : days % 146097 / 36524 ≠ 4) :
    (ofDays days).IsValid ∧ (ofDays days).toDays = days := by
  have hcycles : daysBeforeYear (wholeYears days + 1) = _ := daysBeforeYear_cycles (days / 146097)
    (show days % 146097 / 36524 ≤ 3 by omega) (show days % 146097 % 36524 / 1461 ≤ 24 by omega)
    (show days % 146097 % 36524 % 1461 / 365 ≤ 3 by omega)
  rw [ofDays, if_neg (not_or.mpr ⟨h1, h100⟩)]
  obtain ⟨hvalid, hdays⟩ := ofYearDay_spec (Nat.le_add_left 1 (wholeYears days)) (Nat.mod_lt _ (by decide))
  refine ⟨hvalid, ?_⟩
  rw [hdays, hcycles]
  omega

/-- The last day of a leap year. -/
lemma ofDays_leap {days : Nat} (h : days % 146097 % 36524 % 1461 / 365 = 4 ∨ days % 146097 / 36524 = 4) :
    (ofDays days).IsValid ∧ (ofDays days).toDays = days := by
  have hbefore : daysBeforeYear (wholeYears days) + 365 = days := by
    rcases h with h | h
    · have hcycles := daysBeforeYear_cycles (days / 146097) (show days % 146097 / 36524 ≤ 3 by omega)
        (show days % 146097 % 36524 / 1461 ≤ 24 by omega) (le_refl 3)
      rw [wholeYears, h, hcycles]
      omega
    · have hcycles := daysBeforeYear_cycles (days / 146097) (le_refl 3) (le_refl 24) (le_refl 3)
      have hyears : wholeYears days = days / 146097 * 400 + 3 * 100 + 24 * 4 + 3 + 1 := by
        rw [wholeYears]
        omega
      rw [hyears, hcycles]
      omega
  have hyear : 1 ≤ wholeYears days := by
    rw [wholeYears]
    omega
  have hleap : isLeapYear (wholeYears days) = true := by
    simp only [isLeapYear, Bool.and_eq_true, Bool.or_eq_true, decide_eq_true_eq, ne_eq]
    rw [wholeYears]
    omega
  rw [ofDays, if_pos h]
  exact ⟨(lastDay_spec hyear hleap).1, (lastDay_spec hyear hleap).2.trans hbefore⟩

theorem ofDays_spec (days : Nat) : (ofDays days).IsValid ∧ (ofDays days).toDays = days := by
  by_cases h : days % 146097 % 36524 % 1461 / 365 = 4 ∨ days % 146097 / 36524 = 4
  · exact ofDays_leap h
  · exact ofDays_ordinary (not_or.mp h).1 (not_or.mp h).2

lemma year_le_of_days {days year : Nat} (h : days < daysBeforeYear (year + 1)) : (ofDays days).year ≤ year := by
  by_contra hlt
  have hmono : daysBeforeYear (year + 1) ≤ daysBeforeYear (ofDays days).year := daysBeforeYear_mono (by omega)
  have hle : daysBeforeYear (ofDays days).year ≤ (ofDays days).toDays :=
    (Nat.le_add_right _ _).trans (Nat.le_add_right _ _)
  rw [(ofDays_spec days).2] at hle
  omega

end Date

end Library
