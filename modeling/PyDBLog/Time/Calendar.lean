import Mathlib.Data.Prod.Lex
import Mathlib.Data.Nat.Basic

/-! # The Gregorian calendar

Dates from the year 1 on, the number a date has among them, and that the numbers are in the order of
the dates (`ordinal_le_iff`), year first, then month, then day. -/

namespace PyDBLog.Time.Calendar

/-! ### Years and months -/

def IsLeap (y : ℕ) : Prop := y % 4 = 0 ∧ (y % 100 ≠ 0 ∨ y % 400 = 0)

instance (y : ℕ) : Decidable (IsLeap y) := by unfold IsLeap; infer_instance

def daysInYear (y : ℕ) : ℕ := if IsLeap y then 366 else 365

/-- The days of the years from the year 1 up to the year before `y`. -/
def daysBeforeYear (y : ℕ) : ℕ := 365 * (y - 1) + (y - 1) / 4 - (y - 1) / 100 + (y - 1) / 400

def daysInMonth (y : ℕ) : ℕ → ℕ
  | 0 => 0
  | 2 => if IsLeap y then 29 else 28
  | 4 | 6 | 9 | 11 => 30
  | _ => 31

theorem daysInMonth_le (y m : ℕ) : daysInMonth y m ≤ 31 := by
  unfold daysInMonth
  split <;> try split
  all_goals omega

/-- The days of the months before `m`. -/
def daysBeforeMonth (y : ℕ) : ℕ → ℕ
  | 0 => 0
  | m + 1 => daysBeforeMonth y m + daysInMonth y m

theorem isLeap_iff {y : ℕ} : IsLeap y ↔ 4 ∣ y ∧ (¬ 100 ∣ y ∨ 400 ∣ y) := by
  rw [IsLeap, Nat.dvd_iff_mod_eq_zero, Nat.dvd_iff_mod_eq_zero, Nat.dvd_iff_mod_eq_zero]

theorem daysBeforeYear_succ {y : ℕ} (h : 1 ≤ y) :
    daysBeforeYear (y + 1) = daysBeforeYear y + daysInYear y := by
  obtain ⟨p, rfl⟩ := Nat.exists_eq_add_of_le' h
  have hcenturies : p / 100 ≤ p / 4 := Nat.div_le_div_left (by decide) (by decide)
  have h100 : 100 ∣ p + 1 → 4 ∣ p + 1 := Nat.dvd_trans (by decide)
  have h400 : 400 ∣ p + 1 → 100 ∣ p + 1 := Nat.dvd_trans (by decide)
  simp only [daysBeforeYear, daysInYear, isLeap_iff, Nat.add_sub_cancel, Nat.succ_div]
  by_cases d4 : 4 ∣ p + 1
  · by_cases d100 : 100 ∣ p + 1
    · by_cases d400 : 400 ∣ p + 1
      · simp [d4, d100, d400]
        omega
      · simp [d4, d100, d400]
        omega
    · have d400 := mt h400 d100
      simp [d4, d100, d400]
      omega
  · have d100 := mt h100 d4
    have d400 := mt h400 d100
    simp [d4, d100, d400]
    omega

theorem daysBeforeYear_le {y y' : ℕ} (h : 1 ≤ y) (hlt : y < y') :
    daysBeforeYear y + daysInYear y ≤ daysBeforeYear y' := by
  induction y', hlt using Nat.le_induction with
  | base => exact (daysBeforeYear_succ h).ge
  | succ y' hlt ih =>
    have hy' : 1 ≤ y' := h.trans (Nat.le_of_succ_le hlt)
    have := daysBeforeYear_succ hy'
    omega

theorem daysBeforeMonth_le {y m m' : ℕ} (h : m < m') :
    daysBeforeMonth y m + daysInMonth y m ≤ daysBeforeMonth y m' := by
  induction m', h using Nat.le_induction with
  | base => exact le_rfl
  | succ m' hlt ih =>
    rw [daysBeforeMonth]
    omega

/-- The twelve months make the year. -/
theorem daysBeforeMonth_thirteen (y : ℕ) : daysBeforeMonth y 13 = daysInYear y := by
  by_cases h : IsLeap y <;> simp [daysBeforeMonth, daysInMonth, daysInYear, h]

/-! ### Dates -/

/-- A date of the calendar. -/
structure Date where
  year : ℕ
  month : ℕ
  day : ℕ
  year_pos : 1 ≤ year
  month_pos : 1 ≤ month
  month_le : month ≤ 12
  day_pos : 1 ≤ day
  day_le : day ≤ daysInMonth year month
  deriving DecidableEq

namespace Date

/-- Year first, then month, then day. -/
def key (d : Date) : ℕ ×ₗ ℕ ×ₗ ℕ := toLex (d.year, toLex (d.month, d.day))

theorem key_injective : Function.Injective key := by
  rintro ⟨y, m, d, _, _, _, _, _⟩ ⟨y', m', d', _, _, _, _, _⟩ h
  simp only [key, toLex_inj, Prod.mk.injEq] at h
  obtain ⟨rfl, rfl, rfl⟩ := h
  rfl

instance : LinearOrder Date := LinearOrder.lift' key key_injective

theorem lt_iff {d e : Date} : d < e ↔ d.year < e.year ∨ d.year = e.year ∧
    (d.month < e.month ∨ d.month = e.month ∧ d.day < e.day) := by
  show key d < key e ↔ _
  simp [key, Prod.Lex.toLex_lt_toLex]

/-- The number of a date: the first day of the year 1 has the number 1. -/
def ordinal (d : Date) : ℕ := daysBeforeYear d.year + daysBeforeMonth d.year d.month + d.day

/-- The days of a date's year up to it. -/
theorem day_of_year_le (d : Date) : daysBeforeMonth d.year d.month + d.day ≤ daysInYear d.year := by
  have hmonth := daysBeforeMonth_le (y := d.year) (m := d.month) (Nat.lt_succ_of_le d.month_le)
  have hday := d.day_le
  rw [daysBeforeMonth_thirteen] at hmonth
  omega

/-- **A later date has a greater number.** -/
theorem ordinal_strictMono : StrictMono ordinal := by
  intro d e h
  unfold ordinal
  have hend := d.day_of_year_le
  have hday := d.day_le
  have hpos := e.day_pos
  rcases lt_iff.mp h with hyear | ⟨hyear, hmonth | ⟨hmonth, hlt⟩⟩
  · have := daysBeforeYear_le d.year_pos hyear
    omega
  · have := daysBeforeMonth_le (y := d.year) hmonth
    rw [← hyear]
    omega
  · rw [← hyear, ← hmonth]
    omega

theorem ordinal_le_iff {d e : Date} : d.ordinal ≤ e.ordinal ↔ d ≤ e := ordinal_strictMono.le_iff_le

theorem ordinal_pos (d : Date) : 1 ≤ d.ordinal := d.day_pos.trans (Nat.le_add_left _ _)

/-- No date of a year comes after its last day. -/
theorem le_of_december {d e : Date} (hyear : d.year ≤ e.year) (hmonth : e.month = 12)
    (hday : e.day = 31) : d ≤ e := by
  have hd := d.month_le
  have hmax := d.day_le.trans (daysInMonth_le _ _)
  refine not_lt.mp fun hlt => ?_
  have := lt_iff.mp hlt
  omega

/-- The days from one date to another. -/
def daysSince (epoch d : Date) : ℤ := d.ordinal - epoch.ordinal

end Date

end PyDBLog.Time.Calendar
