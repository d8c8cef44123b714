import FrappeController.Library.Lexicographic
import FrappeController.Python

/-!
# Timestamps as text

The reference store keeps instants as RFC 3339 text and compares them as text. Over the
instants Python can represent the texts have one layout, so they compare as the instants do
(`DateTime.rfc3339_lt_iff`).
-/

namespace FrappeController
namespace DateTime

open Lexicographic (decimal)

instance : Preorder DateTime where
  le_refl a := Nat.le_refl a.micros
  le_trans a b c := Nat.le_trans (n := a.micros) (m := b.micros) (k := c.micros)
  lt_iff_le_not_ge a b := Nat.lt_iff_le_and_not_ge (m := a.micros) (n := b.micros)

/-- No later than `datetime.max`, 9999-12-31T23:59:59.999999. -/
def representable (value : DateTime) : Bool := value.micros < 3652059 * 86400000000

/-! ## The calendar

`civil` counts days in cycles of 400 years that begin on a first of March. -/

/-- The days of a cycle before its year `y`. -/
def daysBefore (y : ℕ) : ℕ := 365 * y + y / 4 - y / 100 + y / 400

/-- The days of a cycle without its leap days: year `y` holds those from `365 * y`. -/
def withoutLeapDays (doe : ℕ) : ℕ := doe - doe / 1460 + doe / 36524 - doe / 146096

theorem withoutLeapDays_mono {doe doe' : ℕ} (h : doe ≤ doe') (h' : doe' < 146097) :
    withoutLeapDays doe ≤ withoutLeapDays doe' := by
  induction doe', h using Nat.le_induction with
  | base => exact le_refl _
  | succ doe' _ ih =>
    refine (ih (by omega)).trans ?_
    by_cases hlast : doe' = 146095
    · rw [hlast]
      decide
    · -- before its last day a cycle has lost no day to the fourth term
      have hfourth : doe' / 146096 = 0 := by omega
      have hfourth' : (doe' + 1) / 146096 = 0 := by omega
      unfold withoutLeapDays
      omega

/-- The first and the last day of each year of a cycle. -/
theorem withoutLeapDays_days : ∀ y < 400, 365 * y ≤ withoutLeapDays (daysBefore y) ∧
    withoutLeapDays (daysBefore (y + 1) - 1) < 365 * (y + 1) := by
  decide +kernel

theorem daysBefore_pos {y : ℕ} (h : y < 400) :
    0 < daysBefore (y + 1) ∧ daysBefore (y + 1) ≤ 146097 := by
  unfold daysBefore
  omega

theorem daysBefore_succ_le (y : ℕ) : daysBefore (y + 1) ≤ daysBefore y + 366 := by
  unfold daysBefore
  omega

/-- A day lies in the year the formula gives. -/
theorem year_bounds {doe : ℕ} (h : doe < 146097) :
    withoutLeapDays doe / 365 < 400 ∧ daysBefore (withoutLeapDays doe / 365) ≤ doe ∧
      doe < daysBefore (withoutLeapDays doe / 365 + 1) := by
  have hupper : withoutLeapDays doe < 365 * 400 :=
    (withoutLeapDays_mono (show doe ≤ 146096 by omega) (by omega)).trans_lt (by decide)
  have hyear : withoutLeapDays doe / 365 < 400 := by omega
  refine ⟨hyear, ?_, ?_⟩
  -- a day before its year would have fewer days without leap days than the year has
  · by_contra hbefore
    obtain ⟨y, hy⟩ : ∃ y, withoutLeapDays doe / 365 = y + 1 := by
      refine Nat.exists_eq_succ_of_ne_zero fun hzero => hbefore ?_
      rw [hzero]
      exact Nat.zero_le _
    rw [hy] at hbefore
    have hlast := (withoutLeapDays_days y (by omega)).2
    have hpos := daysBefore_pos (show y < 400 by omega)
    have hmono := withoutLeapDays_mono (show doe ≤ daysBefore (y + 1) - 1 by omega) (by omega)
    omega
  -- and one after it as many as the next year has
  · by_contra hafter
    -- the last year of the era has no next one
    by_cases hend : withoutLeapDays doe / 365 + 1 = 400
    · rw [hend] at hafter
      have hdays : daysBefore 400 = 146097 := by decide
      omega
    · have hfirst := (withoutLeapDays_days (withoutLeapDays doe / 365 + 1) (by omega)).1
      have hmono := withoutLeapDays_mono (not_lt.mp hafter) h
      omega

/-- A date is before another one. -/
def Before (a b : ℕ × ℕ × ℕ) : Prop :=
  a.1 < b.1 ∨ a.1 = b.1 ∧ (a.2.1 < b.2.1 ∨ a.2.1 = b.2.1 ∧ a.2.2 < b.2.2)

/-- The date of a day, by the year of its cycle and the day of that year. -/
def dateOf (era yoe doy : ℕ) : ℕ × ℕ × ℕ :=
  let mp := (5 * doy + 2) / 153
  let month := if mp < 10 then mp + 3 else mp - 9
  (yoe + era * 400 + (if month ≤ 2 then 1 else 0), month, doy - (153 * mp + 2) / 5 + 1)

theorem dateOf_before_of_day {era yoe doy doy' : ℕ} (h : doy < doy') (h' : doy' < 366) :
    Before (dateOf era yoe doy) (dateOf era yoe doy') := by
  unfold Before dateOf
  dsimp only
  split <;> split <;> split <;> split <;> omega

theorem dateOf_before_of_year {era yoe doy era' yoe' doy' : ℕ}
    (hyear : yoe + era * 400 < yoe' + era' * 400) (h : doy < 366) :
    Before (dateOf era yoe doy) (dateOf era' yoe' doy') := by
  unfold Before dateOf
  dsimp only
  split <;> split <;> split <;> split <;> omega

/-- The year of the cycle and the day of the year. -/
theorem civil_eq (day : ℕ) :
    civil day = dateOf ((day + 306) / 146097) (withoutLeapDays ((day + 306) % 146097) / 365)
      ((day + 306) % 146097 - (365 * (withoutLeapDays ((day + 306) % 146097) / 365)
        + withoutLeapDays ((day + 306) % 146097) / 365 / 4
        - withoutLeapDays ((day + 306) % 146097) / 365 / 100)) := rfl

/-- The days before a year of a cycle, as `civil` subtracts them. -/
theorem daysBefore_eq {y : ℕ} (h : y < 400) : daysBefore y = 365 * y + y / 4 - y / 100 := by
  unfold daysBefore
  omega

theorem civil_before {a b : ℕ} (h : a < b) : Before (civil a) (civil b) := by
  rw [civil_eq, civil_eq]
  have ha := @year_bounds ((a + 306) % 146097) (Nat.mod_lt _ (by decide))
  have hb := @year_bounds ((b + 306) % 146097) (Nat.mod_lt _ (by decide))
  have hya := daysBefore_eq ha.1
  have hyb := daysBefore_eq hb.1
  have hla := daysBefore_succ_le (withoutLeapDays ((a + 306) % 146097) / 365)
  have hlb := daysBefore_succ_le (withoutLeapDays ((b + 306) % 146097) / 365)
  rw [← hya, ← hyb]
  -- within one era the day of the era decides, else the era
  by_cases hera : (a + 306) / 146097 = (b + 306) / 146097
  · have hday : (a + 306) % 146097 < (b + 306) % 146097 := by omega
    have hmono := withoutLeapDays_mono hday.le (Nat.mod_lt _ (by decide))
    have hyears := Nat.div_le_div_right (c := 365) hmono
    -- within one year the day of the year
    rcases Nat.lt_or_eq_of_le hyears with hyear | hyear
    · exact dateOf_before_of_year (by omega) (by omega)
    · rw [hera, hyear]
      rw [hyear] at ha
      exact dateOf_before_of_day (by omega) (by omega)
  · exact dateOf_before_of_year (by omega) (by omega)

theorem before_asymm {a b : ℕ × ℕ × ℕ} (h : Before a b) : ¬ Before b a := by
  unfold Before at *
  omega

/-- Days compare as their dates. -/
theorem civil_before_iff {a b : ℕ} : Before (civil a) (civil b) ↔ a < b := by
  refine ⟨fun h => ?_, civil_before⟩
  rcases lt_trichotomy a b with hlt | heq | hgt
  · exact hlt
  · rw [heq] at h
    exact absurd h (before_asymm h)
  · exact absurd h (before_asymm (civil_before hgt))

theorem civil_inj {a b : ℕ} : civil a = civil b ↔ a = b := by
  refine ⟨fun h => ?_, congrArg civil⟩
  rcases lt_trichotomy a b with hlt | heq | hgt
  · have hbefore := civil_before hlt
    rw [h] at hbefore
    exact absurd hbefore (before_asymm hbefore)
  · exact heq
  · have hbefore := civil_before hgt
    rw [h] at hbefore
    exact absurd hbefore (before_asymm hbefore)

theorem civil_month_day_lt (day : ℕ) : (civil day).2.1 < 100 ∧ (civil day).2.2 < 100 := by
  have hyear := @year_bounds ((day + 306) % 146097) (Nat.mod_lt _ (by decide))
  have hbefore := daysBefore_eq hyear.1
  have hlast := daysBefore_succ_le (withoutLeapDays ((day + 306) % 146097) / 365)
  rw [civil_eq, ← hbefore]
  have hdoy : (day + 306) % 146097 -
      daysBefore (withoutLeapDays ((day + 306) % 146097) / 365) < 366 := by omega
  generalize (day + 306) % 146097 -
    daysBefore (withoutLeapDays ((day + 306) % 146097) / 365) = doy at hdoy
  unfold dateOf
  dsimp only
  split <;> omega

/-- The last representable day is in the year 9999. -/
theorem civil_year_lt {day : ℕ} (h : day < 3652059) : (civil day).1 < 10000 := by
  have hlast : (civil 3652058).1 = 9999 := by decide
  rcases Nat.lt_or_eq_of_le (show day ≤ 3652058 by omega) with hlt | heq
  · rcases civil_before hlt with hyear | ⟨hyear, -⟩ <;> omega
  · rw [heq]
    omega

/-! ## The text -/

theorem toList_padded (width n : ℕ) : (padded width n).toList = decimal width n := by
  have hdigits : (toString n).toList = Nat.toDigits 10 n := Nat.toList_repr
  rw [padded, hdigits, String.toList_ofList, decimal]

/-- A date, as a timestamp begins. -/
def dateText (date : ℕ × ℕ × ℕ) (rest : List Char) : List Char :=
  decimal 4 date.1 ++ (['-'] ++ (decimal 2 date.2.1 ++ (['-'] ++ (decimal 2 date.2.2 ++ rest))))

/-- A time of the day to the microsecond, as a timestamp ends. -/
def clockText (second micros : ℕ) : List Char :=
  ['T'] ++ (decimal 2 (second / 3600) ++ ([':'] ++ (decimal 2 (second / 60 % 60) ++ ([':'] ++
    (decimal 2 (second % 60) ++ (['.'] ++ (decimal 6 micros ++ ['Z'])))))))

/-- The layout of a timestamp. -/
theorem toList_rfc3339 (value : DateTime) :
    value.rfc3339.toList = dateText (civil (value.micros / 1000000 / 86400))
      (clockText (value.micros / 1000000 % 86400) (value.micros % 1000000)) := by
  simp only [rfc3339, secondsText, dateText, clockText, String.toList_append, toList_padded,
    List.append_assoc]
  rfl

/-- The parts of a date fit their fields. -/
def Printable (date : ℕ × ℕ × ℕ) : Prop := date.1 < 10 ^ 4 ∧ date.2.1 < 10 ^ 2 ∧ date.2.2 < 10 ^ 2

theorem printable_civil {day : ℕ} (h : day < 3652059) : Printable (civil day) :=
  ⟨civil_year_lt h, civil_month_day_lt day⟩

theorem dateText_lt_dateText_iff {a b : ℕ × ℕ × ℕ} {rest rest' : List Char} (ha : Printable a)
    (hb : Printable b) : dateText a rest < dateText b rest' ↔ Before a b ∨ a = b ∧ rest < rest' := by
  obtain ⟨hyear, hmonth, hday⟩ := ha
  obtain ⟨hyear', hmonth', hday'⟩ := hb
  rw [dateText, dateText, Lexicographic.decimal_append_lt_iff (by decide) hyear hyear',
    Lexicographic.append_lt_append_left_iff,
    Lexicographic.decimal_append_lt_iff (by decide) hmonth hmonth',
    Lexicographic.append_lt_append_left_iff,
    Lexicographic.decimal_append_lt_iff (by decide) hday hday', Prod.ext_iff, Prod.ext_iff, Before]
  tauto

theorem dateText_lt_iff {a b : ℕ} {rest rest' : List Char} (ha : a < 3652059)
    (hb : b < 3652059) :
    dateText (civil a) rest < dateText (civil b) rest' ↔ a < b ∨ a = b ∧ rest < rest' := by
  rw [dateText_lt_dateText_iff (printable_civil ha) (printable_civil hb), civil_before_iff, civil_inj]

theorem clockText_lt_iff {second second' micros micros' : ℕ} (hs : second < 86400)
    (hs' : second' < 86400) (hm : micros < 1000000) (hm' : micros' < 1000000) :
    clockText second micros < clockText second' micros' ↔
      second < second' ∨ second = second' ∧ micros < micros' := by
  have hirrefl : ¬ ['Z'] < ['Z'] := List.lt_irrefl _
  rw [clockText, clockText, Lexicographic.append_lt_append_left_iff,
    Lexicographic.decimal_append_lt_iff (by decide) (by omega) (by omega),
    Lexicographic.append_lt_append_left_iff,
    Lexicographic.decimal_append_lt_iff (by decide) (by omega) (by omega),
    Lexicographic.append_lt_append_left_iff,
    Lexicographic.decimal_append_lt_iff (by decide) (by omega) (by omega),
    Lexicographic.append_lt_append_left_iff,
    Lexicographic.decimal_append_lt_iff (by decide) hm hm']
  simp only [hirrefl, and_false, or_false]
  omega

/-- Timestamps compare as the instants they name. -/
theorem rfc3339_lt_iff {a b : DateTime} (ha : a.representable = true)
    (hb : b.representable = true) : a.rfc3339 < b.rfc3339 ↔ a < b := by
  simp only [representable, decide_eq_true_eq] at ha hb
  rw [String.lt_iff, toList_rfc3339, toList_rfc3339, dateText_lt_iff (by omega) (by omega),
    clockText_lt_iff (by omega) (by omega) (by omega) (by omega)]
  show _ ↔ a.micros < b.micros
  omega

theorem rfc3339_le_iff {a b : DateTime} (ha : a.representable = true)
    (hb : b.representable = true) : a.rfc3339 ≤ b.rfc3339 ↔ a ≤ b := by
  rw [← String.not_lt, rfc3339_lt_iff hb ha]
  show ¬ b.micros < a.micros ↔ a.micros ≤ b.micros
  omega

end DateTime

end FrappeController
