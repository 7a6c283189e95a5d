import Mathlib.Algebra.BigOperators.Group.Finset.Basic
import Mathlib.Algebra.Order.Ring.Int

/-!
# Days

The arithmetic of ECMAScript's dates: a time is in milliseconds since the epoch, a day is
86 400 000 of them, and years, months and days of the month are those of the Gregorian
calendar, without an end on either side.

A day is in its year (`yearOf_spec`). It is the year's first day, and the days of the months
before, and the day of the month (`makeDay_date`), so a day of the month that is moved by some
days moves the day by as many (`makeDay_add`), whatever month or year that leads to.

Half-open spans of time, of which each begins as the next one ends, share no instant and
leave none out (`Chain.once`), and what is counted in them adds up (`spanSum_chain`).
-/

namespace Calendar

def msPerDay : ℤ := 86400000

def day (t : ℤ) : ℤ := t / msPerDay

def timeWithinDay (t : ℤ) : ℤ := t % msPerDay

/-- `MakeDate`. -/
def makeDate (d time : ℤ) : ℤ := d * msPerDay + time

/-- `TimeClip`: the times that a date can have. -/
def timeClip (t : ℤ) : Option ℤ := if t.natAbs ≤ 8640000000000000 then some t else none

theorem timeClip_eq_some_iff {t u : ℤ} :
    timeClip t = some u ↔ u = t ∧ t.natAbs ≤ 8640000000000000 := by
  unfold timeClip
  split
  · next h => exact ⟨fun hu => ⟨(Option.some.inj hu).symm, h⟩, fun hu => congrArg some hu.1.symm⟩
  · next h => exact ⟨fun hu => (by cases hu), fun hu => absurd hu.2 h⟩

theorem makeDate_day (t : ℤ) : makeDate (day t) (timeWithinDay t) = t := by
  unfold makeDate day timeWithinDay
  rw [Int.mul_comm]
  exact Int.mul_ediv_add_emod t msPerDay

/-! ## Years -/

/-- `DayFromYear`: the first day of a year. -/
def dayFromYear (y : ℤ) : ℤ :=
  365 * (y - 1970) + (y - 1969) / 4 - (y - 1901) / 100 + (y - 1601) / 400

/-- The year has 366 days. -/
def leap (y : ℤ) : Bool := y % 4 == 0 && (y % 100 != 0 || y % 400 == 0)

/-- `YearFromTime`, of a day. Four hundred years have 146097 days. -/
def yearOf (d : ℤ) : ℤ :=
  let y := 1970 + d * 400 / 146097
  if d < dayFromYear y then y - 1 else if dayFromYear (y + 1) ≤ d then y + 1 else y

/-- A year begins about where it would if all were as long. -/
theorem dayFromYear_near (y : ℤ) : 146097 * (y - 1970) - 506 ≤ 400 * dayFromYear y
    ∧ 400 * dayFromYear y ≤ 146097 * (y - 1970) + 589 := by
  unfold dayFromYear
  omega

/-- **The day is in its year.** -/
theorem yearOf_spec (d : ℤ) : dayFromYear (yearOf d) ≤ d ∧ d < dayFromYear (yearOf d + 1) := by
  unfold yearOf
  dsimp only
  have hguess : 146097 * (1970 + d * 400 / 146097 - 1970) ≤ 400 * d
      ∧ 400 * d < 146097 * (1970 + d * 400 / 146097 - 1970) + 146097 := by omega
  generalize 1970 + d * 400 / 146097 = y at hguess ⊢
  split
  · next hbefore =>
    rw [Int.sub_add_cancel]
    refine ⟨?_, hbefore⟩
    have hnear := dayFromYear_near (y - 1)
    omega
  · next hnot =>
    split
    · next hafter =>
      refine ⟨hafter, ?_⟩
      have hnear := dayFromYear_near (y + 1 + 1)
      omega
    · next hafter => exact ⟨not_lt.mp hnot, not_le.mp hafter⟩

/-! ## Months -/

/-- The days of a year before a month, which are counted from zero. -/
def monthStart (leapYear : Bool) (m : ℤ) : ℤ :=
  let l : ℤ := if leapYear then 1 else 0
  if m ≤ 0 then 0 else if m = 1 then 31 else if m = 2 then 59 + l else if m = 3 then 90 + l
  else if m = 4 then 120 + l else if m = 5 then 151 + l else if m = 6 then 181 + l
  else if m = 7 then 212 + l else if m = 8 then 243 + l else if m = 9 then 273 + l
  else if m = 10 then 304 + l else 334 + l

/-- `MonthFromTime`, of a day of the year. -/
def monthIn (leapYear : Bool) (d : ℤ) : ℤ :=
  let l : ℤ := if leapYear then 1 else 0
  if d < 31 then 0 else if d < 59 + l then 1 else if d < 90 + l then 2 else if d < 120 + l then 3
  else if d < 151 + l then 4 else if d < 181 + l then 5 else if d < 212 + l then 6
  else if d < 243 + l then 7 else if d < 273 + l then 8 else if d < 304 + l then 9
  else if d < 334 + l then 10 else 11

/-- `DayWithinYear`. -/
def dayWithinYear (d : ℤ) : ℤ := d - dayFromYear (yearOf d)

def monthOf (d : ℤ) : ℤ := monthIn (leap (yearOf d)) (dayWithinYear d)

/-- `DateFromTime`, of a day: the day of the month, counted from one. -/
def dateOf (d : ℤ) : ℤ := dayWithinYear d - monthStart (leap (yearOf d)) (monthOf d) + 1

/-- `MakeDay`. Months and days that are too many, or negative, lead to other months and
years. -/
def makeDay (y m date : ℤ) : ℤ :=
  let year := y + m / 12
  dayFromYear year + monthStart (leap year) (m % 12) + date - 1

theorem ite_month {c : Prop} [Decidable c] {m n : ℤ} (hm : 0 ≤ m ∧ m < 12)
    (hn : 0 ≤ n ∧ n < 12) : 0 ≤ (if c then m else n) ∧ (if c then m else n) < 12 := by
  split
  · exact hm
  · exact hn

theorem monthIn_range (leapYear : Bool) (d : ℤ) :
    0 ≤ monthIn leapYear d ∧ monthIn leapYear d < 12 := by
  unfold monthIn
  repeat' apply ite_month
  all_goals decide

/-- **A day is made of its year, its month and its day of the month.** -/
theorem makeDay_date (d : ℤ) : makeDay (yearOf d) (monthOf d) (dateOf d) = d := by
  obtain ⟨hlow, hhigh⟩ := monthIn_range (leap (yearOf d)) (dayWithinYear d)
  have hyear : monthOf d / 12 = 0 := Int.ediv_eq_zero_of_lt hlow hhigh
  have hmonth : monthOf d % 12 = monthOf d := Int.emod_eq_of_lt hlow hhigh
  unfold makeDay dateOf
  dsimp only
  rw [hyear, hmonth, Int.add_zero]
  unfold dayWithinYear
  omega

/-- **Moving the day of the month moves the day.** -/
theorem makeDay_add (d k : ℤ) : makeDay (yearOf d) (monthOf d) (dateOf d + k) = d + k := by
  have hself := makeDay_date d
  unfold makeDay at hself ⊢
  dsimp only at hself ⊢
  omega

/-! ## Spans of time -/

/-- The instant is there, and in the half-open span. -/
def within (start stop : ℤ) (t : Option ℤ) : Bool :=
  t.any fun t => decide (start ≤ t) && decide (t < stop)

section Spans

variable {ρ M : Type} [AddCommMonoid M]

/-- What the rows of a span come to. -/
def spanSum (base : ρ → Bool) (key : ρ → Option ℤ) (f : ρ → M) (rows : List ρ)
    (start stop : ℤ) : M :=
  ((rows.filter fun r => base r && within start stop (key r)).map f).sum

theorem spanSum_nil (base : ρ → Bool) (key : ρ → Option ℤ) (f : ρ → M) (start stop : ℤ) :
    spanSum base key f [] start stop = 0 := rfl

theorem spanSum_cons (base : ρ → Bool) (key : ρ → Option ℤ) (f : ρ → M) (r : ρ) (rows : List ρ)
    (start stop : ℤ) : spanSum base key f (r :: rows) start stop
      = (if base r && within start stop (key r) then f r else 0)
        + spanSum base key f rows start stop := by
  unfold spanSum
  rw [List.filter_cons]
  split
  · rw [List.map_cons, List.sum_cons]
  · rw [zero_add]

/-- An instant of the whole is in one part, and in one only. -/
theorem within_split {a b c : ℤ} (hab : a ≤ b) (hbc : b ≤ c) (t : Option ℤ) :
    within a c t = (within a b t || within b c t)
      ∧ (within a b t && within b c t) = false := by
  unfold within
  cases t with
  | none => exact ⟨rfl, rfl⟩
  | some t =>
    rw [Bool.eq_iff_iff, Bool.eq_false_iff]
    simp only [Option.any_some, Bool.or_eq_true, Bool.and_eq_true, decide_eq_true_eq, ne_eq]
    omega

/-- **Two spans in a row add up to the whole.** -/
theorem spanSum_add (base : ρ → Bool) (key : ρ → Option ℤ) (f : ρ → M) {a b c : ℤ}
    (hab : a ≤ b) (hbc : b ≤ c) (rows : List ρ) :
    spanSum base key f rows a b + spanSum base key f rows b c
      = spanSum base key f rows a c := by
  induction rows with
  | nil => rw [spanSum_nil, spanSum_nil, spanSum_nil, add_zero]
  | cons r rows ih =>
    rw [spanSum_cons, spanSum_cons, spanSum_cons, add_add_add_comm, ih]
    congr 1
    obtain ⟨hor, hand⟩ := within_split hab hbc (key r)
    rw [hor]
    cases base r with
    | false => exact add_zero 0
    | true =>
      cases hfirst : within a b (key r) with
      | false => exact zero_add _
      | true =>
        rw [hfirst, Bool.true_and] at hand
        rw [hand]
        exact add_zero _

end Spans

/-- Spans numbered backwards in time, each of which ends where the one before it begins. -/
structure Chain (bounds : ℕ → ℤ × ℤ) (n : ℕ) : Prop where
  forward : ∀ i ≤ n, (bounds i).1 ≤ (bounds i).2
  meets : ∀ i < n, (bounds (i + 1)).2 = (bounds i).1

theorem Chain.init {bounds : ℕ → ℤ × ℤ} {n : ℕ} (h : Chain bounds (n + 1)) : Chain bounds n where
  forward i hi := h.forward i (Nat.le_succ_of_le hi)
  meets i hi := h.meets i (Nat.lt_succ_of_lt hi)

/-- The spans lead back in time. -/
theorem Chain.back {bounds : ℕ → ℤ × ℤ} {n : ℕ} (h : Chain bounds n) {i : ℕ} (hi : i ≤ n) :
    (bounds n).1 ≤ (bounds i).1 := by
  induction n with
  | zero =>
    rw [Nat.le_zero.mp hi]
  | succ n ih =>
    rcases Nat.le_succ_iff.mp hi with hle | rfl
    · have hlast := h.forward (n + 1) (Nat.le_refl _)
      rw [h.meets n (Nat.lt_succ_self n)] at hlast
      exact Int.le_trans hlast (ih h.init hle)
    · exact Int.le_refl _

/-- **Each instant of the whole is in exactly one of the spans.** -/
theorem Chain.once {bounds : ℕ → ℤ × ℤ} {n : ℕ} (h : Chain bounds n) {t : ℤ}
    (hlow : (bounds n).1 ≤ t) (hhigh : t < (bounds 0).2) :
    ∃! i, i ≤ n ∧ (bounds i).1 ≤ t ∧ t < (bounds i).2 := by
  induction n with
  | zero =>
    refine ⟨0, ⟨Nat.le_refl 0, hlow, hhigh⟩, fun j hj => ?_⟩
    exact Nat.le_zero.mp hj.1
  | succ n ih =>
    by_cases hsplit : (bounds n).1 ≤ t
    · obtain ⟨i, ⟨hi, hin⟩, honly⟩ := ih h.init hsplit
      refine ⟨i, ⟨Nat.le_succ_of_le hi, hin⟩, fun j hj => ?_⟩
      rcases Nat.le_succ_iff.mp hj.1 with hle | rfl
      · exact honly j ⟨hle, hj.2⟩
      · -- the last span ends before
        have hend := hj.2.2
        rw [h.meets n (Nat.lt_succ_self n)] at hend
        omega
    · refine ⟨n + 1, ⟨Nat.le_refl _, hlow, ?_⟩, fun j hj => ?_⟩
      · rw [h.meets n (Nat.lt_succ_self n)]
        exact not_le.mp hsplit
      · rcases Nat.le_succ_iff.mp hj.1 with hle | rfl
        · exact absurd (Int.le_trans (h.init.back hle) hj.2.1) hsplit
        · rfl

/-- **Spans that follow each other add up to the whole.** -/
theorem spanSum_chain {ρ M : Type} [AddCommMonoid M] (base : ρ → Bool) (key : ρ → Option ℤ)
    (f : ρ → M) (rows : List ρ) {bounds : ℕ → ℤ × ℤ} {n : ℕ} (h : Chain bounds n) :
    ∑ i ∈ Finset.range (n + 1), spanSum base key f rows (bounds i).1 (bounds i).2
      = spanSum base key f rows (bounds n).1 (bounds 0).2 := by
  induction n with
  | zero => rw [Finset.sum_range_one]
  | succ n ih =>
    rw [Finset.sum_range_succ, ih h.init, add_comm, ← h.meets n (Nat.lt_succ_self n)]
    refine spanSum_add base key f (h.forward _ (Nat.le_refl _)) ?_ rows
    rw [h.meets n (Nat.lt_succ_self n)]
    exact Int.le_trans (h.init.back (Nat.zero_le n)) (h.forward 0 (Nat.zero_le _))

end Calendar
