import Mathlib.Order.Interval.Set.Basic
import MiniWallet.Python.Datetime

/-!
# Payment scheduler

How the scheduler advances a recurring payment. It adds one period to the time at which the payment
was due, and the result is all that is kept.

* `advanceSchedule`: one period.
* `Date.nextMonth`: what `relativedelta(months=1)` does to a date.
* `advanceTimes`: any number of periods.
* `day_advanceTimes`: the day that is left after any number of months.
* `monthly_iff`: whether it is the day of the start.
* `monthly_drifts`: a payment that starts on the 31st.
-/

namespace Python

/-! ## Calendar months -/

/-- The months, numbered from the beginning of the calendar. -/
def Date.monthIndex (d : Date) : ℕ := d.year * 12 + (d.month - 1)

/-- The number of days of a month, given by its number. -/
def monthLength (index : ℕ) : ℕ := daysInMonth (isLeap (index / 12)) (index % 12 + 1)

/-- The date in the next month, clipped to the last day of that month. -/
def Date.nextMonth (d : Date) : Date :=
  let index := d.monthIndex + 1
  { year := index / 12
    month := index % 12 + 1
    day := min d.day (monthLength index) }

/-- The date `n` calendar months later, with the same day, clipped to the last day of the month. -/
def Date.addMonths (d : Date) (n : ℕ) : Date :=
  let index := d.monthIndex + n
  { year := index / 12
    month := index % 12 + 1
    day := min d.day (monthLength index) }

/-- No month is empty. -/
theorem monthLength_pos (index : ℕ) : 0 < monthLength index := by
  have hall : ∀ leap : Bool, ∀ month < 12, 0 < daysInMonth leap (month + 1) := by decide
  exact hall _ _ (Nat.mod_lt _ (by decide))

variable {d : Date} {n : ℕ}

/-- The number of the month of a date that was given by it. -/
theorem monthIndex_mk (index day : ℕ) :
    (⟨index / 12, index % 12 + 1, day⟩ : Date).monthIndex = index := by
  rw [Date.monthIndex]
  dsimp only
  omega

/-- The next month has the next number. -/
theorem Date.monthIndex_nextMonth : d.nextMonth.monthIndex = d.monthIndex + 1 := monthIndex_mk _ _

/-- The next month of a date exists, unless it is after the year 9999. -/
theorem Date.valid_nextMonth (h : d.valid) (hrange : (d.monthIndex + 1) / 12 ≤ 9999) :
    d.nextMonth.valid := by
  simp only [Date.valid, Bool.and_eq_true, decide_eq_true_eq] at h ⊢
  obtain ⟨⟨⟨⟨⟨hyear, -⟩, hmonth⟩, -⟩, hday⟩, -⟩ := h
  have hindex : 12 ≤ d.monthIndex := by
    rw [Date.monthIndex]
    omega
  have hpos := monthLength_pos (d.monthIndex + 1)
  unfold Date.nextMonth
  dsimp only
  refine ⟨⟨⟨⟨⟨?_, hrange⟩, ?_⟩, ?_⟩, ?_⟩, min_le_right _ _⟩
  · omega
  · omega
  · omega
  · exact le_min hday hpos

end Python

namespace MiniWallet

namespace PaymentScheduler

open Python

/-- A `datetime`. Adding months leaves its time of day and its zone alone. -/
structure DateTime (Zone : Type) where
  date : Date
  /-- The time of the day, in microseconds. -/
  time : ℕ
  tzinfo : Zone
deriving DecidableEq, Repr

/-- A `relativedelta`. -/
structure RelativeDelta where
  days : ℤ := 0
  weeks : ℤ := 0
  months : ℤ := 0

/-- The exceptions that `advance_schedule` can raise. -/
inductive Exc
  | valueError (message : String)
  | overflowError (message : String)
deriving DecidableEq, Repr

variable {Zone : Type}

/-- `current + delta`, which `dateutil` computes. -/
abbrev Add (Zone : Type) := DateTime Zone → RelativeDelta → Except Exc (DateTime Zone)

section Advance

variable (add : Add Zone)

/-- Advance `next_run_at` by one period. -/
def advanceSchedule (current : DateTime Zone) (frequency : String) : Except Exc (DateTime Zone) :=
  if frequency = "daily" then add current { days := 1 }
  else if frequency = "weekly" then add current { weeks := 1 }
  else if frequency = "monthly" then add current { months := 1 }
  else .error (.valueError ("Unknown frequency: " ++ frequency))

/-- `next_run_at` after `n` periods. -/
def advanceTimes (frequency : String) : ℕ → DateTime Zone → Except Exc (DateTime Zone)
  | 0, s => .ok s
  | n + 1, s => do advanceSchedule add (← advanceTimes frequency n s) frequency

end Advance

/-- Adding one month keeps the day of the month, clipped to the last day of the next month, and the
rest of the `datetime`, as long as the year is one that a `datetime` can hold. -/
def AddsMonth (add : Add Zone) : Prop :=
  ∀ s : DateTime Zone, s.date.valid → (s.date.monthIndex + 1) / 12 ≤ 9999 →
    add s { months := 1 } = .ok { s with date := s.date.nextMonth }

variable {add : Add Zone} {s : DateTime Zone}

/-- The date after `n` single months. -/
def monthsLater (d : Date) : ℕ → Date
  | 0 => d
  | n + 1 => (monthsLater d n).nextMonth

/-- Every step is one month. -/
theorem monthIndex_monthsLater (d : Date) (n : ℕ) :
    (monthsLater d n).monthIndex = d.monthIndex + n := by
  induction n with
  | zero => rfl
  | succ n ih => rw [monthsLater, Date.monthIndex_nextMonth, ih, Nat.add_assoc]

/-- The dates exist. -/
theorem valid_monthsLater {d : Date} (h : d.valid) {n : ℕ}
    (hrange : (d.monthIndex + n) / 12 ≤ 9999) :
    (monthsLater d n).valid := by
  induction n with
  | zero => exact h
  | succ n ih =>
      have hindex := monthIndex_monthsLater d n
      refine Date.valid_nextMonth (ih ?_) ?_
      · exact (Nat.div_le_div_right (by omega)).trans hrange
      · rwa [hindex, Nat.add_assoc]

/-- A monthly payment is advanced month by month. -/
theorem advanceTimes_monthly (hadd : AddsMonth add) (hs : s.date.valid) {n : ℕ}
    (hrange : (s.date.monthIndex + n) / 12 ≤ 9999) :
    advanceTimes add "monthly" n s = .ok { s with date := monthsLater s.date n } := by
  induction n with
  | zero => rfl
  | succ n ih =>
      have hbefore : (s.date.monthIndex + n) / 12 ≤ 9999 :=
        (Nat.div_le_div_right (by omega)).trans hrange
      have hstep : ((monthsLater s.date n).monthIndex + 1) / 12 ≤ 9999 := by
        rwa [monthIndex_monthsLater, Nat.add_assoc]
      rw [advanceTimes, ih hbefore]
      exact hadd _ (valid_monthsLater hs hbefore) hstep

/-! ## The day that is left -/

/-- Every step clips the day that the steps before it have left. -/
theorem day_monthsLater_succ (d : Date) (n : ℕ) :
    (monthsLater d (n + 1)).day =
      min (monthsLater d n).day (monthLength (d.monthIndex + (n + 1))) := by
  rw [monthsLater, Date.nextMonth, monthIndex_monthsLater, Nat.add_assoc]

/-- After `n` months the day is the least of the day of the start and the lengths of the months
since then. -/
theorem day_monthsLater (d : Date) (n : ℕ) :
    IsLeast (insert d.day ((fun k => monthLength (d.monthIndex + k)) '' Set.Icc 1 n))
      (monthsLater d n).day := by
  induction n with
  | zero =>
      refine ⟨Set.mem_insert _ _, ?_⟩
      rintro _ (rfl | ⟨k, hk, rfl⟩)
      · exact le_rfl
      · obtain ⟨hlow, hhigh⟩ := hk
        omega
  | succ n ih =>
      obtain ⟨hmem, hlower⟩ := ih
      rw [day_monthsLater_succ]
      refine ⟨?_, ?_⟩
      · rcases min_choice (monthsLater d n).day (monthLength (d.monthIndex + (n + 1))) with h | h
        · rw [h]
          refine Set.insert_subset_insert (Set.image_mono ?_) hmem
          exact Set.Icc_subset_Icc_right (Nat.le_succ n)
        · rw [h]
          exact .inr ⟨n + 1, ⟨by omega, le_rfl⟩, rfl⟩
      · rintro _ (rfl | ⟨k, hk, rfl⟩)
        · exact (min_le_left _ _).trans (hlower (Set.mem_insert _ _))
        · -- the last month, or one before it
          obtain ⟨hlow, hhigh⟩ := hk
          rcases Nat.lt_or_ge n k with hlast | hbefore
          · obtain rfl : k = n + 1 := by omega
            exact min_le_right _ _
          · exact (min_le_left _ _).trans (hlower (.inr ⟨k, ⟨hlow, hbefore⟩, rfl⟩))

/-- A date lies in its month. -/
theorem day_le_monthLength {d : Date} (h : d.valid) : d.day ≤ monthLength d.monthIndex := by
  simp only [Date.valid, Bool.and_eq_true, decide_eq_true_eq] at h
  obtain ⟨⟨⟨⟨-, hlow⟩, hhigh⟩, -⟩, hday⟩ := h
  have hyear : d.monthIndex / 12 = d.year := by
    rw [Date.monthIndex]
    omega
  have hmonth : d.monthIndex % 12 + 1 = d.month := by
    rw [Date.monthIndex]
    omega
  rwa [monthLength, hyear, hmonth]

/-- The day is that of the start, clipped to the last day of the month, exactly if no month in
between is too short for it. -/
theorem day_eq_iff {d : Date} (h : d.valid) (n : ℕ) :
    (monthsLater d n).day = min d.day (monthLength (d.monthIndex + n)) ↔
      ∀ k, 0 < k → k < n → min d.day (monthLength (d.monthIndex + n)) ≤
        monthLength (d.monthIndex + k) := by
  -- the day is the least one met on the way: that of the start, or a last day of a month
  obtain ⟨hmem, hlower⟩ := day_monthsLater d n
  constructor
  · intro hday k hlow hhigh
    rw [← hday]
    exact hlower (.inr ⟨k, ⟨hlow, hhigh.le⟩, rfl⟩)
  · -- no month in between clips the day further
    intro hall
    refine le_antisymm (le_min (hlower (Set.mem_insert _ _)) ?_) ?_
    · rcases Nat.eq_zero_or_pos n with rfl | hn
      · exact day_le_monthLength h
      · exact hlower (.inr ⟨n, ⟨hn, le_rfl⟩, rfl⟩)
    · rcases hmem with hday | ⟨k, ⟨hlow, hhigh⟩, hday⟩
      · rw [hday]
        exact min_le_left _ _
      · dsimp only at hday
        rw [← hday]
        rcases hhigh.lt_or_eq with hbefore | rfl
        · exact hall k hlow hbefore
        · exact min_le_right _ _

/-- The month of a date after any number of months. -/
theorem month_monthsLater {d : Date} (h : d.valid) (n : ℕ) :
    1 ≤ (monthsLater d n).month ∧ (monthsLater d n).month ≤ 12 := by
  cases n with
  | zero =>
      simp only [Date.valid, Bool.and_eq_true, decide_eq_true_eq] at h
      exact ⟨h.1.1.1.2, h.1.1.2⟩
  | succ n =>
      rw [monthsLater, Date.nextMonth]
      dsimp only
      omega

/-- Only the day can be another one than after adding all months at once. -/
theorem monthsLater_eq_iff {d : Date} (h : d.valid) (n : ℕ) :
    monthsLater d n = d.addMonths n ↔
      (monthsLater d n).day = min d.day (monthLength (d.monthIndex + n)) := by
  refine ⟨fun heq => by rw [heq]; rfl, fun hday => ?_⟩
  obtain ⟨hlow, hhigh⟩ := month_monthsLater h n
  have hindex := monthIndex_monthsLater d n
  have hyear : (monthsLater d n).monthIndex / 12 = (monthsLater d n).year := by
    rw [Date.monthIndex]
    omega
  have hmonth : (monthsLater d n).monthIndex % 12 + 1 = (monthsLater d n).month := by
    rw [Date.monthIndex]
    omega
  rw [Date.addMonths, ← hday, ← hindex, hyear, hmonth]

/-- For every start and any number of months later within the years of a `datetime`: a monthly
payment is due that many calendar months after the start, at the same time of day, on the day of the
start clipped to the last day of the month, exactly if no month in between is too short for that
day. -/
theorem monthly_iff (hadd : AddsMonth add) (hs : s.date.valid) {n : ℕ}
    (hrange : (s.date.monthIndex + n) / 12 ≤ 9999) :
    advanceTimes add "monthly" n s = .ok { s with date := s.date.addMonths n } ↔
      ∀ k, 0 < k → k < n → min s.date.day (monthLength (s.date.monthIndex + n)) ≤
        monthLength (s.date.monthIndex + k) := by
  rw [advanceTimes_monthly hadd hs hrange, ← day_eq_iff hs n, ← monthsLater_eq_iff hs n,
    Except.ok.injEq, DateTime.mk.injEq]
  exact ⟨fun h => h.1, fun h => ⟨h, rfl, rfl⟩⟩

/-! ## Examples -/

/-- `current + delta` for periods that are not negative: first the months, by `replace`, and then
the days, by adding a `timedelta`. Past the year 9999 the first raises `ValueError` and the second
`OverflowError`. -/
def dateutil : Add Zone := fun current delta =>
  let date := current.date.addMonths delta.months.toNat
  if 9999 < date.year then
    .error (.valueError ("year " ++ toString date.year ++ " is out of range"))
  else if delta.days = 0 ∧ delta.weeks = 0 then .ok { current with date := date }
  else
    let ordinal := toOrdinal date + (delta.days + 7 * delta.weeks).toNat
    if 3652059 < ordinal then .error (.overflowError "date value out of range")
    else .ok { current with date := ofOrdinal ordinal }

/-- The computation adds a month as it should. -/
theorem addsMonth_dateutil : AddsMonth (@dateutil Zone) := by
  intro s _ hrange
  have hyear : ¬ 9999 < (s.date.addMonths 1).year := not_lt.mpr hrange
  show (if 9999 < (s.date.addMonths 1).year then _ else _) = _
  rw [if_neg hyear, if_pos ⟨rfl, rfl⟩]
  rfl

/-- A payment that is due on the 31st of January 2025, at half past two. -/
def january : DateTime String where
  date := ⟨2025, 1, 31⟩
  time := 52200000000
  tzinfo := "UTC"

/-- The February in between is too short for a payment that is due on the 31st. -/
theorem monthly_iff_january :
    advanceTimes dateutil "monthly" 7 january ≠
      .ok { january with date := january.date.addMonths 7 } := by
  have hiff := monthly_iff addsMonth_dateutil (by decide : january.date.valid = true)
    (n := 7) (by decide)
  intro h
  exact absurd (hiff.mp h 1) (by decide)

/-- Two months after the 31st of January the payment is due on the 28th of March. -/
theorem monthly_drifts :
    advanceTimes dateutil "monthly" 2 january = .ok { january with date := ⟨2025, 3, 28⟩ } ∧
      january.date.addMonths 2 = ⟨2025, 3, 31⟩ := by
  decide

end PaymentScheduler

end MiniWallet
