import MiniWallet.Python.Text

/-!
# Python's `datetime`

Instants as text. An instant is a number of microseconds since the beginning of 1970, in UTC, and a
`datetime` can hold those of the years 1 to 9999. The calendar is the proleptic Gregorian one, with
days counted from the first of January of the year 1, which is day 1.

* `ofOrdinal`, `toOrdinal`: the date of a day, and the day of a date.
* `toOrdinal_ofOrdinal`: the day of the date of a day.
* `isoformat`: `dt.isoformat()`, for an aware `dt` in UTC.
* `fromisoformat`: `datetime.fromisoformat(text)`.
* `fromisoformat_isoformat`: reading back a written instant.
-/

namespace Python

/-! ## The calendar -/

/-- A date. -/
structure Date where
  year : ℕ
  month : ℕ
  day : ℕ
deriving DecidableEq, Repr

/-- A leap year. -/
def isLeap (year : ℕ) : Bool := year % 4 == 0 && (year % 100 != 0 || year % 400 == 0)

/-- The number of days before the first of January of a year. -/
def daysBeforeYear (year : ℕ) : ℕ :=
  (year - 1) * 365 + (year - 1) / 4 - (year - 1) / 100 + (year - 1) / 400

/-- The number of days before the first of a month. -/
def daysBeforeMonth (leap : Bool) (month : ℕ) : ℕ :=
  [0, 0, 31, 59, 90, 120, 151, 181, 212, 243, 273, 304, 334].getD month 0 +
    if 2 < month && leap then 1 else 0

/-- The number of days of a month. -/
def daysInMonth (leap : Bool) (month : ℕ) : ℕ :=
  [0, 31, 28, 31, 30, 31, 30, 31, 31, 30, 31, 30, 31].getD month 0 +
    if month == 2 && leap then 1 else 0

/-- The date exists, and a `date` can hold it. -/
def Date.valid (d : Date) : Bool :=
  1 ≤ d.year && d.year ≤ 9999 && 1 ≤ d.month && d.month ≤ 12 && 1 ≤ d.day &&
    d.day ≤ daysInMonth (isLeap d.year) d.month

/-- The day of a date. -/
def toOrdinal (d : Date) : ℕ :=
  daysBeforeYear d.year + daysBeforeMonth (isLeap d.year) d.month + d.day

/-- The month in which a day of the year lies, with the days before it. The first estimate is the
right month or the one after it. -/
def monthOfDay (leap : Bool) (n : ℕ) : ℕ × ℕ :=
  let month := (n + 50) / 32
  if n < daysBeforeMonth leap month then (month - 1, daysBeforeMonth leap (month - 1))
  else (month, daysBeforeMonth leap month)

/-- The date of a day. -/
def ofOrdinal (ordinal : ℕ) : Date :=
  let n := ordinal - 1
  let (n400, n) := (n / 146097, n % 146097)
  let (n100, n) := (n / 36524, n % 36524)
  let (n4, n) := (n / 1461, n % 1461)
  let (n1, n) := (n / 365, n % 365)
  let year := n400 * 400 + 1 + n100 * 100 + n4 * 4 + n1
  -- the last day of a cycle of four or of four hundred years
  if n1 == 4 || n100 == 4 then ⟨year - 1, 12, 31⟩
  else
    let (month, before) := monthOfDay (isLeap year) n
    ⟨year, month, n - before + 1⟩

/-- The day of the week of a day, counted from Monday. -/
def weekday (ordinal : ℕ) : ℕ := (ordinal + 6) % 7

/-- The Monday of the first week of an ISO year, which has its Thursday in the year. -/
def isoWeek1Monday (year : ℕ) : ℕ :=
  let firstDay := toOrdinal ⟨year, 1, 1⟩
  let monday := firstDay - weekday firstDay
  if 3 < weekday firstDay then monday + 7 else monday

/-- The date of a day of an ISO week. -/
def ofIsoWeek (year week day : ℕ) : Option Date :=
  let firstWeekday := weekday (toOrdinal ⟨year, 1, 1⟩)
  -- a year that begins on a Thursday has 53 weeks, and a leap year that begins on a Wednesday
  let long := firstWeekday == 3 || (firstWeekday == 2 && isLeap year)
  if 1 ≤ year && 1 ≤ week && (week ≤ 52 || (week == 53 && long)) && 1 ≤ day && day ≤ 7 then
    some (ofOrdinal (isoWeek1Monday year + (week - 1) * 7 + (day - 1)))
  else none

/-- The month of a day of the year, and the days before and in that month. -/
theorem monthOfDay_spec (leap : Bool) {n : ℕ} (h : n < 365) :
    1 ≤ (monthOfDay leap n).1 ∧ (monthOfDay leap n).1 ≤ 12 ∧
      (monthOfDay leap n).2 = daysBeforeMonth leap (monthOfDay leap n).1 ∧
      (monthOfDay leap n).2 ≤ n ∧
      n < (monthOfDay leap n).2 + daysInMonth leap (monthOfDay leap n).1 := by
  have hall : ∀ leap : Bool, ∀ n : Fin 365, 1 ≤ (monthOfDay leap n).1 ∧
      (monthOfDay leap n).1 ≤ 12 ∧
      (monthOfDay leap n).2 = daysBeforeMonth leap (monthOfDay leap n).1 ∧
      (monthOfDay leap n).2 ≤ n ∧
      n < (monthOfDay leap n).2 + daysInMonth leap (monthOfDay leap n).1 := by
    decide +kernel
  exact hall leap ⟨n, h⟩

/-- The days before the year that has the given digits in the cycles of the calendar. -/
theorem daysBeforeYear_cycles {a b c d : ℕ} (hb : b ≤ 3) (hc : c ≤ 24) (hd : d ≤ 3) :
    daysBeforeYear (a * 400 + 1 + b * 100 + c * 4 + d) =
      146097 * a + 36524 * b + 1461 * c + 365 * d := by
  have h4 : (a * 400 + b * 100 + c * 4 + d) / 4 = 100 * a + 25 * b + c := by omega
  have h100 : (a * 400 + b * 100 + c * 4 + d) / 100 = 4 * a + b := by omega
  have h400 : (a * 400 + b * 100 + c * 4 + d) / 400 = a := by omega
  have hyear : a * 400 + 1 + b * 100 + c * 4 + d - 1 = a * 400 + b * 100 + c * 4 + d := by omega
  rw [daysBeforeYear, hyear, h4, h100, h400]
  omega

/-- The last of December of a leap year. -/
theorem toOrdinal_december {year : ℕ} (h : isLeap year) :
    toOrdinal ⟨year, 12, 31⟩ = daysBeforeYear year + 366 := by
  have hdays : daysBeforeMonth true 12 = 335 := rfl
  simp only [toOrdinal, h, hdays]

/-- What the digits of a day in the cycles of the calendar satisfy. -/
structure Cycles (m a b c d r : ℕ) : Prop where
  sum : m = 146097 * a + 36524 * b + 1461 * c + 365 * d + r
  days : r < 365
  years : d ≤ 3 ∨ d = 4 ∧ r = 0 ∧ c ≤ 23
  four : c ≤ 24
  hundred : b ≤ 3 ∨ b = 4 ∧ c = 0 ∧ d = 0 ∧ r = 0

/-- The cycles of 400, 100, 4 years and of one year that a number of days goes through. -/
theorem cycles (m : ℕ) : Cycles m (m / 146097) (m % 146097 / 36524) (m % 146097 % 36524 / 1461)
    (m % 146097 % 36524 % 1461 / 365) (m % 146097 % 36524 % 1461 % 365) := by
  constructor <;> omega

/-- The day of the date of a day. -/
theorem toOrdinal_ofOrdinal {n : ℕ} (h : 1 ≤ n) : toOrdinal (ofOrdinal n) = n := by
  unfold ofOrdinal
  dsimp only
  obtain ⟨hsum, hdays, hyears, hfour, hhundred⟩ := cycles (n - 1)
  generalize (n - 1) / 146097 = a at *
  generalize (n - 1) % 146097 / 36524 = b at *
  generalize (n - 1) % 146097 % 36524 / 1461 = c at *
  generalize (n - 1) % 146097 % 36524 % 1461 / 365 = d at *
  generalize (n - 1) % 146097 % 36524 % 1461 % 365 = r at *
  split
  · next hlast =>
    -- the day belongs to the last year of its cycle
    have hcases : d = 4 ∨ b = 4 := by simpa using hlast
    rcases hcases with rfl | rfl
    · have hyear : a * 400 + 1 + b * 100 + c * 4 + 4 - 1 = a * 400 + 1 + b * 100 + c * 4 + 3 := by
        omega
      have hleap : isLeap (a * 400 + 1 + b * 100 + c * 4 + 3) := by
        simp only [isLeap, Bool.and_eq_true, Bool.or_eq_true, beq_iff_eq, bne_iff_ne]
        omega
      rw [hyear, toOrdinal_december hleap, daysBeforeYear_cycles (by omega) hfour le_rfl]
      omega
    · have hyear : a * 400 + 1 + 4 * 100 + c * 4 + d - 1 = a * 400 + 1 + 3 * 100 + 24 * 4 + 3 := by
        omega
      have hleap : isLeap (a * 400 + 1 + 3 * 100 + 24 * 4 + 3) := by
        simp only [isLeap, Bool.and_eq_true, Bool.or_eq_true, beq_iff_eq, bne_iff_ne]
        omega
      rw [hyear, toOrdinal_december hleap, daysBeforeYear_cycles le_rfl le_rfl le_rfl]
      omega
  · next hnot =>
    have hd4 : d ≠ 4 ∧ b ≠ 4 := by simpa using hnot
    obtain ⟨-, -, hbefore, hle, -⟩ :=
      monthOfDay_spec (isLeap (a * 400 + 1 + b * 100 + c * 4 + d)) hdays
    dsimp only [toOrdinal]
    rw [← hbefore, daysBeforeYear_cycles (by omega) hfour (by omega)]
    omega

/-- The days of the years 1 to 9999 have valid dates. -/
theorem valid_ofOrdinal {n : ℕ} (h : 1 ≤ n) (h' : n ≤ 3652059) : (ofOrdinal n).valid := by
  unfold ofOrdinal
  dsimp only
  obtain ⟨hsum, hdays, hyears, hfour, hhundred⟩ := cycles (n - 1)
  -- the quotients and remainders of the cycles of 400, 100, 4 and 1 years
  generalize (n - 1) / 146097 = a at *
  generalize (n - 1) % 146097 / 36524 = b at *
  generalize (n - 1) % 146097 % 36524 / 1461 = c at *
  generalize (n - 1) % 146097 % 36524 % 1461 / 365 = d at *
  generalize (n - 1) % 146097 % 36524 % 1461 % 365 = r at *
  split
  · -- the last day of a leap year that ends a cycle
    next hlast =>
    have hcases : d = 4 ∨ b = 4 := by simpa using hlast
    have hdays : 31 ≤ daysInMonth (isLeap (a * 400 + 1 + b * 100 + c * 4 + d - 1)) 12 :=
      Nat.le_add_right ..
    simp only [Date.valid, Bool.and_eq_true, decide_eq_true_eq]
    omega
  · -- any other day
    next hnot =>
    have hd4 : d ≠ 4 ∧ b ≠ 4 := by simpa using hnot
    obtain ⟨hmonth, hmonth', -, hle, hlt⟩ :=
      monthOfDay_spec (isLeap (a * 400 + 1 + b * 100 + c * 4 + d)) hdays
    simp only [Date.valid, Bool.and_eq_true, decide_eq_true_eq]
    omega

/-! ## Numbers of a fixed width -/

/-- The last `k` decimal digits of a number. -/
def padded : ℕ → ℕ → Str
  | 0, _ => []
  | k + 1, n => padded k (n / 10) ++ [48 + n % 10]

/-- Exactly `k` digits at the front of a text, as a number, and what follows. -/
def takeNumber (k : ℕ) (s : Str) : Option (ℕ × Str) :=
  if (s.take k).length = k ∧ (s.take k).all isDigit then
    some (ofDigits ((s.take k).map (· - 48)), s.drop k)
  else none

/-- A padded number has the length that it is padded to. -/
@[simp]
theorem length_padded (k n : ℕ) : (padded k n).length = k := by
  induction k generalizing n with
  | zero => rfl
  | succ k ih => simp [padded, ih]

/-- A padded number consists of digits. -/
theorem isDigit_of_mem_padded {k n c : ℕ} (h : c ∈ padded k n) : isDigit c := by
  induction k generalizing n with
  | zero => cases h
  | succ k ih =>
      rcases List.mem_append.mp h with h | h
      · exact ih h
      · rw [List.mem_singleton.mp h]
        simp only [isDigit, Bool.and_eq_true, decide_eq_true_eq]
        omega

/-- The digits of a padded number are those of the number. -/
theorem ofDigits_padded (k n : ℕ) : ofDigits ((padded k n).map (· - 48)) = n % 10 ^ k := by
  induction k generalizing n with
  | zero =>
      rw [pow_zero, Nat.mod_one]
      rfl
  | succ k ih =>
      have hlast : ofDigits ((padded (k + 1) n).map (· - 48)) =
          10 * ofDigits ((padded k (n / 10)).map (· - 48)) + n % 10 := by
        simp [padded, ofDigits, List.foldl_append]
      rw [hlast, ih, pow_succ, Nat.mul_comm (10 ^ k), Nat.mod_mul]
      exact Nat.add_comm ..

/-- A number that was written with `k` digits is read back. -/
theorem takeNumber_padded {k n : ℕ} (h : n < 10 ^ k) (rest : Str) :
    takeNumber k (padded k n ++ rest) = some (n, rest) := by
  have htake : (padded k n ++ rest).take k = padded k n := List.take_left' (length_padded k n)
  have hdrop : (padded k n ++ rest).drop k = rest := List.drop_left' (length_padded k n)
  have hdigits : (padded k n).all isDigit :=
    List.all_eq_true.mpr fun c hc => isDigit_of_mem_padded hc
  rw [takeNumber, htake, hdrop, if_pos ⟨length_padded k n, hdigits⟩, ofDigits_padded,
    Nat.mod_eq_of_lt h]

/-! ## Texts of instants -/

/-- The number of microseconds of a day. -/
def microsOfDay : ℤ := 86400000000

/-- The first of January 1970. -/
def epochOrdinal : ℤ := 719163

/-- The instant is one that a `datetime` in UTC can hold. -/
def InDatetime (t : ℤ) : Prop :=
  -719162 * microsOfDay ≤ t ∧ t < 2932897 * microsOfDay

/-- Whether an instant lies in the years of a `datetime` is decidable. -/
instance (t : ℤ) : Decidable (InDatetime t) := inferInstanceAs (Decidable (_ ∧ _))

/-- The microseconds of a second, which are left out if there are none. -/
def fractionText (micros : ℕ) : Str := if micros = 0 then [] else 46 :: padded 6 micros

/-- The date at the beginning of a text. -/
def dateText (d : Date) : Str :=
  padded 4 d.year ++ 45 :: (padded 2 d.month ++ 45 :: padded 2 d.day)

/-- The time of day, given in microseconds. -/
def clockText (micros : ℕ) : Str :=
  padded 2 (micros / 3600000000) ++ 58 :: (padded 2 (micros / 60000000 % 60) ++
    58 :: (padded 2 (micros / 1000000 % 60) ++ fractionText (micros % 1000000)))

/-- `dt.isoformat()`, for the instant `dt` in UTC. -/
def isoformat (t : ℤ) : Str :=
  dateText (ofOrdinal (t / microsOfDay + epochOrdinal).toNat) ++
    84 :: (clockText (t % microsOfDay).toNat ++ ascii "+00:00")

/-- The text of an instant consists of printable characters. -/
theorem isoformat_printable {t : ℤ} {c : ℕ} (h : c ∈ isoformat t) : 32 < c ∧ c < 127 := by
  have hdigit : ∀ {k n : ℕ}, c ∈ padded k n → 32 < c ∧ c < 127 := by
    intro k n hc
    have hc := isDigit_of_mem_padded hc
    simp only [isDigit, Bool.and_eq_true, decide_eq_true_eq] at hc
    omega
  have hdate : ∀ {d : Date}, c ∈ dateText d → 32 < c ∧ c < 127 := by
    intro d hc
    simp only [dateText, List.mem_append, List.mem_cons] at hc
    -- digits and hyphens
    rcases hc with hc | rfl | hc | rfl | hc
    · exact hdigit hc
    · decide
    · exact hdigit hc
    · decide
    · exact hdigit hc
  have hclock : ∀ {micros : ℕ}, c ∈ clockText micros → 32 < c ∧ c < 127 := by
    intro micros hc
    simp only [clockText, fractionText, List.mem_append, List.mem_cons] at hc
    -- digits, colons, and the point if there are microseconds
    rcases hc with hc | rfl | hc | rfl | hc | hc
    · exact hdigit hc
    · decide
    · exact hdigit hc
    · decide
    · exact hdigit hc
    · split at hc
      · cases hc
      · rcases List.mem_cons.mp hc with rfl | hc
        · decide
        · exact hdigit hc
  have hoffset : ∀ c ∈ ascii "+00:00", 32 < c ∧ c < 127 := by decide +kernel
  rw [isoformat, List.mem_append, List.mem_cons, List.mem_append] at h
  rcases h with h | rfl | h | h
  · exact hdate h
  · decide
  · exact hclock h
  · exact hoffset c h

/-! ## Reading texts -/

/-- A `datetime`: the time on the wall, in microseconds since the beginning of 1970, and the offset
from UTC, if there is one. -/
structure Datetime where
  wall : ℤ
  offset : Option ℤ

/-- The instant of a `datetime`. One without an offset is taken in the zone of the system, which is
UTC. -/
def Datetime.instant (d : Datetime) : ℤ := d.wall - d.offset.getD 0

/-- The hour, the minute, the second and the microseconds. -/
abbrev Clock := ℕ × ℕ × ℕ × ℕ

/-- The text without the given character at its front. -/
def expect (c : ℕ) : Str → Option Str
  | [] => none
  | c' :: s => if c' = c then some s else none

/-- Where the date ends: it is in one of the forms `YYYY-MM-DD`, `YYYYMMDD`, `YYYY-Www`, `YYYYWww`,
`YYYY-Www-D` and `YYYYWwwD`. -/
def separator (s : Str) : Option ℕ :=
  if s.length = 7 then some 7
  -- a dash after the year
  else if s[4]? = some 45 then
    -- a `W` after the dash
    if s[5]? = some 87 then
      if s[8]? = some 45 then
        if s.length = 9 then none
        else if s[10]?.any isDigit then some 8
        else some 10
      else some 8
    else some 10
  -- a `W` after the year: how many digits follow it tells whether there is a weekday
  else if s[4]? = some 87 then
    let index := 7 + ((s.drop 7).takeWhile isDigit).length
    if index < 9 then some index
    else if index % 2 = 0 then some 7
    else some 8
  else some 8

/-- The day of an ISO week, after the week. It can be left out. -/
def isoWeekday (dash : Bool) (s : Str) : Option ℕ :=
  if s.isEmpty then some 1
  else do
    let s ← if dash then expect 45 s else some s
    let (day, s) ← takeNumber 1 s
    if s.isEmpty then some day else none

/-- A date, in one of the forms that `separator` knows. -/
def isoDate (s : Str) : Option Date := do
  let (year, s) ← takeNumber 4 s
  let dash := s.head? == some 45
  let s := if dash then s.tail else s
  if s.head? = some 87 then
    let (week, s) ← takeNumber 2 s.tail
    let day ← isoWeekday dash s
    ofIsoWeek year week day
  else
    let (month, s) ← takeNumber 2 s
    let s ← if dash then expect 45 s else some s
    let (day, s) ← takeNumber 2 s
    if s.isEmpty then some ⟨year, month, day⟩ else none

/-- The fraction of a second; digits after the sixth are dropped. -/
def isoFraction : Str → Option ℕ
  | [] => some 0
  | c :: s =>
      if (c == 46 || c == 44) && !s.isEmpty && s.all isDigit then
        let digits := s.take 6
        some (ofDigits (digits.map (· - 48)) * 10 ^ (6 - digits.length))
      else none

/-- A time of day, or an offset without its sign: `HH`, `HH:MM`, `HH:MM:SS` and `HH:MM:SS.ffffff`,
with or without the colons. -/
def isoClock (s : Str) : Option Clock := do
  let (hour, s) ← takeNumber 2 s
  if s.isEmpty then return (hour, 0, 0, 0)
  let colon := s.head? == some 58
  let (minute, s) ← takeNumber 2 (if colon then s.tail else s)
  if s.isEmpty then return (hour, minute, 0, 0)
  let s ← if colon then expect 58 s else some s
  let (second, s) ← takeNumber 2 s
  let micros ← isoFraction s
  return (hour, minute, second, micros)

/-- The microseconds of a time of day. -/
def Clock.micros : Clock → ℤ
  | (hour, minute, second, micros) =>
      ((hour * 3600 + minute * 60 + second) * 1000000 + micros : ℕ)

/-- The beginning of an offset. -/
def isZoneMark (c : ℕ) : Bool := c == 43 || c == 45 || c == 90

/-- An offset, with its sign or as `Z`. It is less than a day. -/
def isoOffset : Str → Option (Option ℤ)
  | [] => some none
  | 90 :: s => if s.isEmpty then some (some 0) else none
  | mark :: s => do
      let clock ← isoClock s
      let offset := clock.micros
      if offset < microsOfDay then some (some (if mark = 45 then -offset else offset)) else none

/-- The time of day and the offset. -/
def isoTime (s : Str) : Option (Clock × Option ℤ) := do
  let clock ← isoClock (s.takeWhile fun c => !isZoneMark c)
  let offset ← isoOffset (s.dropWhile fun c => !isZoneMark c)
  return (clock, offset)

/-- `datetime(…)` of the components. -/
def ofComponents (date : Date) (clock : Clock) (offset : Option ℤ) : Option Datetime :=
  if date.valid && clock.1 < 24 && clock.2.1 < 60 && clock.2.2.1 < 60 then
    some ⟨(toOrdinal date - epochOrdinal) * microsOfDay + clock.micros, offset⟩
  else none

/-- `datetime.fromisoformat(text)`; `none` is a `ValueError`. -/
def fromisoformat (s : Str) : Option Datetime := do
  if s.length < 7 then none
  let position ← separator s
  let date ← isoDate (s.take position)
  let rest := s.drop (position + 1)
  if rest.isEmpty then ofComponents date (0, 0, 0, 0) none
  else
    let (clock, offset) ← isoTime rest
    ofComponents date clock offset

/-! ## Reading back what was written -/

/-- A valid date has at most four, two and two digits. -/
theorem Date.valid_digits {d : Date} (h : d.valid) :
    d.year < 10 ^ 4 ∧ d.month < 10 ^ 2 ∧ d.day < 10 ^ 2 := by
  have hmax : ∀ leap : Bool, ∀ month : Fin 13, daysInMonth leap month < 10 ^ 2 := by decide
  simp only [Date.valid, Bool.and_eq_true, decide_eq_true_eq] at h
  obtain ⟨⟨⟨⟨⟨-, hyear⟩, -⟩, hmonth⟩, -⟩, hday⟩ := h
  exact ⟨by omega, by omega, hday.trans_lt (hmax (isLeap d.year) ⟨d.month, by omega⟩)⟩

/-- A digit does not stand for anything else. -/
theorem head_padded {k n c : ℕ} {rest : Str} (hk : 0 < k) (hc : isDigit c = false) :
    (padded k n ++ rest).head? ≠ some c := by
  intro hhead
  cases hpadded : padded k n with
  | nil =>
      have hlen := length_padded k n
      rw [hpadded] at hlen
      exact absurd hlen (by simpa using hk.ne)
  | cons c' cs =>
      rw [hpadded] at hhead
      obtain rfl : c' = c := by simpa using hhead
      have hdigit : isDigit c' := isDigit_of_mem_padded (hpadded ▸ List.mem_cons_self)
      rw [hc] at hdigit
      cases hdigit

/-- Reading back a written date. -/
theorem isoDate_dateText {d : Date} (h : d.valid) : isoDate (dateText d) = some d := by
  obtain ⟨hyear, hmonth, hday⟩ := Date.valid_digits h
  have hweek : (padded 2 d.month ++ 45 :: padded 2 d.day).head? ≠ some 87 :=
    head_padded (by decide) rfl
  have hlast : takeNumber 2 (padded 2 d.day) = some (d.day, []) := by
    have hread := takeNumber_padded hday []
    rwa [List.append_nil] at hread
  simp only [isoDate, dateText, takeNumber_padded hyear, takeNumber_padded hmonth, hlast, expect,
    Option.bind_eq_bind, Option.bind_some, List.head?_cons, BEq.rfl, if_true, List.tail_cons,
    if_neg hweek, List.isEmpty_nil]

/-- The first six digits of a fraction with six digits are all of them. -/
theorem isoFraction_fractionText {micros : ℕ} (h : micros < 10 ^ 6) :
    isoFraction (fractionText micros) = some micros := by
  unfold fractionText
  split
  · next hzero => rw [hzero, isoFraction]
  · have hlen := length_padded 6 micros
    have hne : (padded 6 micros).isEmpty = false := by
      rw [← Bool.not_eq_true, List.isEmpty_iff]
      intro hnil
      rw [hnil] at hlen
      cases hlen
    have hdigits : (padded 6 micros).all isDigit :=
      List.all_eq_true.mpr fun c hc => isDigit_of_mem_padded hc
    have htake : (padded 6 micros).take 6 = padded 6 micros := by
      rw [List.take_of_length_le hlen.le]
    have hvalue : ofDigits ((padded 6 micros).map (· - 48)) = micros := by
      rw [ofDigits_padded, Nat.mod_eq_of_lt h]
    simp [isoFraction, hne, hdigits, htake, hlen, hvalue]

/-- The components of a time of day. -/
def clockOf (micros : ℕ) : Clock :=
  (micros / 3600000000, micros / 60000000 % 60, micros / 1000000 % 60, micros % 1000000)

/-- Reading back a written time of day. -/
theorem isoClock_clockText {micros : ℕ} (h : micros < 86400000000) :
    isoClock (clockText micros) = some (clockOf micros) := by
  have hhour : micros / 3600000000 < 10 ^ 2 := by omega
  have hminute : micros / 60000000 % 60 < 10 ^ 2 := by omega
  have hsecond : micros / 1000000 % 60 < 10 ^ 2 := by omega
  have hfraction : micros % 1000000 < 10 ^ 6 := Nat.mod_lt _ (by decide)
  simp [isoClock, clockText, takeNumber_padded hhour, takeNumber_padded hminute,
    takeNumber_padded hsecond, isoFraction_fractionText hfraction, expect, clockOf]

/-- No character of a time of day begins an offset. -/
theorem isZoneMark_of_mem_clockText {micros c : ℕ} (h : c ∈ clockText micros) :
    isZoneMark c = false := by
  have hdigit : ∀ {k n : ℕ}, c ∈ padded k n → isZoneMark c = false := by
    intro k n hc
    have hc := isDigit_of_mem_padded hc
    simp only [isDigit, Bool.and_eq_true, decide_eq_true_eq] at hc
    simp only [isZoneMark, Bool.or_eq_false_iff, beq_eq_false_iff_ne]
    omega
  simp only [clockText, fractionText, List.mem_append, List.mem_cons] at h
  -- the text has digits, colons and a point, none of which begins an offset
  rcases h with h | rfl | h | rfl | h | h
  · exact hdigit h
  · rfl
  · exact hdigit h
  · rfl
  · exact hdigit h
  · split at h
    · cases h
    · rcases List.mem_cons.mp h with rfl | h
      · rfl
      · exact hdigit h

/-- Reading back a written time of day with its zone. -/
theorem isoTime_clockText {micros : ℕ} (h : micros < 86400000000) :
    isoTime (clockText micros ++ ascii "+00:00") = some (clockOf micros, some 0) := by
  have hclock : ∀ c ∈ clockText micros, !isZoneMark c := fun c hc => by
    rw [isZoneMark_of_mem_clockText hc]
    rfl
  have htake : (clockText micros ++ ascii "+00:00").takeWhile (fun c => !isZoneMark c) =
      clockText micros := by
    rw [List.takeWhile_append_of_pos hclock]
    exact List.append_nil _
  have hdrop : (clockText micros ++ ascii "+00:00").dropWhile (fun c => !isZoneMark c) =
      ascii "+00:00" := List.dropWhile_append_of_pos hclock
  have hoffset : isoOffset (ascii "+00:00") = some (some 0) := by decide +kernel
  rw [isoTime, htake, hdrop, isoClock_clockText h, hoffset]
  rfl

/-- The components of a time of day are in their ranges, and give the time of day. -/
theorem clockOf_spec {micros : ℕ} (h : micros < 86400000000) :
    (clockOf micros).1 < 24 ∧ (clockOf micros).2.1 < 60 ∧ (clockOf micros).2.2.1 < 60 ∧
      (clockOf micros).micros = micros := by
  refine ⟨?_, Nat.mod_lt _ (by decide), Nat.mod_lt _ (by decide), ?_⟩
  · change micros / 3600000000 < 24
    omega
  · have hsum : (micros / 3600000000 * 3600 + micros / 60000000 % 60 * 60 +
        micros / 1000000 % 60) * 1000000 + micros % 1000000 = micros := by omega
    exact congrArg Nat.cast hsum

/-- The text of an instant begins with a date of ten characters. -/
theorem separator_isoformat (d : Date) (rest : Str) :
    separator (dateText d ++ 84 :: rest) = some 10 := by
  have hyear : padded 4 d.year = [48 + d.year / 10 / 10 / 10 % 10, 48 + d.year / 10 / 10 % 10,
      48 + d.year / 10 % 10, 48 + d.year % 10] := rfl
  have hmonth : padded 2 d.month = [48 + d.month / 10 % 10, 48 + d.month % 10] := rfl
  have hday : padded 2 d.day = [48 + d.day / 10 % 10, 48 + d.day % 10] := rfl
  have hweek : 48 + d.month / 10 % 10 ≠ 87 := by omega
  simp [separator, dateText, hyear, hmonth, hday, hweek]

/-- Reading back a written instant. -/
theorem fromisoformat_isoformat {t : ℤ} (h : InDatetime t) :
    (fromisoformat (isoformat t)).map Datetime.instant = some t := by
  obtain ⟨hlower, hupper⟩ := h
  unfold microsOfDay at hlower hupper
  -- the day and the time of day
  generalize hday : (t / microsOfDay + epochOrdinal).toNat = day
  generalize hmicros : (t % microsOfDay).toNat = micros
  unfold microsOfDay at hday hmicros
  unfold epochOrdinal at hday
  have hdate : (ofOrdinal day).valid := valid_ofOrdinal (by omega) (by omega)
  have hordinal : toOrdinal (ofOrdinal day) = day := toOrdinal_ofOrdinal (by omega)
  have hlt : micros < 86400000000 := by omega
  have htext : isoformat t =
      dateText (ofOrdinal day) ++ 84 :: (clockText micros ++ ascii "+00:00") := by
    rw [isoformat]
    unfold microsOfDay epochOrdinal
    rw [hday, hmicros]
  have hlen : (dateText (ofOrdinal day)).length = 10 := by simp [dateText]
  have hread : isoDate ((isoformat t).take 10) = some (ofOrdinal day) := by
    rw [htext, List.take_left' hlen, isoDate_dateText hdate]
  have hrest : (isoformat t).drop (10 + 1) = clockText micros ++ ascii "+00:00" := by
    rw [htext, ← List.drop_drop, List.drop_left' hlen]
    rfl
  have hnonempty : (clockText micros ++ ascii "+00:00").isEmpty = false := by
    rw [← Bool.not_eq_true, List.isEmpty_iff]
    exact List.append_ne_nil_of_right_ne_nil _ (by decide)
  have hlong : ¬ (isoformat t).length < 7 := by
    rw [htext, List.length_append, hlen]
    omega
  obtain ⟨hhour, hminute, hsecond, hclock⟩ := clockOf_spec hlt
  have hcomponents : ofComponents (ofOrdinal day) (clockOf micros) (some 0) =
      some ⟨(day - epochOrdinal) * microsOfDay + micros, some 0⟩ := by
    rw [ofComponents, if_pos (by simp [hdate, hhour, hminute, hsecond]), hordinal, hclock]
  have hseparator : separator (isoformat t) = some 10 := by
    rw [htext, separator_isoformat]
  have hparsed : fromisoformat (isoformat t) =
      some ⟨(day - epochOrdinal) * microsOfDay + micros, some 0⟩ := by
    simp only [fromisoformat, if_neg hlong, hseparator, hread, hrest, hnonempty,
      isoTime_clockText hlt,
      hcomponents, Option.bind_eq_bind, Option.bind_some, Bool.false_eq_true, if_false]
  rw [hparsed, Option.map_some, Datetime.instant]
  unfold microsOfDay epochOrdinal
  congr 1
  dsimp only [Option.getD_some]
  omega

end Python
