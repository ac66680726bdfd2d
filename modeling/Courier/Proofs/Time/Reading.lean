import Courier.Proofs.Json.Number
import Courier.Time.Reading
import Mathlib.Algebra.Group.Nat.Defs
import Mathlib.Data.List.TakeWhile

/-! # Instants read back

The text of a moment spells a moment, in years of four digits that very one, to the nanosecond and with
inserted seconds. The date is the day of a year that the year is started with; every number of the
text stands in a field of its own width, in front of something that is no digit.
-/

namespace Courier.Date

theorem monthOf_spec (leap : Bool) : ∀ n, n < (if leap then 366 else 365) →
    1 ≤ monthOf leap n ∧ monthOf leap n ≤ 12 ∧ daysBefore leap (monthOf leap n) ≤ n ∧
      n < daysBefore leap (monthOf leap n + 1) := by
  cases leap <;> decide +kernel

variable {days : Int}

theorem dayOfYear_lt (days : Int) : (days - yearStart (yearOf days)).toNat <
    if decide (IsLeap (yearOf days)) then 366 else 365 := by
  obtain ⟨started, ends⟩ := yearOf_bounds days
  rw [yearStart_succ] at ends
  by_cases leap : IsLeap (yearOf days)
  · rw [if_pos leap] at ends
    rw [if_pos (decide_eq_true leap)]
    omega
  · rw [if_neg leap] at ends
    rw [if_neg (by simpa using leap)]
    omega

theorem valid_ofDays (days : Int) : (ofDays days).Valid := by
  have spec := monthOf_spec _ _ (dayOfYear_lt days)
  unfold Valid daysIn ofDays
  dsimp only
  omega

theorem toDays_ofDays (days : Int) : (ofDays days).toDays = days := by
  have started := (yearOf_bounds days).1
  have spec := monthOf_spec _ _ (dayOfYear_lt days)
  unfold toDays ofDays
  dsimp only
  omega

theorem daysBefore_succ_le (leap : Bool) : ∀ m ≤ 12,
    daysBefore leap (m + 1) ≤ daysBefore leap m + 31 := by
  cases leap <;> decide

theorem month_day_lt (days : Int) : (ofDays days).month < 100 ∧ (ofDays days).day < 100 := by
  have spec := monthOf_spec _ _ (dayOfYear_lt days)
  have short := daysBefore_succ_le (decide (IsLeap (yearOf days))) _ spec.2.1
  unfold ofDays
  dsimp only
  omega

end Courier.Date

namespace Courier.Text

variable {width n : Nat} {c : Char} {cs rest : List Char}

/-! ## Fields of digits -/

theorem isDigit_iff : isDigit c = true ↔ ∃ d, digitValue? c = some d := by
  unfold isDigit digitValue?
  split <;> simp_all

theorem natural?_zeros (n : Nat) : natural? (List.replicate n '0') = some 0 := by
  induction n with
  | zero => rfl
  | succ n ih =>
      rw [List.replicate_succ', natural?_append, ih]
      rfl

theorem natural?_padded (width n : Nat) : natural? (padded width n) = some n := by
  rw [padded, natural?_append, natural?_zeros]
  exact natural?_digits n

theorem digits_length_le (h : n < 10 ^ width) (pos : 0 < width) : (digits n).length ≤ width := by
  induction width generalizing n with
  | zero => omega
  | succ width ih =>
      rw [digits]
      split
      · simp
      · have more : 0 < width := by
          rcases Nat.eq_zero_or_pos width with rfl | more
          · omega
          · exact more
        have shorter : (digits (n / 10)).length ≤ width := ih (by omega) more
        rw [List.length_append, List.length_singleton]
        omega

theorem padded_length (h : n < 10 ^ width) (pos : 0 < width) :
    (padded width n).length = width := by
  have short := digits_length_le h pos
  simp only [padded, List.length_append, List.length_replicate]
  omega

theorem isDigit_of_mem_padded (h : c ∈ padded width n) : isDigit c = true :=
  isDigit_iff.2 ((digits_zeros _).append (digits_digits n) c h)

theorem padded_cons (h : n < 10 ^ width) (pos : 0 < width) :
    ∃ c cs, padded width n = c :: cs ∧ isDigit c = true := by
  have long := padded_length h pos
  have digit : ∀ c ∈ padded width n, isDigit c = true := fun _ => isDigit_of_mem_padded
  cases hp : padded width n with
  | nil =>
      rw [hp] at long
      exact absurd long (by simpa using pos.ne)
  | cons c cs => exact ⟨c, cs, rfl, digit c (hp ▸ List.mem_cons_self)⟩

theorem number?_padded (width n : Nat) : number? (padded width n) = some n := by
  have value := natural?_padded width n
  have some : padded width n ≠ [] := by simp [padded, digits_ne_nil]
  cases hp : padded width n with
  | nil => exact absurd hp some
  | cons c cs =>
      rw [hp] at value
      exact value

/-- A run of any length is read up to what is no digit. -/
theorem takeWhile_padded (stop : isDigit c = false) :
    (padded width n ++ c :: rest).takeWhile isDigit = padded width n := by
  rw [List.takeWhile_append_of_pos fun _ => isDigit_of_mem_padded, List.takeWhile_cons, stop]
  exact List.append_nil _

theorem isBlank_of_isDigit (h : isDigit c = true) : isBlank c = false := by
  simp only [isDigit, Bool.and_eq_true, decide_eq_true_eq] at h
  have low : 48 ≤ c.toNat := UInt32.le_iff_toNat_le.1 h.1
  have high : c.toNat ≤ 57 := UInt32.le_iff_toNat_le.1 h.2
  simp only [isBlank, Bool.or_eq_false_iff, Bool.and_eq_false_iff, decide_eq_false_iff_not,
    beq_eq_false_iff_ne]
  omega

theorem trimStart_padded (h : n < 10 ^ width) (pos : 0 < width) :
    trimStart (padded width n ++ rest) = padded width n ++ rest := by
  obtain ⟨c, cs, hp, digit⟩ := padded_cons h pos
  rw [hp, List.cons_append, trimStart_cons_of_not_blank (isBlank_of_isDigit digit)]

end Courier.Text

namespace Courier.Instant

open Courier.Text

variable {width n : Nat} {c : Char} {cs rest : List Char} {t : Instant}

theorem digitsUpTo?_padded (h : n < 10 ^ width) (pos : 0 < width) :
    digitsUpTo? width (padded width n ++ rest) = some (n, rest) := by
  have long := padded_length h pos
  have all : (padded width n).takeWhile isDigit = padded width n :=
    List.takeWhile_eq_self_iff.2 fun _ => isDigit_of_mem_padded
  have front : (padded width n ++ rest).take width = padded width n := List.take_left' long
  simp only [digitsUpTo?, front, all, number?_padded, Option.map_some, List.drop_left]

theorem field?_padded (h : n < 100) : field? 2 (padded 2 n ++ rest) = some (n, rest) := by
  rw [field?, trimStart_padded h (by decide), digitsUpTo?_padded h (by decide)]

theorem mark?_cons (h : isBlank c = false) : mark? c (c :: rest) = some rest := by
  rw [mark?, trimStart_cons_of_not_blank h]
  exact if_pos rfl

theorem year?_padded (h : n < 10 ^ 4) : year? (padded 4 n ++ rest) = some ((n : Int), rest) := by
  have read : digitsUpTo? 4 (padded 4 n ++ rest) = some (n, rest) :=
    digitsUpTo?_padded h (by decide)
  obtain ⟨c, cs, hp, digit⟩ := padded_cons h (by decide)
  rw [year?, trimStart_padded h (by decide)]
  rw [hp, List.cons_append] at read ⊢
  have unsigned : c ≠ '-' ∧ c ≠ '+' := by
    constructor <;> rintro rfl <;> cases digit
  split
  · rename_i same
    exact absurd (List.cons.inj same).1 unsigned.1
  · rename_i same
    exact absurd (List.cons.inj same).1 unsigned.2
  · rw [read]
    rfl

theorem digitsUpTo?_signed (n : Nat) (rest : List Char) :
    digitsUpTo? (padded 4 n ++ '-' :: rest).length (padded 4 n ++ '-' :: rest) =
      some (n, '-' :: rest) := by
  simp only [digitsUpTo?, List.take_length, takeWhile_padded (show isDigit '-' = false from rfl),
    number?_padded, Option.map_some, List.drop_left]

/-- A year is read from its own text, however many digits it has. -/
theorem year?_yearText (year : Int) (rest : List Char) :
    year? (yearText year ++ '-' :: rest) = some (year, '-' :: rest) := by
  unfold yearText
  split
  · rename_i four
    rw [year?_padded (show year.toNat < 10 ^ 4 by omega), Int.toNat_of_nonneg four.1]
  · have minus : isBlank '-' = false := by decide
    have plus : isBlank '+' = false := by decide
    by_cases neg : year < 0
    · have back : -(year.natAbs : Int) = year := by omega
      rw [if_pos neg, List.cons_append, year?, trimStart_cons_of_not_blank minus]
      change (digitsUpTo? _ _).map (fun m => (-(m.1 : Int), m.2)) = _
      rw [digitsUpTo?_signed, Option.map_some, back]
    · have back : (year.natAbs : Int) = year := by omega
      rw [if_neg neg, List.cons_append, year?, trimStart_cons_of_not_blank plus]
      change (digitsUpTo? _ _).map (fun m => ((m.1 : Int), m.2)) = _
      rw [digitsUpTo?_signed, Option.map_some, back]

/-! ## Dates and times of day -/

theorem date?_text {d : Date} (short : d.month < 100 ∧ d.day < 100) (valid : d.Valid) :
    date? (yearText d.year ++ '-' :: (padded 2 d.month ++ '-' :: (padded 2 d.day ++ rest))) =
      some (d, rest) := by
  have dash : isBlank '-' = false := by decide
  simp only [date?, year?_yearText, mark?_cons dash, field?_padded short.1, field?_padded short.2,
    bind, Option.bind_some]
  exact if_pos valid

/-- The digits of a fraction are read up to what follows them. -/
theorem fraction?_padded (h : n < 10 ^ width) (pos : 0 < width) (few : width ≤ 9) :
    fraction? ('.' :: (padded width n ++ ['Z'])) = some (n * 10 ^ (9 - width), ['Z']) := by
  have long := padded_length h pos
  have all : (padded width n ++ ['Z']).takeWhile isDigit = padded width n := by
    rw [List.takeWhile_append_of_pos fun _ => isDigit_of_mem_padded]
    exact List.append_nil _
  have front : (padded width n).take 9 = padded width n := List.take_of_length_le (by omega)
  simp only [fraction?, all, front, number?_padded, long, Option.map_some]
  rw [List.drop_left' long]
  rfl

theorem fraction?_text (h : n < 1000000000) :
    fraction? (fractionText n ++ ['Z']) = some (n, ['Z']) := by
  have read {width m : Nat} (digits : m < 10 ^ width) (pos : 0 < width) (few : width ≤ 9)
      (whole : m * 10 ^ (9 - width) = n) :
      fraction? ('.' :: padded width m ++ ['Z']) = some (n, ['Z']) := by
    rw [List.cons_append, fraction?_padded digits pos few, whole]
  unfold fractionText
  split
  · rename_i none
    subst none
    rfl
  · split
    · exact read (by omega) (by decide) (by decide) (by omega)
    · split
      · exact read (by omega) (by decide) (by decide) (by omega)
      · exact read h (by decide) (by decide) (by omega)

theorem secondOfDay_lt (t : Instant) : t.secondOfDay < 86400 := by
  unfold secondOfDay
  omega

/-- An inserted second is read as such if it stands at the end of a minute, and else as the next
second. -/
theorem clock?_written (bounded : t.nano < 2000000000) :
    clock? (padded 2 (t.secondOfDay / 3600) ++ ':' :: (padded 2 (t.secondOfDay / 60 % 60) ++
      ':' :: (t.secondText ++ (fractionText (t.nano % 1000000000) ++ ['Z'])))) =
      some (t.secondOfDay / 3600 * 3600 + t.secondOfDay / 60 % 60 * 60 +
        min (t.secondOfDay % 60 + t.nano / 1000000000) 59, t.nano % 1000000000 +
        if t.secondOfDay % 60 + t.nano / 1000000000 = 60 then 1000000000 else 0, ['Z']) := by
  have colon : isBlank ':' = false := by decide
  have day := t.secondOfDay_lt
  have valid : t.secondOfDay / 3600 < 24 ∧ t.secondOfDay / 60 % 60 < 60 ∧
      t.secondOfDay % 60 + t.nano / 1000000000 ≤ 60 := by omega
  simp only [clock?, secondText, field?_padded (show t.secondOfDay / 3600 < 100 by omega),
    field?_padded (show t.secondOfDay / 60 % 60 < 100 by omega), mark?_cons colon,
    field?_padded (show t.secondOfDay % 60 + t.nano / 1000000000 < 100 by omega),
    fraction?_text (show t.nano % 1000000000 < 1000000000 by omega), bind, Option.bind_some]
  exact if_pos valid

/-- A moment has less than a second of nanoseconds; only the last second of a minute may be followed
by an inserted one. -/
def Proper (t : Instant) : Prop :=
  t.nano < 1000000000 ∨ (t.nano < 2000000000 ∧ t.second % 60 = 59)

theorem clock?_text (proper : t.Proper) :
    clock? (padded 2 (t.secondOfDay / 3600) ++ ':' :: (padded 2 (t.secondOfDay / 60 % 60) ++
      ':' :: (t.secondText ++ (fractionText (t.nano % 1000000000) ++ ['Z'])))) =
      some (t.secondOfDay, t.nano, ['Z']) := by
  have day := t.secondOfDay_lt
  have minute : (t.second % 60).toNat = t.secondOfDay % 60 := by
    unfold secondOfDay
    omega
  unfold Proper at proper
  have whole : t.secondOfDay / 3600 * 3600 + t.secondOfDay / 60 % 60 * 60 +
      min (t.secondOfDay % 60 + t.nano / 1000000000) 59 = t.secondOfDay := by omega
  have fraction : (t.nano % 1000000000 +
      if t.secondOfDay % 60 + t.nano / 1000000000 = 60 then 1000000000 else 0) = t.nano := by
    split <;> omega
  rw [clock?_written (by omega), whole, fraction]

/-! ## Moments -/

theorem ofDate_date (t : Instant) : ofDate t.date t.secondOfDay t.nano = t := by
  cases t with
  | mk second nano =>
      simp only [ofDate, date, Date.toDays_ofDays, day, secondOfDay, mk.injEq, and_true]
      omega

theorem inCalendar_of_year (year : 0 ≤ t.date.year ∧ t.date.year ≤ 9999) : t.InCalendar := by
  have bounds := Date.yearOf_bounds t.day
  have same : t.date.year = Date.yearOf t.day := rfl
  rw [same] at year
  unfold InCalendar firstYear lastYear
  unfold Date.yearStart at *
  omega

theorem toList_text (t : Instant) : t.text.toList = yearText t.date.year ++
    '-' :: (padded 2 t.date.month ++ '-' :: (padded 2 t.date.day ++
      'T' :: (padded 2 (t.secondOfDay / 3600) ++ ':' :: (padded 2 (t.secondOfDay / 60 % 60) ++
      ':' :: (t.secondText ++ (fractionText (t.nano % 1000000000) ++ ['Z'])))))) := by
  simp [text, localText]

theorem ofText?_text_of_clock {s n : Nat}
    (clock : clock? (padded 2 (t.secondOfDay / 3600) ++
      ':' :: (padded 2 (t.secondOfDay / 60 % 60) ++
        ':' :: (t.secondText ++ (fractionText (t.nano % 1000000000) ++ ['Z'])))) =
      some (s, n, ['Z'])) (within : s < 86400) (calendar : t.InCalendar) :
    ofText? t.text = some (ofDate t.date s n) := by
  have dated (rest : List Char) := @date?_text rest t.date (Date.month_day_lt _)
    (Date.valid_ofDays _)
  have zone : offset? (trimStart ['Z']) = some (0, []) := rfl
  have same : (ofDate t.date s n).day = t.day := by
    simp only [day, ofDate, date, Date.toDays_ofDays]
    omega
  have here : (ofDate t.date s n).InCalendar := by
    unfold InCalendar at calendar ⊢
    rwa [same]
  simp only [ofText?, toList_text, dated, bind, Option.bind_some, true_or, if_true, clock, zone,
    Int.sub_zero, trimStart_nil]
  exact if_pos (by simpa using here)

/-- Whatever moment of the calendar is written, its text spells a moment. -/
theorem exists_ofText?_text (bounded : t.nano < 2000000000) (calendar : t.InCalendar) :
    ∃ t', ofText? t.text = some t' := by
  have day := t.secondOfDay_lt
  exact ⟨_, ofText?_text_of_clock (clock?_written bounded) (by omega) calendar⟩

/-- A moment in a year of four digits is what its own text spells. -/
theorem ofText?_text (proper : t.Proper) (year : 0 ≤ t.date.year ∧ t.date.year ≤ 9999) :
    ofText? t.text = some t := by
  rw [ofText?_text_of_clock (clock?_text proper) t.secondOfDay_lt (inCalendar_of_year year),
    ofDate_date]

end Courier.Instant
