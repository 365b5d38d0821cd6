import EventLedger.Library.DigitText
import EventLedger.Python.Datetime
import Mathlib.Tactic.IntervalCases

namespace EventLedger.Python
open Library DigitText

/-- A leap year is divisible by 4, and by 400 when it is divisible by 100. -/
def isLeap (year : Nat) : Prop := year % 4 = 0 ∧ (year % 100 ≠ 0 ∨ year % 400 = 0)

instance (year : Nat) : Decidable (isLeap year) := inferInstanceAs (Decidable (_ ∧ (_ ∨ _)))

def daysInMonth (year : Nat) : Nat → Nat
  | 2 => if isLeap year then 29 else 28
  | 4 | 6 | 9 | 11 => 30
  | _ => 31

def daysBeforeYear (year : Nat) : Nat :=
  let before := year - 1
  before * 365 + before / 4 - before / 100 + before / 400

/-- The days before a month count its leap day from March on. -/
def daysBeforeMonth (year month : Nat) : Nat :=
  (match month with
    | 1 => 0 | 2 => 31 | 3 => 59 | 4 => 90 | 5 => 120 | 6 => 151 | 7 => 181 | 8 => 212 | 9 => 243
    | 10 => 273 | 11 => 304 | _ => 334) + if 2 < month ∧ isLeap year then 1 else 0

/-- A datetime object that was read from text has calendar fields and an offset in minutes. -/
structure Timestamp where
  year : Nat
  month : Nat
  day : Nat
  hour : Nat
  minute : Nat
  second : Nat
  microsecond : Nat
  offsetMinutes : Option Int
  deriving DecidableEq

namespace Timestamp

/-- The constructor checks the range of each field. -/
structure Valid (value : Timestamp) : Prop where
  year : 1 ≤ value.year ∧ value.year ≤ 9999
  month : 1 ≤ value.month ∧ value.month ≤ 12
  day : 1 ≤ value.day ∧ value.day ≤ daysInMonth value.year value.month
  hour : value.hour < 24
  minute : value.minute < 60
  second : value.second < 60
  microsecond : value.microsecond < 1000000
  offset : ∀ minutes ∈ value.offsetMinutes, minutes.natAbs < 1440

theorem valid_iff (value : Timestamp) : value.Valid ↔
    (1 ≤ value.year ∧ value.year ≤ 9999) ∧ (1 ≤ value.month ∧ value.month ≤ 12) ∧
      (1 ≤ value.day ∧ value.day ≤ daysInMonth value.year value.month) ∧ value.hour < 24 ∧
      value.minute < 60 ∧ value.second < 60 ∧ value.microsecond < 1000000 ∧
      ∀ minutes ∈ value.offsetMinutes, minutes.natAbs < 1440 :=
  ⟨fun ⟨year, month, day, hour, minute, second, microsecond, offset⟩ =>
      ⟨year, month, day, hour, minute, second, microsecond, offset⟩,
    fun ⟨year, month, day, hour, minute, second, microsecond, offset⟩ =>
      ⟨year, month, day, hour, minute, second, microsecond, offset⟩⟩

instance (value : Timestamp) : Decidable value.Valid := decidable_of_iff _ value.valid_iff.symm

/-- The ordinal of the first day of year 1 is 1. -/
def ordinal (value : Timestamp) : Nat :=
  daysBeforeYear value.year + daysBeforeMonth value.year value.month + value.day

/-- The wall clock in microseconds since year 1. -/
def wall (value : Timestamp) : Int :=
  ((value.ordinal - 1 : Nat) : Int) * Datetime.day +
    ((value.hour * 3600 + value.minute * 60 + value.second : Nat) : Int) * 1000000 +
    value.microsecond

/-- The months of a year end within it. -/
theorem daysBeforeMonth_le (year : Nat) {month : Nat} (range : 1 ≤ month ∧ month ≤ 12) :
    daysBeforeMonth year month + daysInMonth year month ≤ 365 + if isLeap year then 1 else 0 := by
  obtain ⟨lower, upper⟩ := range
  by_cases leap : isLeap year <;> interval_cases month <;>
    simp [daysBeforeMonth, daysInMonth, leap]

/-- The years up to 9999 end at the last day of the calendar. -/
theorem daysBeforeYear_le {year : Nat} (range : 1 ≤ year ∧ year ≤ 9999) :
    daysBeforeYear year + 365 + (if isLeap year then 1 else 0) ≤ 3652059 := by
  simp only [daysBeforeYear]
  by_cases leap : isLeap year
  · rw [if_pos leap]
    unfold isLeap at leap
    omega
  · rw [if_neg leap]
    omega

theorem Valid.wall_inYears {value : Timestamp} (valid : value.Valid) :
    0 ≤ value.wall ∧ value.wall < Datetime.maximum := by
  have month := daysBeforeMonth_le value.year valid.month
  have year := daysBeforeYear_le valid.year
  have day := valid.day
  have hour := valid.hour
  have minute := valid.minute
  have second := valid.second
  have microsecond := valid.microsecond
  have ordinal : value.ordinal ≤ 3652059 ∧ 1 ≤ value.ordinal := by
    unfold Timestamp.ordinal
    omega
  unfold wall Datetime.maximum Datetime.day
  omega

/-- The offset is less than one day. -/
theorem Valid.offset_withinDay {value : Timestamp} (valid : value.Valid) :
    ∀ offset ∈ value.offsetMinutes.map (· * 60000000),
      -Datetime.day < offset ∧ offset < Datetime.day := by
  intro offset member
  obtain ⟨minutes, present, rfl⟩ := Option.mem_map.mp member
  have range := valid.offset minutes present
  unfold Datetime.day
  omega

/-- The calendar fields determine the wall clock and the offset. -/
def datetime (value : Timestamp) (valid : value.Valid) : Datetime :=
  ⟨value.wall, value.offsetMinutes.map (· * 60000000), valid.wall_inYears,
    valid.offset_withinDay⟩

/-- The fraction of a second is printed unless it is zero. -/
def microsecondText (microsecond : Nat) : List Char :=
  if microsecond = 0 then [] else '.' :: padded 6 microsecond

/-- The offset is printed in hours and minutes. -/
def offsetText : Option Int → List Char
  | none => []
  | some minutes =>
      (if minutes < 0 then '-' else '+') ::
        (padded 2 (minutes.natAbs / 60) ++ ':' :: padded 2 (minutes.natAbs % 60))

/-- Three numbers are printed with a separator between them. -/
def triple (width : Nat) (separator : Char) (first second third : Nat) (rest : List Char) :
    List Char :=
  padded width first ++ separator :: (padded 2 second ++ separator :: (padded 2 third ++ rest))

/-- This function is the ISO format of the fields. -/
def isoformat (value : Timestamp) : String := String.ofList
  (triple 4 '-' value.year value.month value.day
    ('T' :: triple 2 ':' value.hour value.minute value.second
      (microsecondText value.microsecond ++ offsetText value.offsetMinutes)))

/-- A fraction of a second has six digits. -/
def readMicrosecond : List Char → Option (Nat × List Char)
  | '.' :: rest => fixed 6 rest
  | text => some (0, text)

def readMinutes (negative : Bool) (text : List Char) : Option (Option Int) := do
  let (hours, rest) ← fixed 2 text
  let (minutes, rest) ← fixed 2 (← expect ':' rest)
  if rest = [] then
    return some (if negative then -((hours * 60 + minutes : Nat) : Int)
      else ((hours * 60 + minutes : Nat) : Int))
  else none

/-- The offset zero has no minus sign. -/
def readOffset : List Char → Option (Option Int)
  | [] => some none
  | '+' :: rest => readMinutes false rest
  | '-' :: rest => (readMinutes true rest).filter (· ≠ some 0)
  | _ => none

def readTriple (width : Nat) (separator : Char) (text : List Char) :
    Option ((Nat × Nat × Nat) × List Char) := do
  let (first, rest) ← fixed width text
  let (second, rest) ← fixed 2 (← expect separator rest)
  let (third, rest) ← fixed 2 (← expect separator rest)
  return ((first, second, third), rest)

/-- This reader takes the ISO format, and refuses fields out of range. -/
def parse (text : String) : Option Timestamp := do
  let ((year, month, day), rest) ← readTriple 4 '-' text.toList
  let ((hour, minute, second), rest) ← readTriple 2 ':' (← expect 'T' rest)
  let (microsecond, rest) ← readMicrosecond rest
  let offsetMinutes ← readOffset rest
  let value : Timestamp :=
    ⟨year, month, day, hour, minute, second, microsecond, offsetMinutes⟩
  if value.Valid then return value else none

/-- Three printed numbers are read back. -/
theorem readTriple_triple {width first second third : Nat} (positive : 0 < width)
    (firstFits : first < 10 ^ width) (secondFits : second < 100) (thirdFits : third < 100)
    (separator : Char) (rest : List Char) :
    readTriple width separator (triple width separator first second third rest) =
      some ((first, second, third), rest) := by
  have two {n : Nat} (fits : n < 100) (rest : List Char) :
      fixed 2 (padded 2 n ++ rest) = some (n, rest) := fixed_padded (by decide) fits rest
  simp only [readTriple, triple, fixed_padded positive firstFits, two secondFits, two thirdFits,
    expect_cons, Option.bind_eq_bind, Option.bind_some, Option.pure_def]

/-- Printed hours and minutes are read back. -/
theorem readMinutes_text (negative : Bool) {minutes : Nat} (range : minutes < 1440) :
    readMinutes negative (padded 2 (minutes / 60) ++ ':' :: padded 2 (minutes % 60)) =
      some (some (if negative then -(minutes : Int) else minutes)) := by
  have two : 0 < 2 := by decide
  have hours := fixed_padded two (show minutes / 60 < 10 ^ 2 by omega)
    (':' :: padded 2 (minutes % 60))
  have rest := fixed_padded two (show minutes % 60 < 10 ^ 2 by omega) []
  rw [List.append_nil] at rest
  simp only [readMinutes, hours, rest, expect_cons, Option.bind_eq_bind, Option.bind_some, if_true,
    Nat.div_add_mod', Option.pure_def]

/-- A printed offset is read back. -/
theorem readOffset_text {offsetMinutes : Option Int}
    (range : ∀ minutes ∈ offsetMinutes, minutes.natAbs < 1440) :
    readOffset (offsetText offsetMinutes) = some offsetMinutes := by
  cases offsetMinutes with
  | none => rfl
  | some minutes =>
      have bound := range minutes rfl
      by_cases negative : minutes < 0
      · have read : -((minutes.natAbs : Nat) : Int) = minutes := by omega
        rw [offsetText, if_pos negative, readOffset, readMinutes_text true bound, if_pos rfl, read]
        exact Option.filter_some_pos (by simpa using negative.ne)
      · have read : ((minutes.natAbs : Nat) : Int) = minutes := by omega
        rw [offsetText, if_neg negative, readOffset, readMinutes_text false bound,
          if_neg Bool.false_ne_true, read]

/-- A printed fraction of a second is read back. -/
theorem readMicrosecond_text {microsecond : Nat} (range : microsecond < 1000000)
    (offsetMinutes : Option Int) :
    readMicrosecond (microsecondText microsecond ++ offsetText offsetMinutes) =
      some (microsecond, offsetText offsetMinutes) := by
  by_cases zero : microsecond = 0
  · rw [microsecondText, if_pos zero, List.nil_append, zero]
    cases offsetMinutes with
    | none => rfl
    | some minutes =>
        unfold offsetText readMicrosecond
        by_cases negative : minutes < 0
        · simp [negative]
        · simp [negative]
  · rw [microsecondText, if_neg zero]
    exact fixed_padded (by decide) range _

/-- The ISO format of valid fields is read back. -/
theorem parse_isoformat {value : Timestamp} (valid : value.Valid) :
    parse value.isoformat = some value := by
  have year := valid.year
  have month := valid.month
  have day := valid.day
  have hour := valid.hour
  have minute := valid.minute
  have second := valid.second
  have lastDay : daysInMonth value.year value.month ≤ 31 := by
    unfold daysInMonth
    split
    · split <;> decide
    all_goals decide
  have date (rest : List Char) := readTriple_triple (by decide)
    (show value.year < 10 ^ 4 by omega) (show value.month < 100 by omega)
    (show value.day < 100 by omega) '-' rest
  have time (rest : List Char) := readTriple_triple (by decide)
    (show value.hour < 10 ^ 2 by omega) (show value.minute < 100 by omega)
    (show value.second < 100 by omega) ':' rest
  simp only [parse, isoformat, String.toList_ofList, date, time, expect_cons,
    readMicrosecond_text valid.microsecond, readOffset_text valid.offset, Option.bind_eq_bind,
    Option.bind_some, if_pos valid, Option.pure_def]

end Timestamp
end EventLedger.Python
