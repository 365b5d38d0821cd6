import Mathlib.Tactic.Common

namespace EventLedger.Python

/-- The microseconds of one day. -/
def Datetime.day : Int := 86400000000

/-- The microseconds of the years 1 to 9999. -/
def Datetime.maximum : Int := 3652059 * Datetime.day

/-- A datetime holds its wall clock in microseconds since year 1 and an optional UTC offset. -/
structure Datetime where
  wall : Int
  tzinfo : Option Int
  inYears : 0 ≤ wall ∧ wall < Datetime.maximum
  withinDay : ∀ offset ∈ tzinfo, -Datetime.day < offset ∧ offset < Datetime.day
  deriving DecidableEq

namespace Datetime

/-- The first instant of year 1, in UTC. -/
def epoch : Datetime := ⟨0, some 0, by decide, by simp; decide⟩

/-- A naive datetime is read as UTC. -/
def offset (value : Datetime) : Int := value.tzinfo.getD 0

/-- The instant is the wall clock less the UTC offset. -/
def instant (value : Datetime) : Int := value.wall - value.offset

/-- This function keeps the wall clock and drops the UTC offset. -/
def dropOffset (value : Datetime) : Datetime :=
  ⟨value.wall, none, value.inYears, by simp⟩

/-- The conversion to naive UTC overflows outside the years 1 to 9999. -/
def utcNaive (value : Datetime) : Option Datetime :=
  match value.tzinfo with
  | none => some value
  | some offset =>
      if inYears : 0 ≤ value.wall - offset ∧ value.wall - offset < maximum then
        some ⟨value.wall - offset, none, inYears, by simp⟩
      else none

/-- Two hours after midnight of the first day of year 1, two hours east of UTC. -/
def eastern : Datetime := ⟨7200000000, some 7200000000, by decide, by simp; decide⟩

theorem ext_naive {left right : Datetime} (leftNaive : left.tzinfo = none)
    (rightNaive : right.tzinfo = none) (same : left.wall = right.wall) : left = right := by
  cases left
  cases right
  subst leftNaive rightNaive same
  rfl

@[simp] theorem dropOffset_utcNaive (value : Datetime) :
    value.dropOffset.utcNaive = some value.dropOffset := rfl

/-- A conversion that succeeds gives the naive datetime of the same instant. -/
theorem utcNaive_eq_some {value naive : Datetime} (converted : value.utcNaive = some naive) :
    naive.tzinfo = none ∧ naive.wall = value.instant := by
  unfold utcNaive at converted
  split at converted
  · next unaware =>
      obtain rfl := Option.some.inj converted
      simp [instant, offset, unaware]
  · next offset aware =>
      split at converted
      · obtain rfl := Option.some.inj converted
        simp [instant, Datetime.offset, aware]
      · cases converted

/-- A datetime at offset zero converts to its own wall clock. -/
theorem utcNaive_of_offset {value : Datetime} (utc : value.offset = 0) :
    value.utcNaive = some value.dropOffset := by
  unfold utcNaive
  split
  · next unaware => exact congrArg some (ext_naive unaware rfl rfl)
  · next offset aware =>
      have zero : offset = 0 := by simpa [Datetime.offset, aware] using utc
      subst zero
      rw [dif_pos (by simpa using value.inYears)]
      exact congrArg some (ext_naive rfl rfl (by simp [dropOffset]))

/-- A stored wall clock equals a converted datetime exactly when it equals the instant. -/
theorem dropOffset_eq_iff (stored : Datetime) {value naive : Datetime}
    (converted : value.utcNaive = some naive) :
    stored.dropOffset = naive ↔ stored.wall = value.instant := by
  obtain ⟨naiveZone, wall⟩ := utcNaive_eq_some converted
  constructor
  · rintro rfl
    exact wall
  · intro same
    exact ext_naive rfl naiveZone (same.trans wall.symm)

end Datetime
end EventLedger.Python
