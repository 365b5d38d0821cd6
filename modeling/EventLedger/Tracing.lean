import Mathlib.Data.Char
import Mathlib.Data.List.Basic

namespace EventLedger

/-- The trace pattern admits letters, digits and four marks. -/
def traceCharacter (c : Char) : Bool :=
  ('A' ≤ c && c ≤ 'Z') || ('a' ≤ c && c ≤ 'z') || ('0' ≤ c && c ≤ '9') ||
    c == '.' || c == '_' || c == ':' || c == '-'

/-- The trace pattern matches 1 to 128 admitted characters. -/
def traceMatches (value : String) : Bool :=
  1 ≤ value.length && value.length ≤ 128 && value.toList.all traceCharacter

/-- A value that does not match is replaced by a fresh identifier. -/
def normalizeTraceId (value : Option String) (fresh : String) : String :=
  match value with
  | some value => if traceMatches value then value else fresh
  | none => fresh

/-- A generated identifier has 32 hexadecimal digits in lower case. -/
structure Uuid where
  hex : String
  length : hex.length = 32
  digits : hex.toList.all fun c => ('a' ≤ c && c ≤ 'f') || ('0' ≤ c && c ≤ '9')

/-- A generated identifier matches the trace pattern. -/
theorem Uuid.traceMatches_hex (uuid : Uuid) : traceMatches uuid.hex := by
  have admitted : uuid.hex.toList.all traceCharacter := by
    refine List.all_eq_true.mpr fun c member => ?_
    have digit := List.all_eq_true.mp uuid.digits c member
    simp only [Bool.or_eq_true, Bool.and_eq_true, decide_eq_true_eq] at digit
    simp only [traceCharacter, Bool.or_eq_true, Bool.and_eq_true, decide_eq_true_eq]
    rcases digit with ⟨low, high⟩ | digit
    · have below : c ≤ 'z' := le_trans high (by decide)
      simp [low, below]
    · simp [digit]
  simp [traceMatches, uuid.length, admitted]

/-- A value that matches stays as it is, so a second normalization changes nothing. -/
theorem normalizeTraceId_of_matches {value : String} (matching : traceMatches value)
    (fresh : String) : normalizeTraceId (some value) fresh = value := if_pos matching

/-- A normalized value matches the trace pattern. -/
theorem traceMatches_normalizeTraceId (value : Option String) (uuid : Uuid) :
    traceMatches (normalizeTraceId value uuid.hex) := by
  unfold normalizeTraceId
  split
  · split
    · assumption
    · exact uuid.traceMatches_hex
  · exact uuid.traceMatches_hex

end EventLedger
