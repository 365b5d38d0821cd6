import Mathlib.Tactic.Ring

namespace EventLedger.Library.DigitText

/-- The decimal digits of a number, without leading zeros. -/
def number (n : Nat) : List Char := Nat.toDigits 10 n

/-- The decimal digits of a number, with leading zeros up to a width. -/
def padded (width n : Nat) : List Char :=
  List.replicate (width - (number n).length) '0' ++ number n

/-- The number of a list of digits. -/
def value (digits : List Char) : Nat := Nat.ofDigitChars 10 digits 0

/-- This reader splits a text after its leading digits. -/
def leading (text : List Char) : List Char × List Char :=
  (text.takeWhile Char.isDigit, text.dropWhile Char.isDigit)

/-- This reader takes a number of exactly the given width. -/
def fixed (width : Nat) (text : List Char) : Option (Nat × List Char) :=
  if (text.take width).length = width ∧ (text.take width).all Char.isDigit then
    some (value (text.take width), text.drop width)
  else none

/-- This reader takes one given character. -/
def expect (c : Char) : List Char → Option (List Char)
  | first :: rest => if first = c then some rest else none
  | [] => none

@[simp] theorem expect_cons (c : Char) (rest : List Char) : expect c (c :: rest) = some rest :=
  if_pos rfl

@[simp] theorem value_number (n : Nat) : value (number n) = n := Nat.ofDigitChars_ten_toDigits

theorem number_ne_nil (n : Nat) : number n ≠ [] := Nat.toDigits_ne_nil

theorem isDigit_of_mem_number {n : Nat} {c : Char} (member : c ∈ number n) : c.isDigit :=
  Nat.isDigit_of_mem_toDigits (by decide) (by decide) member

/-- Leading zeros do not change the number. -/
@[simp] theorem value_zeros (zeros : Nat) (digits : List Char) :
    value (List.replicate zeros '0' ++ digits) = value digits := by
  rw [value, Nat.ofDigitChars_append, Nat.ofDigitChars_replicate_zero, Nat.mul_zero, value]

theorem isDigit_of_mem_zeros {zeros : Nat} {digits : List Char}
    (all : ∀ c ∈ digits, c.isDigit) {c : Char}
    (member : c ∈ List.replicate zeros '0' ++ digits) : c.isDigit := by
  rcases List.mem_append.mp member with zero | digit
  · rw [List.eq_of_mem_replicate zero]
    decide
  · exact all c digit

theorem length_padded {width n : Nat} (positive : 0 < width) (fits : n < 10 ^ width) :
    (padded width n).length = width := by
  have short : (number n).length ≤ width := (Nat.length_toDigits_le_iff (by decide) positive).mpr fits
  rw [padded, List.length_append, List.length_replicate]
  omega

/-- A padded number is read back. -/
theorem fixed_padded {width n : Nat} (positive : 0 < width) (fits : n < 10 ^ width)
    (rest : List Char) : fixed width (padded width n ++ rest) = some (n, rest) := by
  have length := length_padded positive fits
  have taken : (padded width n ++ rest).take width = padded width n := List.take_left' length
  have dropped : (padded width n ++ rest).drop width = rest := List.drop_left' length
  have digits : (padded width n).all Char.isDigit := by
    rw [List.all_eq_true]
    exact fun c member => isDigit_of_mem_zeros (fun _ => isDigit_of_mem_number) member
  rw [fixed, taken, dropped, if_pos ⟨length, digits⟩, padded, value_zeros, value_number]

/-- The leading digits end at the first other character. -/
theorem leading_append {digits rest : List Char} (all : ∀ c ∈ digits, c.isDigit)
    (stops : ∀ c ∈ rest.head?, c.isDigit = false) : leading (digits ++ rest) = (digits, rest) := by
  rw [leading, List.takeWhile_append_of_pos all, List.dropWhile_append_of_pos all]
  cases rest with
  | nil => simp
  | cons c rest =>
      have other := stops c rfl
      simp [other]

end EventLedger.Library.DigitText
