import EventLedger.Library.DigitText
import EventLedger.Python.Decimal

namespace EventLedger.Python
open Library DigitText

/-- A decimal object holds a sign, a coefficient and a power of ten. -/
structure PyDecimal where
  negative : Bool
  coefficient : Nat
  exponent : Int
  deriving DecidableEq

namespace PyDecimal

/-- The constructor represents these numbers of digits and exponents. -/
def InRange (value : PyDecimal) : Prop :=
  (number value.coefficient).length ≤ 999999999999999999 ∧
    -1999999999999999997 ≤ value.exponent ∧
    value.exponent + (number value.coefficient).length ≤ 1000000000000000000

instance (value : PyDecimal) : Decidable value.InRange :=
  inferInstanceAs (Decidable (_ ∧ _ ∧ _))

/-- The value counts ten-thousandths when it is a whole number of them. -/
def toDecimal (value : PyDecimal) : Option Decimal :=
  let shift := value.exponent + 4
  let units : Option Nat :=
    if 0 ≤ shift then some (value.coefficient * 10 ^ shift.toNat)
    else if value.coefficient % 10 ^ shift.natAbs = 0 then
      some (value.coefficient / 10 ^ shift.natAbs)
    else none
  units.map fun units => ⟨if value.negative then -(units : Int) else units⟩

/-- A signed exponent is printed with its sign. -/
def signed (exponent : Int) : List Char :=
  (if exponent < 0 then '-' else '+') :: number exponent.natAbs

/-- The digits before and after the point, and the printed exponent. -/
structure Layout where
  whole : List Char
  fraction : List Char
  shown : Int

/-- The point stays in place unless the exponent is positive or the number is very small. -/
def layout (value : PyDecimal) : Layout :=
  let digits := number value.coefficient
  let leftdigits := value.exponent + digits.length
  let dotplace := if value.exponent ≤ 0 ∧ -6 < leftdigits then leftdigits else 1
  if dotplace ≤ 0 then
    ⟨['0'], List.replicate dotplace.natAbs '0' ++ digits, leftdigits - dotplace⟩
  else if digits.length ≤ dotplace then
    ⟨digits ++ List.replicate (dotplace - digits.length).natAbs '0', [], leftdigits - dotplace⟩
  else
    ⟨digits.take dotplace.natAbs, digits.drop dotplace.natAbs, leftdigits - dotplace⟩

def Layout.text (negative : Bool) (layout : Layout) : List Char :=
  (if negative then ['-'] else []) ++ (layout.whole ++
    ((if layout.fraction = [] then [] else '.' :: layout.fraction) ++
      if layout.shown = 0 then [] else 'E' :: signed layout.shown))

/-- This function is the conversion to a string. -/
def str (value : PyDecimal) : String := String.ofList (value.layout.text value.negative)

def readSign : List Char → Bool × List Char
  | '-' :: rest => (true, rest)
  | '+' :: rest => (false, rest)
  | text => (false, text)

def readFraction : List Char → List Char × List Char
  | '.' :: rest => leading rest
  | text => ([], text)

def readExponent : List Char → Option Int
  | [] => some 0
  | 'E' :: rest | 'e' :: rest =>
      let (negative, digits) := readSign rest
      if digits ≠ [] ∧ digits.all Char.isDigit then
        some (if negative then -(value digits : Int) else value digits)
      else none
  | _ => none

/-- The constructor reads the text of a finite number. -/
def parse (text : String) : Option PyDecimal :=
  let (negative, unsigned) := readSign text.toList
  let (whole, rest) := leading unsigned
  let (fraction, rest) := readFraction rest
  if whole = [] ∧ fraction = [] then none
  else (readExponent rest).map fun exponent =>
    ⟨negative, value (whole ++ fraction), exponent - fraction.length⟩

theorem readSign_digit {c : Char} (digit : c.isDigit) (rest : List Char) :
    readSign (c :: rest) = (false, c :: rest) := by
  unfold readSign
  split
  · next same =>
      obtain ⟨rfl, _⟩ := List.cons.inj same
      cases digit
  · next same =>
      obtain ⟨rfl, _⟩ := List.cons.inj same
      cases digit
  · rfl

/-- A printed exponent is read back. -/
theorem readExponent_signed (exponent : Int) :
    readExponent ('E' :: signed exponent) = some exponent := by
  have nonempty : number exponent.natAbs ≠ [] := number_ne_nil _
  have digits : (number exponent.natAbs).all Char.isDigit := by
    rw [List.all_eq_true]
    exact fun c member => isDigit_of_mem_number member
  by_cases negative : exponent < 0
  · have sign : -((exponent.natAbs : Nat) : Int) = exponent := by omega
    simp only [signed, if_pos negative, readExponent, readSign, ne_eq, nonempty, not_false_eq_true,
      digits, and_self, if_true, value_number, sign]
  · have sign : ((exponent.natAbs : Nat) : Int) = exponent := by omega
    simp only [signed, if_neg negative, readExponent, readSign, ne_eq, nonempty, not_false_eq_true,
      digits, and_self, if_true, value_number, Bool.false_eq_true, if_false, sign]

section Read
variable {layout : Layout} (wholeDigits : ∀ c ∈ layout.whole, c.isDigit)
  (fractionDigits : ∀ c ∈ layout.fraction, c.isDigit)

/-- The printed exponent starts with a letter. -/
theorem Layout.exponent_head (layout : Layout) :
    ∀ c ∈ (if layout.shown = 0 then [] else 'E' :: signed layout.shown).head?,
      c.isDigit = false := by
  intro c member
  split at member
  · cases member
  · obtain rfl := Option.some.inj member
    rfl

theorem Layout.readExponent (layout : Layout) :
    PyDecimal.readExponent (if layout.shown = 0 then [] else 'E' :: signed layout.shown) =
      some layout.shown := by
  split
  · next zero => rw [zero]; rfl
  · exact readExponent_signed layout.shown

include fractionDigits in
/-- The printed fraction is read back up to the exponent. -/
theorem Layout.readFraction :
    PyDecimal.readFraction ((if layout.fraction = [] then [] else '.' :: layout.fraction) ++
      if layout.shown = 0 then [] else 'E' :: signed layout.shown) =
      (layout.fraction, if layout.shown = 0 then [] else 'E' :: signed layout.shown) := by
  by_cases empty : layout.fraction = []
  · rw [if_pos empty, empty, List.nil_append]
    split <;> rfl
  · rw [if_neg empty]
    exact leading_append fractionDigits layout.exponent_head

include wholeDigits fractionDigits

/-- A printed layout is read back. -/
theorem Layout.parse_text (negative : Bool) (nonempty : layout.whole ≠ []) :
    parse (String.ofList (layout.text negative)) =
      some ⟨negative, value (layout.whole ++ layout.fraction),
        layout.shown - layout.fraction.length⟩ := by
  have sign (rest : List Char) :
      readSign ((if negative then ['-'] else []) ++ (layout.whole ++ rest)) =
        (negative, layout.whole ++ rest) := by
    cases negative with
    | true => rfl
    | false =>
        obtain ⟨c, whole, same⟩ := List.exists_cons_of_ne_nil nonempty
        have digit := wholeDigits c (same ▸ List.mem_cons_self)
        rw [same]
        exact readSign_digit digit _
  have stops : ∀ c ∈ ((if layout.fraction = [] then [] else '.' :: layout.fraction) ++
      if layout.shown = 0 then [] else 'E' :: signed layout.shown).head?, c.isDigit = false := by
    by_cases empty : layout.fraction = []
    · rw [if_pos empty, List.nil_append]
      exact layout.exponent_head
    · rw [if_neg empty]
      rintro c ⟨⟩
      rfl
  simp only [parse, text, String.toList_ofList, sign, leading_append wholeDigits stops,
    Layout.readFraction fractionDigits, layout.readExponent, nonempty, false_and, if_false,
    Option.map_some]

end Read

/-- The layout of a value spells its coefficient and its exponent. -/
structure Layout.Spells (layout : Layout) (value : PyDecimal) : Prop where
  nonempty : layout.whole ≠ []
  wholeDigits : ∀ c ∈ layout.whole, c.isDigit
  fractionDigits : ∀ c ∈ layout.fraction, c.isDigit
  coefficient : DigitText.value (layout.whole ++ layout.fraction) = value.coefficient
  exponent : layout.shown - layout.fraction.length = value.exponent

section Spells
variable {value : PyDecimal} {shown : Int}

/-- A small number is printed with zeros after the point. -/
theorem spells_zeros (zeros : Nat)
    (exponent : shown - (zeros + (number value.coefficient).length : Nat) = value.exponent) :
    Layout.Spells ⟨['0'], List.replicate zeros '0' ++ number value.coefficient, shown⟩ value where
  nonempty := List.cons_ne_nil _ _
  wholeDigits c member := by
    rw [List.mem_singleton.mp member]
    decide
  fractionDigits _ := isDigit_of_mem_zeros fun _ => isDigit_of_mem_number
  coefficient := by
    have zero : ['0'] ++ (List.replicate zeros '0' ++ number value.coefficient) =
        List.replicate (zeros + 1) '0' ++ number value.coefficient := by
      rw [List.replicate_succ]
      rfl
    rw [zero, value_zeros, value_number]
  exponent := by simpa using exponent

/-- A whole number is printed without a point. -/
theorem spells_whole (exponent : shown = value.exponent) :
    Layout.Spells ⟨number value.coefficient, [], shown⟩ value where
  nonempty := number_ne_nil _
  wholeDigits _ := isDigit_of_mem_number
  fractionDigits _ member := by cases member
  coefficient := by rw [List.append_nil, value_number]
  exponent := by simpa using exponent

/-- The point splits the digits of any other number. -/
theorem spells_split (place : Nat) (positive : 0 < place)
    (within : place < (number value.coefficient).length)
    (exponent : shown - ((number value.coefficient).length - place : Nat) = value.exponent) :
    Layout.Spells ⟨(number value.coefficient).take place, (number value.coefficient).drop place,
      shown⟩ value where
  nonempty := by
    rw [← List.length_pos_iff, List.length_take]
    omega
  wholeDigits _ member := isDigit_of_mem_number (List.mem_of_mem_take member)
  fractionDigits _ member := isDigit_of_mem_number (List.mem_of_mem_drop member)
  coefficient := by rw [List.take_append_drop, value_number]
  exponent := by simpa using exponent

end Spells

theorem layout_spells (value : PyDecimal) : value.layout.Spells value := by
  have positive : 0 < (number value.coefficient).length :=
    List.length_pos_iff.mpr (number_ne_nil _)
  unfold layout
  by_cases plain : value.exponent ≤ 0 ∧ -6 < value.exponent + (number value.coefficient).length
  · simp only [if_pos plain]
    split
    · exact spells_zeros _ (by omega)
    · split
      · have none : (value.exponent + (number value.coefficient).length -
            (number value.coefficient).length).natAbs = 0 := by omega
        rw [none, List.replicate_zero, List.append_nil]
        exact spells_whole (by omega)
      · exact spells_split _ (by omega) (by omega) (by omega)
  · simp only [if_neg plain]
    rw [if_neg (by decide)]
    split
    · have none : (1 - ((number value.coefficient).length : Int)).natAbs = 0 := by omega
      rw [none, List.replicate_zero, List.append_nil]
      exact spells_whole (by omega)
    · exact spells_split _ (by decide) (by omega) (by omega)

/-- The constructor reads every printed value back. -/
theorem parse_str (value : PyDecimal) : parse value.str = some value := by
  obtain ⟨nonempty, wholeDigits, fractionDigits, coefficient, exponent⟩ := layout_spells value
  rw [str, Layout.parse_text wholeDigits fractionDigits _ nonempty, coefficient, exponent]

end PyDecimal
end EventLedger.Python
