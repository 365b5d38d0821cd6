import Mathlib.Tactic.Ring

namespace EventLedger.Library.Utf8

/-- A continuation byte carries six bits. -/
def six (n : Nat) : Nat := 0x80 + n % 64

/-- A character is encoded in one to four bytes. -/
def encode (c : Char) : List Nat :=
  let v := c.toNat
  if v < 0x80 then [v]
  else if v < 0x800 then [0xC0 + v / 64, six v]
  else if v < 0x10000 then [0xE0 + v / 4096, six (v / 64), six v]
  else [0xF0 + v / 262144, six (v / 4096), six (v / 64), six v]

/-- A lead byte announces its continuation bytes and bounds the first of them. -/
structure Lead where
  bits : Nat
  count : Nat
  lower : Nat
  upper : Nat

def lead (b : Nat) : Option Lead :=
  if 0xC2 ≤ b ∧ b ≤ 0xDF then some ⟨b - 0xC0, 1, 0x80, 0xBF⟩
  else if b = 0xE0 then some ⟨0, 2, 0xA0, 0xBF⟩
  else if b = 0xED then some ⟨13, 2, 0x80, 0x9F⟩
  else if 0xE1 ≤ b ∧ b ≤ 0xEF then some ⟨b - 0xE0, 2, 0x80, 0xBF⟩
  else if b = 0xF0 then some ⟨0, 3, 0x90, 0xBF⟩
  else if b = 0xF4 then some ⟨4, 3, 0x80, 0x8F⟩
  else if 0xF1 ≤ b ∧ b ≤ 0xF3 then some ⟨b - 0xF0, 3, 0x80, 0xBF⟩
  else none

/-- This function takes the continuation bytes up to the announced count. -/
def continuation : Nat → Nat → Nat → List Nat → List Nat
  | count + 1, lower, upper, b :: rest =>
      if lower ≤ b ∧ b ≤ upper then b :: continuation count 0x80 0xBF rest else []
  | _, _, _, _ => []

/-- The bits of the bytes are joined in order. -/
def assemble (bits : Nat) (bytes : List Nat) : Nat :=
  bytes.foldl (fun value b => value * 64 + (b - 0x80)) bits

/-- The decoder replaces each longest invalid sequence by one replacement character. -/
def decode : List Nat → List Char
  | [] => []
  | b :: rest =>
      match lead b with
      | none => (if b < 0x80 then Char.ofNat b else Char.ofNat 0xFFFD) :: decode rest
      | some first =>
          let bytes := continuation first.count first.lower first.upper rest
          (if bytes.length = first.count then Char.ofNat (assemble first.bits bytes)
            else Char.ofNat 0xFFFD) :: decode (rest.drop bytes.length)
  termination_by bytes => bytes.length
  decreasing_by all_goals simp only [List.length_cons, List.length_drop]; omega

theorem lead_of_low {b : Nat} (low : b < 0xC2) : lead b = none := by
  unfold lead
  repeat rw [if_neg (by omega)]

/-- A byte that leads nothing is decoded alone. -/
theorem decode_alone {b : Nat} (alone : lead b = none) (rest : List Nat) :
    decode (b :: rest) =
      (if b < 0x80 then Char.ofNat b else Char.ofNat 0xFFFD) :: decode rest := by
  rw [decode, alone]

theorem decode_lead {b : Nat} {first : Lead} (leads : lead b = some first) (rest : List Nat) :
    decode (b :: rest) =
      (if (continuation first.count first.lower first.upper rest).length = first.count then
        Char.ofNat (assemble first.bits
          (continuation first.count first.lower first.upper rest))
      else Char.ofNat 0xFFFD) ::
        decode (rest.drop (continuation first.count first.lower first.upper rest).length) := by
  rw [decode, leads]

theorem lead_bounds {b : Nat} {first : Lead} (leads : lead b = some first) :
    0x80 ≤ first.lower ∧ first.upper ≤ 0xBF := by
  unfold lead at leads
  repeat' split at leads
  all_goals simp only [Option.some.injEq, reduceCtorEq] at leads
  all_goals
    rw [← leads]
    exact ⟨by simp, by simp⟩

/-- Skipped continuation bytes would each be decoded alone. -/
theorem length_decode_drop (count : Nat) {lower upper : Nat} (above : 0x80 ≤ lower)
    (below : upper ≤ 0xBF) (bytes : List Nat) :
    (decode bytes).length =
      (continuation count lower upper bytes).length +
        (decode (bytes.drop (continuation count lower upper bytes).length)).length := by
  induction count generalizing lower upper bytes with
  | zero => simp [continuation]
  | succ count ih =>
      cases bytes with
      | nil => simp [continuation]
      | cons b rest =>
          by_cases within : lower ≤ b ∧ b ≤ upper
          · have alone : lead b = none := lead_of_low (by omega)
            rw [continuation, if_pos within, decode_alone alone]
            simp only [List.length_cons, List.drop_succ_cons]
            rw [@ih 0x80 0xBF (by decide) (by decide) rest]
            omega
          · rw [continuation, if_neg within]
            simp

/-- One more byte gives at most one more character. -/
theorem length_decode_cons (b : Nat) (rest : List Nat) :
    (decode (b :: rest)).length ≤ 1 + (decode rest).length := by
  cases leads : lead b with
  | none =>
      rw [decode_alone leads, List.length_cons]
      omega
  | some first =>
      obtain ⟨above, below⟩ := lead_bounds leads
      have skipped := length_decode_drop first.count above below rest
      rw [decode_lead leads, List.length_cons]
      omega

section Encoded
variable {b : Nat} {first : Lead} {bytes rest : List Nat}

/-- A complete sequence is decoded to one character. -/
theorem decode_sequence (leads : lead b = some first)
    (taken : continuation first.count first.lower first.upper (bytes ++ rest) = bytes)
    (complete : bytes.length = first.count) :
    decode (b :: (bytes ++ rest)) = Char.ofNat (assemble first.bits bytes) :: decode rest := by
  rw [decode_lead leads, taken, if_pos complete, List.drop_left]

theorem continuation_cons {count lower upper : Nat} (within : lower ≤ b ∧ b ≤ upper) :
    continuation (count + 1) lower upper (b :: rest) =
      b :: continuation count 0x80 0xBF rest := by
  rw [continuation, if_pos within]

@[simp] theorem continuation_zero (lower upper : Nat) (bytes : List Nat) :
    continuation 0 lower upper bytes = [] := by
  simp [continuation]

theorem six_within (n : Nat) : 0x80 ≤ six n ∧ six n ≤ 0xBF := by
  unfold six
  omega

theorem decode_two {c : Char} (range : 0x80 ≤ c.toNat ∧ c.toNat < 0x800) (rest : List Nat) :
    decode ((0xC0 + c.toNat / 64) :: ([six c.toNat] ++ rest)) = c :: decode rest := by
  have leads : lead (0xC0 + c.toNat / 64) = some ⟨c.toNat / 64, 1, 0x80, 0xBF⟩ := by
    unfold lead
    rw [if_pos (by omega), Nat.add_sub_cancel_left]
  have value : assemble (c.toNat / 64) [six c.toNat] = c.toNat := by
    simp only [assemble, List.foldl_cons, List.foldl_nil, six]
    omega
  rw [decode_sequence leads (continuation_cons (six_within _)) rfl, value, Char.ofNat_toNat]

/-- The surrogates are no characters. -/
theorem toNat_range (c : Char) : c.toNat < 0xD800 ∨ 0xDFFF < c.toNat ∧ c.toNat < 0x110000 := c.valid

theorem decode_three {c : Char} (range : 0x800 ≤ c.toNat ∧ c.toNat < 0x10000) (rest : List Nat) :
    decode ((0xE0 + c.toNat / 4096) :: ([six (c.toNat / 64), six c.toNat] ++ rest)) =
      c :: decode rest := by
  have valid := toNat_range c
  obtain ⟨lower, upper, leads, within⟩ : ∃ lower upper,
      lead (0xE0 + c.toNat / 4096) = some ⟨c.toNat / 4096, 2, lower, upper⟩ ∧
        lower ≤ six (c.toNat / 64) ∧ six (c.toNat / 64) ≤ upper := by
    unfold six lead
    rw [if_neg (by omega)]
    by_cases low : c.toNat / 4096 = 0
    · exact ⟨0xA0, 0xBF, by rw [if_pos (by omega), low], by omega⟩
    · rw [if_neg (by omega)]
      by_cases high : c.toNat / 4096 = 13
      · exact ⟨0x80, 0x9F, by rw [if_pos (by omega), high], by omega⟩
      · rw [if_neg (by omega), if_pos (by omega), Nat.add_sub_cancel_left]
        exact ⟨0x80, 0xBF, rfl, by omega⟩
  have taken : continuation 2 lower upper ([six (c.toNat / 64), six c.toNat] ++ rest) =
      [six (c.toNat / 64), six c.toNat] := by
    simp only [List.cons_append, List.nil_append, continuation_cons within,
      continuation_cons (six_within _), continuation_zero]
  have value : assemble (c.toNat / 4096) [six (c.toNat / 64), six c.toNat] = c.toNat := by
    simp only [assemble, List.foldl_cons, List.foldl_nil, six]
    omega
  rw [decode_sequence leads taken rfl, value, Char.ofNat_toNat]

theorem decode_four {c : Char} (range : 0x10000 ≤ c.toNat) (rest : List Nat) :
    decode ((0xF0 + c.toNat / 262144) ::
      ([six (c.toNat / 4096), six (c.toNat / 64), six c.toNat] ++ rest)) = c :: decode rest := by
  have valid := toNat_range c
  obtain ⟨lower, upper, leads, within⟩ : ∃ lower upper,
      lead (0xF0 + c.toNat / 262144) = some ⟨c.toNat / 262144, 3, lower, upper⟩ ∧
        lower ≤ six (c.toNat / 4096) ∧ six (c.toNat / 4096) ≤ upper := by
    unfold six lead
    rw [if_neg (by omega), if_neg (by omega), if_neg (by omega), if_neg (by omega)]
    by_cases low : c.toNat / 262144 = 0
    · exact ⟨0x90, 0xBF, by rw [if_pos (by omega), low], by omega⟩
    · rw [if_neg (by omega)]
      by_cases high : c.toNat / 262144 = 4
      · exact ⟨0x80, 0x8F, by rw [if_pos (by omega), high], by omega⟩
      · rw [if_neg (by omega), if_pos (by omega), Nat.add_sub_cancel_left]
        exact ⟨0x80, 0xBF, rfl, by omega⟩
  have taken : continuation 3 lower upper
      ([six (c.toNat / 4096), six (c.toNat / 64), six c.toNat] ++ rest) =
      [six (c.toNat / 4096), six (c.toNat / 64), six c.toNat] := by
    simp only [List.cons_append, List.nil_append, continuation_cons within,
      continuation_cons (six_within _), continuation_zero]
  have value : assemble (c.toNat / 262144)
      [six (c.toNat / 4096), six (c.toNat / 64), six c.toNat] = c.toNat := by
    simp only [assemble, List.foldl_cons, List.foldl_nil, six]
    omega
  rw [decode_sequence leads taken rfl, value, Char.ofNat_toNat]

/-- An encoded character is decoded in front of any bytes. -/
theorem decode_encode (c : Char) (rest : List Nat) :
    decode (encode c ++ rest) = c :: decode rest := by
  by_cases one : c.toNat < 0x80
  · simp only [encode, if_pos one, List.cons_append, List.nil_append]
    rw [decode_alone (lead_of_low (by omega)), if_pos one, Char.ofNat_toNat]
  · by_cases two : c.toNat < 0x800
    · simp only [encode, if_neg one, if_pos two]
      exact decode_two (by omega) rest
    · by_cases three : c.toNat < 0x10000
      · simp only [encode, if_neg one, if_neg two, if_pos three]
        exact decode_three (by omega) rest
      · simp only [encode, if_neg one, if_neg two, if_neg three]
        exact decode_four (by omega) rest

end Encoded

end EventLedger.Library.Utf8
