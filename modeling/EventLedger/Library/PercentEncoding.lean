import EventLedger.Library.Utf8

namespace EventLedger.Library.PercentEncoding
open Utf8

/-- The value of a hexadecimal digit. -/
def hexValue (c : Char) : Option Nat :=
  if '0' ≤ c ∧ c ≤ '9' then some (c.toNat - 48)
  else if 'A' ≤ c ∧ c ≤ 'F' then some (c.toNat - 55)
  else if 'a' ≤ c ∧ c ≤ 'f' then some (c.toNat - 87)
  else none

/-- Escapes are printed with upper case digits. -/
def hexDigit (n : Nat) : Char := Char.ofNat (if n < 10 then 48 + n else 55 + n)

/-- A text is a list of escapes and of plain characters. -/
inductive Token where
  | escape (high low : Char)
  | plain (c : Char)
  deriving DecidableEq

/-- An escape is a percent sign before two hexadecimal digits. -/
def tokens : List Char → List Token
  | '%' :: high :: low :: rest =>
      if (hexValue high).isSome ∧ (hexValue low).isSome then .escape high low :: tokens rest
      else .plain '%' :: tokens (high :: low :: rest)
  | c :: rest => .plain c :: tokens rest
  | [] => []

def percent (b : Nat) : List Char := ['%', hexDigit (b / 16), hexDigit (b % 16)]

/-- Quoting keeps escapes and safe characters and escapes the bytes of all others. -/
def Token.quoted (safe : Char → Bool) : Token → List Char
  | .escape high low => ['%', high, low]
  | .plain c => if safe c then [c] else (encode c).flatMap percent

def quote (safe : Char → Bool) (text : List Char) : List Char :=
  (tokens text).flatMap (Token.quoted safe)

/-- An escape stands for one byte. -/
def Token.bytes : Token → List Nat
  | .escape high low => [(hexValue high).getD 0 * 16 + (hexValue low).getD 0]
  | .plain c => encode c

def unquote (text : List Char) : List Char := decode ((tokens text).flatMap Token.bytes)

def Token.isPlain : Token → Bool
  | .plain _ => true
  | .escape _ _ => false

section Tokens

/-- A text opens with two hexadecimal digits. -/
def Opens (text : List Char) : Prop :=
  ∃ high low rest, text = high :: low :: rest ∧ (hexValue high).isSome ∧ (hexValue low).isSome

theorem tokens_escape {high low : Char} (highHex : (hexValue high).isSome)
    (lowHex : (hexValue low).isSome) (rest : List Char) :
    tokens ('%' :: high :: low :: rest) = .escape high low :: tokens rest := by
  rw [tokens, if_pos ⟨highHex, lowHex⟩]

theorem tokens_plain {c : Char} {rest : List Char} (apart : c ≠ '%' ∨ ¬ Opens rest) :
    tokens (c :: rest) = .plain c :: tokens rest := by
  conv_lhs => unfold tokens
  split
  · next high low tail same =>
      obtain ⟨rfl, rfl⟩ := List.cons.inj same
      rw [if_neg]
      rintro ⟨highHex, lowHex⟩
      rcases apart with other | closed
      · exact other rfl
      · exact closed ⟨high, low, tail, rfl, highHex, lowHex⟩
  · next same =>
      obtain ⟨rfl, rfl⟩ := List.cons.inj same
      rfl
  · next same => cases same

/-- Every text is empty, or opens with an escape, or opens with a plain character. -/
theorem tokens_cases (text : List Char) :
    text = [] ∨
      (∃ high low rest, text = '%' :: high :: low :: rest ∧ (hexValue high).isSome ∧
        (hexValue low).isSome) ∨
      ∃ c rest, text = c :: rest ∧ (c ≠ '%' ∨ ¬ Opens rest) := by
  cases text with
  | nil => exact .inl rfl
  | cons c rest =>
      by_cases escape : c = '%' ∧ Opens rest
      · obtain ⟨rfl, high, low, tail, rfl, highHex, lowHex⟩ := escape
        exact .inr (.inl ⟨high, low, tail, rfl, highHex, lowHex⟩)
      · exact .inr (.inr ⟨c, rest, rfl, not_and_or.mp escape⟩)

/-- A statement about texts is proved token by token. -/
theorem tokens_induction {motive : List Char → Prop} (empty : motive [])
    (escape : ∀ high low rest, (hexValue high).isSome → (hexValue low).isSome → motive rest →
      motive ('%' :: high :: low :: rest))
    (plain : ∀ c rest, c ≠ '%' ∨ ¬ Opens rest → motive rest → motive (c :: rest))
    (text : List Char) : motive text := by
  induction length : text.length using Nat.strong_induction_on generalizing text with
  | _ n ih =>
      rcases tokens_cases text with rfl | ⟨high, low, rest, rfl, highHex, lowHex⟩ |
        ⟨c, rest, rfl, apart⟩
      · exact empty
      · refine escape high low rest highHex lowHex (ih rest.length ?_ rest rfl)
        simp only [List.length_cons] at length
        omega
      · refine plain c rest apart (ih rest.length ?_ rest rfl)
        simp only [List.length_cons] at length
        omega

/-- A text has at most as many tokens as characters, and fewer when it has an escape. -/
theorem length_tokens (text : List Char) :
    (tokens text).length ≤ text.length ∧
      ((tokens text).any (!·.isPlain) → (tokens text).length < text.length) := by
  induction text using tokens_induction with
  | empty => simp [tokens]
  | escape high low rest highHex lowHex ih =>
      rw [tokens_escape highHex lowHex]
      simp only [List.length_cons]
      omega
  | plain c rest apart ih =>
      rw [tokens_plain apart]
      simp only [List.length_cons, List.any_cons, Token.isPlain, Bool.not_true, Bool.false_or]
      exact ⟨by omega, fun escape => by have := ih.2 escape; omega⟩

/-- Each token decodes to at most one character. -/
theorem length_unquote (text : List Char) : (unquote text).length ≤ (tokens text).length := by
  unfold unquote
  induction tokens text with
  | nil => simp [decode]
  | cons token rest ih =>
      rw [List.flatMap_cons]
      cases token with
      | escape high low =>
          have one := length_decode_cons ((hexValue high).getD 0 * 16 + (hexValue low).getD 0)
            (rest.flatMap Token.bytes)
          simp only [Token.bytes, List.cons_append, List.nil_append, List.length_cons]
          omega
      | plain c =>
          simp only [Token.bytes, decode_encode, List.length_cons]
          omega

/-- Decoding never lengthens a text. -/
theorem length_unquote_le (text : List Char) : (unquote text).length ≤ text.length :=
  (length_unquote text).trans (length_tokens text).1

/-- A text without escapes decodes to itself. -/
theorem unquote_plain {text : List Char} (plain : (tokens text).all Token.isPlain) :
    unquote text = text := by
  unfold unquote
  induction text using tokens_induction with
  | empty => simp [tokens, decode]
  | escape high low rest highHex lowHex ih =>
      rw [tokens_escape highHex lowHex] at plain
      simp [Token.isPlain] at plain
  | plain c rest apart ih =>
      rw [tokens_plain apart] at plain ⊢
      simp only [List.all_cons, Token.isPlain, Bool.true_and] at plain
      rw [List.flatMap_cons, Token.bytes, decode_encode, ih plain]

/-- A character that is no digit ends the escapes before it. -/
theorem tokens_append {c : Char} (other : hexValue c = none) (text rest : List Char) :
    tokens (text ++ c :: rest) = tokens text ++ tokens (c :: rest) := by
  induction text using tokens_induction with
  | empty => simp [tokens]
  | escape high low tail highHex lowHex ih =>
      have whole := tokens_escape highHex lowHex (tail ++ c :: rest)
      rw [ih] at whole
      rw [tokens_escape highHex lowHex]
      exact whole
  | plain first tail apart ih =>
      have closes : first ≠ '%' ∨ ¬ Opens (tail ++ c :: rest) := by
        refine apart.imp_right fun closed => ?_
        rintro ⟨high, low, later, same, highHex, lowHex⟩
        match tail with
        | [] =>
            obtain ⟨rfl, _⟩ := List.cons.inj same
            rw [other] at highHex
            cases highHex
        | [first] =>
            obtain ⟨rfl, _⟩ := List.cons.inj (List.cons.inj same).2
            rw [other] at lowHex
            cases lowHex
        | first :: second :: tail =>
            obtain ⟨rfl, rest⟩ := List.cons.inj same
            obtain ⟨rfl, _⟩ := List.cons.inj rest
            exact closed ⟨first, second, tail, rfl, highHex, lowHex⟩
      have whole := tokens_plain closes
      rw [ih] at whole
      rw [tokens_plain apart]
      exact whole

end Tokens

section Quote
variable {safe : Char → Bool}

theorem encode_ne_nil (c : Char) : encode c ≠ [] := by
  simp only [encode]
  repeat' split
  all_goals exact List.cons_ne_nil _ _

theorem lt_of_mem_encode {c : Char} {b : Nat} (member : b ∈ encode c) : b < 256 := by
  have range := toNat_range c
  simp only [encode, six] at member
  repeat' split at member
  all_goals
    simp only [List.mem_cons, List.not_mem_nil, or_false] at member
    omega

theorem quote_escape {high low : Char} (highHex : (hexValue high).isSome)
    (lowHex : (hexValue low).isSome) (rest : List Char) :
    quote safe ('%' :: high :: low :: rest) = '%' :: high :: low :: quote safe rest := by
  rw [quote, tokens_escape highHex lowHex]
  rfl

theorem quote_plain {c : Char} {rest : List Char} (apart : c ≠ '%' ∨ ¬ Opens rest) :
    quote safe (c :: rest) =
      (if safe c then [c] else (encode c).flatMap percent) ++ quote safe rest := by
  rw [quote, tokens_plain apart]
  rfl

/-- A quoted text opens with a percent sign or with the first character of the text. -/
theorem quote_opens {text : List Char} {c : Char} {rest : List Char} (other : c ≠ '%')
    (quoted : quote safe text = c :: rest) : ∃ tail, text = c :: tail ∧ rest = quote safe tail := by
  rcases tokens_cases text with rfl | ⟨high, low, tail, rfl, highHex, lowHex⟩ |
    ⟨first, tail, rfl, apart⟩
  · cases quoted
  · rw [quote_escape highHex lowHex] at quoted
    exact absurd (List.cons.inj quoted).1.symm other
  · rw [quote_plain apart] at quoted
    split at quoted
    · obtain ⟨rfl, rfl⟩ := List.cons.inj quoted
      exact ⟨tail, rfl, rfl⟩
    · obtain ⟨b, bytes, encoded⟩ := List.exists_cons_of_ne_nil (encode_ne_nil first)
      rw [encoded] at quoted
      exact absurd (List.cons.inj quoted).1.symm other

theorem not_hex_percent : hexValue '%' = none := by decide

/-- Quoting opens no new escape. -/
theorem opens_of_quote {text : List Char} (opens : Opens (quote safe text)) : Opens text := by
  obtain ⟨high, low, rest, quoted, highHex, lowHex⟩ := opens
  have digit {c : Char} (hex : (hexValue c).isSome) : c ≠ '%' := by
    rintro rfl
    rw [not_hex_percent] at hex
    cases hex
  obtain ⟨tail, rfl, same⟩ := quote_opens (digit highHex) quoted
  obtain ⟨last, rfl, _⟩ := quote_opens (digit lowHex) same.symm
  exact ⟨high, low, last, rfl, highHex, lowHex⟩

theorem hexValue_hexDigit {n : Nat} (small : n < 16) : hexValue (hexDigit n) = some n := by
  revert n
  decide

/-- The escapes of some bytes are read back as these bytes. -/
theorem tokens_percent {bytes : List Nat} (small : ∀ b ∈ bytes, b < 256) (rest : List Char) :
    (tokens (bytes.flatMap percent ++ rest)).flatMap Token.bytes =
      bytes ++ (tokens rest).flatMap Token.bytes := by
  induction bytes with
  | nil => rfl
  | cons b bytes ih =>
      obtain ⟨first, others⟩ := List.forall_mem_cons.mp small
      have high := hexValue_hexDigit (show b / 16 < 16 by omega)
      have low := hexValue_hexDigit (show b % 16 < 16 by omega)
      simp only [List.flatMap_cons, percent, List.cons_append, List.nil_append]
      rw [tokens_escape (by rw [high]; rfl) (by rw [low]; rfl), List.flatMap_cons, ih others,
        Token.bytes, high, low]
      simp only [Option.getD_some, List.cons_append, List.nil_append, Nat.div_add_mod']

/-- Quoting does not change what a text decodes to. -/
theorem unquote_quote (text : List Char) : unquote (quote safe text) = unquote text := by
  refine congrArg decode ?_
  induction text using tokens_induction with
  | empty => rfl
  | escape high low rest highHex lowHex ih =>
      rw [quote_escape highHex lowHex, tokens_escape highHex lowHex, tokens_escape highHex lowHex,
        List.flatMap_cons, List.flatMap_cons, ih]
  | plain c rest apart ih =>
      rw [quote_plain apart, tokens_plain apart, List.flatMap_cons, ← ih]
      split
      · rw [List.cons_append, List.nil_append,
          tokens_plain (apart.imp_right fun closed opens => closed (opens_of_quote opens))]
        rfl
      · exact tokens_percent (fun _ => lt_of_mem_encode) _

/-- Only one text without escapes is quoted as another. -/
theorem eq_of_quote {text quoted : List Char} (plain : (tokens text).all Token.isPlain)
    (plainQuoted : (tokens quoted).all Token.isPlain) (same : quote safe text = quoted) :
    text = quoted := by
  rw [← unquote_plain plain, ← unquote_quote , same, unquote_plain plainQuoted]

/-- Quoting keeps a safe character. -/
theorem quote_safe {c : Char} (kept : safe c) (other : c ≠ '%') (rest : List Char) :
    quote safe (c :: rest) = c :: quote safe rest := by
  rw [quote_plain (.inl other), if_pos kept]
  rfl

/-- Quoting keeps a safe prefix. -/
theorem quote_prefix {first : List Char} (kept : ∀ c ∈ first, safe c ∧ c ≠ '%')
    (rest : List Char) : quote safe (first ++ rest) = first ++ quote safe rest := by
  induction first with
  | nil => rfl
  | cons c first ih =>
      obtain ⟨own, others⟩ := List.forall_mem_cons.mp kept
      rw [List.cons_append, quote_safe own.1 own.2, ih others, List.cons_append]

/-- Quoting works on both sides of a character that is no digit. -/
theorem quote_append {c : Char} (other : hexValue c = none) (text rest : List Char) :
    quote safe (text ++ c :: rest) = quote safe text ++ quote safe (c :: rest) := by
  rw [quote, tokens_append other, List.flatMap_append]
  rfl

/-- A character that is neither a percent sign nor printed in an escape stems from the text. -/
theorem mem_of_mem_quote {c : Char} (other : c ≠ '%') (notHex : hexValue c = none)
    {text : List Char} (member : c ∈ quote safe text) : c ∈ text := by
  induction text using tokens_induction with
  | empty => cases member
  | escape high low rest highHex lowHex ih =>
      rw [quote_escape highHex lowHex] at member
      have different {digit : Char} (hex : (hexValue digit).isSome) : c ≠ digit := by
        rintro rfl
        rw [notHex] at hex
        cases hex
      simp only [List.mem_cons, other, different highHex, different lowHex, false_or] at member ⊢
      exact ih member
  | plain first rest apart ih =>
      rw [quote_plain apart, List.mem_append] at member
      rcases member with own | later
      · split at own
        · exact List.mem_cons.mpr (.inl (List.mem_singleton.mp own))
        · obtain ⟨b, byte, printed⟩ := List.mem_flatMap.mp own
          have small := lt_of_mem_encode byte
          have different {n : Nat} (digit : n < 16) : c ≠ hexDigit n := by
            rintro rfl
            rw [hexValue_hexDigit digit] at notHex
            cases notHex
          simp only [percent, List.mem_cons, other, different (show b / 16 < 16 by omega),
            different (show b % 16 < 16 by omega), List.not_mem_nil, or_self] at printed
      · exact List.mem_cons_of_mem _ (ih later)

end Quote

end EventLedger.Library.PercentEncoding
